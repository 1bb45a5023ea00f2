import CodexKeyboard.Keyboard.Held

/-! What a host was told, and which host (`keyboard_snapshot_delivery.cpp`, `transport_routing.cpp`).

    The delivery keeps the latest keyboard state beside the last one a transport accepted; a difference
    stays pending until it is accepted. The latch binds a chord to one endpoint lifetime: it chooses a
    transport for the first snapshot, suppresses the chord when that lifetime is lost, and chooses
    again only after everything was released. -/

namespace CodexKeyboard.Keyboard

inductive HidReportClass
  | keyboardPress
  | keyboardRelease
  | keyboardAllReleased
  | appCommand
  | appCommandStatefulPress
  | appCommandStatefulRelease
deriving DecidableEq

/-- The snapshot to offer to a transport next; generation 0 stands for none. -/
structure PendingKeyboardSnapshot where
  snapshot : HidKeyboardSnapshot := {}
  reportClass : HidReportClass := .keyboardPress
  generation : UInt32 := 0

def PendingKeyboardSnapshot.valid (p : PendingKeyboardSnapshot) : Bool := p.generation != 0

structure KeyboardSnapshotDelivery where
  desired : HidKeyboardSnapshot := {}
  accepted : HidKeyboardSnapshot := {}
  generationCounter : UInt32 := 0
  pendingGeneration : UInt32 := 0

def containsKeycode (s : HidKeyboardSnapshot) (keycode : UInt8) : Bool :=
  keycode != 0 && s.keycodes.toList.contains keycode

/-- Going from `accepted` to `desired` lets go of some usage. -/
def removesKeyboardUsage (accepted desired : HidKeyboardSnapshot) : Bool :=
  (accepted.modifier &&& ~~~desired.modifier) != 0 || (accepted.appleFn && !desired.appleFn) ||
    accepted.keycodes.toList.any fun k => k != 0 && !containsKeycode desired k

def classifyTransition (accepted desired : HidKeyboardSnapshot) : HidReportClass :=
  if desired.empty then .keyboardAllReleased
  else if removesKeyboardUsage accepted desired then .keyboardRelease
  else .keyboardPress

namespace KeyboardSnapshotDelivery

variable (d : KeyboardSnapshotDelivery)

def pending : Bool := d.pendingGeneration != 0

/-- The counter skips 0, which stands for nothing pending. -/
def advanceGeneration : KeyboardSnapshotDelivery :=
  let next :=
    if d.generationCounter = 0xFFFFFFFF then 1
    else if d.generationCounter + 1 = 0 then 1 else d.generationCounter + 1
  { d with generationCounter := next, pendingGeneration := next }

def setDesired (snapshot : HidKeyboardSnapshot) : KeyboardSnapshotDelivery :=
  if snapshot = d.desired then d
  else if snapshot = d.accepted then { d with desired := snapshot, pendingGeneration := 0 }
  else { d with desired := snapshot }.advanceGeneration

def pendingSnapshot : PendingKeyboardSnapshot :=
  if d.pending then ⟨d.desired, classifyTransition d.accepted d.desired, d.pendingGeneration⟩ else {}

def markAccepted (generation : UInt32) : Bool × KeyboardSnapshotDelivery :=
  if !d.pending || generation == 0 || generation != d.pendingGeneration then (false, d)
  else (true, { d with accepted := d.desired, pendingGeneration := 0 })

def reset (accepted : HidKeyboardSnapshot) : KeyboardSnapshotDelivery :=
  { d with desired := accepted, accepted := accepted, pendingGeneration := 0 }

/-- Something is pending exactly while the latest state is not the accepted one. -/
def Tracks : Prop := d.pendingGeneration ≠ 0 ↔ d.desired ≠ d.accepted

variable {d} {snapshot : HidKeyboardSnapshot}

theorem advanceGeneration_pending : d.advanceGeneration.pendingGeneration ≠ 0 := by
  simp only [advanceGeneration]
  split_ifs with h h'
  · decide
  · decide
  · exact h'

@[simp] theorem advanceGeneration_desired : d.advanceGeneration.desired = d.desired := rfl

@[simp] theorem advanceGeneration_accepted : d.advanceGeneration.accepted = d.accepted := rfl

@[simp] theorem setDesired_desired : (d.setDesired snapshot).desired = snapshot := by
  unfold setDesired
  split_ifs with h <;> simp_all

@[simp] theorem setDesired_accepted : (d.setDesired snapshot).accepted = d.accepted := by
  unfold setDesired
  split_ifs <;> rfl

theorem Tracks.setDesired (h : d.Tracks) : (d.setDesired snapshot).Tracks := by
  unfold KeyboardSnapshotDelivery.setDesired
  split_ifs with hsame haccepted
  · exact h
  · exact ⟨fun hne => absurd rfl hne, fun hne => absurd haccepted hne⟩
  · exact ⟨fun _ => haccepted, fun _ => advanceGeneration_pending⟩

theorem tracks_reset : (d.reset snapshot).Tracks :=
  ⟨fun hne => absurd rfl hne, fun hne => absurd rfl hne⟩

/-- The pending snapshot is the desired one, and accepting it succeeds. -/
theorem pendingSnapshot_valid (h : d.pendingSnapshot.valid = true) :
    d.pendingGeneration ≠ 0 ∧ d.pendingSnapshot.snapshot = d.desired ∧
      d.markAccepted d.pendingSnapshot.generation =
        (true, { d with accepted := d.desired, pendingGeneration := 0 }) := by
  unfold pendingSnapshot at h ⊢
  by_cases hp : d.pending = true
  · have hne : d.pendingGeneration ≠ 0 := by simpa [pending] using hp
    refine ⟨hne, by simp [hp], ?_⟩
    simp [markAccepted, hp, hne]
  · simp [hp, PendingKeyboardSnapshot.valid] at h

theorem pendingSnapshot_invalid (h : d.pendingSnapshot.valid = false) : d.pendingGeneration = 0 := by
  by_contra hne
  have hp : d.pending = true := by simpa [pending] using hne
  simp [pendingSnapshot, hp, PendingKeyboardSnapshot.valid, hne] at h

end KeyboardSnapshotDelivery

/-! ### The latch -/

inductive KeyboardTransportOwner
  | none
  | usb
  | ble
  | suppressed
deriving DecidableEq

structure KeyboardTransportLatch where
  owner : KeyboardTransportOwner := .none
  ownerEpoch : UInt32 := 0

/-- The endpoint lifetimes as sampled: presence flags and epochs. -/
structure TransportSample where
  usbMounted : Bool := false
  usbEpoch : UInt32 := 0
  bleConnected : Bool := false
  bleEpoch : UInt32 := 0

def TransportSample.usbAvailable (t : TransportSample) : Bool := t.usbMounted && t.usbEpoch != 0
def TransportSample.bleAvailable (t : TransportSample) : Bool := t.bleConnected && t.bleEpoch != 0

namespace KeyboardTransportLatch

variable (l : KeyboardTransportLatch)

/-- `true` exactly when a bound chord loses its endpoint lifetime and is suppressed. -/
def observeTransportState (t : TransportSample) : Bool × KeyboardTransportLatch :=
  let usbLifetimeLost := l.owner == .usb && (!t.usbAvailable || l.ownerEpoch != t.usbEpoch)
  let bleLifetimeLost := l.owner == .ble && (!t.bleAvailable || l.ownerEpoch != t.bleEpoch)
  if !usbLifetimeLost && !bleLifetimeLost then (false, l) else (true, ⟨.suppressed, 0⟩)

def selectForSnapshot (allReleased : Bool) (t : TransportSample) :
    KeyboardTransportOwner × KeyboardTransportLatch :=
  let l := (l.observeTransportState t).2
  if allReleased then
    (if (l.owner == .usb && t.usbAvailable) || (l.owner == .ble && t.bleAvailable) then l.owner
      else .none, l)
  else if l.owner = .none then
    let l : KeyboardTransportLatch :=
      if t.usbAvailable then ⟨.usb, t.usbEpoch⟩
      else if t.bleAvailable then ⟨.ble, t.bleEpoch⟩ else ⟨.suppressed, 0⟩
    (l.owner, l)
  else (l.owner, l)

def commitSnapshot (allReleased : Bool) : KeyboardTransportLatch := if allReleased then {} else l

end KeyboardTransportLatch

end CodexKeyboard.Keyboard
