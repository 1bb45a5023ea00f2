import CodexKeyboard.Schemes.Runs
import CodexKeyboard.Usb.Transport

/-! What a host sees of the keyboard in one lifetime of its endpoint: the held snapshots in the order they were
    queued, and between them the synthetic keys, each pressed over the last held snapshot and restored to it. -/

namespace CodexKeyboard.Usb

open Schemes Keyboard Config

/-- A snapshot that is held from now on, or a key that is tapped over it. -/
inductive KeyAction
  | held (snapshot : HidKeyboardSnapshot)
  | tapped (synthetic : HidKeyboardSnapshot)
deriving DecidableEq

def KeyAction.heldOnly : KeyAction → List HidKeyboardSnapshot
  | .held snapshot => [snapshot]
  | .tapped _ => []

def KeyAction.tappedOnly : KeyAction → List HidKeyboardSnapshot
  | .held _ => []
  | .tapped synthetic => [synthetic]

def heldOf (actions : List KeyAction) : List HidKeyboardSnapshot := actions.flatMap KeyAction.heldOnly
def tapsOf (actions : List KeyAction) : List HidKeyboardSnapshot := actions.flatMap KeyAction.tappedOnly

/-- What a keyboard types by some actions: what it holds in the end, and its snapshots. -/
inductive Typing : List KeyAction → HidKeyboardSnapshot → List HidKeyboardSnapshot → Prop
  | start : Typing [] {} []
  | held {actions : List KeyAction} {physical : HidKeyboardSnapshot} {reports : List HidKeyboardSnapshot}
    (snapshot : HidKeyboardSnapshot) :
    Typing actions physical reports → Typing (actions ++ [.held snapshot]) snapshot (reports ++ [snapshot])
  | tapped {actions : List KeyAction} {physical : HidKeyboardSnapshot} {reports : List HidKeyboardSnapshot}
    {synthetic pressed : HidKeyboardSnapshot} :
    Typing actions physical reports → composeUsbHidSyntheticTap physical synthetic = some (pressed, physical) →
    Typing (actions ++ [.tapped synthetic]) physical (reports ++ [pressed, physical])

/-! ### The events of an epoch -/

namespace UsbEvent

def epoch : UsbEvent → ℕ
  | taken epoch _ => epoch
  | sent epoch _ => epoch

def snapshots : UsbEvent → List HidKeyboardSnapshot
  | taken _ (.keyboardReport snapshot _) => [snapshot]
  | _ => []

def taps : UsbEvent → List HidKeyboardSnapshot
  | taken _ (.tapHotkey tap) => [tap]
  | taken _ (.typeText text) => text.map syntheticChar
  | _ => []

def keyboard : UsbEvent → List Bytes
  | sent _ (.keyboard data) => [data]
  | _ => []

end UsbEvent

/-- An event that is not about the keyboard. -/
structure UsbEvent.Silent (event : UsbEvent) : Prop where
  snapshots : event.snapshots = []
  taps : event.taps = []
  keyboard : event.keyboard = []

/-- The events of one epoch. -/
def during (epoch : ℕ) (events : List UsbEvent) : List UsbEvent := events.filter fun event => event.epoch = epoch

def takenSnapshots (epoch : ℕ) (events : List UsbEvent) : List HidKeyboardSnapshot :=
  (during epoch events).flatMap UsbEvent.snapshots

def takenTaps (epoch : ℕ) (events : List UsbEvent) : List HidKeyboardSnapshot :=
  (during epoch events).flatMap UsbEvent.taps

def sentKeyboard (epoch : ℕ) (events : List UsbEvent) : List Bytes :=
  (during epoch events).flatMap UsbEvent.keyboard

/-- The keyboard reports accepted in an epoch are the first of what is typed by the snapshots and taps taken in
    it, in their orders and without a gap; equal reports in a row may have become one. -/
def Delivered (epoch : ℕ) (events : List UsbEvent) : Prop :=
  ∃ actions physical reports unsent, Typing actions physical reports ∧ heldOf actions <+: takenSnapshots epoch events ∧
    tapsOf actions <+: takenTaps epoch events ∧
    runs (sentKeyboard epoch events ++ unsent) = runs (reports.map snapshotBytes)

/-! ### What the queues hold of it -/

/-- The taps that an operation has still to type. -/
def operationTaps : SyntheticKeyboardOperation → List HidKeyboardSnapshot
  | .tap tap _ => [tap]
  | .text text nextTextByte _ => (text.drop nextTextByte).map syntheticChar

def pendingTaps (transport : UsbHidTransport) : List HidKeyboardSnapshot :=
  transport.pendingSyntheticKeyboardOperations.contents.flatMap operationTaps

/-- A text is within its characters, all of which can be typed. -/
def Typable : SyntheticKeyboardOperation → Prop
  | .tap _ _ => True
  | .text text nextTextByte _ => nextTextByte < text.length ∧ ∀ value ∈ text, (hidReportForAsciiChar value).valid = true

structure ReportFormed (newest : ℕ) (report : QueuedHidReport) : Prop where
  reportId : report.reportId = kReportIdKeyboard
  len : report.len = kKeyboardSnapshotPayloadSize
  epoch : report.usbEpoch ≠ 0
  known : report.usbEpoch ≤ newest

structure OperationFormed (newest : ℕ) (operation : SyntheticKeyboardOperation) : Prop where
  typable : Typable operation
  epoch : operation.usbEpoch ≠ 0
  known : operation.usbEpoch ≤ newest

/-- What is queued was queued for an epoch up to the newest known one. -/
structure WellFormed (newest : ℕ) (transport : UsbHidTransport) : Prop where
  reports : ∀ report ∈ transport.pendingKeyboardReports.contents, ReportFormed newest report
  operations : ∀ operation ∈ transport.pendingSyntheticKeyboardOperations.contents, OperationFormed newest operation

/-- The queues hold what of an epoch's typing was not sent. -/
structure Current (epoch : ℕ) (transport : UsbHidTransport) (events : List UsbEvent) (actions : List KeyAction)
    (reports : List HidKeyboardSnapshot) : Prop where
  typing : Typing actions transport.queuedPhysicalKeyboard reports
  held : heldOf actions = takenSnapshots epoch events
  taps : tapsOf actions ++ pendingTaps transport = takenTaps epoch events
  sent : runs (sentKeyboard epoch events ++ transport.pendingKeyboardReports.contents.map (·.data)) =
    runs (reports.map snapshotBytes)
  queued : ∀ report ∈ transport.pendingKeyboardReports.contents, report.usbEpoch = epoch
  pending : ∀ operation ∈ transport.pendingSyntheticKeyboardOperations.contents, operation.usbEpoch = epoch

/-- `newest` is the newest epoch that the owner task can know of. A lifetime that began since then has a reset
    pending. -/
structure KeysKept (newest : ℕ) (transport : UsbHidTransport) (events : List UsbEvent) : Prop where
  formed : WellFormed newest transport
  order : newest ≤ transport.bus.lifetime.epoch
  born : transport.bus.live = true → 0 < transport.bus.lifetime.epoch
  past : ∀ event ∈ events, event.Silent ∨ event.epoch ≤ newest
  delivered : ∀ epoch, Delivered epoch events
  here : transport.bus.live = true → transport.bus.lifetime.epoch = newest →
    transport.bus.lifetimeResetPending = false ∧ ∃ actions reports, Current newest transport events actions reports
  later : transport.bus.live = true → transport.bus.lifetime.epoch ≠ newest → transport.bus.lifetimeResetPending = true

variable {transport after : UsbHidTransport} {events rest : List UsbEvent} {newest epoch : ℕ} {actions : List KeyAction}
  {reports : List HidKeyboardSnapshot} {event : UsbEvent}

theorem during_append (epoch : ℕ) (events rest : List UsbEvent) :
    during epoch (events ++ rest) = during epoch events ++ during epoch rest := List.filter_append events rest

theorem during_none (h : ∀ event ∈ rest, event.epoch ≠ epoch) : during epoch rest = [] := by
  refine List.filter_eq_nil_iff.2 fun event hevent => ?_
  rw [decide_eq_true_eq]
  exact h event hevent

theorem during_all (h : ∀ event ∈ rest, event.epoch = epoch) : during epoch rest = rest := by
  refine List.filter_eq_self.2 fun event hevent => ?_
  rw [decide_eq_true_eq]
  exact h event hevent

/-- What happens in another epoch does not matter. -/
theorem Delivered.append (h : Delivered epoch events) (hforeign : ∀ event ∈ rest, event.epoch ≠ epoch) :
    Delivered epoch (events ++ rest) := by
  have hsame : during epoch (events ++ rest) = during epoch events := by
    rw [during_append, during_none hforeign, List.append_nil]
  rw [Delivered, takenSnapshots, takenTaps, sentKeyboard, hsame]
  exact h

/-- Before an epoch is seen nothing was typed in it. -/
theorem Delivered.fresh (h : ∀ event ∈ events, event.epoch ≠ epoch) : Delivered epoch events := by
  refine ⟨[], {}, [], [], .start, List.nil_prefix, List.nil_prefix, ?_⟩
  rw [sentKeyboard, during_none h]
  rfl

theorem Current.delivered (h : Current epoch transport events actions reports) : Delivered epoch events :=
  ⟨actions, _, reports, _, h.typing, h.held ▸ List.prefix_rfl, ⟨_, h.taps⟩, h.sent⟩

/-- Nothing is seen of an epoch that no event of the keyboard is in. -/
theorem during_silent {β : Type} (view : UsbEvent → List β) (hview : ∀ event : UsbEvent, event.Silent → view event = [])
    (h : ∀ event ∈ events, event.Silent ∨ event.epoch ≠ epoch) : (during epoch events).flatMap view = [] := by
  refine List.flatMap_eq_nil_iff.2 fun event hevent => ?_
  obtain ⟨hin, hepoch⟩ := List.mem_filter.1 hevent
  rcases h event hin with hsilent | hforeign
  · exact hview event hsilent
  · exact absurd (of_decide_eq_true hepoch) hforeign

/-- A new lifetime begins with empty queues. -/
theorem Current.fresh (hkeyboard : transport.pendingKeyboardReports.contents = [])
    (hoperations : transport.pendingSyntheticKeyboardOperations.contents = [])
    (hphysical : transport.queuedPhysicalKeyboard = {}) (h : ∀ event ∈ events, event.Silent ∨ event.epoch ≠ epoch) :
    Current epoch transport events [] [] := by
  refine ⟨hphysical ▸ .start, ?_, ?_, ?_, ?_, ?_⟩
  · exact (during_silent UsbEvent.snapshots (fun _ hsilent => hsilent.snapshots) h).symm
  · rw [takenTaps, during_silent UsbEvent.taps (fun _ hsilent => hsilent.taps) h, pendingTaps, hoperations]
    rfl
  · rw [sentKeyboard, during_silent UsbEvent.keyboard (fun _ hsilent => hsilent.keyboard) h, hkeyboard]
    rfl
  · rw [hkeyboard]
    exact fun report hreport => absurd hreport List.not_mem_nil
  · rw [hoperations]
    exact fun operation hoperation => absurd hoperation List.not_mem_nil

/-! ### The endpoint changes -/

/-- The change of the endpoint brings back no lifetime that the queues know. -/
theorem KeysKept.change (h : KeysKept newest transport events) {change : UsbChange}
    (horderly : transport.bus.Orderly change) :
    KeysKept newest (transport.change change) events := by
  have hepoch := change_epoch horderly
  refine ⟨⟨h.formed.reports, h.formed.operations⟩, Nat.le_trans h.order hepoch, fun hlive => ?_, h.past, h.delivered,
    fun hlive hnewest => ?_, fun hlive hnewest => ?_⟩
  · rcases change_live horderly hlive with ⟨hsame, hbefore, -⟩ | ⟨hnew, -⟩
    · exact Nat.lt_of_lt_of_eq (h.born hbefore) hsame.symm
    · exact Nat.zero_lt_of_lt hnew
  · rcases change_live horderly hlive with ⟨hsame, hbefore, hreset⟩ | ⟨hnew, -⟩
    · obtain ⟨hpending, actions, reports, hcurrent⟩ := h.here hbefore (hsame.symm.trans hnewest)
      exact ⟨hreset.trans hpending, actions, reports, ⟨hcurrent.typing, hcurrent.held, hcurrent.taps, hcurrent.sent,
        hcurrent.queued, hcurrent.pending⟩⟩
    · exact absurd (Nat.lt_of_lt_of_eq hnew hnewest) (Nat.not_lt.2 h.order)
  · rcases change_live horderly hlive with ⟨hsame, hbefore, hreset⟩ | ⟨-, hreset⟩
    · exact hreset.trans (h.later hbefore (hsame ▸ hnewest))
    · exact hreset

/-- The owner task learns of the newest epoch when it applies what is pending. -/
theorem KeysKept.reset (h : KeysKept newest transport events) :
    KeysKept transport.bus.lifetime.epoch transport.applyPendingLifetimeReset events := by
  have hpast : ∀ event ∈ events, event.Silent ∨ event.epoch ≤ transport.bus.lifetime.epoch :=
    fun event hevent => (h.past event hevent).imp_right fun hepoch => Nat.le_trans hepoch h.order
  rw [UsbHidTransport.applyPendingLifetimeReset]
  split
  next hpending =>
    refine ⟨⟨fun report hreport => absurd hreport List.not_mem_nil,
      fun operation hoperation => absurd hoperation List.not_mem_nil⟩, Nat.le_refl _, h.born, hpast, h.delivered,
      fun hlive _ => ⟨rfl, [], [], ?_⟩, fun _ hnewest => absurd rfl hnewest⟩
    refine Current.fresh rfl rfl rfl fun event hevent => (h.past event hevent).imp_right fun hepoch hsame => ?_
    have hnewest : transport.bus.lifetime.epoch = newest := Nat.le_antisymm (hsame ▸ hepoch) h.order
    exact Bool.false_ne_true ((h.here hlive hnewest).1.symm.trans hpending)
  next hquiet =>
    have hsame (hlive : transport.bus.live = true) : transport.bus.lifetime.epoch = newest := by
      by_contra hnewest
      exact hquiet (h.later hlive hnewest)
    refine ⟨⟨fun report hreport => ?_, fun operation hoperation => ?_⟩, Nat.le_refl _, h.born, hpast, h.delivered,
      fun hlive _ => ?_, fun _ hnewest => absurd rfl hnewest⟩
    · obtain ⟨hid, hlen, hepoch, hknown⟩ := h.formed.reports report hreport
      exact ⟨hid, hlen, hepoch, Nat.le_trans hknown h.order⟩
    · obtain ⟨htypable, hepoch, hknown⟩ := h.formed.operations operation hoperation
      exact ⟨htypable, hepoch, Nat.le_trans hknown h.order⟩
    · rw [hsame hlive]
      exact h.here hlive (hsame hlive)

/-- Where no lifetime is in force nothing is lost by clearing the queues. -/
theorem KeysKept.clear (h : KeysKept newest transport events) (hdead : transport.bus.live = false) :
    KeysKept newest transport.clearPendingReportsOnUnmount events := by
  have hnot (hlive : transport.bus.live = true) : False := Bool.false_ne_true (hdead.symm.trans hlive)
  exact ⟨⟨fun report hreport => absurd hreport List.not_mem_nil,
    fun operation hoperation => absurd hoperation List.not_mem_nil⟩, h.order, fun hlive => (hnot hlive).elim, h.past,
    h.delivered, fun hlive => (hnot hlive).elim, fun hlive => (hnot hlive).elim⟩

/-! ### What a section leaves -/

/-- The endpoint is as it was, and the keyboard's queues hold what they held. -/
structure SameKeys (before after : UsbHidTransport) : Prop where
  bus : after.bus = before.bus
  keyboard : after.pendingKeyboardReports.contents = before.pendingKeyboardReports.contents
  operations : after.pendingSyntheticKeyboardOperations.contents = before.pendingSyntheticKeyboardOperations.contents
  physical : after.queuedPhysicalKeyboard = before.queuedPhysicalKeyboard

/-- What the endpoint lets through is of the newest epoch. -/
theorem KeysKept.locked (h : KeysKept newest transport events) (hlock : transport.bus.lockCurrentEpoch epoch = true)
    (hknown : epoch ≤ newest) : epoch = newest ∧ transport.bus.live = true ∧ transport.bus.lifetime.epoch = newest := by
  obtain ⟨-, hlive, hepoch⟩ := lockCurrentEpoch_iff.1 hlock
  have hnewest : epoch = newest := Nat.le_antisymm hknown (Nat.le_trans h.order (Nat.le_of_eq hepoch))
  exact ⟨hnewest, hlive, hepoch.trans hnewest⟩

/-- A section that is let through goes on with the typing of its epoch. -/
theorem KeysKept.goes_on (h : KeysKept newest transport events) (actions : List KeyAction)
    (reports : List HidKeyboardSnapshot) (hbus : after.bus = transport.bus)
    (hformed : WellFormed newest after) (hevents : ∀ event ∈ rest, event.epoch = newest)
    (hlive : transport.bus.live = true) (hepoch : transport.bus.lifetime.epoch = newest)
    (hcurrent : Current newest after (events ++ rest) actions reports) : KeysKept newest after (events ++ rest) := by
  refine ⟨hformed, hbus ▸ h.order, hbus ▸ h.born, fun event hevent => ?_, fun epoch => ?_,
    fun _ _ => ⟨?_, actions, reports, hcurrent⟩, hbus ▸ h.later⟩
  · rcases List.mem_append.1 hevent with hold | hnew
    · exact h.past event hold
    · exact .inr (Nat.le_of_eq (hevents event hnew))
  · by_cases hsame : epoch = newest
    · rw [hsame]
      exact hcurrent.delivered
    · exact (h.delivered epoch).append fun event hevent heq => hsame (heq.symm.trans (hevents event hevent))
  · rw [hbus]
    exact (h.here hlive hepoch).1

/-- A section that is let through without a word about the keyboard. -/
theorem KeysKept.silent (h : KeysKept newest transport events) (hsame : SameKeys transport after)
    (hevents : ∀ event ∈ rest, event.Silent) : KeysKept newest after (events ++ rest) := by
  have hnone {β : Type} (view : UsbEvent → List β) (hview : ∀ event ∈ rest, view event = []) (epoch : ℕ) :
      (during epoch (events ++ rest)).flatMap view = (during epoch events).flatMap view := by
    rw [during_append, List.flatMap_append]
    refine List.append_right_eq_self.2 (List.flatMap_eq_nil_iff.2 fun event hevent => ?_)
    exact hview event (List.mem_of_mem_filter hevent)
  have hsnapshots (epoch : ℕ) : takenSnapshots epoch (events ++ rest) = takenSnapshots epoch events :=
    hnone UsbEvent.snapshots (fun event hevent => (hevents event hevent).snapshots) epoch
  have htaps (epoch : ℕ) : takenTaps epoch (events ++ rest) = takenTaps epoch events :=
    hnone UsbEvent.taps (fun event hevent => (hevents event hevent).taps) epoch
  have hkeyboard (epoch : ℕ) : sentKeyboard epoch (events ++ rest) = sentKeyboard epoch events :=
    hnone UsbEvent.keyboard (fun event hevent => (hevents event hevent).keyboard) epoch
  obtain ⟨hbus, hqueue, hoperations, hphysical⟩ := hsame
  refine ⟨⟨hqueue ▸ h.formed.reports, hoperations ▸ h.formed.operations⟩, hbus ▸ h.order, hbus ▸ h.born,
    fun event hevent => ?_, fun epoch => ?_, fun hlive hepoch => ?_, hbus ▸ h.later⟩
  · rcases List.mem_append.1 hevent with hold | hnew
    · exact h.past event hold
    · exact .inl (hevents event hnew)
  · rw [Delivered, hsnapshots, htaps, hkeyboard]
    exact h.delivered epoch
  · rw [hbus] at hlive hepoch ⊢
    obtain ⟨hpending, actions, reports, hcurrent⟩ := h.here hlive hepoch
    refine ⟨hpending, actions, reports, ⟨hphysical ▸ hcurrent.typing, ?_, ?_, ?_, hqueue ▸ hcurrent.queued,
      hoperations ▸ hcurrent.pending⟩⟩
    · rw [hsnapshots, hcurrent.held]
    · rw [htaps, ← hcurrent.taps, pendingTaps, hoperations, pendingTaps]
    · rw [hkeyboard, hqueue, hcurrent.sent]

theorem SameKeys.refl (transport : UsbHidTransport) : SameKeys transport transport := ⟨rfl, rfl, rfl, rfl⟩

/-- A section that nothing is told about. -/
theorem KeysKept.unheard (h : KeysKept newest transport events) (hsame : SameKeys transport after) :
    KeysKept newest after events := by
  have hsilent : KeysKept newest after (events ++ []) :=
    h.silent hsame fun event hevent => absurd hevent List.not_mem_nil
  rwa [List.append_nil] at hsilent

/-- A section that is not let through may drop what it finds. -/
theorem KeysKept.stale (h : KeysKept newest transport events) (hbus : after.bus = transport.bus)
    (hformed : WellFormed newest after)
    (hstale : transport.bus.live = true → transport.bus.lifetime.epoch ≠ newest) : KeysKept newest after events :=
  ⟨hformed, hbus ▸ h.order, hbus ▸ h.born, h.past, h.delivered,
    fun hlive hepoch => absurd (hbus ▸ hepoch) (hstale (hbus ▸ hlive)), hbus ▸ h.later⟩

theorem during_snoc (h : event.epoch = epoch) : during epoch (events ++ [event]) = during epoch events ++ [event] := by
  have hone : ∀ other ∈ [event], other.epoch = epoch := fun other hother => (List.mem_singleton.1 hother) ▸ h
  rw [during_append, during_all hone]

theorem takenSnapshots_snoc (h : event.epoch = epoch) :
    takenSnapshots epoch (events ++ [event]) = takenSnapshots epoch events ++ event.snapshots := by
  rw [takenSnapshots, during_snoc h, List.flatMap_append, List.flatMap_singleton, takenSnapshots]

theorem takenTaps_snoc (h : event.epoch = epoch) :
    takenTaps epoch (events ++ [event]) = takenTaps epoch events ++ event.taps := by
  rw [takenTaps, during_snoc h, List.flatMap_append, List.flatMap_singleton, takenTaps]

theorem sentKeyboard_snoc (h : event.epoch = epoch) :
    sentKeyboard epoch (events ++ [event]) = sentKeyboard epoch events ++ event.keyboard := by
  rw [sentKeyboard, during_snoc h, List.flatMap_append, List.flatMap_singleton, sentKeyboard]

theorem heldOf_append (actions rest : List KeyAction) : heldOf (actions ++ rest) = heldOf actions ++ heldOf rest :=
  List.flatMap_append

theorem tapsOf_append (actions rest : List KeyAction) : tapsOf (actions ++ rest) = tapsOf actions ++ tapsOf rest :=
  List.flatMap_append

/-! ### A snapshot is queued -/

variable {queue queued : HidReportQueue} {snapshot pressed physical synthetic : HidKeyboardSnapshot} {nowMs : ℕ}
  {reportClass : HidReportClass} {result : HidQueuePushResult}

theorem length_snapshotBytes (snapshot : HidKeyboardSnapshot) :
    (snapshotBytes snapshot).length = kKeyboardSnapshotPayloadSize := by
  rw [snapshotBytes, List.length_cons, List.length_cons, Vector.length_toList]
  rfl

theorem keyboardPush_bytes (snapshot : HidKeyboardSnapshot) (nowMs epoch : ℕ) :
    (keyboardPush snapshot nowMs epoch).bytes = snapshotBytes snapshot :=
  List.take_of_length_le (Nat.le_of_eq (length_snapshotBytes snapshot))

/-- A keyboard report queued for an epoch. -/
structure IsSnapshot (epoch : ℕ) (report : QueuedHidReport) : Prop where
  reportId : report.reportId = kReportIdKeyboard
  len : report.len = kKeyboardSnapshotPayloadSize
  epoch : report.usbEpoch = epoch

/-- A snapshot that is accepted is queued behind the others, or is what the last of them is. -/
theorem pushed_snapshot {pushed : HidReportQueue × HidQueuePushResult}
    (hmove : HidReportQueue.Move queue (keyboardPush snapshot nowMs epoch) reportClass pushed)
    (haccepted : pushed.2.accepted = true) :
    (∀ sent : List Bytes, runs (sent ++ pushed.1.contents.map (·.data)) =
        runs (sent ++ queue.contents.map (·.data) ++ [snapshotBytes snapshot])) ∧
      ∀ report ∈ pushed.1.contents, report ∈ queue.contents ∨ IsSnapshot epoch report := by
  cases hmove with
  | queued after hcontents =>
    refine ⟨fun sent => ?_, fun report hreport => ?_⟩
    · rw [hcontents, List.map_append, List.map_singleton, HidReportQueue.reportOf, keyboardPush_bytes,
        List.append_assoc]
    · rw [hcontents] at hreport
      rcases List.mem_append.1 hreport with hold | hnew
      · exact .inl hold
      · rw [List.mem_singleton.1 hnew]
        exact .inr ⟨rfl, rfl, rfl⟩
  | coalesced tail htail hrepeats =>
    refine ⟨fun sent => ?_, fun report hreport => .inl hreport⟩
    obtain ⟨front, hfront⟩ := List.getLast?_eq_some_iff.1 htail
    have hdata : tail.data = snapshotBytes snapshot := hrepeats.data.trans (keyboardPush_bytes snapshot nowMs epoch)
    have hrepeat := Runs.runs_repeat (sent ++ front.map (·.data)) (snapshotBytes snapshot) []
    rw [hfront, List.map_append, List.map_singleton, hdata, ← List.append_assoc,
      List.append_assoc _ [snapshotBytes snapshot]]
    exact hrepeat.symm
  | refused result hstatus =>
    rw [HidQueuePushResult.accepted] at haccepted
    rcases hstatus with hfull | hinvalid
    · rw [hfull] at haccepted
      exact absurd haccepted (by decide)
    · rw [hinvalid] at haccepted
      exact absurd haccepted (by decide)

/-- A snapshot that is not accepted leaves the queue. -/
theorem push_refused {pushed : HidReportQueue × HidQueuePushResult}
    (hmove : HidReportQueue.Move queue (keyboardPush snapshot nowMs epoch) reportClass pushed)
    (hrefused : pushed.2.accepted = false) : pushed.1 = queue := by
  cases hmove with
  | queued after hcontents => exact (Bool.false_ne_true hrefused.symm).elim
  | coalesced tail htail hrepeats => exact (Bool.false_ne_true hrefused.symm).elim
  | refused result hstatus => rfl

/-- The typing goes on in the queue. -/
theorem runs_snoc {sent queued after : List Bytes} {reports : List HidKeyboardSnapshot} {snapshot : HidKeyboardSnapshot}
    (h : runs (sent ++ queued) = runs (reports.map snapshotBytes))
    (hafter : ∀ sent : List Bytes, runs (sent ++ after) = runs (sent ++ queued ++ [snapshotBytes snapshot])) :
    runs (sent ++ after) = runs ((reports ++ [snapshot]).map snapshotBytes) := by
  rw [hafter, List.map_append, List.map_singleton]
  exact Runs.runs_append_congr h _

theorem KeysKept.queues (h : KeysKept newest transport events) (hlock : transport.bus.lockCurrentEpoch epoch = true)
    (hknown : epoch ≤ newest) (htaken : (transport.queueKeyboardReport snapshot reportClass nowMs epoch).2 = true) :
    KeysKept newest (transport.queueKeyboardReport snapshot reportClass nowMs epoch).1
      (events ++ [.taken epoch (.keyboardReport snapshot reportClass)]) := by
  obtain ⟨rfl, hlive, hepoch⟩ := h.locked hlock hknown
  obtain ⟨-, actions, reports, hcurrent⟩ := h.here hlive hepoch
  have hzero := (lockCurrentEpoch_iff.1 hlock).1
  have hevent : (UsbEvent.taken epoch (.keyboardReport snapshot reportClass)).epoch = epoch := rfl
  rw [UsbHidTransport.queueKeyboardReport] at htaken ⊢
  split at htaken
  · exact absurd htaken Bool.false_ne_true
  next hclass =>
    rw [if_neg hclass]
    dsimp only at htaken ⊢
    split at htaken
    next haccepted =>
      rw [if_pos haccepted]
      obtain ⟨hruns, hmember⟩ := pushed_snapshot (HidReportQueue.pushClassified_move _ _ _) haccepted
      have hreports : ∀ report ∈ (transport.pendingKeyboardReports.pushClassified (keyboardPush snapshot nowMs epoch)
          reportClass).1.contents, ReportFormed epoch report ∧ report.usbEpoch = epoch := by
        intro report hreport
        rcases hmember report hreport with hold | hnew
        · exact ⟨h.formed.reports report hold, hcurrent.queued report hold⟩
        · exact ⟨⟨hnew.reportId, hnew.len, hnew.epoch ▸ hzero, Nat.le_of_eq hnew.epoch⟩, hnew.epoch⟩
      refine h.goes_on (actions ++ [.held snapshot]) (reports ++ [snapshot]) rfl
        ⟨fun report hreport => (hreports report hreport).1, h.formed.operations⟩
        (fun event hevent => (List.mem_singleton.1 hevent) ▸ rfl) hlive hepoch
        ⟨.held snapshot hcurrent.typing, ?_, ?_, ?_,
          fun report hreport => (hreports report hreport).2, hcurrent.pending⟩
      · rw [heldOf_append, hcurrent.held, takenSnapshots_snoc hevent]
        rfl
      · rw [tapsOf_append, takenTaps_snoc hevent, ← hcurrent.taps]
        simp only [tapsOf, List.flatMap_singleton, KeyAction.tappedOnly, UsbEvent.taps, List.append_nil]
        rfl
      · rw [sentKeyboard_snoc hevent]
        simp only [UsbEvent.keyboard, List.append_nil]
        exact runs_snoc hcurrent.sent hruns
    · exact absurd htaken Bool.false_ne_true

theorem snapshot_refused (h : (transport.queueKeyboardReport snapshot reportClass nowMs epoch).2 = false) :
    SameKeys transport (transport.queueKeyboardReport snapshot reportClass nowMs epoch).1 := by
  rw [UsbHidTransport.queueKeyboardReport] at h ⊢
  split at h
  next hclass =>
    rw [if_pos hclass]
    exact .refl transport
  next hclass =>
    rw [if_neg hclass]
    dsimp only at h ⊢
    split at h
    · exact (Bool.false_ne_true h.symm).elim
    next hrefused =>
      rw [if_neg hrefused]
      refine ⟨rfl, ?_, rfl, rfl⟩
      exact congrArg HidReportQueue.contents
        (push_refused (HidReportQueue.pushClassified_move _ _ _) (Bool.eq_false_iff.2 hrefused))

/-! ### A synthetic operation is queued and typed -/

variable {operation : SyntheticKeyboardOperation} {operations : List SyntheticKeyboardOperation}

theorem KeysKept.operates (h : KeysKept newest transport events) (hlock : transport.bus.lockCurrentEpoch epoch = true)
    (hknown : epoch ≤ newest) (hevent : event.epoch = epoch) (hepoch : operation.usbEpoch = epoch)
    (htypable : Typable operation) (htaps : event.taps = operationTaps operation) (hsnapshots : event.snapshots = [])
    (hkeyboard : event.keyboard = []) (htaken : (transport.pushSyntheticOperation operation).2 = true) :
    KeysKept newest (transport.pushSyntheticOperation operation).1 (events ++ [event]) := by
  obtain ⟨rfl, hlive, hnow⟩ := h.locked hlock hknown
  obtain ⟨-, actions, reports, hcurrent⟩ := h.here hlive hnow
  have hzero := (lockCurrentEpoch_iff.1 hlock).1
  rw [UsbHidTransport.pushSyntheticOperation] at htaken ⊢
  split at htaken
  next hroom =>
    rw [dif_pos hroom]
    have hcontents := Ring.contents_pushBack (a := operation) hroom
    have hmember : ∀ other ∈ (transport.pendingSyntheticKeyboardOperations.pushBack operation hroom).contents,
        OperationFormed epoch other ∧ other.usbEpoch = epoch := by
      intro other hother
      rw [hcontents] at hother
      rcases List.mem_append.1 hother with hold | hnew
      · exact ⟨h.formed.operations other hold, hcurrent.pending other hold⟩
      · rw [List.mem_singleton.1 hnew]
        exact ⟨⟨htypable, hepoch ▸ hzero, Nat.le_of_eq hepoch⟩, hepoch⟩
    refine h.goes_on actions reports rfl ⟨h.formed.reports, fun other hother => (hmember other hother).1⟩
      (fun other hother => (List.mem_singleton.1 hother) ▸ hevent) hlive hnow
      ⟨hcurrent.typing, ?_, ?_, ?_, hcurrent.queued, fun other hother => (hmember other hother).2⟩
    · rw [takenSnapshots_snoc hevent, hsnapshots, List.append_nil, hcurrent.held]
    · rw [takenTaps_snoc hevent, htaps, ← hcurrent.taps, pendingTaps, pendingTaps, hcontents, List.flatMap_append,
        List.flatMap_singleton, List.append_assoc]
    · rw [sentKeyboard_snoc hevent, hkeyboard, List.append_nil]
      exact hcurrent.sent
  · exact absurd htaken Bool.false_ne_true

theorem operation_refused (h : (transport.pushSyntheticOperation operation).2 = false) :
    SameKeys transport (transport.pushSyntheticOperation operation).1 := by
  rw [UsbHidTransport.pushSyntheticOperation] at h ⊢
  split at h
  · exact (Bool.false_ne_true h.symm).elim
  next hfull =>
    rw [dif_neg hfull]
    exact .refl transport

theorem popSyntheticOperation_contents
    (h : transport.pendingSyntheticKeyboardOperations.contents = operation :: operations) :
    transport.popSyntheticOperation.pendingSyntheticKeyboardOperations.contents = operations := by
  have hsize : transport.pendingSyntheticKeyboardOperations.size ≠ 0 := by
    rw [← Ring.length_contents, h]
    exact Nat.succ_ne_zero _
  rw [UsbHidTransport.popSyntheticOperation, if_neg hsize]
  exact (List.cons.inj ((Ring.contents_eq_cons hsize (.tap {} 0)).symm.trans h)).2

theorem popSyntheticOperation_keeps (transport : UsbHidTransport) :
    transport.popSyntheticOperation.bus = transport.bus ∧
    transport.popSyntheticOperation.pendingKeyboardReports = transport.pendingKeyboardReports ∧
    transport.popSyntheticOperation.queuedPhysicalKeyboard = transport.queuedPhysicalKeyboard := by
  rw [UsbHidTransport.popSyntheticOperation]
  split
  · exact ⟨rfl, rfl, rfl⟩
  · exact ⟨rfl, rfl, rfl⟩

/-- The taps of what is left of an operation. -/
def restTaps (operation : SyntheticKeyboardOperation) : List HidKeyboardSnapshot :=
  match UsbHidTransport.typedOn operation with
  | none => []
  | some rest => operationTaps rest

/-- An operation that can be typed has a next tap, and goes on behind it. -/
theorem typable_next (h : Typable operation) :
    ∃ synthetic, UsbHidTransport.nextSynthetic operation = some synthetic ∧
      operationTaps operation = synthetic :: restTaps operation ∧
      ∀ rest, UsbHidTransport.typedOn operation = some rest → Typable rest ∧ rest.usbEpoch = operation.usbEpoch := by
  cases operation with
  | tap tap usbEpoch => exact ⟨tap, rfl, rfl, fun rest hrest => by cases hrest⟩
  | text text nextTextByte usbEpoch =>
    obtain ⟨hinside, hvalid⟩ := h
    have hvalue : text[nextTextByte]? = some text[nextTextByte] := List.getElem?_eq_getElem hinside
    have hdrop := List.drop_eq_getElem_cons hinside
    refine ⟨syntheticChar text[nextTextByte], ?_, ?_, fun rest hrest => ?_⟩
    · rw [UsbHidTransport.nextSynthetic, hvalue]
      exact if_pos (hvalid _ (List.getElem_mem hinside))
    · rw [operationTaps, hdrop, List.map_cons, restTaps, UsbHidTransport.typedOn]
      split
      next hlast =>
        split at hlast
        · cases hlast
        next hend => rw [List.drop_eq_nil_of_le (Nat.not_lt.1 hend), List.map_nil]
      next rest hrest =>
        split at hrest
        · cases hrest
          rfl
        · cases hrest
    · rw [UsbHidTransport.typedOn] at hrest
      split at hrest
      next hmore =>
        cases hrest
        exact ⟨⟨hmore, hvalid⟩, rfl⟩
      · cases hrest

/-- The head of the operations is dropped where the endpoint has gone on to another lifetime. -/
theorem KeysKept.dropOperation (h : KeysKept newest transport events)
    (hcontents : transport.pendingSyntheticKeyboardOperations.contents = operation :: operations)
    (hstale : transport.bus.live = true → transport.bus.lifetime.epoch ≠ newest) :
    KeysKept newest transport.popSyntheticOperation events := by
  obtain ⟨hbus, hkeyboard, -⟩ := popSyntheticOperation_keeps transport
  refine h.stale hbus ⟨hkeyboard ▸ h.formed.reports, fun other hother => ?_⟩ hstale
  rw [popSyntheticOperation_contents hcontents] at hother
  exact h.formed.operations other (hcontents ▸ List.mem_cons_of_mem _ hother)

/-- A pair that is queued behind an empty queue. -/
theorem pushSyntheticPair_queued (hempty : transport.pendingKeyboardReports.contents = [])
    (h : (transport.pushSyntheticPair pressed physical nowMs epoch).2 = true) :
    ∃ queue,
      (transport.pushSyntheticPair pressed physical nowMs epoch).1 =
        { transport with pendingKeyboardReports := queue } ∧
      (∀ sent : List Bytes, runs (sent ++ queue.contents.map (·.data)) =
        runs (sent ++ [snapshotBytes pressed, snapshotBytes physical])) ∧
      ∀ report ∈ queue.contents, IsSnapshot epoch report := by
  rw [UsbHidTransport.pushSyntheticPair] at h ⊢
  generalize (if physical.empty = true then HidReportClass.keyboardAllReleased else .keyboardRelease) =
    restoreClass at h ⊢
  split at h
  next haccepted =>
    obtain ⟨hpress, hrestore⟩ := Bool.and_eq_true_iff.1 haccepted
    obtain ⟨hpressRuns, hpressMember⟩ := pushed_snapshot (HidReportQueue.pushClassified_move _ _ _) hpress
    obtain ⟨hrestoreRuns, hrestoreMember⟩ := pushed_snapshot (HidReportQueue.pushClassified_move _ _ _) hrestore
    rw [if_pos haccepted]
    refine ⟨_, rfl, fun sent => ?_, fun report hreport => ?_⟩
    · rw [hrestoreRuns, Runs.runs_append_congr (hpressRuns sent), hempty]
      simp only [List.map_nil, List.append_nil, List.append_assoc, List.singleton_append]
    · rcases hrestoreMember report hreport with hold | hnew
      · rcases hpressMember report hold with hnone | hpressed
        · rw [hempty] at hnone
          exact absurd hnone List.not_mem_nil
        · exact hpressed
      · exact hnew
  · exact (Bool.false_ne_true h).elim

theorem pushSyntheticPair_refused (hempty : transport.pendingKeyboardReports.contents = [])
    (h : (transport.pushSyntheticPair pressed physical nowMs epoch).2 = false) :
    SameKeys transport (transport.pushSyntheticPair pressed physical nowMs epoch).1 := by
  rw [UsbHidTransport.pushSyntheticPair] at h ⊢
  generalize (if physical.empty = true then HidReportClass.keyboardAllReleased else .keyboardRelease) =
    restoreClass at h ⊢
  split at h
  · exact (Bool.false_ne_true h.symm).elim
  next hrefused =>
    rw [if_neg hrefused]
    exact ⟨rfl, hempty.symm, rfl, rfl⟩

/-- The pair of a tap is queued, and what is left of its operation stays at the head. -/
theorem KeysKept.types (h : KeysKept newest transport events) (hlive : transport.bus.live = true)
    (hnow : transport.bus.lifetime.epoch = newest) (hempty : transport.pendingKeyboardReports.contents = [])
    (hcontents : transport.pendingSyntheticKeyboardOperations.contents = operation :: operations)
    (hnext : UsbHidTransport.nextSynthetic operation = some synthetic)
    (hcompose : composeUsbHidSyntheticTap transport.queuedPhysicalKeyboard synthetic =
      some (pressed, transport.queuedPhysicalKeyboard))
    (hbus : after.bus = transport.bus) (hphysical : after.queuedPhysicalKeyboard = transport.queuedPhysicalKeyboard)
    (hruns : ∀ sent : List Bytes, runs (sent ++ after.pendingKeyboardReports.contents.map (·.data)) =
      runs (sent ++ [snapshotBytes pressed, snapshotBytes transport.queuedPhysicalKeyboard]))
    (hqueued : ∀ report ∈ after.pendingKeyboardReports.contents, IsSnapshot newest report)
    (hrest : after.pendingSyntheticKeyboardOperations.contents =
      (UsbHidTransport.typedOn operation).toList ++ operations) :
    KeysKept newest after events := by
  obtain ⟨-, actions, reports, hcurrent⟩ := h.here hlive hnow
  obtain ⟨htypable, hzero, hknown⟩ := h.formed.operations operation (hcontents ▸ List.mem_cons_self)
  have hepoch : operation.usbEpoch = newest := hcurrent.pending operation (hcontents ▸ List.mem_cons_self)
  obtain ⟨tap, htap, htaps, hgoesOn⟩ := typable_next htypable
  cases hnext.symm.trans htap
  have hmember : ∀ other ∈ after.pendingSyntheticKeyboardOperations.contents,
      OperationFormed newest other ∧ other.usbEpoch = newest := by
    intro other hother
    rw [hrest] at hother
    rcases List.mem_append.1 hother with hfirst | hlater
    · obtain ⟨htypableRest, hepochRest⟩ := hgoesOn other (Option.mem_toList.1 hfirst)
      exact ⟨⟨htypableRest, hepochRest ▸ hzero, hepochRest ▸ hknown⟩, hepochRest.trans hepoch⟩
    · have hother := hcontents ▸ List.mem_cons_of_mem operation hlater
      exact ⟨h.formed.operations other hother, hcurrent.pending other hother⟩
  have hpendingTaps : pendingTaps transport = synthetic :: pendingTaps after := by
    rw [pendingTaps, hcontents, List.flatMap_cons, htaps, pendingTaps, hrest, List.flatMap_append, restTaps]
    cases UsbHidTransport.typedOn operation with
    | none => rfl
    | some rest => simp only [Option.toList_some, List.flatMap_singleton, List.cons_append]
  have hformed : WellFormed newest after := by
    refine ⟨fun report hreport => ?_, fun other hother => (hmember other hother).1⟩
    obtain ⟨hid, hlen, hreportEpoch⟩ := hqueued report hreport
    exact ⟨hid, hlen, hreportEpoch ▸ hepoch ▸ hzero, Nat.le_of_eq hreportEpoch⟩
  rw [← List.append_nil events]
  refine h.goes_on (actions ++ [.tapped synthetic]) (reports ++ [pressed, transport.queuedPhysicalKeyboard])
    hbus hformed
    (fun event hevent => absurd hevent List.not_mem_nil) hlive hnow
    ⟨?_, ?_, ?_, ?_, fun report hreport => (hqueued report hreport).epoch, fun other hother => (hmember other hother).2⟩
  · rw [hphysical]
    exact .tapped hcurrent.typing hcompose
  · rw [heldOf_append, hcurrent.held, List.append_nil]
    exact List.append_nil _
  · rw [tapsOf_append, List.append_nil, ← hcurrent.taps, hpendingTaps, List.append_assoc]
    rfl
  · rw [List.append_nil, hruns, List.map_append]
    refine Runs.runs_append_congr ?_ _
    have hsent := hcurrent.sent
    rwa [hempty, List.map_nil, List.append_nil] at hsent

end CodexKeyboard.Usb
