import CodexKeyboard.Device.PlatformSelection
import CodexKeyboard.Device.SlotRuns

/-! The way of a key from the debouncer to the slots, as `app_main.cpp` composes it: the encoder button arms
    the platform selection, the selection may consume an event, and what is left reaches the slots with the
    generation of the route. -/

namespace CodexKeyboard.Device

def kEncoderConfigModeHoldMs : Nat := 3000
def kPlatformSelectionModeTimeoutMs : Nat := 10000

/-- The part of `AppContext` a push-to-talk key meets. -/
structure PttApp where
  encoderPressPending : Bool := false
  encoderPressConfigTriggered : Bool := false
  encoderPressDownMs : Nat := 0
  platformSelection : PlatformSelectionController := {}
  codexSlots : CodexSlotState := {}
  codexRouteConnected : Bool := false
  codexRouteGeneration : Nat := 0
  deriving DecidableEq, Repr

structure WifiServiceSnapshot where
  configured : Bool
  connected : Bool
  disconnectPending : Bool
  hostIpv4Valid : Bool
  generation : Nat
  deriving DecidableEq, Repr

def isCodexSlotInput : InputId → Bool
  | .encoderLeft | .encoderRight | .encoderPress => false
  | _ => true

namespace PttApp

/-- `handle_input_event` on the encoder's button. -/
def handleEncoderPress (app : PttApp) (phase : InputPhase) (nowMs : Nat) : PttApp :=
  match phase with
  | .pressed =>
    { app with encoderPressPending := true, encoderPressConfigTriggered := false, encoderPressDownMs := nowMs }
  | .released =>
    { app with encoderPressPending := false, encoderPressConfigTriggered := false, encoderPressDownMs := 0 }

def handleInputEvent (app : PttApp) (input : InputId) (phase : InputPhase) (nowMs : Nat) :
    PttApp × List DeviceAction :=
  match input with
  | .encoderLeft | .encoderRight => (app, [])
  | .encoderPress => (app.handleEncoderPress phase nowMs, [])
  | _ =>
    let (platformSelection, result) := app.platformSelection.handleEvent input phase nowMs
    if result.consumed then ({ app with platformSelection }, [])
    else if isCodexSlotInput input then
      let (codexSlots, actions) := app.codexSlots.handleInput input phase app.codexRouteGeneration
      ({ app with platformSelection, codexSlots }, actions)
    else ({ app with platformSelection }, [])

/-- `pinLow` is the level of the encoder's pin. -/
def checkEncoderPressConfigHold (app : PttApp) (pinLow : Bool) (nowMs : Nat) : PttApp :=
  if !app.encoderPressPending || app.encoderPressConfigTriggered then app
  else if !pinLow then app
  else if (nowMs + 2 ^ 32 - app.encoderPressDownMs % 2 ^ 32) % 2 ^ 32 < kEncoderConfigModeHoldMs then app
  else
    { app with
      encoderPressConfigTriggered := true
      platformSelection := app.platformSelection.arm nowMs kPlatformSelectionModeTimeoutMs }

def reconcileCodexRouteLifetime (app : PttApp) (snapshot : WifiServiceSnapshot) :
    PttApp × List DeviceAction :=
  let connected := snapshot.configured && snapshot.connected && !snapshot.disconnectPending &&
    snapshot.hostIpv4Valid && snapshot.generation != 0
  let generation := if connected then snapshot.generation else 0
  if connected = app.codexRouteConnected ∧ generation = app.codexRouteGeneration then (app, [])
  else if app.codexRouteGeneration ≠ 0 then
    let (codexSlots, actions) := app.codexSlots.disconnect app.codexRouteGeneration
    ({ app with codexSlots, codexRouteConnected := connected, codexRouteGeneration := generation }, actions)
  else ({ app with codexRouteConnected := connected, codexRouteGeneration := generation }, [])

end PttApp

/-! ### Runs -/

inductive PttOp where
  | input (input : InputId) (phase : InputPhase) (nowMs : Nat)
  | checkHold (pinLow : Bool) (nowMs : Nat)
  | update (nowMs : Nat)
  | reconcile (snapshot : WifiServiceSnapshot)
  | playback (call : SlotCall)
  deriving DecidableEq, Repr

/-- A call of the playback side. -/
def SlotCall.ofPlayback : SlotCall → Bool
  | .handleInput .. | .disconnect _ => false
  | _ => true

/-- The keyboard, with the keys that are down. -/
structure PttWorld where
  app : PttApp := {}
  down : List InputId := []
  deriving DecidableEq, Repr

namespace PttWorld

def keysAfter (down : List InputId) : PttOp → List InputId
  | .input input .pressed _ => input :: down
  | .input input .released _ => down.filter (· ≠ input)
  | _ => down

def appAfter (app : PttApp) : PttOp → PttApp × List DeviceAction
  | .input input phase nowMs => app.handleInputEvent input phase nowMs
  | .checkHold pinLow nowMs => (app.checkEncoderPressConfigHold pinLow nowMs, [])
  | .update nowMs => ({ app with platformSelection := (app.platformSelection.update nowMs).1 }, [])
  | .reconcile snapshot => app.reconcileCodexRouteLifetime snapshot
  | .playback call => ({ app with codexSlots := (slotStep app.codexSlots call).2 }, [])

def next (world : PttWorld) (op : PttOp) : PttWorld := ⟨(appAfter world.app op).1, keysAfter world.down op⟩

/-- What an operation sends to the audio and the playback. -/
def emitted (world : PttWorld) (op : PttOp) : List DeviceAction := (appAfter world.app op).2

end PttWorld

/-- A push-to-talk key is pressed when it is up and released when it is down. -/
def Alternates (world : PttWorld) : PttOp → Prop
  | .input input .pressed _ => (pttSlotForInput input).isSome → input ∉ world.down
  | .input input .released _ => (pttSlotForInput input).isSome → input ∈ world.down
  | .playback call => call.ofPlayback = true
  | _ => True

/-- The key that holds the capture is released while it could choose the platform. -/
def Swallows (world : PttWorld) : PttOp → Prop
  | .input input .released nowMs =>
    world.app.codexSlots.captureActive = true ∧ pttSlotForInput input = some world.app.codexSlots.captureSlot ∧
      platformKeyMask input ≠ 0 ∧ world.app.platformSelection.choosing nowMs = true
  | _ => False

/-- The worlds that runs reach whose steps all meet a condition. -/
inductive PttReached (meets : PttWorld → PttOp → Prop) : PttWorld → Prop
  | start : PttReached meets {}
  | step {world : PttWorld} (op : PttOp) : PttReached meets world → meets world op →
    PttReached meets (world.next op)

/-! ### What a call does to the capture -/

variable {s : CodexSlotState} {input other : InputId} {slot : Nat}

theorem pttSlotForInput_inj (h : pttSlotForInput input = some slot) (hother : pttSlotForInput other = some slot) :
    other = input := by
  have hsame := hother.trans h.symm
  revert h hsame
  clear hother
  cases input <;> cases other <;> simp [pttSlotForInput]

theorem captureActive_iff (s : CodexSlotState) : s.captureActive = true ↔ s.capture ≠ none := by
  rw [CodexSlotState.capture]
  split
  next h => simp [h]
  next h => simp [h]

theorem handleOffline_capture (s : CodexSlotState) (slot : Nat) (ptt : Bool) (phase : InputPhase) :
    (s.handleOffline slot ptt phase).1.capture = s.capture := by
  cases phase with
  | released => rfl
  | pressed =>
    cases ptt with
    | true => exact capture_preempt s
    | false => rfl

theorem handlePlay_capture (s : CodexSlotState) (slot generation : Nat) :
    (s.handlePlay slot generation).1.capture = s.capture := by
  rw [CodexSlotState.handlePlay]
  split
  · rfl
  split
  · rfl
  · exact capture_preempt s

/-- A key that is no push-to-talk key, or a keyboard without a route, leaves the capture. -/
theorem handleInput_capture {generation : Nat} (h : pttSlotForInput input = none ∨ generation = 0)
    (phase : InputPhase) : (s.handleInput input phase generation).1.capture = s.capture := by
  rw [CodexSlotState.handleInput]
  split
  next slot hslot =>
    rcases h with h | h
    · exact absurd (h.symm.trans hslot) (by simp)
    · rw [if_pos h]
      exact handleOffline_capture s slot true phase
  next slot _ hslot =>
    split
    · exact handleOffline_capture s slot false phase
    · cases phase with
      | released => rfl
      | pressed => exact handlePlay_capture s slot generation
  · rfl

theorem handleInput_ptt {generation : Nat} (hslot : pttSlotForInput input = some slot) (h : generation ≠ 0)
    (phase : InputPhase) : s.handleInput input phase generation = s.handlePtt slot phase generation := by
  rw [CodexSlotState.handleInput, hslot]
  exact if_neg h

/-- A press starts a capture of its own, or finds one. -/
theorem press_capture {generation : Nat} (hslot : pttSlotForInput input = some slot) (h : generation ≠ 0) :
    ((s.handleInput input .pressed generation).1.capture = s.capture ∧ s.capture ≠ none) ∨
      (s.capture = none ∧ (s.handleInput input .pressed generation).1.capture =
        some ⟨slot, nextNonzero s.captureCounter, generation⟩) := by
  rw [handleInput_ptt hslot h, CodexSlotState.handlePtt]
  dsimp only
  split
  next hactive => exact .inl ⟨rfl, (captureActive_iff s).1 hactive⟩
  next hfree =>
    refine .inr ⟨capture_free (Bool.eq_false_iff.2 hfree), ?_⟩
    have hstart := capture_start s.preemptPlayback.1 slot generation
    rw [preemptPlayback_captureCounter] at hstart
    rw [← hstart]
    simp [CodexSlotState.startCapture]

/-- A release ends the capture of its slot, and no other. -/
theorem release_capture {generation : Nat} (hslot : pttSlotForInput input = some slot) (h : generation ≠ 0) :
    if s.captureActive = true ∧ s.captureSlot = slot then
      (s.handleInput input .released generation).1.capture = none ∧
        (s.handleInput input .released generation).2 =
          [.pttEnded s.captureSlot s.captureGeneration s.captureConnectionGeneration]
    else (s.handleInput input .released generation).1.capture = s.capture := by
  rw [handleInput_ptt hslot h, CodexSlotState.handlePtt]
  split
  next hended =>
    rw [if_pos (by simpa using hended), hended.2]
    exact ⟨capture_free rfl, rfl⟩
  next hkept =>
    rw [if_neg (by simpa using hkept)]

theorem disconnect_capture {generation : Nat} (h : ∀ capture, s.capture = some capture →
    capture.connectionGeneration = generation) : (s.disconnect generation).1.capture = none := by
  have hcleared : s.clearCapture.capture = none := capture_free rfl
  simp only [CodexSlotState.disconnect]
  by_cases hactive : s.captureActive = true
  · have hended : s.captureActive = true ∧ (generation = 0 ∨ s.captureConnectionGeneration = generation) :=
      ⟨hactive, .inr (h _ (capture_active hactive))⟩
    simp only [if_pos hended]
    rw [settled_eq]
    split
    · rw [capture_preempt, capture_settled, hcleared]
    · rw [capture_settled, hcleared]
  · have hnone := capture_free (Bool.eq_false_iff.2 hactive)
    simp only [if_neg fun hended : s.captureActive = true ∧ _ => hactive hended.1]
    rw [settled_eq]
    split
    · rw [capture_preempt, capture_settled, hnone]
    · rw [capture_settled, hnone]

theorem playback_capture {call : SlotCall} (h : call.ofPlayback = true) :
    (slotStep s call).2.capture = s.capture := by
  have hmove := (slotStep_move s call).ptt
  have hpushed : (slotStep s call).1.pushed = [] := by
    cases call with
    | handleInput _ _ _ => exact absurd h (by simp [SlotCall.ofPlayback])
    | disconnect _ => exact absurd h (by simp [SlotCall.ofPlayback])
    | _ => rfl
  rw [hpushed] at hmove
  exact (Option.some.inj hmove).symm

/-! ### The way of a release -/

/-- What the keys, the selection, the slots and the route know of each other. -/
structure PttInv (world : PttWorld) : Prop where
  sound : world.app.platformSelection.Sound
  kept : ∀ input, world.app.platformSelection.keeps input = true → input ∈ world.down
  held : ∀ capture, world.app.codexSlots.capture = some capture →
    ∃ input ∈ world.down, pttSlotForInput input = some capture.slot ∧
      world.app.platformSelection.keeps input = false
  route : ∀ capture, world.app.codexSlots.capture = some capture →
    capture.connectionGeneration = world.app.codexRouteGeneration ∧ world.app.codexRouteGeneration ≠ 0

theorem pttInv_start : PttInv {} := by
  refine ⟨⟨fun _ => rfl, fun _ => rfl⟩, ?_, ?_, ?_⟩
  · rintro input hkeeps
    rw [PlatformSelectionController.keeps, KeyMask.has_or, KeyMask.has_zero] at hkeeps
    exact absurd hkeeps (by decide)
  · rintro capture hcapture
    exact absurd hcapture (by simp [CodexSlotState.capture, CodexSlotState.captureActive])
  · rintro capture hcapture
    exact absurd hcapture (by simp [CodexSlotState.capture, CodexSlotState.captureActive])

/-- A key that chooses the platform is a push-to-talk key. -/
theorem chooses_ptt (h : platformKeyMask input ≠ 0) : (pttSlotForInput input).isSome := by
  rcases platformKeyMask_cases input with ⟨rfl, -⟩ | ⟨rfl, -⟩ | hzero
  · rfl
  · rfl
  · exact absurd hzero h

theorem keeps_ptt {c : PlatformSelectionController} (h : c.keeps input = true) :
    platformKeyMask input ≠ 0 := by
  rintro hzero
  rw [PlatformSelectionController.keeps, hzero, KeyMask.has_none] at h
  exact absurd h (by decide)

/-- The app after a key of the slots. -/
theorem handleInputEvent_key (app : PttApp) (h : isCodexSlotInput input = true) (phase : InputPhase) (nowMs : Nat) :
    app.handleInputEvent input phase nowMs =
      if (app.platformSelection.handleEvent input phase nowMs).2.consumed then
        ({ app with platformSelection := (app.platformSelection.handleEvent input phase nowMs).1 }, [])
      else
        ({ app with
            platformSelection := (app.platformSelection.handleEvent input phase nowMs).1
            codexSlots := (app.codexSlots.handleInput input phase app.codexRouteGeneration).1 },
          (app.codexSlots.handleInput input phase app.codexRouteGeneration).2) := by
  cases input <;> first | exact absurd h (by decide) | rfl

variable {world : PttWorld}

/-- A key that is not one of the slots changes nothing that the invariant is about. -/
theorem PttInv.encoder (h : PttInv world) (hinput : isCodexSlotInput input = false) (phase : InputPhase)
    (nowMs : Nat) : PttInv (world.next (.input input phase nowMs)) := by
  have hother : ∀ key, (pttSlotForInput key).isSome → key ≠ input := by
    rintro key hkey rfl
    revert hkey hinput
    cases key <;> decide
  have hdown : ∀ key ∈ world.down, key ≠ input → key ∈ PttWorld.keysAfter world.down (.input input phase nowMs) := by
    rintro key hkey hne
    cases phase with
    | pressed => exact List.mem_cons_of_mem _ hkey
    | released => exact List.mem_filter.2 ⟨hkey, by simpa using hne⟩
  have happ : (world.next (.input input phase nowMs)).app.platformSelection = world.app.platformSelection ∧
      (world.next (.input input phase nowMs)).app.codexSlots = world.app.codexSlots ∧
      (world.next (.input input phase nowMs)).app.codexRouteGeneration = world.app.codexRouteGeneration := by
    revert hinput
    cases input <;> cases phase <;> first
      | exact fun hinput => absurd hinput (by decide)
      | exact fun _ => ⟨rfl, rfl, rfl⟩
  refine ⟨?_, ?_, ?_, ?_⟩
  · rw [happ.1]
    exact h.sound
  · rintro key hkey
    rw [happ.1] at hkey
    exact hdown key (h.kept key hkey) (hother key (chooses_ptt (keeps_ptt hkey)))
  · rintro capture hcapture
    rw [happ.2.1] at hcapture
    obtain ⟨key, hkey, hslot, hkeeps⟩ := h.held capture hcapture
    rw [happ.1]
    exact ⟨key, hdown key hkey (hother key (by rw [hslot]; rfl)), hslot, hkeeps⟩
  · rintro capture hcapture
    rw [happ.2.1] at hcapture
    rw [happ.2.2]
    exact h.route capture hcapture

/-- A key of the slots that the selection lets through or takes, with what the slots make of it. -/
theorem PttInv.of_key (h : PttInv world) (hkey : isCodexSlotInput input = true) {phase : InputPhase} {nowMs : Nat}
    (hkept : (world.app.platformSelection.handleEvent input phase nowMs).1.keeps input = true →
      phase = .pressed)
    (hcapture : ∀ capture,
      (world.next (.input input phase nowMs)).app.codexSlots.capture = some capture →
      (world.app.codexSlots.capture = some capture ∧ pttSlotForInput input ≠ some capture.slot) ∨
        (pttSlotForInput input = some capture.slot ∧ phase = .pressed ∧
          capture.connectionGeneration = world.app.codexRouteGeneration ∧ world.app.codexRouteGeneration ≠ 0 ∧
          (world.app.platformSelection.handleEvent input phase nowMs).1.keeps input = false)) :
    PttInv (world.next (.input input phase nowMs)) := by
  have hhandled := PlatformSelectionController.handled_event h.sound input phase nowMs
  have hdown : ∀ other ∈ world.down, other ≠ input →
      other ∈ PttWorld.keysAfter world.down (.input input phase nowMs) := by
    rintro other hother hne
    cases phase with
    | pressed => exact List.mem_cons_of_mem _ hother
    | released => exact List.mem_filter.2 ⟨hother, by simpa using hne⟩
  have happ := handleInputEvent_key world.app hkey phase nowMs
  have hselection : (world.next (.input input phase nowMs)).app.platformSelection =
      (world.app.platformSelection.handleEvent input phase nowMs).1 := by
    show (world.app.handleInputEvent input phase nowMs).1.platformSelection = _
    rw [happ]
    split <;> rfl
  have hroute : (world.next (.input input phase nowMs)).app.codexRouteGeneration =
      world.app.codexRouteGeneration := by
    show (world.app.handleInputEvent input phase nowMs).1.codexRouteGeneration = _
    rw [happ]
    split <;> rfl
  refine ⟨?_, ?_, ?_, ?_⟩
  · rw [hselection]
    exact hhandled.sound
  · rintro other hother
    rw [hselection] at hother
    by_cases hsame : other = input
    · rw [hsame] at hother ⊢
      rw [hkept hother]
      exact List.mem_cons_self
    · rw [hhandled.others other hsame] at hother
      exact hdown other (h.kept other hother) hsame
  · rintro capture hafter
    rw [hselection]
    rcases hcapture capture hafter with ⟨hbefore, hne⟩ | ⟨hslot, rfl, -, -, hkeeps⟩
    · obtain ⟨other, hother, hslot, hkeeps⟩ := h.held capture hbefore
      have hsame : other ≠ input := by
        rintro rfl
        exact hne hslot
      exact ⟨other, hdown other hother hsame, hslot, by rw [hhandled.others other hsame]; exact hkeeps⟩
    · exact ⟨input, List.mem_cons_self, hslot, hkeeps⟩
  · rintro capture hafter
    rw [hroute]
    rcases hcapture capture hafter with ⟨hbefore, -⟩ | ⟨-, -, hgeneration, hne, -⟩
    · exact h.route capture hbefore
    · exact ⟨hgeneration, hne⟩

theorem PttInv.press (h : PttInv world) (hkey : isCodexSlotInput input = true) {nowMs : Nat}
    (hup : (pttSlotForInput input).isSome → input ∉ world.down) :
    PttInv (world.next (.input input .pressed nowMs)) := by
  have hhandled := PlatformSelectionController.handled_event h.sound input .pressed nowMs
  refine h.of_key hkey (fun _ => rfl) ?_
  rintro capture hcapture
  have hnot : world.app.platformSelection.keeps input = false := by
    refine Bool.eq_false_iff.2 fun hkeeps => ?_
    exact hup (chooses_ptt (keeps_ptt hkeeps)) (h.kept input hkeeps)
  -- the slot of a capture that was there before belongs to a key that is down
  have hother : ∀ capture, world.app.codexSlots.capture = some capture →
      pttSlotForInput input ≠ some capture.slot := by
    rintro capture hbefore hslot
    obtain ⟨key, hdown, hheld, -⟩ := h.held capture hbefore
    have hsame := pttSlotForInput_inj hslot hheld
    rw [hsame] at hdown
    exact hup (by rw [hslot]; rfl) hdown
  replace hcapture : (world.app.handleInputEvent input .pressed nowMs).1.codexSlots.capture = some capture := hcapture
  rw [handleInputEvent_key world.app hkey] at hcapture
  split at hcapture
  · exact .inl ⟨hcapture, hother capture hcapture⟩
  next hpassed =>
    replace hcapture : (world.app.codexSlots.handleInput input .pressed
        world.app.codexRouteGeneration).1.capture = some capture := hcapture
    by_cases hroute : world.app.codexRouteGeneration = 0
    · rw [handleInput_capture (.inr hroute)] at hcapture
      exact .inl ⟨hcapture, hother capture hcapture⟩
    cases hslot : pttSlotForInput input with
    | none =>
      rw [handleInput_capture (.inl hslot)] at hcapture
      exact .inl ⟨hcapture, by simp⟩
    | some slot =>
      rcases press_capture (s := world.app.codexSlots) hslot hroute with ⟨hsame, -⟩ | ⟨-, hstarted⟩
      · rw [hsame] at hcapture
        exact .inl ⟨hcapture, by rw [← hslot]; exact hother capture hcapture⟩
      · rw [hstarted] at hcapture
        obtain rfl := Option.some.inj hcapture
        refine .inr ⟨rfl, rfl, rfl, hroute, ?_⟩
        rw [hhandled.pressed rfl hnot]
        exact Bool.eq_false_iff.2 hpassed

theorem ptt_is_slot (h : (pttSlotForInput input).isSome) : isCodexSlotInput input = true := by
  revert h
  cases input <;> decide

/-- The selection takes the release of the key that holds the capture only where it swallows it. -/
theorem PttInv.consumed_iff (h : PttInv world) {nowMs : Nat} {capture : Capture}
    (hcapture : world.app.codexSlots.capture = some capture) (hslot : pttSlotForInput input = some capture.slot) :
    (world.app.platformSelection.handleEvent input .released nowMs).2.consumed = true ↔
      Swallows world (.input input .released nowMs) := by
  obtain ⟨key, -, hheld, hkeeps⟩ := h.held capture hcapture
  have hsame := pttSlotForInput_inj hslot hheld
  rw [hsame] at hkeeps
  have hactive : world.app.codexSlots.captureActive = true := by
    rw [captureActive_iff, hcapture]
    simp
  have hcaptureSlot : world.app.codexSlots.captureSlot = capture.slot := by
    rw [capture_active hactive] at hcapture
    rw [← Option.some.inj hcapture]
  have hhandled := PlatformSelectionController.handled_event h.sound input .released nowMs
  rw [(hhandled.released rfl).2, hkeeps, Bool.false_or, Bool.and_eq_true, bne_iff_ne]
  constructor
  · rintro ⟨hmask, hchoosing⟩
    exact ⟨hactive, by rw [hcaptureSlot]; exact hslot, hmask, hchoosing⟩
  · rintro ⟨-, -, hmask, hchoosing⟩
    exact ⟨hmask, hchoosing⟩

/-- The release of the key that holds the capture ends it, unless it is swallowed. -/
theorem PttInv.release_ends (h : PttInv world) {nowMs : Nat} {capture : Capture}
    (hcapture : world.app.codexSlots.capture = some capture) (hslot : pttSlotForInput input = some capture.slot)
    (hspared : ¬ Swallows world (.input input .released nowMs)) :
    (world.next (.input input .released nowMs)).app.codexSlots.capture = none ∧
      world.emitted (.input input .released nowMs) =
        [.pttEnded capture.slot capture.captureGeneration capture.connectionGeneration] := by
  have hactive : world.app.codexSlots.captureActive = true := by
    rw [captureActive_iff, hcapture]
    simp
  have hended := release_capture (s := world.app.codexSlots) hslot (h.route capture hcapture).2
  rw [capture_active hactive] at hcapture
  obtain rfl := Option.some.inj hcapture
  rw [if_pos ⟨hactive, rfl⟩] at hended
  show (world.app.handleInputEvent input .released nowMs).1.codexSlots.capture = none ∧
    (world.app.handleInputEvent input .released nowMs).2 = _
  rw [handleInputEvent_key world.app (ptt_is_slot (by rw [hslot]; rfl)),
    if_neg (fun hconsumed => hspared ((h.consumed_iff (capture_active hactive) hslot).1 hconsumed))]
  exact hended

/-- A swallowed release leaves the capture. -/
theorem PttInv.swallowed (h : PttInv world) {nowMs : Nat} {capture : Capture}
    (hcapture : world.app.codexSlots.capture = some capture) (hslot : pttSlotForInput input = some capture.slot)
    (hswallows : Swallows world (.input input .released nowMs)) :
    (world.next (.input input .released nowMs)).app.codexSlots.capture = some capture := by
  show (world.app.handleInputEvent input .released nowMs).1.codexSlots.capture = _
  rw [handleInputEvent_key world.app (ptt_is_slot (by rw [hslot]; rfl)),
    if_pos ((h.consumed_iff hcapture hslot).2 hswallows)]
  exact hcapture

theorem PttInv.release (h : PttInv world) (hkey : isCodexSlotInput input = true) {nowMs : Nat}
    (hspared : ¬ Swallows world (.input input .released nowMs)) :
    PttInv (world.next (.input input .released nowMs)) := by
  have hhandled := PlatformSelectionController.handled_event h.sound input .released nowMs
  refine h.of_key hkey (fun hkeeps => absurd ((hhandled.released rfl).1.symm.trans hkeeps) (by decide)) ?_
  rintro capture hcapture
  have hafter : (world.app.handleInputEvent input .released nowMs).1.codexSlots.capture = some capture := hcapture
  rw [handleInputEvent_key world.app hkey] at hafter
  have hbefore : world.app.codexSlots.capture = some capture := by
    split at hafter
    · exact hafter
    · by_cases hroute : world.app.codexRouteGeneration = 0
      · rwa [handleInput_capture (.inr hroute)] at hafter
      cases hslot : pttSlotForInput input with
      | none => rwa [handleInput_capture (.inl hslot)] at hafter
      | some slot =>
        have hreleased := release_capture (s := world.app.codexSlots) hslot hroute
        split at hreleased
        · exact absurd (hreleased.1.symm.trans hafter) (by simp)
        · rwa [hreleased] at hafter
  refine .inl ⟨hbefore, fun hslot => ?_⟩
  have hended := (h.release_ends hbefore hslot hspared).1
  exact absurd (hended.symm.trans hcapture) (by simp)

/-! ### Runs whose steps swallow no release -/

/-- A step that presses and releases no key, keeps no further key and starts no capture. -/
theorem PttInv.of_app (h : PttInv world) {app : PttApp} (hsound : app.platformSelection.Sound)
    (hkeeps : ∀ input, app.platformSelection.keeps input = true →
      world.app.platformSelection.keeps input = true)
    (hcapture : ∀ capture, app.codexSlots.capture = some capture →
      world.app.codexSlots.capture = some capture ∧ app.codexRouteGeneration = world.app.codexRouteGeneration) :
    PttInv ⟨app, world.down⟩ := by
  refine ⟨hsound, fun input hinput => h.kept input (hkeeps input hinput), ?_, ?_⟩
  · rintro capture hafter
    obtain ⟨input, hdown, hslot, hnot⟩ := h.held capture (hcapture capture hafter).1
    refine ⟨input, hdown, hslot, Bool.eq_false_iff.2 fun hinput => ?_⟩
    exact absurd (hnot.symm.trans (hkeeps input hinput)) (by decide)
  · rintro capture hafter
    obtain ⟨hbefore, hroute⟩ := hcapture capture hafter
    rw [hroute]
    exact h.route capture hbefore

theorem PttInv.checkHold (h : PttInv world) (pinLow : Bool) (nowMs : Nat) :
    PttInv (world.next (.checkHold pinLow nowMs)) := by
  have hsame : ∀ capture, world.app.codexSlots.capture = some capture →
      world.app.codexSlots.capture = some capture ∧
        world.app.codexRouteGeneration = world.app.codexRouteGeneration := fun _ h => ⟨h, rfl⟩
  show PttInv ⟨world.app.checkEncoderPressConfigHold pinLow nowMs, world.down⟩
  rw [PttApp.checkEncoderPressConfigHold]
  split
  · exact h
  split
  · exact h
  split
  · exact h
  · have hnone : ∀ input, PlatformSelectionController.keeps
        (world.app.platformSelection.arm nowMs kPlatformSelectionModeTimeoutMs) input = false :=
      fun _ => PlatformSelectionController.keeps_arm _ _
    refine h.of_app (PlatformSelectionController.sound_arm (c := world.app.platformSelection) _ _) ?_ hsame
    rintro input hinput
    exact absurd ((hnone input).symm.trans hinput) (by decide)

theorem PttInv.update (h : PttInv world) (nowMs : Nat) : PttInv (world.next (.update nowMs)) := by
  refine h.of_app (PlatformSelectionController.sound_update h.sound nowMs) ?_ fun _ h => ⟨h, rfl⟩
  rintro input hinput
  exact (PlatformSelectionController.keeps_update nowMs input).symm.trans hinput

/-- A route that changes ends the capture of the old one before the new one is adopted. -/
theorem PttInv.reconcile (h : PttInv world) (snapshot : WifiServiceSnapshot) :
    PttInv (world.next (.reconcile snapshot)) := by
  show PttInv ⟨(world.app.reconcileCodexRouteLifetime snapshot).1, world.down⟩
  rw [PttApp.reconcileCodexRouteLifetime]
  generalize (snapshot.configured && snapshot.connected && !snapshot.disconnectPending &&
    snapshot.hostIpv4Valid && snapshot.generation != 0) = connected
  dsimp only
  generalize (if connected = true then snapshot.generation else 0) = generation
  split
  · exact h
  split
  · refine h.of_app h.sound (fun _ h => h) ?_
    rintro capture hcapture
    have hnone := disconnect_capture fun capture hbefore => (h.route capture hbefore).1
    exact absurd (hnone.symm.trans hcapture) (by simp)
  next hroute =>
    refine h.of_app h.sound (fun _ h => h) ?_
    rintro capture hcapture
    exact absurd (h.route capture hcapture).2 (by simpa using hroute)

theorem PttInv.playback (h : PttInv world) {call : SlotCall} (hcall : call.ofPlayback = true) :
    PttInv (world.next (.playback call)) := by
  refine h.of_app h.sound (fun _ h => h) ?_
  rintro capture hcapture
  exact ⟨(playback_capture hcall).symm.trans hcapture, rfl⟩

theorem PttInv.next (h : PttInv world) {op : PttOp} (halternates : Alternates world op)
    (hspared : ¬ Swallows world op) : PttInv (world.next op) := by
  cases op with
  | checkHold pinLow nowMs => exact h.checkHold pinLow nowMs
  | update nowMs => exact h.update nowMs
  | reconcile snapshot => exact h.reconcile snapshot
  | playback call => exact h.playback halternates
  | input input phase nowMs =>
    cases hkey : isCodexSlotInput input with
    | false => exact h.encoder hkey phase nowMs
    | true =>
      cases phase with
      | pressed => exact h.press hkey halternates
      | released => exact h.release hkey hspared

theorem PttReached.inv (h : PttReached (fun world op => Alternates world op ∧ ¬ Swallows world op) world) :
    PttInv world := by
  induction h with
  | start => exact pttInv_start
  | step op _ hmeets ih => exact ih.next hmeets.1 hmeets.2

/-- Nothing records while no push-to-talk key is down, and the release of the key that holds the capture ends
    it with its `PttEnded` exactly where it is not swallowed. -/
theorem ptt_release_ends (world : PttWorld)
    (h : PttReached (fun world op => Alternates world op ∧ ¬ Swallows world op) world) :
    ((∀ input ∈ world.down, pttSlotForInput input = none) → world.app.codexSlots.captureActive = false) ∧
      ∀ capture input nowMs, world.app.codexSlots.capture = some capture →
        pttSlotForInput input = some capture.slot →
        (((world.next (.input input .released nowMs)).app.codexSlots.captureActive = false ∧
            world.emitted (.input input .released nowMs) =
              [.pttEnded capture.slot capture.captureGeneration capture.connectionGeneration]) ↔
          ¬ Swallows world (.input input .released nowMs)) := by
  have hinv := h.inv
  refine ⟨?_, ?_⟩
  · rintro hup
    refine Bool.eq_false_iff.2 fun hactive => ?_
    obtain ⟨input, hdown, hslot, -⟩ := hinv.held _ (capture_active hactive)
    exact absurd ((hup input hdown).symm.trans hslot) (by simp)
  · rintro capture input nowMs hcapture hslot
    constructor
    · rintro ⟨hended, -⟩ hswallows
      have hkept := hinv.swallowed hcapture hslot hswallows
      exact absurd ((capture_free hended).symm.trans hkept) (by simp)
    · rintro hspared
      obtain ⟨hended, hsent⟩ := hinv.release_ends hcapture hslot hspared
      refine ⟨Bool.eq_false_iff.2 fun hactive => ?_, hsent⟩
      exact absurd (hended.symm.trans (capture_active hactive)) (by simp)

namespace PttSample

def route : WifiServiceSnapshot := ⟨true, true, false, true, 1⟩

/-- A route, and the first key pressed. -/
def recording : PttWorld := (PttWorld.next {} (.reconcile route)).next (.input .key1 .pressed 0)

theorem recording_reached (meets : PttWorld → PttOp → Prop) (hroute : meets {} (.reconcile route))
    (hpress : meets (PttWorld.next {} (.reconcile route)) (.input .key1 .pressed 0)) :
    PttReached meets recording := by
  have hconnected : PttReached meets (PttWorld.next {} (.reconcile route)) := .step _ .start hroute
  exact .step _ hconnected hpress

/-- The encoder held for three seconds, then the first key let go. -/
def armed : PttWorld := (recording.next (.input .encoderPress .pressed 0)).next (.checkHold true 3000)
def stuck : PttWorld := armed.next (.input .key1 .released 3001)

end PttSample

/-- A recording goes on with no key down: the platform selection took the release. -/
theorem ptt_release_swallowed : ¬ ∀ world, PttReached Alternates world →
    (∀ input ∈ world.down, pttSlotForInput input = none) → world.app.codexSlots.captureActive = false := by
  rintro hall
  have hrecording : PttReached Alternates PttSample.recording :=
    PttSample.recording_reached _ trivial (by rintro -; decide)
  have hencoder :=
    PttReached.step (.input .encoderPress .pressed 0) hrecording (by rintro h; exact absurd h (by decide))
  have harmed : PttReached Alternates PttSample.armed := .step (.checkHold true 3000) hencoder trivial
  have hstuck : PttReached Alternates PttSample.stuck :=
    .step (.input .key1 .released 3001) harmed (by rintro -; decide)
  exact absurd (hall _ hstuck (by decide)) (by decide)

theorem ptt_release_ends_recording :
    ((∀ input ∈ PttSample.recording.down, pttSlotForInput input = none) →
        PttSample.recording.app.codexSlots.captureActive = false) ∧
      ∀ capture input nowMs, PttSample.recording.app.codexSlots.capture = some capture →
        pttSlotForInput input = some capture.slot →
        (((PttSample.recording.next (.input input .released nowMs)).app.codexSlots.captureActive = false ∧
            PttSample.recording.emitted (.input input .released nowMs) =
              [.pttEnded capture.slot capture.captureGeneration capture.connectionGeneration]) ↔
          ¬ Swallows PttSample.recording (.input input .released nowMs)) :=
  ptt_release_ends PttSample.recording
    (PttSample.recording_reached _ ⟨trivial, id⟩ ⟨by rintro -; decide, id⟩)

end CodexKeyboard.Device
