import Mathlib.Data.List.Basic
import Mathlib.Data.List.Range
import CodexKeyboard.Device.SlotMoves

/-! `CodexSlotState` over whole runs of its operations: capture and playback exclude each other,
    every action fits its transition, captures open and close in turn, and a playback is reported
    finished only when all of it was accepted. -/

namespace CodexKeyboard.Device

open CodexSlotState

/-- `DeviceTransition::push`: a transition has room for two actions. -/
def DeviceTransition.push (transition : List DeviceAction) (action : DeviceAction) :
    List DeviceAction :=
  if 2 ≤ transition.length then transition else transition ++ [action]

/-- The playback `pending_finished` reports. -/
def CodexSlotState.pendingFinished (s : CodexSlotState) : Option SlotIdentity :=
  if s.playbackPhase = .finishedPendingAck then some s.playbackIdentity else none

inductive SlotCall where
  | seedCaptureCounter (seed : Nat)
  | handleInput (input : InputId) (phase : InputPhase) (connectionGeneration : Nat)
  | beginPlayback (begin : SlotBegin)
  | markPlaybackStarted (identity : SlotIdentity)
  | acceptPlaybackFrame (identity : SlotIdentity) (frameSequence : Nat)
  | markPlaybackTransferComplete (identity : SlotIdentity) (lastFrameSequence : Nat)
  | markPlaybackDrained (identity : SlotIdentity) (playedSamples : Nat)
  | acknowledgeFinished (identity : SlotIdentity)
  | abortPlayback (identity : SlotIdentity)
  | disconnect (connectionGeneration : Nat)
  deriving DecidableEq, Repr

/-- What a call returns; of a transition, the actions handed to `push`. -/
inductive SlotOutcome where
  | done
  | transition (pushed : List DeviceAction)
  | began (result : PlaybackBeginResult)
  | frame (result : PlaybackFrameResult)
  | flag (ok : Bool)
  deriving DecidableEq, Repr

def SlotOutcome.pushed : SlotOutcome → List DeviceAction
  | .transition pushed => pushed
  | _ => []

/-- The actions the transition holds in the end. -/
def SlotOutcome.emitted (outcome : SlotOutcome) : List DeviceAction :=
  outcome.pushed.foldl DeviceTransition.push []

def slotStep (s : CodexSlotState) : SlotCall → SlotOutcome × CodexSlotState
  | .seedCaptureCounter seed => (.done, s.seedCaptureCounter seed)
  | .handleInput input phase generation =>
    (.transition (s.handleInput input phase generation).2, (s.handleInput input phase generation).1)
  | .beginPlayback b => (.began (s.beginPlayback b).1, (s.beginPlayback b).2)
  | .markPlaybackStarted i => (.flag (s.markPlaybackStarted i).1, (s.markPlaybackStarted i).2)
  | .acceptPlaybackFrame i n =>
    (.frame (s.acceptPlaybackFrame i n).1, (s.acceptPlaybackFrame i n).2)
  | .markPlaybackTransferComplete i n =>
    (.flag (s.markPlaybackTransferComplete i n).1, (s.markPlaybackTransferComplete i n).2)
  | .markPlaybackDrained i n => (.flag (s.markPlaybackDrained i n).1, (s.markPlaybackDrained i n).2)
  | .acknowledgeFinished i => (.flag (s.acknowledgeFinished i).1, (s.acknowledgeFinished i).2)
  | .abortPlayback i => (.flag (s.abortPlayback i).1, (s.abortPlayback i).2)
  | .disconnect generation =>
    (.transition (s.disconnect generation).2, (s.disconnect generation).1)

/-- The calls made so far with what they returned, the latest last. -/
abbrev SlotHistory := List (SlotCall × SlotOutcome)

/-- The run of `calls` from `s`: what each returned, and the slots after all of them. -/
def slotRun : CodexSlotState → List SlotCall → SlotHistory × CodexSlotState
  | s, [] => ([], s)
  | s, call :: calls =>
    let rest := slotRun (slotStep s call).2 calls
    ((call, (slotStep s call).1) :: rest.1, rest.2)

def SlotHistory.emitted (history : SlotHistory) : List DeviceAction :=
  history.flatMap fun e => e.2.emitted

theorem slotRun_snoc (s : CodexSlotState) (calls : List SlotCall) (call : SlotCall) :
    slotRun s (calls ++ [call]) =
      ((slotRun s calls).1 ++ [(call, (slotStep (slotRun s calls).2 call).1)],
        (slotStep (slotRun s calls).2 call).2) := by
  induction calls generalizing s with
  | nil => rfl
  | cons c calls ih =>
    simp only [List.cons_append, slotRun]
    rw [ih]

/-! ### What a call can do -/

/-- The part of a playback a call brought, when it was accepted. -/
inductive Progress where
  | frame (frameSequence : Nat)
  | complete
  | drained (playedSamples : Nat)
  deriving DecidableEq, Repr

def progressOf : SlotCall × SlotOutcome → Option (SlotIdentity × Progress)
  | (.acceptPlaybackFrame i n, .frame .accepted) => some (i, .frame n)
  | (.markPlaybackTransferComplete i _, .flag true) => some (i, .complete)
  | (.markPlaybackDrained i n, .flag true) => some (i, .drained n)
  | _ => none

def begunBy : SlotCall × SlotOutcome → Option SlotBegin
  | (.beginPlayback b, .began .accepted) => some b
  | _ => none

namespace CodexSlotState

/-- The playback an accepted `begin_playback` opens. -/
def openPlayback (s : CodexSlotState) (b : SlotBegin) : CodexSlotState :=
  { s.clearPending with
    playbackIdentity := b.identity
    activePlayRequestGeneration := b.requestGeneration
    playbackTotalFrames := b.totalFrames
    playbackTotalSamples := b.totalSamples
    playbackNextFrame := 0
    playbackPhase := .buffering }

/-- Frames are being taken. -/
def receiving (s : CodexSlotState) : Prop :=
  s.playbackPhase = .buffering ∨ s.playbackPhase = .playing

end CodexSlotState

inductive SlotMove (s : CodexSlotState) : SlotCall → SlotOutcome → CodexSlotState → Prop
  | seeded (seed counter : Nat) :
      SlotMove s (.seedCaptureCounter seed) .done { s with captureCounter := counter }
  | input (input : InputId) (phase : InputPhase) (generation : Nat) {s' : CodexSlotState}
      {actions : List DeviceAction} (h : InputMove s s' actions) :
      SlotMove s (.handleInput input phase generation) (.transition actions) s'
  | disconnected (generation : Nat) {s' : CodexSlotState} {actions : List DeviceAction}
      (h : DisconnectMove s s' actions) :
      SlotMove s (.disconnect generation) (.transition actions) s'
  /-- A call that was refused, or is a repetition. -/
  | kept (call : SlotCall) (outcome : SlotOutcome) (pushed : outcome.pushed = [])
      (progress : progressOf (call, outcome) = none) (begun : begunBy (call, outcome) = none) :
      SlotMove s call outcome s
  | began (b : SlotBegin) (valid : validPlaybackIdentity b.identity = true)
      (free : s.captureActive = false) (idle : s.playbackPhase = .idle) :
      SlotMove s (.beginPlayback b) (.began .accepted) (s.openPlayback b)
  | started (phase : s.playbackPhase = .buffering) :
      SlotMove s (.markPlaybackStarted s.playbackIdentity) (.flag true)
        { s with playbackPhase := .playing }
  | frame (phase : s.receiving) :
      SlotMove s (.acceptPlaybackFrame s.playbackIdentity s.playbackNextFrame) (.frame .accepted)
        { s with playbackNextFrame := s.playbackNextFrame + 1 }
  | completed (last : Nat) (phase : s.receiving)
      (all : s.playbackNextFrame = s.playbackTotalFrames) :
      SlotMove s (.markPlaybackTransferComplete s.playbackIdentity last) (.flag true)
        { s with playbackPhase := .transferComplete }
  | drained (phase : s.playbackPhase = .transferComplete) :
      SlotMove s (.markPlaybackDrained s.playbackIdentity s.playbackTotalSamples) (.flag true)
        { s with playbackPhase := .finishedPendingAck }
  /-- The playback is acknowledged or given up. -/
  | cleared (call : SlotCall) (progress : progressOf (call, .flag true) = none)
      (begun : begunBy (call, .flag true) = none) :
      SlotMove s call (.flag true) s.clearPlayback

section Moves

variable (s : CodexSlotState)

theorem matches_identity {s : CodexSlotState} {i : SlotIdentity} (h : s.playbackMatches i = true) :
    s.playbackIdentity = i := by
  simp only [playbackMatches, Bool.and_eq_true, beq_iff_eq] at h
  exact h.2

theorem seedCaptureCounter_move (seed : Nat) :
    SlotMove s (.seedCaptureCounter seed) .done (s.seedCaptureCounter seed) := by
  unfold seedCaptureCounter
  split
  · exact .seeded seed seed
  · exact .kept _ _ rfl rfl rfl

theorem beginPlayback_move (b : SlotBegin) :
    SlotMove s (.beginPlayback b) (.began (s.beginPlayback b).1) (s.beginPlayback b).2 := by
  unfold beginPlayback
  split
  · exact .kept _ _ rfl rfl rfl
  next hargs =>
    split
    · exact .kept _ _ rfl rfl rfl
    next hfree =>
      split
      · split
        · exact .kept _ _ rfl rfl rfl
        · exact .kept _ _ rfl rfl rfl
      next hidle =>
        split
        · exact .kept _ _ rfl rfl rfl
        · simp only [Bool.or_eq_true, not_or, Bool.not_eq_true'] at hargs
          exact .began b (by simpa using hargs.1.1.1) (by simpa using hfree) (by simpa using hidle)

theorem markPlaybackStarted_move (i : SlotIdentity) :
    SlotMove s (.markPlaybackStarted i) (.flag (s.markPlaybackStarted i).1)
      (s.markPlaybackStarted i).2 := by
  unfold markPlaybackStarted
  split
  next h =>
    obtain rfl := matches_identity h.1
    exact .started h.2
  · exact .kept _ _ rfl rfl rfl

theorem acceptPlaybackFrame_move (i : SlotIdentity) (n : Nat) :
    SlotMove s (.acceptPlaybackFrame i n) (.frame (s.acceptPlaybackFrame i n).1)
      (s.acceptPlaybackFrame i n).2 := by
  unfold acceptPlaybackFrame
  split
  · exact .kept _ _ rfl rfl rfl
  · split
    · exact .kept _ _ rfl rfl rfl
    next hstale =>
      split
      · exact .kept _ _ rfl rfl rfl
      · split
        · exact .kept _ _ rfl rfl rfl
        next hold =>
          split
          · exact .kept _ _ rfl rfl rfl
          next hnew =>
            simp only [not_or, not_and_or, Bool.not_eq_true', Bool.not_eq_false, not_not] at hstale
            obtain rfl := matches_identity hstale.1
            obtain rfl : s.playbackNextFrame = n := by omega
            exact .frame hstale.2

theorem markPlaybackTransferComplete_move (i : SlotIdentity) (last : Nat) :
    SlotMove s (.markPlaybackTransferComplete i last) (.flag (s.markPlaybackTransferComplete i last).1)
      (s.markPlaybackTransferComplete i last).2 := by
  unfold markPlaybackTransferComplete
  split
  next h =>
    obtain ⟨hmatch, hphase, hall, -⟩ := h
    obtain rfl := matches_identity hmatch
    exact .completed last hphase hall
  · exact .kept _ _ rfl rfl rfl

theorem markPlaybackDrained_move (i : SlotIdentity) (played : Nat) :
    SlotMove s (.markPlaybackDrained i played) (.flag (s.markPlaybackDrained i played).1)
      (s.markPlaybackDrained i played).2 := by
  unfold markPlaybackDrained
  split
  next h =>
    obtain ⟨hmatch, hphase, rfl⟩ := h
    obtain rfl := matches_identity hmatch
    exact .drained hphase
  · exact .kept _ _ rfl rfl rfl

theorem acknowledgeFinished_move (i : SlotIdentity) :
    SlotMove s (.acknowledgeFinished i) (.flag (s.acknowledgeFinished i).1)
      (s.acknowledgeFinished i).2 := by
  unfold acknowledgeFinished
  split
  · exact .cleared _ rfl rfl
  · exact .kept _ _ rfl rfl rfl

theorem abortPlayback_move (i : SlotIdentity) :
    SlotMove s (.abortPlayback i) (.flag (s.abortPlayback i).1) (s.abortPlayback i).2 := by
  unfold abortPlayback
  split
  · exact .cleared _ rfl rfl
  · exact .kept _ _ rfl rfl rfl

/-- Every call makes one of the moves. -/
theorem slotStep_move (call : SlotCall) :
    SlotMove s call (slotStep s call).1 (slotStep s call).2 := by
  cases call with
  | seedCaptureCounter seed => exact seedCaptureCounter_move s seed
  | handleInput input phase generation =>
    exact .input input phase generation (handleInput_move input phase generation)
  | beginPlayback b => exact beginPlayback_move s b
  | markPlaybackStarted i => exact markPlaybackStarted_move s i
  | acceptPlaybackFrame i n => exact acceptPlaybackFrame_move s i n
  | markPlaybackTransferComplete i n => exact markPlaybackTransferComplete_move s i n
  | markPlaybackDrained i n => exact markPlaybackDrained_move s i n
  | acknowledgeFinished i => exact acknowledgeFinished_move s i
  | abortPlayback i => exact abortPlayback_move s i
  | disconnect generation => exact .disconnected generation (disconnect_move s generation)

end Moves

/-! ### Capture and playback exclude each other -/

namespace CodexSlotState

/-- A play request waits for its playback. -/
def playPending (s : CodexSlotState) : Prop :=
  s.pendingPlaySlot ≠ 0 ∨ s.pendingPlayRequestGeneration ≠ 0 ∨ s.pendingPlayConnectionGeneration ≠ 0

structure Inv (s : CodexSlotState) : Prop where
  exclusive : s.captureActive = true → s.playbackPhase = .idle
  pending : s.playPending → s.captureActive = false ∧ s.playbackPhase = .idle
  valid : s.playbackPhase ≠ .idle → validPlaybackIdentity s.playbackIdentity = true

theorem inv_init : Inv {} := by
  refine ⟨fun _ => rfl, ?_, fun h => absurd rfl h⟩
  rintro (h | h | h) <;> exact absurd rfl h

@[simp] theorem preemptPlayback_phase (s : CodexSlotState) :
    s.preemptPlayback.1.playbackPhase = .idle := by
  unfold preemptPlayback
  split
  · rfl
  next h => simpa using h

@[simp] theorem preemptPlayback_active (s : CodexSlotState) :
    s.preemptPlayback.1.captureActive = s.captureActive := by
  unfold preemptPlayback
  split <;> rfl

/-- What is idle on the playback side is safe, if nothing is pending during a capture. -/
theorem Inv.of_idle {s : CodexSlotState} (idle : s.playbackPhase = .idle)
    (pending : s.playPending → s.captureActive = false) : s.Inv := by
  refine ⟨fun _ => idle, fun h => ⟨pending h, idle⟩, ?_⟩
  intro h
  exact absurd idle h

theorem not_pending {s : CodexSlotState} (slot : s.pendingPlaySlot = 0)
    (generation : s.pendingPlayRequestGeneration = 0)
    (connection : s.pendingPlayConnectionGeneration = 0) : ¬ s.playPending := by
  rintro (h | h | h)
  · exact h slot
  · exact h generation
  · exact h connection

theorem Inv.preempt {s : CodexSlotState} (h : s.Inv) : s.preemptPlayback.1.Inv := by
  apply Inv.of_idle (preemptPlayback_phase s)
  rw [preemptPlayback_active]
  rcases preemptPlayback_cases s with hs | hs <;> rw [hs]
  · exact fun hpending => (h.pending hpending).1
  · exact fun hpending => (h.pending hpending).1

theorem Inv.settled {s : CodexSlotState} (h : s.Inv) (pending : Bool) :
    (settled pending s).Inv := by
  cases pending with
  | false => exact h
  | true => exact ⟨h.exclusive, fun hp => absurd hp (not_pending rfl rfl rfl), h.valid⟩

theorem Inv.clearCapture {s : CodexSlotState} (h : s.Inv) : s.clearCapture.Inv := by
  refine ⟨?_, fun hp => ⟨rfl, (h.pending hp).2⟩, h.valid⟩
  intro hactive
  exact absurd hactive (by simp [captureActive, CodexSlotState.clearCapture])

end CodexSlotState

variable {s s' : CodexSlotState} {actions : List DeviceAction}

theorem InputMove.inv (h : InputMove s s' actions) (hs : s.Inv) : s'.Inv := by
  cases h with
  | ignored => exact hs
  | busy slot => exact hs
  | refused slot => exact hs.preempt
  | started slot generation free first last =>
    refine Inv.of_idle ?_ fun hp => absurd hp (not_pending rfl rfl rfl)
    exact preemptPlayback_phase s
  | ended active => exact hs.clearCapture
  | requested slot generation free =>
    refine Inv.of_idle ?_ fun _ => ?_
    · exact preemptPlayback_phase s
    · exact (preemptPlayback_active s).trans free

theorem DisconnectMove.inv (h : DisconnectMove s s' actions) (hs : s.Inv) : s'.Inv := by
  cases h with
  | kept pending => exact hs.settled pending
  | preempted pending => exact (hs.settled pending).preempt
  | ended pending active => exact hs.clearCapture.settled pending
  | endedPreempted pending active => exact (hs.clearCapture.settled pending).preempt

theorem receiving_busy (h : s.receiving) : s.playbackPhase ≠ .idle := by
  rcases h with h | h <;> rw [h] <;> simp

/-- A playback that only changes its phase, or its next frame, stays safe. -/
theorem CodexSlotState.Inv.advance (h : s.Inv) (busy : s.playbackPhase ≠ .idle)
    (active : s'.captureActive = s.captureActive) (pending : s'.playPending → s.playPending)
    (identity : s'.playbackIdentity = s.playbackIdentity) : s'.Inv := by
  refine ⟨?_, fun hp => absurd (h.pending (pending hp)).2 busy, fun _ => identity ▸ h.valid busy⟩
  intro hactive
  exact absurd (h.exclusive (active ▸ hactive)) busy

theorem SlotMove.inv {call : SlotCall} {outcome : SlotOutcome} (h : SlotMove s call outcome s')
    (hs : s.Inv) : s'.Inv := by
  cases h with
  | seeded seed counter => exact ⟨hs.exclusive, hs.pending, hs.valid⟩
  | input input phase generation hmove => exact hmove.inv hs
  | disconnected generation hmove => exact hmove.inv hs
  | kept => exact hs
  | began b valid free idle =>
    refine ⟨?_, fun hp => absurd hp (not_pending rfl rfl rfl), fun _ => valid⟩
    intro hactive
    exact absurd (free.symm.trans hactive) (by simp)
  | started phase => exact hs.advance (by simp [phase]) rfl id rfl
  | frame phase => exact hs.advance (receiving_busy phase) rfl id rfl
  | completed last phase all => exact hs.advance (receiving_busy phase) rfl id rfl
  | drained phase => exact hs.advance (by simp [phase]) rfl id rfl
  | cleared => exact Inv.of_idle rfl fun hp => (hs.pending hp).1

/-! ### The actions of a call -/

theorem preempted_actions (s : CodexSlotState) :
    s.preemptPlayback.2 = [] ∨ s.preemptPlayback.2 = [.playbackPreempted s.playbackIdentity] := by
  rcases preemptPlayback_cases s with hs | hs <;> rw [hs]
  · exact Or.inl rfl
  · exact Or.inr rfl

/-- A call hands at most two actions to its transition. -/
theorem SlotMove.fits {call : SlotCall} {outcome : SlotOutcome} (h : SlotMove s call outcome s') :
    outcome.pushed.length ≤ 2 := by
  have hpreempted := preempted_actions s
  cases h with
  | input input phase generation hmove =>
    cases hmove <;> rcases hpreempted with h | h <;> simp [SlotOutcome.pushed, h]
  | disconnected generation hmove =>
    cases hmove <;> rcases hpreempted with h | h <;> simp [SlotOutcome.pushed, h]
  | kept call outcome pushed => simp [pushed]
  | _ => simp [SlotOutcome.pushed]

theorem push_room {actions pushed : List DeviceAction} (h : (actions ++ pushed).length ≤ 2) :
    pushed.foldl DeviceTransition.push actions = actions ++ pushed := by
  induction pushed generalizing actions with
  | nil => simp
  | cons a pushed ih =>
    have hroom : ¬ 2 ≤ actions.length := by
      simp only [List.length_append, List.length_cons] at h
      omega
    rw [List.foldl_cons, DeviceTransition.push, if_neg hroom, ih (by simpa using h)]
    simp

/-- No transition drops an action. -/
theorem SlotMove.emitted {call : SlotCall} {outcome : SlotOutcome}
    (h : SlotMove s call outcome s') : outcome.emitted = outcome.pushed :=
  push_room (by simpa using h.fits)

/-! ### Captures open and close in turn -/

/-- A capture as its actions name it. -/
structure Capture where
  slot : Nat
  captureGeneration : Nat
  connectionGeneration : Nat
  deriving DecidableEq, Repr

/-- The capture open after `action`; `none` when `action` is out of turn. -/
def pttNext (opened : Option Capture) : DeviceAction → Option (Option Capture)
  | .pttStarted slot capture connection =>
    if opened = none then some (some ⟨slot, capture, connection⟩) else none
  | .pttEnded slot capture connection =>
    if opened = some ⟨slot, capture, connection⟩ then some none else none
  | _ => some opened

def CodexSlotState.capture (s : CodexSlotState) : Option Capture :=
  if s.captureActive then
    some ⟨s.captureSlot, s.captureGeneration, s.captureConnectionGeneration⟩
  else none

theorem nextNonzero_pos (counter : Nat) : nextNonzero counter ≠ 0 := by
  unfold nextNonzero
  split <;> omega

@[simp] theorem capture_preempt (s : CodexSlotState) : s.preemptPlayback.1.capture = s.capture := by
  rcases preemptPlayback_cases s with hs | hs <;> rw [hs]
  rfl

@[simp] theorem capture_settled (pending : Bool) (s : CodexSlotState) :
    (settled pending s).capture = s.capture := by
  cases pending <;> rfl

theorem capture_free (h : s.captureActive = false) : s.capture = none := by
  simp [CodexSlotState.capture, h]

theorem capture_active (h : s.captureActive = true) :
    s.capture = some ⟨s.captureSlot, s.captureGeneration, s.captureConnectionGeneration⟩ := by
  simp [CodexSlotState.capture, h]

theorem capture_start (s : CodexSlotState) (slot connection : Nat) :
    (s.startCapture slot connection).capture =
      some ⟨slot, nextNonzero s.captureCounter, connection⟩ := by
  simp [CodexSlotState.capture, captureActive, startCapture, nextNonzero_pos]

@[simp] theorem ptt_preempted (s : CodexSlotState) (opened : Option Capture) :
    s.preemptPlayback.2.foldlM pttNext opened = some opened := by
  rcases preempted_actions s with hs | hs <;> rw [hs] <;> rfl

theorem InputMove.ptt (h : InputMove s s' actions) :
    actions.foldlM pttNext s.capture = some s'.capture := by
  cases h with
  | ignored => rfl
  | busy slot => rfl
  | refused slot => simp [List.foldlM_append, pttNext]
  | started slot generation free first last =>
    rw [List.foldlM_append, ptt_preempted, capture_start]
    simp [pttNext, capture_free free]
  | ended active =>
    rw [capture_active active]
    simp [pttNext, CodexSlotState.capture, captureActive, clearCapture]
  | requested slot generation free =>
    rw [List.foldlM_append, ptt_preempted]
    exact congrArg some (capture_preempt s).symm

theorem DisconnectMove.ptt (h : DisconnectMove s s' actions) :
    actions.foldlM pttNext s.capture = some s'.capture := by
  have hcleared : s.clearCapture.capture = none := capture_free rfl
  cases h with
  | kept pending => simp
  | preempted pending => simp
  | ended pending active => simp [pttNext, capture_active active, hcleared]
  | endedPreempted pending active => simp [pttNext, capture_active active, hcleared]

theorem SlotMove.ptt {call : SlotCall} {outcome : SlotOutcome} (h : SlotMove s call outcome s') :
    outcome.pushed.foldlM pttNext s.capture = some s'.capture := by
  cases h with
  | input input phase generation hmove => exact hmove.ptt
  | disconnected generation hmove => exact hmove.ptt
  | kept call outcome pushed => rw [pushed]; rfl
  | _ => rfl

/-! ### What a finished playback brought -/

/-- The frames of `total`, in order. -/
def framesTo (total : Nat) : List Progress := (List.range total).map .frame

/-- What the playback of `s` has brought so far. -/
def CodexSlotState.brought (s : CodexSlotState) : List Progress :=
  match s.playbackPhase with
  | .idle => []
  | .buffering | .playing => framesTo s.playbackNextFrame
  | .transferComplete => framesTo s.playbackTotalFrames ++ [.complete]
  | .finishedPendingAck =>
    framesTo s.playbackTotalFrames ++ [.complete, .drained s.playbackTotalSamples]

/-- Since the latest accepted `begin_playback`, which was `b`, the calls accepted were for its
    identity and brought `brought`, in this order. -/
def BroughtSince (history : SlotHistory) (b : SlotBegin) (brought : List Progress) : Prop :=
  ∃ earlier since, history = earlier ++ (.beginPlayback b, .began .accepted) :: since ∧
    since.filterMap begunBy = [] ∧
    since.filterMap progressOf = brought.map fun progress => (b.identity, progress)

theorem BroughtSince.snoc {history : SlotHistory} {b : SlotBegin} {brought more : List Progress}
    (h : BroughtSince history b brought) (e : SlotCall × SlotOutcome) (begun : begunBy e = none)
    (progress : [e].filterMap progressOf = more.map fun progress => (b.identity, progress)) :
    BroughtSince (history ++ [e]) b (brought ++ more) := by
  obtain ⟨earlier, since, rfl, hbegun, hbrought⟩ := h
  refine ⟨earlier, since ++ [e], by simp, by simp [hbegun, begun], ?_⟩
  rw [List.filterMap_append, hbrought, progress, List.map_append]

/-- The playback of `s` is the latest begun, and the history accounts for all of it. -/
structure Begun (s : CodexSlotState) (history : SlotHistory) (b : SlotBegin) : Prop where
  identity : b.identity = s.playbackIdentity
  frames : b.totalFrames = s.playbackTotalFrames
  samples : b.totalSamples = s.playbackTotalSamples
  brought : BroughtSince history b s.brought

def Accounted (s : CodexSlotState) (history : SlotHistory) : Prop :=
  s.playbackPhase ≠ .idle → ∃ b, Begun s history b

/-- A call that leaves the playback as it is, or idle. -/
def Untouched (s s' : CodexSlotState) : Prop :=
  s'.playbackPhase = .idle ∨ SamePlayback s s' ∧ s'.playbackTotalSamples = s.playbackTotalSamples

theorem Untouched.preempt (s : CodexSlotState) {t : CodexSlotState}
    (phase : t.playbackPhase = s.preemptPlayback.1.playbackPhase) : Untouched s t :=
  Or.inl (phase.trans (preemptPlayback_phase s))

theorem InputMove.untouched (h : InputMove s s' actions) : Untouched s s' := by
  cases h with
  | ignored => exact Or.inr ⟨⟨rfl, rfl, rfl, rfl⟩, rfl⟩
  | busy slot => exact Or.inr ⟨⟨rfl, rfl, rfl, rfl⟩, rfl⟩
  | refused slot => exact .preempt s rfl
  | started slot generation free first last => exact .preempt s rfl
  | ended active => exact Or.inr ⟨⟨rfl, rfl, rfl, rfl⟩, rfl⟩
  | requested slot generation free => exact .preempt s rfl

theorem settled_samples (pending : Bool) (s : CodexSlotState) :
    (settled pending s).playbackTotalSamples = s.playbackTotalSamples := by
  cases pending <;> rfl

theorem DisconnectMove.untouched (h : DisconnectMove s s' actions) : Untouched s s' := by
  cases h with
  | kept pending => exact Or.inr ⟨settled_same pending s, settled_samples pending s⟩
  | preempted pending => exact Or.inl (preemptPlayback_phase _)
  | ended pending active =>
    have hsame := settled_same pending s.clearCapture
    exact Or.inr ⟨⟨hsame.phase, hsame.identity, hsame.frames, hsame.next⟩, settled_samples pending _⟩
  | endedPreempted pending active => exact Or.inl (preemptPlayback_phase _)

theorem Untouched.accounted {history : SlotHistory} (h : Untouched s s')
    (hs : Accounted s history) (e : SlotCall × SlotOutcome) (begun : begunBy e = none)
    (progress : progressOf e = none) : Accounted s' (history ++ [e]) := by
  intro hphase
  rcases h with hidle | ⟨hsame, hsamples⟩
  · exact absurd hidle hphase
  obtain ⟨b, hb⟩ := hs (hsame.phase ▸ hphase)
  have hbrought : s'.brought = s.brought ++ [] := by
    simp only [CodexSlotState.brought, hsame.phase, hsame.frames, hsame.next, hsamples,
      List.append_nil]
  refine ⟨b, hb.identity.trans hsame.identity.symm, hb.frames.trans hsame.frames.symm,
    hb.samples.trans hsamples.symm, ?_⟩
  rw [hbrought]
  exact hb.brought.snoc e begun (by simp [progress])

/-- A call that adds `more` to the playback. -/
theorem Accounted.advance {history : SlotHistory} (hs : Accounted s history)
    (busy : s.playbackPhase ≠ .idle) {more : List Progress}
    (brought : s'.brought = s.brought ++ more) (identity : s'.playbackIdentity = s.playbackIdentity)
    (frames : s'.playbackTotalFrames = s.playbackTotalFrames)
    (samples : s'.playbackTotalSamples = s.playbackTotalSamples) {e : SlotCall × SlotOutcome}
    (begun : begunBy e = none)
    (progress : [e].filterMap progressOf = more.map fun p => (s.playbackIdentity, p)) :
    Accounted s' (history ++ [e]) := by
  intro _
  obtain ⟨b, hb⟩ := hs busy
  refine ⟨b, hb.identity.trans identity.symm, hb.frames.trans frames.symm,
    hb.samples.trans samples.symm, ?_⟩
  rw [brought]
  exact hb.brought.snoc e begun (by rw [progress, hb.identity])

theorem brought_receiving (h : s.receiving) : s.brought = framesTo s.playbackNextFrame := by
  rcases h with h | h <;> simp [CodexSlotState.brought, h]

theorem brought_next (h : s.receiving) :
    { s with playbackNextFrame := s.playbackNextFrame + 1 }.brought =
      s.brought ++ [.frame s.playbackNextFrame] := by
  rw [brought_receiving h]
  rcases h with h | h <;> simp [CodexSlotState.brought, h, framesTo, List.range_succ]

theorem SlotMove.accounted {call : SlotCall} {outcome : SlotOutcome} {history : SlotHistory}
    (h : SlotMove s call outcome s') (hs : Accounted s history) :
    Accounted s' (history ++ [(call, outcome)]) := by
  cases h with
  | seeded seed counter =>
    have hsame : Untouched s { s with captureCounter := counter } :=
      Or.inr ⟨⟨rfl, rfl, rfl, rfl⟩, rfl⟩
    exact hsame.accounted hs _ rfl rfl
  | input input phase generation hmove => exact hmove.untouched.accounted hs _ rfl rfl
  | disconnected generation hmove => exact hmove.untouched.accounted hs _ rfl rfl
  | kept call outcome pushed progress begun =>
    have hsame : Untouched s s := Or.inr ⟨⟨rfl, rfl, rfl, rfl⟩, rfl⟩
    exact hsame.accounted hs _ begun progress
  | began b valid free idle =>
    intro _
    exact ⟨b, rfl, rfl, rfl, history, [], rfl, rfl, rfl⟩
  | started phase =>
    have hbrought : { s with playbackPhase := .playing }.brought = s.brought ++ [] := by
      simp [CodexSlotState.brought, phase]
    exact hs.advance (by simp [phase]) hbrought rfl rfl rfl rfl rfl
  | frame phase =>
    exact hs.advance (receiving_busy phase) (brought_next phase) rfl rfl rfl rfl rfl
  | completed last phase all =>
    have hbrought : { s with playbackPhase := .transferComplete }.brought =
        s.brought ++ [.complete] := by
      rw [brought_receiving phase, all]
      rfl
    exact hs.advance (receiving_busy phase) hbrought rfl rfl rfl rfl rfl
  | drained phase =>
    have hbrought : { s with playbackPhase := .finishedPendingAck }.brought =
        s.brought ++ [.drained s.playbackTotalSamples] := by
      simp [CodexSlotState.brought, phase]
    exact hs.advance (by simp [phase]) hbrought rfl rfl rfl rfl rfl
  | cleared call progress begun =>
    intro hphase
    exact absurd rfl hphase

/-! ### Runs -/

/-- What a finished playback stands for: every frame once and in order, then the end of the
    transfer, then all of its samples played. -/
def Finished (history : SlotHistory) (i : SlotIdentity) : Prop :=
  ∃ b, b.identity = i ∧
    BroughtSince history b (framesTo b.totalFrames ++ [.complete, .drained b.totalSamples])

/-- The slots `s` after `history`. -/
structure SlotRunSafe (history : SlotHistory) (s : CodexSlotState) : Prop where
  state : s.Inv
  emitted : ∀ e ∈ history, e.2.emitted = e.2.pushed
  alternate : history.emitted.foldlM pttNext none = some s.capture
  finished : ∀ i, s.pendingFinished = some i → Finished history i

theorem Accounted.finished {history : SlotHistory} (h : Accounted s history) {i : SlotIdentity}
    (hi : s.pendingFinished = some i) : Finished history i := by
  simp only [CodexSlotState.pendingFinished, Option.ite_none_right_eq_some, Option.some.injEq] at hi
  obtain ⟨hphase, rfl⟩ := hi
  obtain ⟨b, hb⟩ := h (by simp [hphase])
  refine ⟨b, hb.identity, ?_⟩
  have hbrought := hb.brought
  simp only [CodexSlotState.brought, hphase] at hbrought
  rw [hb.frames, hb.samples]
  exact hbrought

/-- Every run of the slots accounts for the playback it is in. -/
theorem slotRun_accounted (calls : List SlotCall) :
    Accounted (slotRun {} calls).2 (slotRun {} calls).1 := by
  induction calls using List.reverseRecOn with
  | nil => exact fun h => absurd rfl h
  | append_singleton calls call ih =>
    rw [slotRun_snoc]
    exact (slotStep_move _ call).accounted ih

theorem slot_run_safe (calls : List SlotCall) :
    SlotRunSafe (slotRun {} calls).1 (slotRun {} calls).2 := by
  refine ⟨?_, ?_, ?_, fun i => (slotRun_accounted calls).finished⟩
  · induction calls using List.reverseRecOn with
    | nil => exact inv_init
    | append_singleton calls call ih =>
      rw [slotRun_snoc]
      exact (slotStep_move _ call).inv ih
  · induction calls using List.reverseRecOn with
    | nil => simp [slotRun]
    | append_singleton calls call ih =>
      rw [slotRun_snoc]
      intro e he
      rcases List.mem_append.1 he with he | he
      · exact ih e he
      · obtain rfl := List.mem_singleton.1 he
        exact (slotStep_move _ call).emitted
  · induction calls using List.reverseRecOn with
    | nil => rfl
    | append_singleton calls call ih =>
      have hmove := slotStep_move (slotRun {} calls).2 call
      rw [slotRun_snoc, SlotHistory.emitted, List.flatMap_append, List.foldlM_append]
      rw [SlotHistory.emitted] at ih
      rw [ih]
      simp [hmove.emitted, hmove.ptt]

end CodexKeyboard.Device
