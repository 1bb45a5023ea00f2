import Mathlib.Tactic

/-! `CodexSlotState`: the keyboard's four slots. At most one push-to-talk capture or one playback is
    under way; the playback side counts the frames a transfer has brought. -/

namespace CodexKeyboard.Device

inductive InputId where
  | key1 | key2 | key3 | key4 | key5 | key6 | key7 | key8
  | encoderLeft | encoderRight | encoderPress
  deriving DecidableEq, Repr

inductive InputPhase where
  | pressed | released
  deriving DecidableEq, Repr

/-- The identity of a playback as the slots know it; the zero value stands for none. -/
structure SlotIdentity where
  slot : Nat := 0
  summaryGeneration : Nat := 0
  lease : Nat := 0
  connectionGeneration : Nat := 0
  deriving DecidableEq, Repr

def validPlaybackIdentity (identity : SlotIdentity) : Bool :=
  decide (1 ≤ identity.slot) && decide (identity.slot ≤ 4) && identity.summaryGeneration != 0 &&
  identity.lease != 0 && identity.connectionGeneration != 0

inductive DeviceAction where
  | pttStarted (slot captureGeneration connectionGeneration : Nat)
  | pttEnded (slot captureGeneration connectionGeneration : Nat)
  | playRequested (slot requestGeneration connectionGeneration : Nat)
  | playbackPreempted (playback : SlotIdentity)
  | rejectedBusy (slot : Nat)
  deriving DecidableEq, Repr

inductive PlaybackBeginResult where
  | accepted | duplicate | busy | invalid
  deriving DecidableEq, Repr

inductive PlaybackFrameResult where
  | accepted | duplicate | outOfOrder | stale | invalid
  deriving DecidableEq, Repr

inductive PlaybackPhase where
  | idle | buffering | playing | transferComplete | finishedPendingAck
  deriving DecidableEq, Repr

/-- `easy_codex::PlaybackBegin`. -/
structure SlotBegin where
  identity : SlotIdentity
  requestGeneration : Nat
  totalFrames : Nat
  totalSamples : Nat
  deriving DecidableEq, Repr

structure CodexSlotState where
  captureCounter : Nat := 0
  requestCounter : Nat := 0
  pendingPlaySlot : Nat := 0
  pendingPlayRequestGeneration : Nat := 0
  pendingPlayConnectionGeneration : Nat := 0
  activePlayRequestGeneration : Nat := 0
  captureSlot : Nat := 0
  captureGeneration : Nat := 0
  captureConnectionGeneration : Nat := 0
  playbackPhase : PlaybackPhase := .idle
  playbackIdentity : SlotIdentity := {}
  playbackTotalFrames : Nat := 0
  playbackNextFrame : Nat := 0
  playbackTotalSamples : Nat := 0
  deriving DecidableEq, Repr

def pttSlotForInput : InputId → Option Nat
  | .key1 => some 1
  | .key2 => some 2
  | .key3 => some 3
  | .key4 => some 4
  | _ => none

def playSlotForInput : InputId → Option Nat
  | .key5 => some 1
  | .key6 => some 2
  | .key7 => some 3
  | .key8 => some 4
  | _ => none

/-- `next_nonzero` on a 32-bit counter. -/
def nextNonzero (counter : Nat) : Nat := if counter = 2 ^ 32 - 1 then 1 else counter + 1

namespace CodexSlotState

def captureActive (s : CodexSlotState) : Bool := s.captureGeneration != 0

def seedCaptureCounter (s : CodexSlotState) (seed : Nat) : CodexSlotState :=
  if !s.captureActive && s.captureCounter == 0 then { s with captureCounter := seed } else s

def playbackMatches (s : CodexSlotState) (identity : SlotIdentity) : Bool :=
  s.playbackPhase != .idle && validPlaybackIdentity identity && s.playbackIdentity == identity

def clearPlayback (s : CodexSlotState) : CodexSlotState :=
  { s with
    playbackPhase := .idle
    playbackIdentity := {}
    playbackTotalFrames := 0
    playbackNextFrame := 0
    playbackTotalSamples := 0
    activePlayRequestGeneration := 0 }

def clearPending (s : CodexSlotState) : CodexSlotState :=
  { s with
    pendingPlaySlot := 0
    pendingPlayRequestGeneration := 0
    pendingPlayConnectionGeneration := 0 }

def clearCapture (s : CodexSlotState) : CodexSlotState :=
  { s with
    captureSlot := 0
    captureGeneration := 0
    captureConnectionGeneration := 0 }

/-- `preempt_playback`, where there is one. -/
def preemptPlayback (s : CodexSlotState) : CodexSlotState × List DeviceAction :=
  if s.playbackPhase ≠ .idle then (s.clearPlayback, [.playbackPreempted s.playbackIdentity])
  else (s, [])

/-! ### Keys -/

/-- `handle_input` on a push-to-talk key of a connected keyboard. -/
def handlePtt (s : CodexSlotState) (slot : Nat) (phase : InputPhase) (connectionGeneration : Nat) :
    CodexSlotState × List DeviceAction :=
  match phase with
  | .pressed =>
    if s.captureActive then
      (s, if s.captureSlot ≠ slot then [.rejectedBusy slot] else [])
    else
      let (s, preempted) := s.preemptPlayback
      let generation := nextNonzero s.captureCounter
      ({ s.clearPending with
          captureCounter := generation
          captureSlot := slot
          captureGeneration := generation
          captureConnectionGeneration := connectionGeneration },
        preempted ++ [.pttStarted slot generation connectionGeneration])
  | .released =>
    if s.captureActive && s.captureSlot == slot then
      (s.clearCapture, [.pttEnded slot s.captureGeneration s.captureConnectionGeneration])
    else (s, [])

/-- `handle_input` on a play key of a connected keyboard. -/
def handlePlay (s : CodexSlotState) (slot : Nat) (connectionGeneration : Nat) :
    CodexSlotState × List DeviceAction :=
  if s.captureActive then (s, [.rejectedBusy slot])
  else if s.playbackPhase ≠ .idle ∧ s.playbackIdentity.slot = slot then (s, [])
  else
    let (s, preempted) := s.preemptPlayback
    let generation := nextNonzero s.requestCounter
    ({ s with
        requestCounter := generation
        pendingPlaySlot := slot
        pendingPlayRequestGeneration := generation
        pendingPlayConnectionGeneration := connectionGeneration },
      preempted ++ [.playRequested slot generation connectionGeneration])

/-- A key of a slot while there is no connection. -/
def handleOffline (s : CodexSlotState) (slot : Nat) (ptt : Bool) (phase : InputPhase) :
    CodexSlotState × List DeviceAction :=
  match phase with
  | .released => (s, [])
  | .pressed =>
    let (s, preempted) := if ptt then s.preemptPlayback else (s, [])
    (s, preempted ++ [.rejectedBusy slot])

def handleInput (s : CodexSlotState) (input : InputId) (phase : InputPhase)
    (connectionGeneration : Nat) : CodexSlotState × List DeviceAction :=
  match pttSlotForInput input, playSlotForInput input with
  | some slot, _ =>
    if connectionGeneration = 0 then s.handleOffline slot true phase
    else s.handlePtt slot phase connectionGeneration
  | none, some slot =>
    if connectionGeneration = 0 then s.handleOffline slot false phase
    else
      match phase with
      | .released => (s, [])
      | .pressed => s.handlePlay slot connectionGeneration
  | none, none => (s, [])

def disconnect (s : CodexSlotState) (connectionGeneration : Nat) :
    CodexSlotState × List DeviceAction :=
  let here := fun generation => connectionGeneration = 0 ∨ generation = connectionGeneration
  let (s, ended) :=
    if s.captureActive ∧ here s.captureConnectionGeneration then
      (s.clearCapture,
        [DeviceAction.pttEnded s.captureSlot s.captureGeneration s.captureConnectionGeneration])
    else (s, [])
  let s := if here s.pendingPlayConnectionGeneration then s.clearPending else s
  let (s, preempted) :=
    if here s.playbackIdentity.connectionGeneration then s.preemptPlayback else (s, [])
  (s, ended ++ preempted)

/-! ### Playback -/

def beginPlayback (s : CodexSlotState) (b : SlotBegin) : PlaybackBeginResult × CodexSlotState :=
  if !validPlaybackIdentity b.identity || b.requestGeneration == 0 || b.totalFrames == 0 ||
      b.totalSamples == 0 then (.invalid, s)
  else if s.captureActive then (.busy, s)
  else if s.playbackPhase ≠ .idle then
    if s.playbackIdentity = b.identity ∧ s.activePlayRequestGeneration = b.requestGeneration ∧
        s.playbackTotalFrames = b.totalFrames ∧ s.playbackTotalSamples = b.totalSamples then
      (.duplicate, s)
    else (.busy, s)
  else if s.pendingPlaySlot ≠ b.identity.slot ∨
      s.pendingPlayRequestGeneration ≠ b.requestGeneration ∨
      s.pendingPlayConnectionGeneration ≠ b.identity.connectionGeneration then (.invalid, s)
  else
    (.accepted, { s.clearPending with
      playbackIdentity := b.identity
      activePlayRequestGeneration := b.requestGeneration
      playbackTotalFrames := b.totalFrames
      playbackTotalSamples := b.totalSamples
      playbackNextFrame := 0
      playbackPhase := .buffering })

def markPlaybackStarted (s : CodexSlotState) (identity : SlotIdentity) : Bool × CodexSlotState :=
  if s.playbackMatches identity ∧ s.playbackPhase = .buffering then
    (true, { s with playbackPhase := .playing })
  else (false, s)

def acceptPlaybackFrame (s : CodexSlotState) (identity : SlotIdentity) (frameSequence : Nat) :
    PlaybackFrameResult × CodexSlotState :=
  if !validPlaybackIdentity identity then (.invalid, s)
  else if !s.playbackMatches identity ∨
      (s.playbackPhase ≠ .buffering ∧ s.playbackPhase ≠ .playing) then (.stale, s)
  else if s.playbackTotalFrames ≤ frameSequence then (.invalid, s)
  else if frameSequence < s.playbackNextFrame then (.duplicate, s)
  else if s.playbackNextFrame < frameSequence then (.outOfOrder, s)
  else (.accepted, { s with playbackNextFrame := s.playbackNextFrame + 1 })

def markPlaybackTransferComplete (s : CodexSlotState) (identity : SlotIdentity)
    (lastFrameSequence : Nat) : Bool × CodexSlotState :=
  if s.playbackMatches identity ∧ (s.playbackPhase = .buffering ∨ s.playbackPhase = .playing) ∧
      s.playbackNextFrame = s.playbackTotalFrames ∧
      lastFrameSequence = s.playbackTotalFrames - 1 then
    (true, { s with playbackPhase := .transferComplete })
  else (false, s)

def markPlaybackDrained (s : CodexSlotState) (identity : SlotIdentity) (playedSamples : Nat) :
    Bool × CodexSlotState :=
  if s.playbackMatches identity ∧ s.playbackPhase = .transferComplete ∧
      playedSamples = s.playbackTotalSamples then
    (true, { s with playbackPhase := .finishedPendingAck })
  else (false, s)

def acknowledgeFinished (s : CodexSlotState) (identity : SlotIdentity) : Bool × CodexSlotState :=
  if s.playbackMatches identity ∧ s.playbackPhase = .finishedPendingAck then (true, s.clearPlayback)
  else (false, s)

def abortPlayback (s : CodexSlotState) (identity : SlotIdentity) : Bool × CodexSlotState :=
  if s.playbackMatches identity then (true, s.clearPlayback) else (false, s)

end CodexSlotState

end CodexKeyboard.Device
