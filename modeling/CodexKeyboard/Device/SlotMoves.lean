import CodexKeyboard.Device.SlotState

/-! What a key, or the loss of a connection, can do to the slots, said once. -/

namespace CodexKeyboard.Device

namespace CodexSlotState

/-- The capture a push-to-talk key opens; the playback of `s` has been preempted before. -/
def startCapture (s : CodexSlotState) (slot connectionGeneration : Nat) : CodexSlotState :=
  { s.clearPending with
    captureCounter := nextNonzero s.captureCounter
    captureSlot := slot
    captureGeneration := nextNonzero s.captureCounter
    captureConnectionGeneration := connectionGeneration }

/-- The request a play key leaves pending. -/
def requestPlay (s : CodexSlotState) (slot connectionGeneration : Nat) : CodexSlotState :=
  { s with
    requestCounter := nextNonzero s.requestCounter
    pendingPlaySlot := slot
    pendingPlayRequestGeneration := nextNonzero s.requestCounter
    pendingPlayConnectionGeneration := connectionGeneration }

end CodexSlotState

open CodexSlotState

inductive InputMove (s : CodexSlotState) : CodexSlotState → List DeviceAction → Prop
  | ignored : InputMove s s []
  | busy (slot : Nat) : InputMove s s [.rejectedBusy slot]
  /-- A push-to-talk key without a connection. -/
  | refused (slot : Nat) : InputMove s s.preemptPlayback.1 (s.preemptPlayback.2 ++ [.rejectedBusy slot])
  | started (slot connectionGeneration : Nat) (free : s.captureActive = false)
      (first : 1 ≤ slot) (last : slot ≤ 4) :
      InputMove s (s.preemptPlayback.1.startCapture slot connectionGeneration)
        (s.preemptPlayback.2 ++
          [.pttStarted slot (nextNonzero s.captureCounter) connectionGeneration])
  | ended (active : s.captureActive = true) :
      InputMove s s.clearCapture
        [.pttEnded s.captureSlot s.captureGeneration s.captureConnectionGeneration]
  | requested (slot connectionGeneration : Nat) (free : s.captureActive = false) :
      InputMove s (s.preemptPlayback.1.requestPlay slot connectionGeneration)
        (s.preemptPlayback.2 ++ [.playRequested slot (nextNonzero s.requestCounter)
          connectionGeneration])

variable {s s' : CodexSlotState} {actions : List DeviceAction}

@[simp] theorem preemptPlayback_captureCounter : s.preemptPlayback.1.captureCounter = s.captureCounter := by
  unfold preemptPlayback
  split <;> rfl

@[simp] theorem preemptPlayback_requestCounter : s.preemptPlayback.1.requestCounter = s.requestCounter := by
  unfold preemptPlayback
  split <;> rfl

theorem pttSlotForInput_range {input : InputId} {slot : Nat} (h : pttSlotForInput input = some slot) :
    1 ≤ slot ∧ slot ≤ 4 := by
  cases input <;> simp [pttSlotForInput] at h <;> omega

theorem handlePtt_move {slot : Nat} (hslot : 1 ≤ slot ∧ slot ≤ 4) (phase : InputPhase) (generation : Nat) :
    InputMove s (s.handlePtt slot phase generation).1 (s.handlePtt slot phase generation).2 := by
  unfold handlePtt
  cases phase with
  | pressed =>
    simp only
    split
    · split
      · exact .busy slot
      · exact .ignored
    next hfree =>
      have hmove : InputMove s _ _ := .started slot generation (by simpa using hfree) hslot.1 hslot.2
      simpa [startCapture] using hmove
  | released =>
    simp only
    split
    next hactive =>
      simp only [Bool.and_eq_true, beq_iff_eq] at hactive
      rw [← hactive.2]
      exact .ended hactive.1
    · exact .ignored

theorem handlePlay_move (slot generation : Nat) :
    InputMove s (s.handlePlay slot generation).1 (s.handlePlay slot generation).2 := by
  unfold handlePlay
  split
  · exact .busy slot
  next hfree =>
    split
    · exact .ignored
    · have hmove : InputMove s _ _ := .requested slot generation (by simpa using hfree)
      simpa [requestPlay] using hmove

theorem handleOffline_move (slot : Nat) (ptt : Bool) (phase : InputPhase) :
    InputMove s (s.handleOffline slot ptt phase).1 (s.handleOffline slot ptt phase).2 := by
  unfold handleOffline
  cases phase with
  | released => exact .ignored
  | pressed =>
    cases ptt with
    | true => exact .refused slot
    | false => exact .busy slot

theorem handleInput_move (input : InputId) (phase : InputPhase) (generation : Nat) :
    InputMove s (s.handleInput input phase generation).1 (s.handleInput input phase generation).2 := by
  unfold handleInput
  split
  next slot hslot =>
    split
    · exact handleOffline_move slot true phase
    · exact handlePtt_move (pttSlotForInput_range hslot) phase generation
  next slot _ _ =>
    split
    · exact handleOffline_move slot false phase
    · cases phase with
      | released => exact .ignored
      | pressed => exact handlePlay_move slot generation
  next => exact .ignored

/-! ### The playback side -/

/-- The slots hold the same playback at the same frame. -/
structure SamePlayback (s s' : CodexSlotState) : Prop where
  phase : s'.playbackPhase = s.playbackPhase
  identity : s'.playbackIdentity = s.playbackIdentity
  frames : s'.playbackTotalFrames = s.playbackTotalFrames
  next : s'.playbackNextFrame = s.playbackNextFrame

/-- The actions say that the playback of `s` is given up, after the end of a capture at most. -/
def Preempts (s : CodexSlotState) (actions : List DeviceAction) : Prop :=
  ∃ ended rest, actions = ended ++ .playbackPreempted s.playbackIdentity :: rest ∧
    ∀ a ∈ ended, ∃ slot capture connection, a = .pttEnded slot capture connection

theorem preemptPlayback_cases (s : CodexSlotState) :
    s.preemptPlayback = (s, []) ∨
      s.preemptPlayback = (s.clearPlayback, [.playbackPreempted s.playbackIdentity]) := by
  unfold preemptPlayback
  split
  · exact Or.inr rfl
  · exact Or.inl rfl

/-- A key keeps the playback, or says that it does not. -/
theorem InputMove.playback (h : InputMove s s' actions) : SamePlayback s s' ∨ Preempts s actions := by
  have hpreempts : ∀ rest, Preempts s ([.playbackPreempted s.playbackIdentity] ++ rest) :=
    fun rest => ⟨[], rest, rfl, by simp⟩
  cases h with
  | ignored => exact Or.inl ⟨rfl, rfl, rfl, rfl⟩
  | busy slot => exact Or.inl ⟨rfl, rfl, rfl, rfl⟩
  | refused slot =>
    rcases preemptPlayback_cases s with hs | hs <;> rw [hs]
    · exact Or.inl ⟨rfl, rfl, rfl, rfl⟩
    · exact Or.inr (hpreempts _)
  | started slot generation free first last =>
    rcases preemptPlayback_cases s with hs | hs <;> rw [hs]
    · exact Or.inl ⟨rfl, rfl, rfl, rfl⟩
    · exact Or.inr (hpreempts _)
  | ended active => exact Or.inl ⟨rfl, rfl, rfl, rfl⟩
  | requested slot generation free =>
    rcases preemptPlayback_cases s with hs | hs <;> rw [hs]
    · exact Or.inl ⟨rfl, rfl, rfl, rfl⟩
    · exact Or.inr (hpreempts _)

/-! ### The loss of a connection -/

/-- Forget a pending request, or not. -/
def settled (pending : Bool) (s : CodexSlotState) : CodexSlotState :=
  if pending then s.clearPending else s

/-- It ends a capture, forgets a pending request and preempts a playback, in this order. -/
inductive DisconnectMove (s : CodexSlotState) : CodexSlotState → List DeviceAction → Prop
  | kept (pending : Bool) : DisconnectMove s (settled pending s) []
  | preempted (pending : Bool) :
      DisconnectMove s (settled pending s).preemptPlayback.1 s.preemptPlayback.2
  | ended (pending : Bool) (active : s.captureActive = true) :
      DisconnectMove s (settled pending s.clearCapture)
        [.pttEnded s.captureSlot s.captureGeneration s.captureConnectionGeneration]
  | endedPreempted (pending : Bool) (active : s.captureActive = true) :
      DisconnectMove s
        (settled pending s.clearCapture).preemptPlayback.1
        (.pttEnded s.captureSlot s.captureGeneration s.captureConnectionGeneration ::
          s.preemptPlayback.2)

theorem preemptPlayback_actions {s t : CodexSlotState} (hphase : t.playbackPhase = s.playbackPhase)
    (hidentity : t.playbackIdentity = s.playbackIdentity) :
    t.preemptPlayback.2 = s.preemptPlayback.2 := by
  unfold preemptPlayback
  rw [hphase, hidentity]
  split <;> rfl

theorem settled_preempt (pending : Bool) (s : CodexSlotState) :
    (settled pending s).preemptPlayback.2 = s.preemptPlayback.2 := by
  apply preemptPlayback_actions <;> cases pending <;> rfl

theorem settled_identity (pending : Bool) (s : CodexSlotState) :
    (settled pending s).playbackIdentity = s.playbackIdentity := by
  cases pending <;> rfl

theorem settled_eq (s : CodexSlotState) (forget : Prop) [Decidable forget] :
    (if forget then s.clearPending else s) = settled (decide forget) s := by
  by_cases h : forget <;> simp [settled, h]

theorem disconnect_move (s : CodexSlotState) (generation : Nat) :
    DisconnectMove s (s.disconnect generation).1 (s.disconnect generation).2 := by
  simp only [disconnect]
  by_cases hended : s.captureActive = true ∧
      (generation = 0 ∨ s.captureConnectionGeneration = generation)
  · simp only [if_pos hended]
    rw [settled_eq, settled_identity]
    split
    · have hacts : s.clearCapture.preemptPlayback.2 = s.preemptPlayback.2 :=
        preemptPlayback_actions rfl rfl
      rw [settled_preempt, hacts]
      exact .endedPreempted _ hended.1
    · exact .ended _ hended.1
  · simp only [if_neg hended]
    rw [settled_eq, settled_identity]
    split
    · rw [settled_preempt]
      exact .preempted _
    · exact .kept _

theorem settled_same (pending : Bool) (s : CodexSlotState) : SamePlayback s (settled pending s) := by
  cases pending <;> exact ⟨rfl, rfl, rfl, rfl⟩

theorem SamePlayback.preempt {t : CodexSlotState} (h : SamePlayback s t) :
    SamePlayback s t.preemptPlayback.1 ∨
      s.preemptPlayback.2 = [.playbackPreempted s.playbackIdentity] := by
  rcases preemptPlayback_cases t with ht | ht
  · rw [ht]
    exact Or.inl h
  · right
    rw [← preemptPlayback_actions h.phase h.identity, ht, h.identity]

theorem DisconnectMove.playback (h : DisconnectMove s s' actions) :
    SamePlayback s s' ∨ Preempts s actions := by
  cases h with
  | kept pending => exact Or.inl (settled_same pending s)
  | ended pending active =>
    have hsame := settled_same pending s.clearCapture
    exact Or.inl ⟨hsame.phase, hsame.identity, hsame.frames, hsame.next⟩
  | preempted pending =>
    refine (settled_same pending s).preempt.imp_right fun hacts => ?_
    rw [hacts]
    exact ⟨[], [], rfl, by simp⟩
  | endedPreempted pending active =>
    have hsame := settled_same pending s.clearCapture
    have hsame' : SamePlayback s (settled pending s.clearCapture) :=
      ⟨hsame.phase, hsame.identity, hsame.frames, hsame.next⟩
    refine hsame'.preempt.imp_right fun hacts => ?_
    rw [hacts]
    exact ⟨[.pttEnded _ _ _], [], rfl, by simp⟩

end CodexKeyboard.Device
