import CodexKeyboard.Schemes.Interleave

/-! The audio path arbiter of the firmware (`audio_io_arbiter.cpp`).

    Four words decide who owns the audio hardware: the speaker's and the microphone's generation, the
    generation whose power lease is established, and a gate that counts the callers inside a
    transition and carries the deep-sleep bit. Each public call is a sequence of atomic loads, stores,
    compare-and-swaps and one fetch-sub; a `Frame` is the atomic operation a call performs next, and
    `exec` performs it. -/

namespace CodexKeyboard.Audio
open Schemes.Interleave

/-- The atomic words of `AudioIoArbiter`. -/
structure Words where
  speakerGeneration : UInt32
  microphoneGeneration : UInt32
  microphonePowerReady : UInt32
  runtimeTransitionGate : UInt32
deriving DecidableEq

def Words.zero : Words := ⟨0, 0, 0, 0⟩

def kDeepSleepQuiescingBit : UInt32 := (1 : UInt32) <<< 31
def kRuntimeTransitionCountMask : UInt32 := ~~~kDeepSleepQuiescingBit

/-- The public calls. -/
inductive ArbiterCall
  | tryBeginSpeaker (generation : UInt32)
  | finishSpeaker (generation : UInt32)
  | requestMicrophone (generation : UInt32)
  | markMicrophonePowerReady (generation : UInt32)
  | finishMicrophone (generation : UInt32)
  | microphoneHardwareReady (generation : UInt32)
  | tryBeginDeepSleepQuiesce
  | cancelDeepSleepQuiesce
deriving DecidableEq

/-- The calls that enter a runtime transition to be admitted. -/
inductive Admission
  | speaker (generation : UInt32)
  | microphone (generation : UInt32)
deriving DecidableEq

def Admission.call : Admission → ArbiterCall
  | .speaker g => .tryBeginSpeaker g
  | .microphone g => .requestMicrophone g

/-- The atomic operation a call in flight performs next, with the locals it still needs. -/
inductive Frame
  | enterLoad (a : Admission)
  | enterSwap (a : Admission) (state : UInt32)
  | speakerCheck (g : UInt32)
  | speakerReserve (g : UInt32)
  | speakerRecheck (g : UInt32)
  | speakerRollBack (g : UInt32)
  | microphoneClearReady (g : UInt32)
  | microphonePublish (g : UInt32)
  | leave (a : Admission) (accepted : Bool)
  | finishSpeaker (g : UInt32)
  | markCheck (g : UInt32)
  | markStore (g : UInt32)
  | finishMicrophone (g : UInt32)
  | finishPowerReady (g : UInt32)
  | readyMicrophone (g : UInt32)
  | readyPower (g : UInt32)
  | readySpeaker (g : UInt32)
  | quiesceClose
  | quiesceSpeaker
  | quiesceMicrophone
  | quiesceReopen
  | cancelQuiesce
deriving DecidableEq

def Frame.call : Frame → ArbiterCall
  | .enterLoad a | .enterSwap a _ | .leave a _ => a.call
  | .speakerCheck g | .speakerReserve g | .speakerRecheck g | .speakerRollBack g => .tryBeginSpeaker g
  | .microphoneClearReady g | .microphonePublish g => .requestMicrophone g
  | .finishSpeaker g => .finishSpeaker g
  | .markCheck g | .markStore g => .markMicrophonePowerReady g
  | .finishMicrophone g | .finishPowerReady g => .finishMicrophone g
  | .readyMicrophone g | .readyPower g | .readySpeaker g => .microphoneHardwareReady g
  | .quiesceClose | .quiesceSpeaker | .quiesceMicrophone | .quiesceReopen => .tryBeginDeepSleepQuiesce
  | .cancelQuiesce => .cancelDeepSleepQuiesce

/-- The first operation behind the gate. -/
def Admission.entered : Admission → Frame
  | .speaker g => .speakerCheck g
  | .microphone g => .microphoneClearReady g

/-- The loop head of `try_enter_runtime_transition`, with the gate value last read. -/
def tryEnter (a : Admission) (state : UInt32) : Frame ⊕ Bool :=
  if state &&& kDeepSleepQuiescingBit = 0 then
    if state &&& kRuntimeTransitionCountMask = kRuntimeTransitionCountMask then .inr false
    else .inl (.enterSwap a state)
  else .inr false

/-- Where a call starts; the calls with a generation refuse generation 0 before any operation. -/
def ArbiterCall.start : ArbiterCall → Frame ⊕ Bool
  | .tryBeginSpeaker g => if g = 0 then .inr false else .inl (.enterLoad (.speaker g))
  | .finishSpeaker g => if g = 0 then .inr false else .inl (.finishSpeaker g)
  | .requestMicrophone g => if g = 0 then .inr false else .inl (.enterLoad (.microphone g))
  | .markMicrophonePowerReady g => if g = 0 then .inr false else .inl (.markCheck g)
  | .finishMicrophone g => if g = 0 then .inr false else .inl (.finishMicrophone g)
  | .microphoneHardwareReady g => if g = 0 then .inr false else .inl (.readyMicrophone g)
  | .tryBeginDeepSleepQuiesce => .inl .quiesceClose
  | .cancelDeepSleepQuiesce => .inl .cancelQuiesce

/-- One atomic operation. `spurious` makes the weak compare-and-swap of the gate fail although the
    gate holds the expected value. -/
def exec (spurious : Bool) (w : Words) : Frame → Words × (Frame ⊕ Bool)
  | .enterLoad a => (w, tryEnter a w.runtimeTransitionGate)
  | .enterSwap a state =>
    if w.runtimeTransitionGate = state ∧ spurious = false then
      ({ w with runtimeTransitionGate := state + 1 }, .inl a.entered)
    else (w, tryEnter a w.runtimeTransitionGate)
  | .speakerCheck g =>
    (w, .inl (if w.microphoneGeneration = 0 then .speakerReserve g else .leave (.speaker g) false))
  | .speakerReserve g =>
    if w.speakerGeneration = 0 then ({ w with speakerGeneration := g }, .inl (.speakerRecheck g))
    else (w, .inl (.leave (.speaker g) false))
  | .speakerRecheck g =>
    (w, .inl (if w.microphoneGeneration ≠ 0 then .speakerRollBack g else .leave (.speaker g) true))
  | .speakerRollBack g =>
    (if w.speakerGeneration = g then { w with speakerGeneration := 0 } else w,
      .inl (.leave (.speaker g) false))
  | .microphoneClearReady g => ({ w with microphonePowerReady := 0 }, .inl (.microphonePublish g))
  | .microphonePublish g => ({ w with microphoneGeneration := g }, .inl (.leave (.microphone g) true))
  | .leave _ accepted =>
    ({ w with runtimeTransitionGate := w.runtimeTransitionGate - 1 }, .inr accepted)
  | .finishSpeaker g =>
    if w.speakerGeneration = g then ({ w with speakerGeneration := 0 }, .inr true) else (w, .inr false)
  | .markCheck g => (w, if w.microphoneGeneration = g then .inl (.markStore g) else .inr false)
  | .markStore g => ({ w with microphonePowerReady := g }, .inr true)
  | .finishMicrophone g =>
    if w.microphoneGeneration = g then ({ w with microphoneGeneration := 0 }, .inl (.finishPowerReady g))
    else (w, .inr false)
  | .finishPowerReady g =>
    (if w.microphonePowerReady = g then { w with microphonePowerReady := 0 } else w, .inr true)
  | .readyMicrophone g => (w, if w.microphoneGeneration = g then .inl (.readyPower g) else .inr false)
  | .readyPower g => (w, if w.microphonePowerReady = g then .inl (.readySpeaker g) else .inr false)
  | .readySpeaker _ => (w, .inr (w.speakerGeneration = 0))
  | .quiesceClose =>
    if w.runtimeTransitionGate = 0 then
      ({ w with runtimeTransitionGate := kDeepSleepQuiescingBit }, .inl .quiesceSpeaker)
    else (w, .inr false)
  | .quiesceSpeaker =>
    (w, .inl (if w.speakerGeneration ≠ 0 then .quiesceReopen else .quiesceMicrophone))
  | .quiesceMicrophone => (w, if w.microphoneGeneration ≠ 0 then .inl .quiesceReopen else .inr true)
  | .quiesceReopen => ({ w with runtimeTransitionGate := 0 }, .inr false)
  | .cancelQuiesce =>
    if w.runtimeTransitionGate = kDeepSleepQuiescingBit then
      ({ w with runtimeTransitionGate := 0 }, .inr true)
    else (w, .inr false)

theorem call_entered (a : Admission) : a.entered.call = a.call := by
  cases a <;> rfl

theorem call_tryEnter {a : Admission} {state : UInt32} {f : Frame} (h : tryEnter a state = .inl f) :
    f.call = a.call := by
  unfold tryEnter at h
  split_ifs at h
  cases h; rfl

theorem call_start {c : ArbiterCall} {f : Frame} (h : c.start = .inl f) : f.call = c := by
  cases c <;> simp only [ArbiterCall.start] at h <;> (try split_ifs at h) <;> cases h <;> rfl

theorem call_exec {b : Bool} {w : Words} {f f' : Frame} (h : (exec b w f).2 = .inl f') :
    f'.call = f.call := by
  cases f with
  | enterLoad a => exact call_tryEnter h
  | enterSwap a state =>
    simp only [exec] at h
    split_ifs at h
    · cases h; exact call_entered a
    · exact call_tryEnter h
  | speakerCheck g | speakerRecheck g | quiesceSpeaker =>
    cases h
    split_ifs <;> rfl
  | _ => simp only [exec] at h; (try split_ifs at h) <;> cases h <;> rfl

/-- The arbiter as concurrent callers see it. -/
def arbiter : Machine Words ArbiterCall Frame Bool :=
  ⟨Frame.call, ArbiterCall.start, exec, call_start, call_exec⟩

abbrev Callers := System Words ArbiterCall Frame Bool

/-- The calls whose generation is an admission's own. -/
def ArbiterCall.admits : ArbiterCall → Bool
  | .tryBeginSpeaker g | .requestMicrophone g => g ≠ 0
  | _ => false

def ArbiterCall.deepSleep : ArbiterCall → Bool
  | .tryBeginDeepSleepQuiesce | .cancelDeepSleepQuiesce => true
  | _ => false

/-- What the callers keep to: an admission has a generation of its own, and the party that makes the
    deep-sleep calls makes one at a time. Every other call may be made at any moment. -/
def may (s : Callers) (c : ArbiterCall) : Prop :=
  (c.admits = true → c ∉ s.calls arbiter) ∧
    (c.deepSleep = true → ∀ f ∈ s.live, f.call.deepSleep = false)

/-- The callers that entered a transition and have not left it. -/
def Frame.inside : Frame → Bool
  | .speakerCheck _ | .speakerReserve _ | .speakerRecheck _ | .speakerRollBack _
  | .microphoneClearReady _ | .microphonePublish _ | .leave _ _ => true
  | _ => false

/-- The last deep-sleep call that answered `true` closed the gate. -/
def quiesced : List (ArbiterCall × Bool) → Bool
  | [] => false
  | (.tryBeginDeepSleepQuiesce, true) :: _ => true
  | (.cancelDeepSleepQuiesce, true) :: _ => false
  | _ :: done => quiesced done

end CodexKeyboard.Audio
