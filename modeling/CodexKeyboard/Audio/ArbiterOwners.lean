import CodexKeyboard.Audio.ArbiterRuns

/-! Who owns the audio path, over every interleaving.

    A speaker generation enters the word by its own reservation and leaves it by its own roll-back or
    by `finish_speaker` of that generation; a microphone generation enters by its own request and
    leaves by `finish_microphone` of it or under a later request. The microphone's hardware check
    reads the speaker word last, so it answers `true` at a moment when no begun speaker is
    unfinished; and a speaker is admitted after it has read the microphone word as zero behind its
    own reservation, so never over a microphone that is ready. -/

namespace CodexKeyboard.Audio
open Schemes.Interleave

variable {b : Bool} {w : Words} {f : Frame} {s s' : Callers} {g m : UInt32}

/-! ### What one operation does to the generations -/

theorem exec_speaker (b : Bool) (w : Words) (f : Frame) :
    (exec b w f).1.speakerGeneration = w.speakerGeneration ∨
    (∃ g, f = .speakerReserve g ∧ w.speakerGeneration = 0 ∧ (exec b w f).1.speakerGeneration = g) ∨
    (∃ g, f = .speakerRollBack g ∧ w.speakerGeneration = g ∧ (exec b w f).1.speakerGeneration = 0) ∨
    ∃ g, f = .finishSpeaker g ∧ w.speakerGeneration = g ∧ (exec b w f).1.speakerGeneration = 0 ∧
      (exec b w f).2 = .inr true := by
  cases f with
  | speakerReserve g =>
    simp only [exec]
    split_ifs with h
    · exact Or.inr (Or.inl ⟨g, rfl, h, rfl⟩)
    · exact Or.inl rfl
  | speakerRollBack g =>
    simp only [exec]
    split_ifs with h
    · exact Or.inr (Or.inr (Or.inl ⟨g, rfl, h, rfl⟩))
    · exact Or.inl rfl
  | finishSpeaker g =>
    simp only [exec]
    split_ifs with h
    · exact Or.inr (Or.inr (Or.inr ⟨g, rfl, h, rfl, rfl⟩))
    · exact Or.inl rfl
  | _ => refine Or.inl ?_; first | rfl | (simp only [exec]; split_ifs <;> rfl)

theorem exec_microphone (b : Bool) (w : Words) (f : Frame) :
    (exec b w f).1.microphoneGeneration = w.microphoneGeneration ∨
    (∃ m, f = .microphonePublish m ∧ (exec b w f).1.microphoneGeneration = m ∧
      (exec b w f).2 = .inl (.leave (.microphone m) true)) ∨
    ∃ m, f = .finishMicrophone m ∧ w.microphoneGeneration = m ∧
      (exec b w f).1.microphoneGeneration = 0 := by
  cases f with
  | microphonePublish m => exact Or.inr (Or.inl ⟨m, rfl, rfl, rfl⟩)
  | finishMicrophone m =>
    simp only [exec]
    split_ifs with h
    · exact Or.inr (Or.inr ⟨m, rfl, h, rfl⟩)
    · exact Or.inl rfl
  | _ => refine Or.inl ?_; first | rfl | (simp only [exec]; split_ifs <;> rfl)

theorem tryEnter_ne_true {a : Admission} {state : UInt32} : tryEnter a state ≠ .inr true := by
  unfold tryEnter
  split_ifs <;> simp

/-- The last operation of a call that answers `true`. -/
inductive Granted (w : Words) : Frame → Prop
  | admitted (a : Admission) : Granted w (.leave a true)
  | finishedSpeaker (g : UInt32) : w.speakerGeneration = g → Granted w (.finishSpeaker g)
  | marked (g : UInt32) : Granted w (.markStore g)
  | finishedMicrophone (g : UInt32) : Granted w (.finishPowerReady g)
  | ready (g : UInt32) : w.speakerGeneration = 0 → Granted w (.readySpeaker g)
  | quiesced : w.microphoneGeneration = 0 → Granted w .quiesceMicrophone
  | cancelled : w.runtimeTransitionGate = kDeepSleepQuiescingBit → Granted w .cancelQuiesce

theorem granted_of_true (h : (exec b w f).2 = .inr true) : Granted w f := by
  cases f with
  | enterLoad a => exact absurd h tryEnter_ne_true
  | enterSwap a state =>
    simp only [exec] at h
    split_ifs at h
    exact absurd h tryEnter_ne_true
  | leave a accepted =>
    obtain rfl : accepted = true := by simpa [exec] using h
    exact .admitted a
  | finishSpeaker g =>
    simp only [exec] at h
    split_ifs at h with hw
    · exact .finishedSpeaker g hw
    · simp at h
  | markStore g => exact .marked g
  | finishPowerReady g => exact .finishedMicrophone g
  | readySpeaker g => exact .ready g (by simpa [exec] using h)
  | quiesceMicrophone =>
    simp only [exec, ne_eq, ite_not] at h
    split_ifs at h with hw
    exact .quiesced hw
  | cancelQuiesce =>
    simp only [exec] at h
    split_ifs at h with hw
    · exact .cancelled hw
    · simp at h
  | _ => simp only [exec] at h; (try split_ifs at h) <;> cases h

/-- The program points that ownership is decided at. -/
def Frame.decides : Frame → Bool
  | .speakerRecheck _ | .leave _ true | .readyPower _ | .readySpeaker _ => true
  | _ => false

/-- Where an operation leaves its call, as far as ownership goes. -/
inductive Arrived (w w' : Words) (f : Frame) : Frame → Prop
  | reserved (g : UInt32) : f = .speakerReserve g → w'.speakerGeneration = g →
      Arrived w w' f (.speakerRecheck g)
  | admitted (g : UInt32) : f = .speakerRecheck g → w.microphoneGeneration = 0 → w' = w →
      Arrived w w' f (.leave (.speaker g) true)
  | published (m : UInt32) : f = .microphonePublish m → Arrived w w' f (.leave (.microphone m) true)
  | power (m : UInt32) : f = .readyMicrophone m → w.microphoneGeneration = m →
      Arrived w w' f (.readyPower m)
  | speaker (m : UInt32) : f = .readyPower m → Arrived w w' f (.readySpeaker m)
  | other (f' : Frame) : f'.decides = false → Arrived w w' f f'

theorem decides_tryEnter {a : Admission} {state : UInt32} {f : Frame} (h : tryEnter a state = .inl f) :
    f.decides = false := by
  obtain ⟨rfl, -⟩ := tryEnter_inl h
  rfl

theorem arrived_of_inl {f' : Frame} (h : (exec b w f).2 = .inl f') :
    Arrived w (exec b w f).1 f f' := by
  cases f with
  | enterLoad a => exact .other f' (decides_tryEnter h)
  | enterSwap a state =>
    simp only [exec] at h
    split_ifs at h
    · cases h
      cases a <;> exact .other _ rfl
    · exact .other f' (decides_tryEnter h)
  | speakerReserve g =>
    simp only [exec] at h ⊢
    split_ifs at h ⊢ <;> cases h
    · exact .reserved g rfl rfl
    · exact .other _ rfl
  | speakerRecheck g =>
    by_cases hm : w.microphoneGeneration = 0
    · obtain rfl : f' = .leave (.speaker g) true := by simpa [exec, hm, eq_comm] using h
      exact .admitted g rfl hm rfl
    · obtain rfl : f' = .speakerRollBack g := by simpa [exec, hm, eq_comm] using h
      exact .other _ rfl
  | microphonePublish m =>
    cases h
    exact .published m rfl
  | readyMicrophone m =>
    simp only [exec] at h
    split_ifs at h with hm
    cases h
    exact .power m rfl hm
  | readyPower m =>
    simp only [exec] at h
    split_ifs at h
    cases h
    exact .speaker m rfl
  | speakerCheck g | quiesceSpeaker =>
    cases h
    split_ifs <;> exact .other _ rfl
  | _ => simp only [exec] at h; (try split_ifs at h) <;> cases h <;> exact .other _ rfl

/-! ### The invariant -/

/-- `try_begin_speaker` of `g` has decided to answer `true`. -/
def Admitted (s : Callers) (g : UInt32) : Prop :=
  .leave (.speaker g) true ∈ s.live ∨ (.tryBeginSpeaker g, true) ∈ s.done

/-- `request_microphone` of `m` has stored its generation. -/
def Published (s : Callers) (m : UInt32) : Prop :=
  .leave (.microphone m) true ∈ s.live ∨ (.requestMicrophone m, true) ∈ s.done

/-- The hardware check of `m` has found `m` in the microphone word. -/
def Checked (s : Callers) (m : UInt32) : Prop :=
  .readyPower m ∈ s.live ∨ .readySpeaker m ∈ s.live ∨ (.microphoneHardwareReady m, true) ∈ s.done

/-- The generation a call carries. -/
def ArbiterCall.generation : ArbiterCall → UInt32
  | .tryBeginSpeaker g | .finishSpeaker g | .requestMicrophone g | .markMicrophonePowerReady g
  | .finishMicrophone g | .microphoneHardwareReady g => g
  | .tryBeginDeepSleepQuiesce | .cancelDeepSleepQuiesce => 1

structure OwnerInv (s : Callers) : Prop where
  once : ((s.calls arbiter).filter ArbiterCall.admits).Nodup
  carried : ∀ f ∈ s.live, f.call.generation ≠ 0
  answered : ∀ c, (c, true) ∈ s.done → c.generation ≠ 0
  begun : ∀ g, Admitted s g ∨ .speakerRecheck g ∈ s.live →
    s.shared.speakerGeneration = g ∨ (.finishSpeaker g, true) ∈ s.done
  published : ∀ m, m ≠ 0 → s.shared.microphoneGeneration = m ∨ Checked s m → Published s m
  apart : ∀ g m, Admitted s g → s.shared.speakerGeneration = g → m ≠ 0 →
    s.shared.microphoneGeneration = m → (.microphoneHardwareReady m, true) ∉ s.done

theorem ownerInv_init : OwnerInv ⟨Words.zero, [], []⟩ := by
  refine ⟨by simp [System.calls], by simp, by simp, ?_, ?_, ?_⟩
  · rintro g (⟨h | h⟩ | h) <;> simp at h
  · rintro m hm (h | h)
    · exact absurd h.symm hm
    · simp [Checked] at h
  · rintro g m (h | h) <;> simp at h

/-! ### A new call -/

section call

variable {c : ArbiterCall}

theorem start_inl (h : c.start = .inl f) : f.decides = false ∧ c.generation ≠ 0 := by
  cases c <;> simp only [ArbiterCall.start] at h <;> (try split_ifs at h) <;> cases h <;>
    first | exact ⟨rfl, by assumption⟩ | exact ⟨rfl, by decide⟩

theorem start_ne_true : c.start ≠ .inr true := by
  cases c <;> simp only [ArbiterCall.start] <;> (try split_ifs) <;> simp

theorem live_call (hf : f.decides = true) (h : f ∈ (put s.shared [] s.live s.done c c.start).live) :
    f ∈ s.live := by
  rcases mem_live_put.1 h with hold | hnew
  · simpa using hold
  · rw [(start_inl hnew).1] at hf
    simp at hf

theorem done_call {c' : ArbiterCall}
    (h : (c', true) ∈ (put s.shared [] s.live s.done c c.start).done) : (c', true) ∈ s.done := by
  rcases mem_done_put.1 h with hold | ⟨v, hv, he⟩
  · exact hold
  · cases he
    exact absurd hv start_ne_true

theorem ownerInv_call (hs : OwnerInv s) (hmay : may s c) :
    OwnerInv (put s.shared [] s.live s.done c c.start) := by
  have hadmitted : ∀ g, Admitted (put s.shared [] s.live s.done c c.start) g → Admitted s g :=
    fun g h => h.imp (live_call rfl) done_call
  refine ⟨?_, ?_, fun c' hc' => hs.answered c' (done_call hc'), ?_, ?_, ?_⟩
  · exact Step.nodup_calls (.call hmay) (fun hm hp => hm.1 hp) hs.once
  · refine forall_live_put (by simpa using hs.carried) fun f hf => ?_
    rw [call_start hf]
    exact (start_inl hf).2
  · intro g h
    rw [put_shared]
    rcases hs.begun g (h.imp (hadmitted g) (live_call rfl)) with hspeaker | hdone
    · exact Or.inl hspeaker
    · exact Or.inr (done_put_of_mem hdone)
  · intro m hm h
    rw [put_shared] at h
    have hold : Published s m := hs.published m hm (h.imp_right fun hc =>
      hc.imp (live_call rfl) (Or.imp (live_call rfl) done_call))
    exact hold.imp (fun hl => mem_live_put.2 (Or.inl (by simpa using hl))) done_put_of_mem
  · intro g m hadm hspeaker hm hmic hready
    rw [put_shared] at hspeaker hmic
    exact hs.apart g m (hadmitted g hadm) hspeaker hm hmic (done_call hready)

end call

/-! ### One operation of a call in flight -/

section exec

variable {l r : List Frame} {d : List (ArbiterCall × Bool)}

/-- An admission in flight shares its generation with no other call, in flight or completed. -/
theorem once_speaker (hs : OwnerInv ⟨w, l ++ f :: r, d⟩) (hf : f.call = .tryBeginSpeaker g) :
    (∀ h ∈ l ++ r, h.call ≠ .tryBeginSpeaker g) ∧ ∀ v, (.tryBeginSpeaker g, v) ∉ d := by
  have hg := hs.carried f (by simp)
  rw [hf] at hg
  have honce := once_of_nodup hs.once
    (show (arbiter.call f).admits = true by
      simpa [arbiter, hf, ArbiterCall.admits, ArbiterCall.generation] using hg)
  simpa only [arbiter, hf] using honce

theorem once_microphone (hs : OwnerInv ⟨w, l ++ f :: r, d⟩) (hf : f.call = .requestMicrophone m) :
    (∀ h ∈ l ++ r, h.call ≠ .requestMicrophone m) ∧ ∀ v, (.requestMicrophone m, v) ∉ d := by
  have hg := hs.carried f (by simp)
  rw [hf] at hg
  have honce := once_of_nodup hs.once
    (show (arbiter.call f).admits = true by
      simpa [arbiter, hf, ArbiterCall.admits, ArbiterCall.generation] using hg)
  simpa only [arbiter, hf] using honce

/-- A call that answers `true` was already completed, or completes now. -/
theorem done_exec {c : ArbiterCall}
    (h : (c, true) ∈ (put (exec b w f).1 l r d f.call (exec b w f).2).done) :
    (c, true) ∈ d ∨ f.call = c ∧ Granted w f := by
  rcases mem_done_put.1 h with hold | ⟨v, hv, he⟩
  · exact Or.inl hold
  · cases he
    exact Or.inr ⟨rfl, granted_of_true hv⟩

theorem live_exec {h : Frame} (hh : h ∈ (put (exec b w f).1 l r d f.call (exec b w f).2).live) :
    h ∈ l ++ r ∨ Arrived w (exec b w f).1 f h :=
  (mem_live_put.1 hh).imp_right arrived_of_inl

theorem answered_exec (hs : OwnerInv ⟨w, l ++ f :: r, d⟩) {c : ArbiterCall}
    (h : (c, true) ∈ (put (exec b w f).1 l r d f.call (exec b w f).2).done) : c.generation ≠ 0 := by
  rcases done_exec h with hold | ⟨rfl, -⟩
  · exact hs.answered c hold
  · exact hs.carried f (by simp)

/-- A speaker that is admitted now was admitted before, or has just read the microphone as zero. -/
theorem admitted_exec (h : Admitted (put (exec b w f).1 l r d f.call (exec b w f).2) g) :
    (.leave (.speaker g) true ∈ l ++ r ∨ (.tryBeginSpeaker g, true) ∈ d) ∨
      f = .leave (.speaker g) true ∧ (exec b w f).1.speakerGeneration = w.speakerGeneration ∧
        (exec b w f).1.microphoneGeneration = w.microphoneGeneration ∨
      f = .speakerRecheck g ∧ w.microphoneGeneration = 0 ∧ (exec b w f).1 = w := by
  rcases h with hlive | hdone
  · rcases live_exec hlive with hold | harr
    · exact Or.inl (Or.inl hold)
    · cases harr with
      | admitted g hf hm hw => exact Or.inr (Or.inr ⟨hf, hm, hw⟩)
      | other _ hd => simp [Frame.decides] at hd
  · rcases done_exec hdone with hold | ⟨hc, hgranted⟩
    · exact Or.inl (Or.inr hold)
    · refine Or.inr (Or.inl ?_)
      cases hgranted with
      | admitted a =>
        cases a with
        | speaker g' =>
          simp only [Frame.call, Admission.call, ArbiterCall.tryBeginSpeaker.injEq] at hc
          subst hc
          exact ⟨rfl, rfl, rfl⟩
        | microphone m => simp [Frame.call, Admission.call] at hc
      | _ => simp [Frame.call] at hc

/-- While a speaker is admitted its word changes under nobody else's hands. -/
theorem speaker_kept (hs : OwnerInv ⟨w, l ++ f :: r, d⟩) (hg : g ≠ 0)
    (hother : f.call ≠ .tryBeginSpeaker g) (hw : w.speakerGeneration = g) :
    (exec b w f).1.speakerGeneration = g ∨
      (.finishSpeaker g, true) ∈ (put (exec b w f).1 l r d f.call (exec b w f).2).done := by
  rcases exec_speaker b w f with hsame | ⟨g', rfl, hz, -⟩ | ⟨g', rfl, hg', -⟩ | ⟨g', rfl, hg', -, hn⟩
  · exact Or.inl (hsame.trans hw)
  · exact absurd (hw.symm.trans hz) hg
  · exact absurd (by rw [← hg', hw]; rfl) hother
  · refine Or.inr (mem_done_put.2 (Or.inr ⟨true, hn, ?_⟩))
    rw [← hg', hw]
    rfl

theorem begun_exec (hs : OwnerInv ⟨w, l ++ f :: r, d⟩)
    (h : Admitted (put (exec b w f).1 l r d f.call (exec b w f).2) g ∨
      .speakerRecheck g ∈ (put (exec b w f).1 l r d f.call (exec b w f).2).live) :
    (exec b w f).1.speakerGeneration = g ∨
      (.finishSpeaker g, true) ∈ (put (exec b w f).1 l r d f.call (exec b w f).2).done := by
  -- the owner was there before: the others leave it alone
  have hkept : (Admitted ⟨w, l ++ f :: r, d⟩ g ∨ .speakerRecheck g ∈ l ++ f :: r) → g ≠ 0 →
      f.call ≠ .tryBeginSpeaker g → (exec b w f).1.speakerGeneration = g ∨
        (.finishSpeaker g, true) ∈ (put (exec b w f).1 l r d f.call (exec b w f).2).done := by
    intro hold hg hother
    rcases hs.begun g hold with hw | hdone
    · exact speaker_kept hs hg hother hw
    · exact Or.inr (done_put_of_mem hdone)
  -- the owner itself takes a step that leaves the word alone
  have hself : (Admitted ⟨w, l ++ f :: r, d⟩ g ∨ .speakerRecheck g ∈ l ++ f :: r) →
      (exec b w f).1.speakerGeneration = w.speakerGeneration →
      (exec b w f).1.speakerGeneration = g ∨
        (.finishSpeaker g, true) ∈ (put (exec b w f).1 l r d f.call (exec b w f).2).done := by
    intro hold hw
    rcases hs.begun g hold with hspeaker | hdone
    · exact Or.inl (hw.trans hspeaker)
    · exact Or.inr (done_put_of_mem hdone)
  rcases h with hadm | hlive
  · rcases admitted_exec hadm with hold | ⟨rfl, hw, -⟩ | ⟨rfl, -, hw⟩
    · have hne : g ≠ 0 ∧ f.call ≠ .tryBeginSpeaker g := by
        rcases hold with hl | hd
        · refine ⟨hs.carried _ (mem_middle hl), fun hf => (once_speaker hs hf).1 _ hl rfl⟩
        · exact ⟨hs.answered _ hd, fun hf => (once_speaker hs hf).2 _ hd⟩
      exact hkept (Or.inl (hold.imp_left mem_middle)) hne.1 hne.2
    · exact hself (Or.inl (Or.inl (by simp))) hw
    · exact hself (Or.inr (by simp)) (by rw [hw])
  · rcases live_exec hlive with hold | harr
    · exact hkept (Or.inr (mem_middle hold)) (hs.carried _ (mem_middle hold))
        fun hf => (once_speaker hs hf).1 _ hold rfl
    · cases harr with
      | reserved g hf hw => exact Or.inl hw
      | other _ hd => simp [Frame.decides] at hd

theorem published_mono {m : UInt32} (h : Published ⟨w, l ++ f :: r, d⟩ m) :
    Published (put (exec b w f).1 l r d f.call (exec b w f).2) m := by
  rcases h with hlive | hdone
  · simp only [List.mem_append, List.mem_cons] at hlive
    rcases hlive with hl | rfl | hr
    · exact Or.inl (mem_live_put.2 (Or.inl (by simp [hl])))
    · exact Or.inr (mem_done_put.2 (Or.inr ⟨true, rfl, rfl⟩))
    · exact Or.inl (mem_live_put.2 (Or.inl (by simp [hr])))
  · exact Or.inr (done_put_of_mem hdone)

theorem published_exec (hs : OwnerInv ⟨w, l ++ f :: r, d⟩) (hm : m ≠ 0)
    (h : (exec b w f).1.microphoneGeneration = m ∨
      Checked (put (exec b w f).1 l r d f.call (exec b w f).2) m) :
    Published (put (exec b w f).1 l r d f.call (exec b w f).2) m := by
  have hold : (w.microphoneGeneration = m ∨ Checked ⟨w, l ++ f :: r, d⟩ m) →
      Published (put (exec b w f).1 l r d f.call (exec b w f).2) m :=
    fun hp => published_mono (hs.published m hm hp)
  rcases h with hmic | hlive | hlive | hdone
  · rcases exec_microphone b w f with hsame | ⟨m', rfl, hm', hn⟩ | ⟨m', rfl, -, hz⟩
    · exact hold (Or.inl (hsame.symm.trans hmic))
    · obtain rfl : m' = m := hm'.symm.trans hmic
      exact Or.inl (mem_live_put.2 (Or.inr hn))
    · exact absurd (hmic.symm.trans hz) hm
  · rcases live_exec hlive with hl | harr
    · exact hold (Or.inr (Or.inl (mem_middle hl)))
    · cases harr with
      | power m hf hw => exact hold (Or.inl hw)
      | other _ hd => simp [Frame.decides] at hd
  · rcases live_exec hlive with hl | harr
    · exact hold (Or.inr (Or.inr (Or.inl (mem_middle hl))))
    · cases harr with
      | speaker m hf => exact hold (Or.inr (Or.inl (by simp [hf])))
      | other _ hd => simp [Frame.decides] at hd
  · rcases done_exec hdone with hd | ⟨hc, hgranted⟩
    · exact hold (Or.inr (Or.inr (Or.inr hd)))
    · cases hgranted with
      | ready m' hz =>
        obtain rfl : m' = m := by simpa [Frame.call] using hc
        exact hold (Or.inr (Or.inr (Or.inl (by simp))))
      | admitted a => cases a <;> simp [Frame.call, Admission.call] at hc
      | _ => simp [Frame.call] at hc

theorem carried_exec (hs : OwnerInv ⟨w, l ++ f :: r, d⟩) :
    ∀ h ∈ (put (exec b w f).1 l r d f.call (exec b w f).2).live, h.call.generation ≠ 0 := by
  refine forall_live_put (fun h hh => hs.carried h (mem_middle hh)) fun f' hf' => ?_
  rw [call_exec hf']
  exact hs.carried f (by simp)

/-- An admitted speaker and a microphone that was found ready are never in the words together. -/
theorem apart_exec (hs : OwnerInv ⟨w, l ++ f :: r, d⟩)
    (hadm : Admitted (put (exec b w f).1 l r d f.call (exec b w f).2) g)
    (hspeaker : (exec b w f).1.speakerGeneration = g) (hm : m ≠ 0)
    (hmic : (exec b w f).1.microphoneGeneration = m) :
    (.microphoneHardwareReady m, true) ∉ (put (exec b w f).1 l r d f.call (exec b w f).2).done := by
  intro hready
  have hg : g ≠ 0 := hadm.elim (fun h => carried_exec hs _ h) fun h => answered_exec hs h
  rcases done_exec hready with hold | ⟨hc, hgranted⟩
  · rcases admitted_exec hadm with hadm' | ⟨rfl, hw, hw'⟩ | ⟨rfl, hz, hw⟩
    · have hother : f.call ≠ .tryBeginSpeaker g := by
        intro hf
        rcases hadm' with hl | hd
        · exact (once_speaker hs hf).1 _ hl rfl
        · exact (once_speaker hs hf).2 _ hd
      have hspeaker' : w.speakerGeneration = g := by
        rcases exec_speaker b w f with hsame | ⟨g', rfl, -, hg'⟩ | ⟨g', rfl, -, hz⟩ | ⟨g', rfl, -, hz, -⟩
        · exact hsame.symm.trans hspeaker
        · exact absurd (by rw [← hspeaker, hg']; rfl) hother
        · exact absurd (hspeaker.symm.trans hz) hg
        · exact absurd (hspeaker.symm.trans hz) hg
      have hmic' : w.microphoneGeneration = m := by
        rcases exec_microphone b w f with hsame | ⟨m', rfl, hm', -⟩ | ⟨m', rfl, -, hz⟩
        · exact hsame.symm.trans hmic
        · -- a request that stores now was not published before, so not found ready
          obtain rfl : m' = m := hm'.symm.trans hmic
          have hfresh := once_microphone hs (show (Frame.microphonePublish m').call = _ from rfl)
          rcases hs.published m' hm (Or.inr (Or.inr (Or.inr hold))) with hl | hd
          · simp only [List.mem_append, List.mem_cons, reduceCtorEq, false_or] at hl
            exact absurd rfl (hfresh.1 _ (List.mem_append.2 hl))
          · exact absurd hd (hfresh.2 true)
        · exact absurd (hmic.symm.trans hz) hm
      exact hs.apart g m (hadm'.imp_left mem_middle) hspeaker' hm hmic' hold
    · exact hs.apart g m (Or.inl (by simp)) (hw.symm.trans hspeaker) hm (hw'.symm.trans hmic) hold
    · rw [hw, hz] at hmic
      exact hm hmic.symm
  · -- the check that answers now reads the speaker word as zero
    cases hgranted with
    | ready m' hz => exact hg (hspeaker.symm.trans hz)
    | admitted a => cases a <;> simp [Frame.call, Admission.call] at hc
    | _ => simp [Frame.call] at hc

end exec

theorem ownerInv_step (hs : OwnerInv s) (h : Step arbiter may s s') : OwnerInv s' := by
  cases h with
  | call hmay => exact ownerInv_call hs hmay
  | exec b w l f r d =>
    refine ⟨?_, carried_exec hs, fun c hc => answered_exec hs hc, fun g hg => ?_, fun m hm h => ?_, ?_⟩
    · exact Step.nodup_calls (.exec b w l f r d) (fun (hm : may _ _) hp => hm.1 hp) hs.once
    · rw [put_shared]
      exact begun_exec hs hg
    · rw [put_shared] at h
      exact published_exec hs hm h
    · intro g m hadm hspeaker hm hmic
      rw [put_shared] at hspeaker hmic
      exact apart_exec hs hadm hspeaker hm hmic

end CodexKeyboard.Audio
