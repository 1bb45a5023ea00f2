import CodexKeyboard.Audio.ArbiterOwners

/-! Microphone and speaker never own the audio path together.

    The invariants of the gate and of the owners hold in every state an interleaving reaches. From
    them: what the deep-sleep gate promises while it is closed, what the log of answers can contain,
    and the exclusion itself. -/

namespace CodexKeyboard.Audio
open Schemes.Interleave

variable {b : Bool} {w : Words} {f : Frame} {s s' : Callers} {g m : UInt32}

/-! ### The closed gate -/

theorem quiesced_cons (c : ArbiterCall) (v : Bool) (d : List (ArbiterCall × Bool)) :
    quiesced ((c, v) :: d) =
      if v = true ∧ c = .tryBeginDeepSleepQuiesce then true
      else if v = true ∧ c = .cancelDeepSleepQuiesce then false else quiesced d := by
  cases c <;> cases v <;> simp [quiesced]

/-- A deep-sleep call that is still in flight has not answered; one that did answer `true` closed the
    gate over two zero words. -/
structure QuiesceInv (s : Callers) : Prop where
  silent : ∀ f ∈ s.live, f.closing = true → quiesced s.done = false
  past : .quiesceMicrophone ∈ s.live → s.shared.speakerGeneration = 0
  held : quiesced s.done = true → s.shared.runtimeTransitionGate = kDeepSleepQuiescingBit ∧
    s.shared.speakerGeneration = 0 ∧ s.shared.microphoneGeneration = 0

theorem quiesceInv_init : QuiesceInv ⟨Words.zero, [], []⟩ :=
  ⟨by simp, by simp, by simp [quiesced]⟩

theorem quiesced_start {c : ArbiterCall} :
    quiesced (put s.shared [] s.live s.done c c.start).done = quiesced s.done := by
  rcases hn : c.start with f | v
  · rfl
  · obtain rfl : v = false := by
      cases v with
      | true => exact absurd hn start_ne_true
      | false => rfl
    simp [put, quiesced_cons]

theorem quiesceInv_call {c : ArbiterCall} (hs : QuiesceInv s) :
    QuiesceInv (put s.shared [] s.live s.done c c.start) := by
  refine ⟨?_, ?_, ?_⟩
  · rw [quiesced_start]
    refine forall_live_put (by simpa using hs.silent) fun f hf hc => ?_
    cases c <;> simp only [ArbiterCall.start] at hf <;> (try split_ifs at hf) <;> cases hf <;>
      simp [Frame.closing] at hc
  · intro h
    rw [put_shared]
    rcases mem_live_put.1 h with hold | hnew
    · exact hs.past (by simpa using hold)
    · cases c <;> simp only [ArbiterCall.start] at hnew <;> (try split_ifs at hnew) <;> cases hnew
  · rw [quiesced_start, put_shared]
    exact hs.held

section exec

variable {l r : List Frame} {d : List (ArbiterCall × Bool)}

/-- The answers of the other calls leave the gate as the deep-sleep calls left it. -/
theorem quiesced_exec (hf : f.deepSleep = false) :
    quiesced (put (exec b w f).1 l r d f.call (exec b w f).2).done = quiesced d := by
  rcases hn : (exec b w f).2 with f' | v
  · rfl
  · have h1 : f.call ≠ .tryBeginDeepSleepQuiesce := by
      intro h
      simp [Frame.deepSleep, h, ArbiterCall.deepSleep] at hf
    have h2 : f.call ≠ .cancelDeepSleepQuiesce := by
      intro h
      simp [Frame.deepSleep, h, ArbiterCall.deepSleep] at hf
    simp [put, quiesced_cons, h1, h2]

/-- Behind a closed gate no operation changes a generation except to clear it. -/
theorem closed_exec (hgate : GateInv ⟨w, l ++ f :: r, d⟩)
    (hbit : w.runtimeTransitionGate = kDeepSleepQuiescingBit) :
    (w.speakerGeneration = 0 → (exec b w f).1.speakerGeneration = 0) ∧
      (w.microphoneGeneration = 0 → (exec b w f).1.microphoneGeneration = 0) := by
  have hout : f.inside ≠ true := fun hin => inside_closed hgate hin hbit
  refine ⟨fun hz => ?_, fun hz => ?_⟩
  · rcases exec_speaker b w f with hsame | ⟨g, rfl, -, -⟩ | ⟨g, rfl, -, -⟩ | ⟨g, rfl, -, hw, -⟩
    · exact hsame.trans hz
    · exact absurd rfl hout
    · exact absurd rfl hout
    · exact hw
  · rcases exec_microphone b w f with hsame | ⟨m, rfl, -, -⟩ | ⟨m, rfl, -, hw⟩
    · exact hsame.trans hz
    · exact absurd rfl hout
    · exact hw

theorem arrived_quiesceMicrophone (h : (exec b w f).2 = .inl .quiesceMicrophone) :
    f = .quiesceSpeaker ∧ w.speakerGeneration = 0 := by
  cases f with
  | quiesceSpeaker =>
    by_cases hz : w.speakerGeneration = 0
    · exact ⟨rfl, hz⟩
    · simp [exec, hz] at h
  | enterLoad a => exact absurd (tryEnter_inl h).1 (by simp)
  | enterSwap a state =>
    simp only [exec] at h
    split_ifs at h
    · cases a <;> simp [Admission.entered] at h
    · exact absurd (tryEnter_inl h).1 (by simp)
  | _ => simp only [exec] at h; (try split_ifs at h) <;> simp at h

theorem quiesceInv_exec (hgate : GateInv ⟨w, l ++ f :: r, d⟩) (hs : QuiesceInv ⟨w, l ++ f :: r, d⟩) :
    QuiesceInv (put (exec b w f).1 l r d f.call (exec b w f).2) := by
  -- closed by an earlier call: this operation opens the gate only by `cancel_deep_sleep_quiesce`
  have hkeep : quiesced d = true → (exec b w f).1.runtimeTransitionGate = kDeepSleepQuiescingBit ∨
      f = .cancelQuiesce ∧ (exec b w f).2 = .inr true := by
    intro hq
    have hbit : w.runtimeTransitionGate = kDeepSleepQuiescingBit := (hs.held hq).1
    rcases exec_gate b w f with ⟨hw, -⟩ | ⟨a, rfl, -⟩ | ⟨a, v, rfl, -⟩ | ⟨rfl, hz, -⟩ | ⟨rfl, -⟩ |
      ⟨rfl, -, -, hn⟩
    · exact Or.inl (hw.trans hbit)
    · have hlt : w.runtimeTransitionGate.toNat < 2 ^ 31 - 1 :=
        hgate.counts (.enterSwap a w.runtimeTransitionGate) (by simp)
      exact absurd hbit (ne_bit (by omega))
    · exact absurd hbit (inside_closed hgate rfl)
    · exact absurd (hz.symm.trans hbit) (by decide)
    · have hsilent : quiesced d = false := hs.silent .quiesceReopen (by simp) rfl
      rw [hq] at hsilent
      simp at hsilent
    · exact Or.inr ⟨rfl, hn⟩
  refine ⟨forall_live_put (fun h hh hc => ?_) fun f' hf' hc => ?_, fun h => ?_, fun hq => ?_⟩
  · -- another deep-sleep call is in flight, so this one is none
    rw [quiesced_exec]
    · exact hs.silent h (mem_middle hh) hc
    · by_contra hf
      have := others_of_deepSleep hgate (by simpa using hf) h hh
      rw [deepSleep_of_closing hc] at this
      simp at this
  · rw [hf']
    rcases exec_closing hf' hc with ⟨rfl, hz, -⟩ | ⟨hfc, -⟩
    · by_contra hq
      have hbit := (hs.held (by simpa [put] using hq)).1
      exact absurd (hz.symm.trans hbit) (by decide)
    · exact hs.silent f (by simp) hfc
  · rw [put_shared]
    rcases mem_live_put.1 h with hold | hnew
    · have hbit := hgate.closing .quiesceMicrophone (mem_middle hold) rfl
      exact (closed_exec hgate hbit).1 (hs.past (mem_middle hold))
    · obtain ⟨rfl, hz⟩ := arrived_quiesceMicrophone hnew
      exact hz
  · rw [put_shared]
    rcases hn : (exec b w f).2 with f' | v
    · -- no answer: the gate was closed before
      rw [hn] at hq
      have hheld := hs.held hq
      have hz := closed_exec (b := b) hgate hheld.1
      refine ⟨?_, hz.1 hheld.2.1, hz.2 hheld.2.2⟩
      rcases hkeep hq with hbit | ⟨-, hv⟩
      · exact hbit
      · rw [hn] at hv
        cases hv
    · rw [hn, put, quiesced_cons] at hq
      split_ifs at hq with h1 h2
      · -- the answer that closes the gate: both words were read as zero behind it
        obtain ⟨rfl, hc⟩ := h1
        have hgranted := granted_of_true hn
        cases hgranted with
        | quiesced hz =>
          have hbit := hgate.closing .quiesceMicrophone (by simp) rfl
          exact ⟨hbit, hs.past (by simp), hz⟩
        | admitted a => cases a <;> simp [Frame.call, Admission.call] at hc
        | _ => simp [Frame.call] at hc
      · have hheld := hs.held hq
        have hz := closed_exec (b := b) hgate hheld.1
        refine ⟨?_, hz.1 hheld.2.1, hz.2 hheld.2.2⟩
        rcases hkeep hq with hbit | ⟨rfl, hv⟩
        · exact hbit
        · rw [hn] at hv
          cases hv
          exact absurd ⟨rfl, rfl⟩ h2

end exec

theorem quiesceInv_step (hgate : GateInv s) (hs : QuiesceInv s) (h : Step arbiter may s s') :
    QuiesceInv s' := by
  cases h with
  | call hmay => exact quiesceInv_call hs
  | exec b w l f r d => exact quiesceInv_exec hgate hs

/-! ### The log of answers -/

/-- When the hardware check answers `true`, every speaker that began has been finished. -/
def ReadyAlone (e : ArbiterCall × Bool) (before : List (ArbiterCall × Bool)) : Prop :=
  ∀ m, e = (.microphoneHardwareReady m, true) →
    ∀ g, (.tryBeginSpeaker g, true) ∈ before → (.finishSpeaker g, true) ∈ before

/-- No admission is answered `true` while the gate is closed. -/
def AdmittedOpen (e : ArbiterCall × Bool) (before : List (ArbiterCall × Bool)) : Prop :=
  ∀ g, e = (.tryBeginSpeaker g, true) ∨ e = (.requestMicrophone g, true) → quiesced before = false

structure ArbiterInv (s : Callers) : Prop where
  gate : GateInv s
  owner : OwnerInv s
  quiesce : QuiesceInv s
  ready : History ReadyAlone s.done
  admitted : History AdmittedOpen s.done

theorem arbiterInv_step (hs : ArbiterInv s) (h : Step arbiter may s s') : ArbiterInv s' := by
  refine ⟨gateInv_step hs.gate h, ownerInv_step hs.owner h, quiesceInv_step hs.gate hs.quiesce h, ?_, ?_⟩
  · cases h with
    | call hmay =>
      refine hs.ready.put fun v hv m he => ?_
      cases he
      exact absurd (show (ArbiterCall.microphoneHardwareReady m).start = _ from hv) start_ne_true
    | exec b w l f r d =>
      refine hs.ready.put fun v hv m he g hg => ?_
      obtain ⟨hc, rfl⟩ := Prod.mk.inj he
      cases granted_of_true hv with
      | ready m' hz =>
        rcases hs.owner.begun g (Or.inl (Or.inr hg)) with hw | hdone
        · exact absurd (hw.symm.trans hz) (hs.owner.answered _ hg)
        · exact hdone
      | admitted a => cases a <;> simp [arbiter, Frame.call, Admission.call] at hc
      | _ => simp [arbiter, Frame.call] at hc
  · cases h with
    | call hmay =>
      refine hs.admitted.put fun v hv g he => ?_
      obtain rfl : v = true := by
        rcases he with he | he
        · exact (Prod.mk.inj he).2
        · exact (Prod.mk.inj he).2
      exact absurd (show ArbiterCall.start _ = _ from hv) start_ne_true
    | exec b w l f r d =>
      refine hs.admitted.put fun v hv g he => ?_
      by_contra hq
      have hbit := (hs.quiesce.held (by simpa using hq)).1
      refine inside_closed hs.gate ?_ hbit
      rcases he with he | he
      all_goals
        obtain ⟨hc, rfl⟩ := Prod.mk.inj he
        cases granted_of_true hv with
        | admitted a => rfl
        | _ => simp [arbiter, Frame.call] at hc

theorem arbiterInv (h : Reachable arbiter may Words.zero s) : ArbiterInv s := by
  refine h.induct ?_ arbiterInv_step
  refine ⟨⟨by simp, ?_, ?_, by simp, by simp⟩, ownerInv_init, quiesceInv_init, trivial, trivial⟩
  · exact fun _ => ⟨rfl, by decide⟩
  · exact fun h => absurd h (by decide)

/-- With a `true` answer of `try_begin_deep_sleep_quiesce` and no later `true` of the cancelling call,
    the gate is closed. -/
theorem quiesced_append {after before : List (ArbiterCall × Bool)}
    (h : (.cancelDeepSleepQuiesce, true) ∉ after) :
    quiesced (after ++ (.tryBeginDeepSleepQuiesce, true) :: before) = true := by
  induction after with
  | nil => rfl
  | cons e after ih =>
    obtain ⟨c, v⟩ := e
    simp only [List.mem_cons, not_or] at h
    rw [List.cons_append, quiesced_cons, ih h.2]
    split_ifs with h1 h2
    · rfl
    · exact absurd (by rw [h2.1, h2.2]) h.1
    · rfl

/-! ### One owner of the audio path -/

/-- What holds at every moment. -/
structure Exclusive (s : Callers) : Prop where
  /-- No hardware check answers `true` after a speaker began and before it is finished, -/
  after : ∀ g m later before, s.done = later ++ (.tryBeginSpeaker g, true) :: before →
    (.finishSpeaker g, true) ∉ s.done → (.microphoneHardwareReady m, true) ∉ later
  /-- nor does a speaker begin over a ready microphone that still owns its word. -/
  never : ∀ g m, (.tryBeginSpeaker g, true) ∈ s.done → (.finishSpeaker g, true) ∉ s.done →
    (.microphoneHardwareReady m, true) ∈ s.done → s.shared.microphoneGeneration ≠ m
  speakerEnds : ∀ b, ∀ f ∈ s.live, s.shared.speakerGeneration ≠ 0 →
    (exec b s.shared f).1.speakerGeneration ≠ s.shared.speakerGeneration →
      f.call = .finishSpeaker s.shared.speakerGeneration ∨
        f.call = .tryBeginSpeaker s.shared.speakerGeneration
  microphoneEnds : ∀ b, ∀ f ∈ s.live, s.shared.microphoneGeneration ≠ 0 →
    (exec b s.shared f).1.microphoneGeneration ≠ s.shared.microphoneGeneration →
      f.call = .finishMicrophone s.shared.microphoneGeneration ∨
        ∃ m, m ≠ s.shared.microphoneGeneration ∧ f.call = .requestMicrophone m ∧
          (exec b s.shared f).1.microphoneGeneration = m
  counted : (s.shared.runtimeTransitionGate &&& kRuntimeTransitionCountMask).toNat =
    s.live.countP Frame.inside
  noUnderflow : ∀ f ∈ s.live, f.inside = true →
    s.shared.runtimeTransitionGate &&& kDeepSleepQuiescingBit = 0 ∧
      s.shared.runtimeTransitionGate &&& kRuntimeTransitionCountMask ≠ 0
  quiet : ∀ later before, s.done = later ++ (.tryBeginDeepSleepQuiesce, true) :: before →
    (.cancelDeepSleepQuiesce, true) ∉ later →
      s.shared.speakerGeneration = 0 ∧ s.shared.microphoneGeneration = 0 ∧
        s.live.countP Frame.inside = 0 ∧
        ∀ g, (.tryBeginSpeaker g, true) ∉ later ∧ (.requestMicrophone g, true) ∉ later

theorem speaker_ends (hw : w.speakerGeneration ≠ 0)
    (h : (exec b w f).1.speakerGeneration ≠ w.speakerGeneration) :
    f.call = .finishSpeaker w.speakerGeneration ∨ f.call = .tryBeginSpeaker w.speakerGeneration := by
  rcases exec_speaker b w f with hsame | ⟨g, rfl, hz, -⟩ | ⟨g, rfl, hg, -⟩ | ⟨g, rfl, hg, -⟩
  · exact absurd hsame h
  · exact absurd hz hw
  · rw [hg]
    exact Or.inr rfl
  · rw [hg]
    exact Or.inl rfl

theorem microphone_ends (h : (exec b w f).1.microphoneGeneration ≠ w.microphoneGeneration) :
    f.call = .finishMicrophone w.microphoneGeneration ∨
      ∃ m, m ≠ w.microphoneGeneration ∧ f.call = .requestMicrophone m ∧
        (exec b w f).1.microphoneGeneration = m := by
  rcases exec_microphone b w f with hsame | ⟨m, rfl, hm, -⟩ | ⟨m, rfl, hm, -⟩
  · exact absurd hsame h
  · exact Or.inr ⟨m, fun he => h (hm.trans he), rfl, hm⟩
  · rw [hm]
    exact Or.inl rfl

theorem GateInv.counted (hs : GateInv s) :
    (s.shared.runtimeTransitionGate &&& kRuntimeTransitionCountMask).toNat =
      s.live.countP Frame.inside := by
  rw [and_mask]
  by_cases hbit : s.shared.runtimeTransitionGate = kDeepSleepQuiescingBit
  · rw [hs.closed hbit, hbit]
    decide
  · obtain ⟨hcount, hlt⟩ := hs.opened hbit
    omega

theorem GateInv.noUnderflow (hs : GateInv s) (hf : f ∈ s.live) (hin : f.inside = true) :
    s.shared.runtimeTransitionGate &&& kDeepSleepQuiescingBit = 0 ∧
      s.shared.runtimeTransitionGate &&& kRuntimeTransitionCountMask ≠ 0 := by
  have hpos : 0 < s.live.countP Frame.inside := List.countP_pos_iff.2 ⟨f, hf, hin⟩
  have hbit : s.shared.runtimeTransitionGate ≠ kDeepSleepQuiescingBit := by
    intro heq
    have := hs.closed heq
    omega
  obtain ⟨hcount, hlt⟩ := hs.opened hbit
  refine ⟨and_bit_eq_zero.2 (by omega), fun hz => ?_⟩
  have hcounted := hs.counted
  rw [hz] at hcounted
  exact absurd hcounted.symm (by rw [UInt32.toNat_zero]; omega)

/-- A reached state's log, split at one of its answers. -/
theorem split_of_mem {α : Type} {e : α} {later : List α} (before : List α) (h : e ∈ later) :
    ∃ l₁ l₂, later ++ before = l₁ ++ e :: (l₂ ++ before) ∧ later = l₁ ++ e :: l₂ := by
  obtain ⟨l₁, l₂, rfl⟩ := List.append_of_mem h
  exact ⟨l₁, l₂, by simp, rfl⟩

/-- In every interleaving of the arbiter's callers, microphone and speaker are exclusive, ownership is
    ended by its own call or a newer request, the gate counts the callers inside, and a quiesced
    arbiter admits nobody. -/
theorem audio_path_exclusive (s : Callers) (h : Reachable arbiter may Words.zero s) : Exclusive s := by
  have hs := arbiterInv h
  refine ⟨?_, ?_, fun b f _ hw hne => speaker_ends hw hne, fun b f _ _ hne => microphone_ends hne,
    hs.gate.counted, fun f hf hin => hs.gate.noUnderflow hf hin, ?_⟩
  · intro g m later before hd hunfinished hready
    obtain ⟨l₁, l₂, hsplit, -⟩ := split_of_mem ((.tryBeginSpeaker g, true) :: before) hready
    rw [hsplit] at hd
    refine hunfinished ?_
    have hbefore := hs.ready.split hd m rfl g (by simp)
    rw [hd]
    exact List.mem_append_right _ (List.mem_cons_of_mem _ hbefore)
  · intro g m hbegan hunfinished hready hmic
    have hm : m ≠ 0 := hs.owner.answered _ hready
    rcases hs.owner.begun g (Or.inl (Or.inr hbegan)) with hw | hdone
    · exact hs.owner.apart g m (Or.inr hbegan) hw hm hmic hready
    · exact hunfinished hdone
  · intro later before hd hcancel
    have hq : quiesced s.done = true := by
      rw [hd]
      exact quiesced_append hcancel
    obtain ⟨hbit, hspeaker, hmic⟩ := hs.quiesce.held hq
    have hopen : ∀ g e, e ∈ later →
        ¬ (e = (.tryBeginSpeaker g, true) ∨ e = (.requestMicrophone g, true)) := by
      intro g e he hadm
      obtain ⟨l₁, l₂, hsplit, hlater⟩ :=
        split_of_mem ((.tryBeginDeepSleepQuiesce, true) :: before) he
      have hnot := hs.admitted.split (hd.trans hsplit) g hadm
      rw [quiesced_append fun hc => hcancel (by rw [hlater]; simp [hc])] at hnot
      simp at hnot
    exact ⟨hspeaker, hmic, hs.gate.closed hbit,
      fun g => ⟨fun hg => hopen g _ hg (Or.inl rfl), fun hg => hopen g _ hg (Or.inr rfl)⟩⟩

/-- The oldest call in flight takes its step. -/
theorem reach_head {l : List Frame} {d : List (ArbiterCall × Bool)} {n : Callers}
    (h : Reachable arbiter may Words.zero ⟨w, f :: l, d⟩)
    (hn : put (exec false w f).1 [] l d f.call (exec false w f).2 = n) :
    Reachable arbiter may Words.zero n :=
  hn ▸ h.step (.exec false w [] f l d)

/-- A speaker that began from rest and holds its word while a microphone is requested. -/
theorem begun_exclusive : Exclusive
    ⟨⟨10, 0, 0, 1⟩, [.microphoneClearReady 20], [(.tryBeginSpeaker 10, true)]⟩ := by
  refine audio_path_exclusive _ ?_
  have began : Reachable arbiter may Words.zero ⟨⟨10, 0, 0, 0⟩, [], [(.tryBeginSpeaker 10, true)]⟩ := by
    have entered : Reachable arbiter may Words.zero ⟨⟨0, 0, 0, 1⟩, [.speakerCheck 10], []⟩ := by
      refine reach_head (f := .enterSwap (.speaker 10) 0) (w := ⟨0, 0, 0, 0⟩) ?_ rfl
      refine reach_head (f := .enterLoad (.speaker 10)) (w := ⟨0, 0, 0, 0⟩) ?_ rfl
      exact Reachable.init.step (.call (c := ArbiterCall.tryBeginSpeaker 10)
        ⟨by simp [System.calls], by simp⟩)
    refine reach_head (f := .leave (.speaker 10) true) (w := ⟨10, 0, 0, 1⟩) ?_ rfl
    refine reach_head (f := .speakerRecheck 10) (w := ⟨10, 0, 0, 1⟩) ?_ rfl
    refine reach_head (f := .speakerReserve 10) (w := ⟨0, 0, 0, 1⟩) ?_ rfl
    exact reach_head entered rfl
  refine reach_head (f := .enterSwap (.microphone 20) 0) (w := ⟨10, 0, 0, 0⟩) ?_ rfl
  refine reach_head (f := .enterLoad (.microphone 20)) (w := ⟨10, 0, 0, 0⟩) ?_ rfl
  exact began.step (.call (c := ArbiterCall.requestMicrophone 20)
    ⟨by simp [System.calls], by simp⟩)

end CodexKeyboard.Audio
