import CodexKeyboard.Audio.Arbiter
import Mathlib.Data.Nat.Bitwise

/-! The arbiter under every interleaving of its callers.

    The gate counts the callers inside a transition, or is closed with nobody inside; while it is
    closed both generations stay zero. A speaker is in the word from its reservation until it is
    finished, since only its own calls take it out. -/

namespace CodexKeyboard.Audio
open Schemes.Interleave

variable {b : Bool} {w : Words} {f : Frame} {s s' : Callers}

/-! ### The gate word -/

theorem bit_toNat : kDeepSleepQuiescingBit.toNat = 2 ^ 31 := by decide

theorem and_bit_eq_zero {x : UInt32} : x &&& kDeepSleepQuiescingBit = 0 ↔ x.toNat < 2 ^ 31 := by
  rw [← UInt32.toNat_inj, UInt32.toNat_and, bit_toNat, Nat.and_two_pow, UInt32.toNat_zero,
    Nat.testBit_eq_decide_div_mod_eq]
  have := x.toNat_lt
  by_cases h : x.toNat / 2 ^ 31 % 2 = 1 <;> simp <;> omega

theorem and_mask {x : UInt32} : (x &&& kRuntimeTransitionCountMask).toNat = x.toNat % 2 ^ 31 := by
  rw [UInt32.toNat_and, show kRuntimeTransitionCountMask.toNat = 2 ^ 31 - 1 by decide,
    Nat.and_two_pow_sub_one_eq_mod]

/-- The loop head goes on only with an open gate that can count one more. -/
theorem tryEnter_inl {a : Admission} {state : UInt32} (h : tryEnter a state = .inl f) :
    f = .enterSwap a state ∧ state.toNat < 2 ^ 31 - 1 := by
  unfold tryEnter at h
  split_ifs at h with hbit hmask
  rw [and_bit_eq_zero] at hbit
  rw [← UInt32.toNat_inj, and_mask, show kRuntimeTransitionCountMask.toNat = 2 ^ 31 - 1 by decide]
    at hmask
  exact ⟨(Sum.inl.inj h).symm, by omega⟩

/-- The gate value an entering caller compares with is one it may count up. -/
def Frame.counts : Frame → Prop
  | .enterSwap _ state => state.toNat < 2 ^ 31 - 1
  | _ => True

theorem counts_exec {f' : Frame} (h : (exec b w f).2 = .inl f') : f'.counts := by
  cases f with
  | enterLoad a =>
    obtain ⟨rfl, hlt⟩ := tryEnter_inl h
    exact hlt
  | enterSwap a state =>
    simp only [exec] at h
    split_ifs at h
    · cases h
      cases a <;> trivial
    · obtain ⟨rfl, hlt⟩ := tryEnter_inl h
      exact hlt
  | speakerCheck g | speakerRecheck g | quiesceSpeaker =>
    cases h
    split_ifs <;> trivial
  | _ => simp only [exec] at h; (try split_ifs at h) <;> cases h <;> trivial

theorem counts_start {c : ArbiterCall} (h : c.start = .inl f) : f.counts := by
  cases c <;> simp only [ArbiterCall.start] at h <;> (try split_ifs at h) <;> cases h <;> trivial

/-- What one operation does to the gate: nothing, with the caller on the same side of it; or it counts
    a caller in or out, closes the gate, or opens it again. -/
inductive GateMove (w : Words) (f : Frame) (w' : Words) (n : Frame ⊕ Bool) : Prop
  | same : w'.runtimeTransitionGate = w.runtimeTransitionGate →
      n.elim Frame.inside (fun _ => false) = f.inside → GateMove w f w' n
  | entered (a : Admission) : f = .enterSwap a w.runtimeTransitionGate →
      w'.runtimeTransitionGate = w.runtimeTransitionGate + 1 → n = .inl a.entered → GateMove w f w' n
  | left (a : Admission) (accepted : Bool) : f = .leave a accepted →
      w'.runtimeTransitionGate = w.runtimeTransitionGate - 1 → n = .inr accepted → GateMove w f w' n
  | closed : f = .quiesceClose → w.runtimeTransitionGate = 0 →
      w'.runtimeTransitionGate = kDeepSleepQuiescingBit → n = .inl .quiesceSpeaker → GateMove w f w' n
  | reopened : f = .quiesceReopen → w'.runtimeTransitionGate = 0 → n = .inr false → GateMove w f w' n
  | cancelled : f = .cancelQuiesce → w.runtimeTransitionGate = kDeepSleepQuiescingBit →
      w'.runtimeTransitionGate = 0 → n = .inr true → GateMove w f w' n

theorem inside_tryEnter (a : Admission) (state : UInt32) :
    (tryEnter a state).elim Frame.inside (fun _ => false) = false := by
  unfold tryEnter
  split_ifs <;> rfl

theorem exec_gate (b : Bool) (w : Words) (f : Frame) : GateMove w f (exec b w f).1 (exec b w f).2 := by
  cases f with
  | enterLoad a => exact .same rfl (inside_tryEnter a _)
  | enterSwap a state =>
    simp only [exec]
    split_ifs with h
    · obtain ⟨rfl, -⟩ := h
      exact .entered a rfl rfl rfl
    · exact .same rfl (inside_tryEnter a _)
  | leave a accepted => exact .left a accepted rfl rfl rfl
  | quiesceClose =>
    simp only [exec]
    split_ifs with h
    · exact .closed rfl h rfl rfl
    · exact .same rfl rfl
  | quiesceReopen => exact .reopened rfl rfl rfl
  | cancelQuiesce =>
    simp only [exec]
    split_ifs with h
    · exact .cancelled rfl h rfl rfl
    · exact .same rfl rfl
  | _ => simp only [exec]; (try split_ifs) <;> exact .same rfl rfl

/-- The operations of a deep-sleep call that has closed the gate and not yet answered. -/
def Frame.closing : Frame → Bool
  | .quiesceSpeaker | .quiesceMicrophone | .quiesceReopen => true
  | _ => false

def Frame.deepSleep (f : Frame) : Bool := f.call.deepSleep

theorem deepSleep_of_closing (h : f.closing = true) : f.deepSleep = true := by
  cases f <;> first | rfl | simp [Frame.closing] at h

theorem exec_closing {f' : Frame} (h : (exec b w f).2 = .inl f') (hf' : f'.closing = true) :
    (f = .quiesceClose ∧ w.runtimeTransitionGate = 0 ∧
        (exec b w f).1.runtimeTransitionGate = kDeepSleepQuiescingBit) ∨
      f.closing = true ∧ (exec b w f).1.runtimeTransitionGate = w.runtimeTransitionGate := by
  cases f with
  | enterLoad a =>
    obtain ⟨rfl, -⟩ := tryEnter_inl h
    simp [Frame.closing] at hf'
  | enterSwap a state =>
    simp only [exec] at h
    split_ifs at h
    · cases h
      cases a <;> simp [Frame.closing, Admission.entered] at hf'
    · obtain ⟨rfl, -⟩ := tryEnter_inl h
      simp [Frame.closing] at hf'
  | quiesceClose =>
    by_cases hz : w.runtimeTransitionGate = 0
    · exact Or.inl ⟨rfl, hz, by simp [exec, hz]⟩
    · simp [exec, hz] at h
  | quiesceSpeaker | quiesceMicrophone => exact Or.inr ⟨rfl, rfl⟩
  | speakerCheck g | speakerRecheck g =>
    cases h
    split_ifs at hf' <;> simp [Frame.closing] at hf'
  | _ =>
    simp only [exec] at h
    (try split_ifs at h) <;> cases h <;> simp [Frame.closing] at hf'

/-- Open, the gate is the number of callers inside; closed, nobody is inside. One deep-sleep call is
    in flight at most, and it answers with the gate as it left it. -/
structure GateInv (s : Callers) : Prop where
  counts : ∀ f ∈ s.live, f.counts
  opened : s.shared.runtimeTransitionGate ≠ kDeepSleepQuiescingBit →
    s.shared.runtimeTransitionGate.toNat = s.live.countP Frame.inside ∧
      s.live.countP Frame.inside < 2 ^ 31
  closed : s.shared.runtimeTransitionGate = kDeepSleepQuiescingBit → s.live.countP Frame.inside = 0
  single : s.live.countP Frame.deepSleep ≤ 1
  closing : ∀ f ∈ s.live, f.closing = true → s.shared.runtimeTransitionGate = kDeepSleepQuiescingBit

theorem ne_bit {x : UInt32} (h : x.toNat < 2 ^ 31) : x ≠ kDeepSleepQuiescingBit := by
  rintro rfl
  rw [bit_toNat] at h
  omega

theorem inside_start {c : ArbiterCall} :
    (c.start.elim Frame.inside (fun _ => false)) = false := by
  cases c <;> simp only [ArbiterCall.start] <;> (try split_ifs) <;> rfl

theorem gateInv_call {c : ArbiterCall} (hs : GateInv s) (hmay : may s c) :
    GateInv (put s.shared [] s.live s.done c c.start) := by
  have hcount : (put s.shared [] s.live s.done c c.start).live.countP Frame.inside =
      s.live.countP Frame.inside := by
    rw [countP_live_put, inside_start]
    simp
  refine ⟨forall_live_put (by simpa using hs.counts) fun f hf => counts_start hf, ?_, ?_, ?_, ?_⟩
  · rw [hcount, put_shared]
    exact hs.opened
  · rw [hcount, put_shared]
    exact hs.closed
  · rw [countP_live_put, List.nil_append]
    cases hd : c.deepSleep with
    | true =>
      have hnone : s.live.countP Frame.deepSleep = 0 :=
        List.countP_eq_zero.2 fun f hf => by simp [Frame.deepSleep, hmay.2 hd f hf]
      rw [hnone]
      have := Bool.toNat_le (c.start.elim Frame.deepSleep fun _ => false)
      omega
    | false =>
      have hstart : (c.start.elim Frame.deepSleep fun _ => false) = false := by
        rcases hn : c.start with f | v
        · simp [Frame.deepSleep, call_start hn, hd]
        · rfl
      rw [hstart]
      exact hs.single
  · rw [put_shared]
    refine forall_live_put (by simpa using hs.closing) fun f hf hc => ?_
    cases c <;> simp only [ArbiterCall.start] at hf <;> (try split_ifs at hf) <;> cases hf <;>
      simp [Frame.closing] at hc

section exec

variable {l r : List Frame} {d : List (ArbiterCall × Bool)}

theorem inside_closed (hs : GateInv ⟨w, l ++ f :: r, d⟩) (hf : f.inside = true) :
    w.runtimeTransitionGate ≠ kDeepSleepQuiescingBit := by
  intro heq
  have hzero := hs.closed heq
  rw [countP_middle, hf] at hzero
  simp at hzero

theorem others_of_deepSleep (hs : GateInv ⟨w, l ++ f :: r, d⟩) (hf : f.deepSleep = true) :
    ∀ h ∈ l ++ r, h.deepSleep = false := by
  have hsingle := hs.single
  rw [countP_middle, hf, Bool.toNat_true] at hsingle
  have hzero : (l ++ r).countP Frame.deepSleep = 0 := by omega
  intro h hh
  simpa using List.countP_eq_zero.1 hzero h hh

theorem gateInv_count (hs : GateInv ⟨w, l ++ f :: r, d⟩) :
    ((exec b w f).1.runtimeTransitionGate ≠ kDeepSleepQuiescingBit ∧
      (exec b w f).1.runtimeTransitionGate.toNat =
        (l ++ r).countP Frame.inside + ((exec b w f).2.elim Frame.inside fun _ => false).toNat ∧
      (exec b w f).1.runtimeTransitionGate.toNat < 2 ^ 31) ∨
    ((exec b w f).1.runtimeTransitionGate = kDeepSleepQuiescingBit ∧
      (l ++ r).countP Frame.inside + ((exec b w f).2.elim Frame.inside fun _ => false).toNat = 0) := by
  have hopen := hs.opened
  have hclosed := hs.closed
  simp only [countP_middle] at hopen hclosed
  rcases exec_gate b w f with ⟨hw, hn⟩ | ⟨a, rfl, hw, hn⟩ | ⟨a, v, rfl, hw, hn⟩ | ⟨rfl, hz, hw, hn⟩ |
    ⟨rfl, hw, hn⟩ | ⟨rfl, hz, hw, hn⟩
  · rw [hw, hn]
    by_cases hbit : w.runtimeTransitionGate = kDeepSleepQuiescingBit
    · exact Or.inr ⟨hbit, hclosed hbit⟩
    · have hcount := hopen hbit
      exact Or.inl ⟨hbit, hcount.1, by omega⟩
  · -- the caller was counted in: the value it compared with leaves room for one more
    have hlt : w.runtimeTransitionGate.toNat < 2 ^ 31 - 1 :=
      hs.counts (.enterSwap a w.runtimeTransitionGate) (by simp)
    have hcount := hopen (ne_bit (by omega))
    have hin : ((Sum.inl a.entered : Frame ⊕ Bool).elim Frame.inside fun _ => false) = true := by
      cases a <;> rfl
    have hval : (w.runtimeTransitionGate + 1).toNat = w.runtimeTransitionGate.toNat + 1 := by
      rw [UInt32.toNat_add, UInt32.toNat_one]
      omega
    simp only [Frame.inside, Bool.toNat_false, add_zero] at hcount
    rw [hw, hn, hin, hval, Bool.toNat_true]
    exact Or.inl ⟨ne_bit (by omega), by omega, by omega⟩
  · -- the caller was inside, so the count it takes one from is positive
    have hcount := hopen (inside_closed hs rfl)
    simp only [Frame.inside, Bool.toNat_true] at hcount
    have hval : (w.runtimeTransitionGate - 1).toNat = w.runtimeTransitionGate.toNat - 1 := by
      rw [UInt32.toNat_sub, UInt32.toNat_one]
      omega
    rw [hw, hn, hval]
    simp only [Sum.elim_inr, Bool.toNat_false]
    exact Or.inl ⟨ne_bit (by omega), by omega, by omega⟩
  · -- closed from zero: nobody was inside
    have hcount := hopen (ne_bit (by rw [hz]; decide))
    rw [hz] at hcount
    simp only [Frame.inside, Bool.toNat_false, UInt32.toNat_zero] at hcount
    rw [hw, hn]
    exact Or.inr ⟨rfl, by simp only [Sum.elim_inl, Frame.inside, Bool.toNat_false]; omega⟩
  · have hcount := hclosed (hs.closing .quiesceReopen (by simp) rfl)
    simp only [Frame.inside, Bool.toNat_false] at hcount
    rw [hw, hn]
    refine Or.inl ⟨by decide, ?_, by decide⟩
    simp only [Sum.elim_inr, Bool.toNat_false, UInt32.toNat_zero]
    omega
  · have hcount := hclosed hz
    simp only [Frame.inside, Bool.toNat_false] at hcount
    rw [hw, hn]
    refine Or.inl ⟨by decide, ?_, by decide⟩
    simp only [Sum.elim_inr, Bool.toNat_false, UInt32.toNat_zero]
    omega

theorem gateInv_closing (hs : GateInv ⟨w, l ++ f :: r, d⟩) {h : Frame} (hh : h ∈ l ++ r)
    (hc : h.closing = true) : (exec b w f).1.runtimeTransitionGate = kDeepSleepQuiescingBit := by
  have hbit : w.runtimeTransitionGate = kDeepSleepQuiescingBit := hs.closing h (mem_middle hh) hc
  have hdeep : f.deepSleep = false := by
    by_contra hf
    have := others_of_deepSleep hs (by simpa using hf) h hh
    rw [deepSleep_of_closing hc] at this
    simp at this
  rcases exec_gate b w f with ⟨hw, hn⟩ | ⟨a, rfl, hw, hn⟩ | ⟨a, v, rfl, hw, hn⟩ | ⟨rfl, hz, hw, hn⟩ |
    ⟨rfl, hw, hn⟩ | ⟨rfl, hz, hw, hn⟩
  · rw [hw, hbit]
  · have hlt : w.runtimeTransitionGate.toNat < 2 ^ 31 - 1 :=
      hs.counts (.enterSwap a w.runtimeTransitionGate) (by simp)
    exact absurd hbit (ne_bit (by omega))
  · exact absurd hbit (inside_closed hs rfl)
  all_goals simp [Frame.deepSleep, Frame.call, ArbiterCall.deepSleep] at hdeep

theorem gateInv_exec (hs : GateInv ⟨w, l ++ f :: r, d⟩) :
    GateInv (put (exec b w f).1 l r d f.call (exec b w f).2) := by
  have hcount := gateInv_count (b := b) hs
  refine ⟨forall_live_put (fun h hh => hs.counts h (mem_middle hh)) fun f' hf' => counts_exec hf',
    ?_, ?_, ?_, ?_⟩
  · rw [put_shared, countP_live_put]
    rcases hcount with ⟨-, heq, hlt⟩ | ⟨hbit, -⟩
    · rintro -
      exact ⟨heq, by omega⟩
    · exact fun hne => absurd hbit hne
  · rw [put_shared, countP_live_put]
    rcases hcount with ⟨hne, -⟩ | ⟨-, hzero⟩
    · exact fun hbit => absurd hbit hne
    · exact fun _ => hzero
  · have hsingle := hs.single
    rw [countP_middle] at hsingle
    rw [countP_live_put]
    have hle : ((exec b w f).2.elim Frame.deepSleep fun _ => false).toNat ≤ f.deepSleep.toNat := by
      rcases hn : (exec b w f).2 with f' | v
      · simp [Frame.deepSleep, call_exec hn]
      · simp
    omega
  · rw [put_shared]
    refine forall_live_put (fun h hh hc => gateInv_closing hs hh hc) fun f' hf' hc => ?_
    rcases exec_closing hf' hc with ⟨-, -, hbit⟩ | ⟨hf, hsame⟩
    · exact hbit
    · rw [hsame]
      exact hs.closing f (by simp) hf

end exec

theorem gateInv_step (hs : GateInv s) (h : Step arbiter may s s') : GateInv s' := by
  cases h with
  | call hmay => exact gateInv_call hs hmay
  | exec b w l f r d => exact gateInv_exec hs

end CodexKeyboard.Audio
