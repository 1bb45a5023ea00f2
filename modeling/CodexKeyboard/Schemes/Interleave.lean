import Mathlib.Tactic

/-! Calls that run concurrently over shared words, one atomic step at a time.

    A `Machine` says at which program point a call starts and what the atomic operation of a program
    point does; a `System` is the shared words, the calls in flight, each at its program point, and
    the completed calls with their answers, newest first. Any number of calls may be in flight and
    any of them may take the next step. The lemmas are the two rules an invariant over all
    interleavings is made of: what the stepping call finds at its next point, and that the points of
    the other calls are left as they were. -/

namespace Schemes.Interleave

/-- Concurrent calls `κ` with program points `φ` and answers `ρ`. The flag of `exec` lets an atomic
    operation that may fail spuriously do so. -/
structure Machine (σ κ φ ρ : Type) where
  call : φ → κ
  start : κ → φ ⊕ ρ
  exec : Bool → σ → φ → σ × (φ ⊕ ρ)
  call_start : ∀ {c f}, start c = .inl f → call f = c
  call_exec : ∀ {b w f f'}, (exec b w f).2 = .inl f' → call f' = call f

/-- Shared words, calls in flight, completed calls (newest first). -/
@[ext] structure System (σ κ φ ρ : Type) where
  shared : σ
  live : List φ
  done : List (κ × ρ)

variable {σ κ φ ρ : Type}

/-- The call `c`, between the calls `l` and `r`, goes on at its next point or completes. -/
def put (w : σ) (l r : List φ) (done : List (κ × ρ)) (c : κ) : φ ⊕ ρ → System σ κ φ ρ
  | .inl f => ⟨w, l ++ f :: r, done⟩
  | .inr v => ⟨w, l ++ r, (c, v) :: done⟩

section put

variable {w : σ} {l r : List φ} {d : List (κ × ρ)} {c : κ} {n : φ ⊕ ρ}

@[simp] theorem put_shared : (put w l r d c n).shared = w := by
  cases n <;> rfl

theorem mem_done_put {e : κ × ρ} :
    e ∈ (put w l r d c n).done ↔ e ∈ d ∨ ∃ v, n = .inr v ∧ e = (c, v) := by
  cases n with
  | inl f => simp [put]
  | inr v => simp [put, or_comm]

theorem done_put_of_mem {e : κ × ρ} (h : e ∈ d) : e ∈ (put w l r d c n).done :=
  mem_done_put.2 (Or.inl h)

theorem mem_live_put {h : φ} : h ∈ (put w l r d c n).live ↔ h ∈ l ++ r ∨ n = .inl h := by
  cases n with
  | inl f =>
    simp only [put, List.mem_append, List.mem_cons, Sum.inl.injEq, eq_comm (a := h)]
    tauto
  | inr v => simp [put]

theorem mem_middle {h f : φ} (hh : h ∈ l ++ r) : h ∈ l ++ f :: r := by
  rcases List.mem_append.1 hh with hl | hr
  · exact List.mem_append_left _ hl
  · exact List.mem_append_right _ (List.mem_cons_of_mem _ hr)

/-- A property of every call in flight: of the one that stepped, and of the others. -/
theorem forall_live_put {P : φ → Prop} (hrest : ∀ h ∈ l ++ r, P h) (hnext : ∀ f, n = .inl f → P f) :
    ∀ h ∈ (put w l r d c n).live, P h := by
  intro h hh
  rcases mem_live_put.1 hh with hold | hnew
  · exact hrest h hold
  · exact hnext h hnew

/-- Counting the calls in flight: the others, and the one that steps. -/
theorem countP_middle {p : φ → Bool} {f : φ} :
    (l ++ f :: r).countP p = (l ++ r).countP p + (p f).toNat := by
  simp only [List.countP_append, List.countP_cons]
  cases p f <;> simp
  omega

theorem countP_live_put {p : φ → Bool} : (put w l r d c n).live.countP p =
    (l ++ r).countP p + (n.elim p (fun _ => false)).toNat := by
  cases n with
  | inl f => exact countP_middle
  | inr v => simp [put]

end put

variable (M : Machine σ κ φ ρ) (may : System σ κ φ ρ → κ → Prop)

/-- A new call starts, where `may` allows it, or some call in flight takes its atomic step. -/
inductive Step : System σ κ φ ρ → System σ κ φ ρ → Prop
  | call {s c} : may s c → Step s (put s.shared [] s.live s.done c (M.start c))
  | exec (b : Bool) (w : σ) (l : List φ) (f : φ) (r : List φ) (d : List (κ × ρ)) :
    Step ⟨w, l ++ f :: r, d⟩ (put (M.exec b w f).1 l r d (M.call f) (M.exec b w f).2)

/-- The states some interleaving reaches from no calls at all. -/
inductive Reachable (w : σ) : System σ κ φ ρ → Prop
  | init : Reachable w ⟨w, [], []⟩
  | step {s s'} : Reachable w s → Step M may s s' → Reachable w s'

/-- Interleavings that go on from a state. -/
inductive Run : System σ κ φ ρ → System σ κ φ ρ → Prop
  | refl (s) : Run s s
  | step {s t u} : Run s t → Step M may t u → Run s u

variable {M may}

/-- The induction over interleavings: a property of the first state that every step keeps. -/
theorem Reachable.induct {w : σ} {P : System σ κ φ ρ → Prop} (hinit : P ⟨w, [], []⟩)
    (hstep : ∀ {s s'}, P s → Step M may s s' → P s') {s} (h : Reachable M may w s) : P s := by
  induction h with
  | init => exact hinit
  | step _ hs ih => exact hstep ih hs

theorem Reachable.run {w : σ} {s s' : System σ κ φ ρ} (h : Reachable M may w s)
    (hrun : Run M may s s') : Reachable M may w s' := by
  induction hrun with
  | refl => exact h
  | step _ hs ih => exact ih.step hs

/-! ### Every call, in flight or completed -/

/-- The calls made so far. -/
def System.calls (M : Machine σ κ φ ρ) (s : System σ κ φ ρ) : List κ :=
  s.live.map M.call ++ s.done.map Prod.fst

/-- A start adds its call; -/
theorem calls_start {s : System σ κ φ ρ} {c : κ} :
    ((put s.shared [] s.live s.done c (M.start c)).calls M).Perm (c :: s.calls M) := by
  cases hn : M.start c with
  | inl f => simp [put, System.calls, M.call_start hn]
  | inr v => simp [put, System.calls]

/-- and an atomic step adds none: the call goes on or becomes a completed one. -/
theorem calls_exec {b : Bool} {w : σ} {l r : List φ} {f : φ} {d : List (κ × ρ)} :
    ((put (M.exec b w f).1 l r d (M.call f) (M.exec b w f).2).calls M).Perm
      ((⟨w, l ++ f :: r, d⟩ : System σ κ φ ρ).calls M) := by
  cases hn : (M.exec b w f).2 with
  | inl f' => simp [put, System.calls, M.call_exec hn]
  | inr v =>
    simp only [put, System.calls, List.map_append, List.map_cons, List.append_assoc, List.cons_append]
    refine List.Perm.append_left _ ?_
    exact List.perm_middle

/-- Calls of the kind `p` that are made at most once each stay so, when a start makes a new one. -/
theorem Step.nodup_calls {p : κ → Bool} {s s' : System σ κ φ ρ} (h : Step M may s s')
    (hfresh : ∀ {s c}, may s c → p c = true → c ∉ s.calls M)
    (hs : ((s.calls M).filter p).Nodup) : ((s'.calls M).filter p).Nodup := by
  cases h with
  | @call s c hmay =>
    rw [(calls_start.filter p).nodup_iff]
    cases hp : p c with
    | false => rwa [List.filter_cons_of_neg (by simp [hp])]
    | true =>
      rw [List.filter_cons_of_pos hp]
      exact List.nodup_cons.2 ⟨fun hc => hfresh hmay hp (List.mem_filter.1 hc).1, hs⟩
  | exec b w l f r d => rwa [(calls_exec.filter p).nodup_iff]

/-- A call that is made once and is in flight at `f` is no other call's, and is not completed. -/
theorem once_of_nodup {p : κ → Bool} {w : σ} {l r : List φ} {f : φ} {d : List (κ × ρ)}
    (hs : (((⟨w, l ++ f :: r, d⟩ : System σ κ φ ρ).calls M).filter p).Nodup) (hp : p (M.call f) = true) :
    (∀ h ∈ l ++ r, M.call h ≠ M.call f) ∧ ∀ v, (M.call f, v) ∉ d := by
  have hperm : ((⟨w, l ++ f :: r, d⟩ : System σ κ φ ρ).calls M).Perm
      (M.call f :: ((l ++ r).map M.call ++ d.map Prod.fst)) := by
    simp only [System.calls, List.map_append, List.map_cons, List.append_assoc, List.cons_append]
    exact List.perm_middle
  rw [(hperm.filter p).nodup_iff, List.filter_cons_of_pos hp, List.nodup_cons] at hs
  have hnot : M.call f ∉ (l ++ r).map M.call ++ d.map Prod.fst := fun hc =>
    hs.1 (List.mem_filter.2 ⟨hc, hp⟩)
  refine ⟨fun h hh heq => hnot ?_, fun v hv => hnot ?_⟩
  · exact List.mem_append_left _ (heq ▸ List.mem_map_of_mem hh)
  · exact List.mem_append_right _ (List.mem_map_of_mem (f := Prod.fst) hv)

/-! ### The log of completed calls -/

/-- Every completion satisfies `Q` together with the completions before it. -/
def History (Q : κ × ρ → List (κ × ρ) → Prop) : List (κ × ρ) → Prop
  | [] => True
  | e :: before => Q e before ∧ History Q before

theorem History.split {Q : κ × ρ → List (κ × ρ) → Prop} {d after before : List (κ × ρ)} {e : κ × ρ}
    (h : History Q d) (hd : d = after ++ e :: before) : Q e before := by
  induction after generalizing d with
  | nil =>
    subst hd
    exact h.1
  | cons a after ih =>
    subst hd
    exact ih h.2 rfl

/-- A completion is checked when it is logged. -/
theorem History.put {Q : κ × ρ → List (κ × ρ) → Prop} {w : σ} {l r : List φ} {d : List (κ × ρ)} {c : κ}
    {n : φ ⊕ ρ} (h : History Q d) (hn : ∀ v, n = .inr v → Q (c, v) d) :
    History Q (put w l r d c n).done := by
  cases n with
  | inl f => exact h
  | inr v => exact ⟨hn v rfl, h⟩

end Schemes.Interleave
