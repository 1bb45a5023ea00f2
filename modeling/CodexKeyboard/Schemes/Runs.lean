import Mathlib.Data.List.Destutter
import Mathlib.Tactic

/-! The runs of equal items in a list, one item for each. -/

namespace Schemes

variable {α : Type} [DecidableEq α]

def runs (l : List α) : List α := l.destutter (· ≠ ·)

namespace Runs

variable {a b : α} {l m : List α}

theorem runs_cons_cons (a b : α) (l : List α) :
    runs (a :: b :: l) = if a = b then runs (b :: l) else a :: runs (b :: l) := by
  rw [runs, runs, List.destutter_cons', List.destutter_cons', List.destutter'_cons]
  by_cases h : a = b
  · rw [if_pos h, if_neg (not_not_intro h), h]
  · rw [if_neg h, if_pos h]

/-- The runs begin with the first item. -/
theorem runs_cons (a : α) (l : List α) : ∃ m, runs (a :: l) = a :: m := by
  induction l generalizing a with
  | nil => exact ⟨[], rfl⟩
  | cons b l ih =>
    rw [runs_cons_cons]
    split
    next h => rw [h]; exact ih b
    next h => exact ⟨_, rfl⟩

theorem runs_append (l m : List α) : runs (l ++ m) = runs (runs l ++ m) := by
  induction l with
  | nil => rfl
  | cons a l ih =>
    cases l with
    | nil => rfl
    | cons b l =>
      obtain ⟨rest, hrest⟩ := runs_cons b l
      rw [List.cons_append] at ih ⊢
      rw [List.cons_append, runs_cons_cons, runs_cons_cons, ih]
      split
      · rfl
      next h => rw [hrest, List.cons_append, List.cons_append, List.cons_append, runs_cons_cons, if_neg h]

/-- What follows adds the same runs to lists with the same runs. -/
theorem runs_append_congr (h : runs l = runs m) (rest : List α) : runs (l ++ rest) = runs (m ++ rest) := by
  rw [runs_append l, h, ← runs_append]

/-- An item again right after itself adds no run. -/
theorem runs_repeat (l : List α) (a : α) (m : List α) : runs (l ++ a :: a :: m) = runs (l ++ a :: m) := by
  induction l with
  | nil => rw [List.nil_append, runs_cons_cons, if_pos rfl, List.nil_append]
  | cons b l ih =>
    cases l with
    | nil =>
      rw [List.nil_append, List.nil_append] at ih
      simp only [List.cons_append, List.nil_append, runs_cons_cons b a, ih]
    | cons c l =>
      simp only [List.cons_append] at ih ⊢
      rw [runs_cons_cons, runs_cons_cons, ih]

end Runs

end Schemes
