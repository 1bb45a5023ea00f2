import Mathlib.Data.List.Nodup
import Mathlib.Tactic

/-! A memory of the latest entries of a log. When an entry is only logged while it is not remembered,
    an entry comes back only after as many others as the memory holds. -/

namespace Schemes.Recent

variable {α : Type} {cap : Nat} {log : List α} {x : α}

/-- The last `cap` entries of the log. -/
def latest (cap : Nat) (log : List α) : List α := log.drop (log.length - cap)

theorem latest_snoc (cap : Nat) (log : List α) (x : α) :
    (latest cap log ++ [x]).drop ((latest cap log ++ [x]).length - cap) = latest cap (log ++ [x]) := by
  have hlength : (latest cap log).length = log.length - (log.length - cap) := List.length_drop
  have hcut : log.length - cap + ((latest cap log ++ [x]).length - cap) =
      (log ++ [x]).length - cap := by
    rw [List.length_append, List.length_append, hlength, List.length_singleton]
    omega
  have hback : (log ++ [x]).drop (log.length - cap) = latest cap log ++ [x] := by
    rw [latest, List.drop_append_of_le_length (Nat.sub_le _ _)]
  calc (latest cap log ++ [x]).drop ((latest cap log ++ [x]).length - cap)
      = ((log ++ [x]).drop (log.length - cap)).drop ((latest cap log ++ [x]).length - cap) := by
        rw [hback]
    _ = latest cap (log ++ [x]) := by rw [List.drop_drop, hcut, latest]

theorem latest_sublist (cap : Nat) (log : List α) (x : α) :
    (latest cap (log ++ [x])).Sublist (latest cap log ++ [x]) := by
  rw [← latest_snoc]
  exact List.drop_sublist _ _

/-- No entry was remembered when it was logged. -/
inductive Fresh (cap : Nat) : List α → Prop
  | nil : Fresh cap []
  | snoc {log : List α} {x : α} (h : Fresh cap log) (new : x ∉ latest cap log) :
      Fresh cap (log ++ [x])

theorem Fresh.nodup (h : Fresh cap log) : (latest cap log).Nodup := by
  induction h with
  | nil => simp [latest]
  | snoc h new ih =>
    refine List.Nodup.sublist (latest_sublist _ _ _) ?_
    rw [List.nodup_append]
    refine ⟨ih, List.nodup_singleton _, ?_⟩
    rintro a ha b hb rfl
    exact new (List.mem_singleton.1 hb ▸ ha)

/-- An entry that is forgotten has `cap` others behind it. -/
theorem Fresh.forgotten {earlier later : List α} (h : Fresh cap (earlier ++ x :: later))
    (hx : x ∉ latest cap (earlier ++ x :: later)) :
    ∃ others : List α, others.Nodup ∧ x ∉ others ∧ others.length = cap ∧ ∀ y ∈ others, y ∈ later := by
  have hlength : (earlier ++ x :: later).length = earlier.length + (later.length + 1) := by simp
  have hmany : cap ≤ later.length := by
    by_contra hfew
    apply hx
    rw [latest, List.drop_append_of_le_length (by omega)]
    simp
  have hlatest : latest cap (earlier ++ x :: later) = latest cap later := by
    have hcut : (earlier ++ x :: later).length - cap =
        (earlier ++ [x]).length + (later.length - cap) := by
      rw [hlength, List.length_append, List.length_singleton]
      omega
    rw [latest, hcut, ← List.drop_drop, List.append_cons earlier x later, List.drop_left, latest]
  refine ⟨latest cap later, hlatest ▸ h.nodup, hlatest ▸ hx, ?_, fun y hy => List.mem_of_mem_drop hy⟩
  rw [latest, List.length_drop]
  omega

end Schemes.Recent
