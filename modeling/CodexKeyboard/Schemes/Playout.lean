import CodexKeyboard.Schemes.Bytes

/-! Numbered blocks of one size that arrive out of order and with losses, played out in sequence: a
    block behind the playout is dropped, what is missing before a block is filled. -/

namespace Schemes.Playout

open Schemes.Bytes

variable {α : Type}

structure Block (α : Type) where
  sequence : Nat
  payload : List α

/-- The sequence the playout waits for, from `next` on. -/
def front (next : Nat) : List (Block α) → Nat
  | [] => next
  | b :: arrivals => front (if b.sequence < next then next else b.sequence + 1) arrivals

/-- The blocks that arrived while the playout had not passed them. -/
def taken (next : Nat) : List (Block α) → List (Block α)
  | [] => []
  | b :: arrivals =>
    if b.sequence < next then taken next arrivals else b :: taken (b.sequence + 1) arrivals

variable {arrivals : List (Block α)} {b : Block α} {next : Nat}

theorem front_snoc (next : Nat) (arrivals : List (Block α)) (b : Block α) :
    front next (arrivals ++ [b]) =
      if b.sequence < front next arrivals then front next arrivals else b.sequence + 1 := by
  induction arrivals generalizing next with
  | nil => rfl
  | cons a arrivals ih => exact ih _

theorem taken_snoc (next : Nat) (arrivals : List (Block α)) (b : Block α) :
    taken next (arrivals ++ [b]) =
      taken next arrivals ++ if b.sequence < front next arrivals then [] else [b] := by
  induction arrivals generalizing next with
  | nil => rfl
  | cons a arrivals ih =>
    simp only [List.cons_append, taken, front, ih]
    split <;> simp

theorem le_front (next : Nat) (arrivals : List (Block α)) : next ≤ front next arrivals := by
  induction arrivals generalizing next with
  | nil => exact Nat.le_refl _
  | cons a arrivals ih =>
    refine Nat.le_trans ?_ (ih _)
    split <;> omega

theorem taken_lt_front (h : b ∈ taken next arrivals) : b.sequence < front next arrivals := by
  induction arrivals generalizing next with
  | nil => simp [taken] at h
  | cons a arrivals ih =>
    simp only [taken, front] at h ⊢
    split at h
    next hlate =>
      rw [if_pos hlate]
      exact ih h
    next hlate =>
      rw [if_neg hlate]
      rcases List.mem_cons.1 h with rfl | h
      · exact Nat.lt_of_lt_of_le (Nat.lt_succ_self _) (le_front _ arrivals)
      · exact ih h

/-- The last block before the front was taken. -/
theorem taken_last (h : next < front next arrivals) :
    ∃ b ∈ taken next arrivals, b.sequence + 1 = front next arrivals := by
  induction arrivals generalizing next with
  | nil => exact absurd h (Nat.lt_irrefl _)
  | cons a arrivals ih =>
    simp only [taken, front] at h ⊢
    split at h
    next hlate =>
      rw [if_pos hlate, if_pos hlate]
      exact ih h
    next hlate =>
      rw [if_neg hlate, if_neg hlate]
      rcases Nat.eq_or_lt_of_le (le_front (a.sequence + 1) arrivals) with heq | hlt
      · exact ⟨a, List.mem_cons_self, heq⟩
      · obtain ⟨b, hb, hlast⟩ := ih hlt
        exact ⟨b, List.mem_cons_of_mem _ hb, hlast⟩

/-! ### The stream -/

/-- The block played at `sequence`: the first that arrived in time, or the filling. -/
def played (size : Nat) (silence : α) (arrivals : List (Block α)) (sequence : Nat) : List α :=
  match (taken 0 arrivals).find? fun b => b.sequence == sequence with
  | some b => b.payload
  | none => List.replicate size silence

/-- `stream` is `n` blocks of `size`, and no more than `gap` of them in a row are filled. -/
structure Assembled (size : Nat) (silence : α) (gap : Nat) (arrivals : List (Block α))
    (stream : List α) (n : Nat) : Prop where
  length : stream.length = size * n
  block : ∀ k < n, slice stream (size * k) size = played size silence arrivals k
  gaps : ∀ k, k + gap < n → ∃ b ∈ taken 0 arrivals, k ≤ b.sequence ∧ b.sequence ≤ k + gap

variable {size gap n : Nat} {silence : α} {stream : List α}

theorem assembled_nil (size : Nat) (silence : α) (gap : Nat) :
    Assembled size silence gap [] [] 0 := by
  refine ⟨rfl, ?_, ?_⟩
  · intro k hk
    exact absurd hk (Nat.not_lt_zero k)
  · intro k hk
    exact absurd hk (Nat.not_lt_zero _)

/-- Nothing was taken at or behind the front. -/
theorem played_ahead {k : Nat} (h : front 0 arrivals ≤ k) :
    played size silence arrivals k = List.replicate size silence := by
  have hnone : (taken 0 arrivals).find? (fun b => b.sequence == k) = none := by
    rw [List.find?_eq_none]
    intro b hb
    have hlt := taken_lt_front hb
    simp only [beq_iff_eq]
    omega
  rw [played, hnone]

theorem slice_replicate {m o l : Nat} (a : α) (h : o + l ≤ m) :
    slice (List.replicate m a) o l = List.replicate l a := by
  rw [slice, List.drop_replicate, List.take_replicate, Nat.min_eq_left (by omega)]

theorem block_inside {k : Nat} (h : k < n) : size * k + size ≤ size * n :=
  Nat.mul_succ size k ▸ Nat.mul_le_mul_left size h

/-- A gap of no more than `gap` blocks may be filled. -/
theorem Assembled.fill (h : Assembled size silence gap arrivals stream n)
    (hfront : front 0 arrivals = n) {m : Nat} (hgap : m ≤ gap) :
    Assembled size silence gap arrivals (stream ++ List.replicate (m * size) silence) (n + m) := by
  refine ⟨?_, ?_, ?_⟩
  · rw [List.length_append, h.length, List.length_replicate, Nat.mul_add, Nat.mul_comm m]
  · intro k hk
    have hinside : size * k + size ≤ size * (n + m) := block_inside hk
    rcases Nat.lt_or_ge k n with hold | hnew
    · rw [slice_append_left (h.length ▸ block_inside hold), h.block k hold]
    · have hstart := Nat.mul_le_mul_left size hnew
      rw [Nat.mul_add, Nat.mul_comm size m] at hinside
      rw [slice_append_right (h.length ▸ hstart), h.length, slice_replicate silence (by omega),
        played_ahead (by omega)]
  · intro k hk
    rcases Nat.lt_or_ge (k + gap) n with hold | hnew
    · exact h.gaps k hold
    · obtain ⟨b, hb, hlast⟩ := taken_last (show 0 < front 0 arrivals by omega)
      exact ⟨b, hb, by omega, by omega⟩

theorem find_snoc (arrivals : List (Block α)) {b : Block α} {k : Nat}
    (hfront : front 0 arrivals ≤ b.sequence) :
    (taken 0 (arrivals ++ [b])).find? (fun a => a.sequence == k) =
      ((taken 0 arrivals).find? fun a => a.sequence == k).or
        (if b.sequence = k then some b else none) := by
  have hsnoc := taken_snoc 0 arrivals b
  rw [if_neg (Nat.not_lt.2 hfront)] at hsnoc
  rw [hsnoc, List.find?_append]
  congr 1
  by_cases h : b.sequence = k <;> simp [h]

/-- The block the stream has come to is appended. -/
theorem Assembled.push (h : Assembled size silence gap arrivals stream b.sequence)
    (hfront : front 0 arrivals ≤ b.sequence) (hsize : b.payload.length = size) :
    Assembled size silence gap (arrivals ++ [b]) (stream ++ b.payload) (b.sequence + 1) := by
  have htaken := taken_snoc 0 arrivals b
  rw [if_neg (Nat.not_lt.2 hfront)] at htaken
  refine ⟨?_, ?_, ?_⟩
  · rw [List.length_append, h.length, hsize, Nat.mul_succ]
  · intro k hk
    rcases Nat.lt_or_ge k b.sequence with hold | hnew
    · rw [slice_append_left (h.length ▸ block_inside hold), h.block k hold, played, played,
        find_snoc arrivals hfront, if_neg (Nat.ne_of_gt hold), Option.or_none]
    · obtain rfl : k = b.sequence := by omega
      have hall : slice b.payload 0 size = b.payload := by rw [← hsize, slice_all]
      have hnone : (taken 0 arrivals).find? (fun a => a.sequence == b.sequence) = none := by
        rw [List.find?_eq_none]
        intro a ha
        have hlt := taken_lt_front ha
        simp only [beq_iff_eq]
        omega
      rw [slice_append_right (Nat.le_of_eq h.length), h.length, Nat.sub_self, hall, played,
        find_snoc arrivals hfront, hnone, if_pos rfl, Option.none_or]
  · intro k hk
    rw [htaken]
    rcases Nat.lt_or_ge (k + gap) b.sequence with hold | hnew
    · obtain ⟨a, ha, hle⟩ := h.gaps k hold
      exact ⟨a, List.mem_append_left _ ha, hle⟩
    · exact ⟨b, List.mem_append_right _ (List.mem_singleton_self b), by omega, by omega⟩

/-- A block behind the front changes nothing. -/
theorem Assembled.late (h : Assembled size silence gap arrivals stream n)
    (hlate : b.sequence < front 0 arrivals) :
    Assembled size silence gap (arrivals ++ [b]) stream n := by
  have htaken := taken_snoc 0 arrivals b
  rw [if_pos hlate, List.append_nil] at htaken
  refine ⟨h.length, ?_, ?_⟩
  · intro k hk
    rw [h.block k hk, played, played, htaken]
  · rw [htaken]
    exact h.gaps

end Schemes.Playout
