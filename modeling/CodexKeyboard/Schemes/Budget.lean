import Mathlib.Tactic

/-! Lists held to a budget: every element has a weight, and a store keeps what still fits at its front
    and, of the rest, the last that fit at its back. -/

namespace Schemes.Budget

variable {α : Type} (w : α → Nat)

def weight (l : List α) : Nat := (l.map w).sum

/-- The longest beginning that fits in `room`. -/
def front (room : Nat) : List α → List α
  | [] => []
  | a :: l => if w a ≤ room then a :: front (room - w a) l else []

/-- What is behind it. -/
def behind (room : Nat) : List α → List α
  | [] => []
  | a :: l => if w a ≤ room then behind (room - w a) l else a :: l

/-- What is taken by one who skips what does not fit, and goes on. -/
def taken (room : Nat) : List α → List α
  | [] => []
  | a :: l => if w a ≤ room then a :: taken (room - w a) l else taken room l

/-- What he skips. -/
def skipped (room : Nat) : List α → List α
  | [] => []
  | a :: l => if w a ≤ room then skipped (room - w a) l else a :: skipped room l

/-- The longest end that fits in `limit`. -/
def keepLast (limit : Nat) : List α → List α
  | [] => []
  | a :: l => if weight w (a :: l) ≤ limit then a :: l else keepLast limit l

variable {w} {room limit : Nat} {l : List α}

@[simp] theorem weight_nil : weight w ([] : List α) = 0 := rfl

@[simp] theorem weight_cons (a : α) (l : List α) : weight w (a :: l) = w a + weight w l := by
  rw [weight, List.map_cons, List.sum_cons, weight]

@[simp] theorem weight_append (a b : List α) : weight w (a ++ b) = weight w a + weight w b := by
  rw [weight, List.map_append, List.sum_append, weight, weight]

theorem front_behind (room : Nat) (l : List α) : front w room l ++ behind w room l = l := by
  induction l generalizing room with
  | nil => rfl
  | cons a l ih =>
    rw [front, behind]
    split
    · rw [List.cons_append, ih]
    · rfl

theorem weight_front_le (room : Nat) (l : List α) : weight w (front w room l) ≤ room := by
  induction l generalizing room with
  | nil => exact Nat.zero_le _
  | cons a l ih =>
    rw [front]
    split
    · have hrest := ih (room - w a)
      rw [weight_cons]
      omega
    · exact Nat.zero_le _

/-- The first element behind the front does not fit any more. -/
theorem behind_head {a : α} {rest : List α} (h : behind w room l = a :: rest) :
    room - weight w (front w room l) < w a := by
  induction l generalizing room with
  | nil => simp [behind] at h
  | cons b l ih =>
    rw [behind] at h
    rw [front]
    split at h
    next hfits =>
      rw [if_pos hfits, weight_cons]
      have hrest := ih h
      omega
    next hover =>
      obtain ⟨rfl, rfl⟩ := List.cons.inj h
      rw [if_neg hover, weight_nil]
      omega

/-- The front is taken first; behind it only what is lighter than what is left of the room. -/
theorem taken_eq (room : Nat) (l : List α) :
    taken w room l = front w room l ++ taken w (room - weight w (front w room l)) (behind w room l) := by
  induction l generalizing room with
  | nil => rfl
  | cons a l ih =>
    rw [front, behind]
    split
    next hfits =>
      rw [taken, if_pos hfits, ih, weight_cons, List.cons_append, Nat.sub_add_eq]
    next hover => rw [weight_nil, Nat.sub_zero, List.nil_append]

theorem skipped_eq (room : Nat) (l : List α) :
    skipped w room l = skipped w (room - weight w (front w room l)) (behind w room l) := by
  induction l generalizing room with
  | nil => rfl
  | cons a l ih =>
    rw [front, behind]
    split
    next hfits => rw [skipped, if_pos hfits, ih, weight_cons, Nat.sub_add_eq]
    next hover => rw [weight_nil, Nat.sub_zero]

/-- Where nothing fits nothing is taken. -/
theorem taken_none (h : ∀ a ∈ l, room < w a) : taken w room l = [] ∧ skipped w room l = l := by
  induction l with
  | nil => exact ⟨rfl, rfl⟩
  | cons a l ih =>
    obtain ⟨htaken, hskipped⟩ := ih fun b hb => h b (List.mem_cons_of_mem a hb)
    have hover := Nat.not_le.2 (h a List.mem_cons_self)
    exact ⟨by rw [taken, if_neg hover, htaken], by rw [skipped, if_neg hover, hskipped]⟩

/-- Where something fits, what is taken first fits. -/
theorem taken_some {a : α} (ha : a ∈ l) (hfits : w a ≤ room) :
    ∃ b rest, taken w room l = b :: rest ∧ w b ≤ room := by
  induction l with
  | nil => exact absurd ha List.not_mem_nil
  | cons c l ih =>
    rw [taken]
    split
    next hc => exact ⟨c, _, rfl, hc⟩
    next hover =>
      rcases List.mem_cons.1 ha with rfl | ha
      · exact absurd hfits hover
      · exact ih ha

/-- A beginning that fits is taken whole. -/
theorem taken_append {a : List α} (b : List α) (h : weight w a ≤ room) :
    taken w room (a ++ b) = a ++ taken w (room - weight w a) b ∧
      skipped w room (a ++ b) = skipped w (room - weight w a) b := by
  induction a generalizing room with
  | nil => exact ⟨by rw [weight_nil, Nat.sub_zero, List.nil_append, List.nil_append], rfl⟩
  | cons x a ih =>
    rw [weight_cons] at h
    obtain ⟨htaken, hskipped⟩ := ih (show weight w a ≤ room - w x by omega)
    rw [List.cons_append, taken, skipped, if_pos (by omega), if_pos (by omega), htaken, hskipped, weight_cons,
      Nat.sub_add_eq]
    exact ⟨rfl, rfl⟩

/-! ### The end of a list -/

theorem keepLast_of_le (h : weight w l ≤ limit) : keepLast w limit l = l := by
  cases l with
  | nil => rfl
  | cons a l => rw [keepLast, if_pos h]

theorem keepLast_cons {a : α} (h : limit < weight w (a :: l)) :
    keepLast w limit (a :: l) = keepLast w limit l := by
  rw [keepLast, if_neg (Nat.not_le.2 h)]

theorem keepLast_suffix (limit : Nat) (l : List α) : keepLast w limit l <:+ l := by
  induction l with
  | nil => exact List.suffix_rfl
  | cons a l ih =>
    rw [keepLast]
    split
    · exact List.suffix_rfl
    · exact ih.trans (List.suffix_cons a l)

theorem weight_keepLast_le (limit : Nat) (l : List α) : weight w (keepLast w limit l) ≤ limit := by
  induction l with
  | nil => exact Nat.zero_le _
  | cons a l ih =>
    rw [keepLast]
    split
    next hfits => exact hfits
    next => exact ih

/-- An end that fills the limit is what is kept. -/
theorem keepLast_full {a b : List α} (hb : weight w b = limit) (ha : ∀ x ∈ a, 0 < w x) :
    keepLast w limit (a ++ b) = b := by
  induction a with
  | nil => exact keepLast_of_le (Nat.le_of_eq hb)
  | cons x a ih =>
    have hx := ha x List.mem_cons_self
    rw [List.cons_append, keepLast_cons, ih fun y hy => ha y (List.mem_cons_of_mem x hy)]
    rw [weight_cons, weight_append]
    omega

/-- What is dropped early would have been dropped later. -/
theorem keepLast_append (limit : Nat) (a b : List α) :
    keepLast w limit (keepLast w limit a ++ b) = keepLast w limit (a ++ b) := by
  induction a with
  | nil => rfl
  | cons x a ih =>
    rcases Nat.lt_or_ge limit (weight w (x :: a)) with hover | hfits
    · have hall : limit < weight w (x :: (a ++ b)) := by
        rw [weight_cons, weight_append]
        rw [weight_cons] at hover
        omega
      rw [keepLast_cons hover, ih, List.cons_append, keepLast_cons hall]
    · rw [keepLast_of_le hfits]

end Schemes.Budget
