import Mathlib.Tactic

/-! Walks around a cycle of positions: how far a walk goes, and what a count that begins at a position makes of
    it. -/

namespace Schemes.Winding

variable {n a b : Nat} {count delta : Int} {walk : List Nat}

/-- A move to the same position or to one beside it; none for any other. -/
def move (n a b : Nat) : Option Int :=
  if b = a then some 0
  else if b = a + 1 ∨ (a + 1 = n ∧ b = 0) then some 1
  else if a = b + 1 ∨ (b + 1 = n ∧ a = 0) then some (-1)
  else none

/-- Every move of a walk is to a position beside the one before. -/
def Connected (n : Nat) : Nat → List Nat → Prop
  | _, [] => True
  | a, b :: walk => (move n a b).isSome ∧ Connected n b walk

/-- How far a walk goes: forwards counts up, backwards counts down. -/
def travelled (n : Nat) : Nat → List Nat → Int
  | _, [] => 0
  | a, b :: walk => (move n a b).getD 0 + travelled n b walk

/-- Where a walk ends. -/
def target (a : Nat) (walk : List Nat) : Nat := walk.getLastD a

theorem move_cases (h : move n a b = some delta) :
    (delta = 0 ∧ b = a) ∨ (delta = 1 ∧ (b = a + 1 ∨ (a + 1 = n ∧ b = 0))) ∨
      (delta = -1 ∧ (a = b + 1 ∨ (b + 1 = n ∧ a = 0))) := by
  rw [move] at h
  split at h
  next hsame =>
    cases h
    exact .inl ⟨rfl, hsame⟩
  next =>
    split at h
    next hforwards =>
      cases h
      exact .inr (.inl ⟨rfl, hforwards⟩)
    next =>
      split at h
      next hbackwards =>
        cases h
        exact .inr (.inr ⟨rfl, hbackwards⟩)
      next => cases h

theorem connected_concat : Connected n a (walk ++ [b]) ↔ Connected n a walk ∧ (move n (target a walk) b).isSome := by
  induction walk generalizing a with
  | nil => simp [Connected, target]
  | cons c walk ih =>
    rw [List.cons_append, Connected, ih, Connected, target, target, List.getLastD_cons, and_assoc]

/-! ### Counts -/

/-- A count from the last visit of 0 on. -/
def Lifts (n : Nat) (count : Int) (a : Nat) : Prop :=
  (a = 0 ∧ count = 0) ∨ (0 < a ∧ (count = a ∨ count = a - n))

theorem Lifts.away (h : Lifts n count a) (ha : a < n) (hb : 0 < b) (hbn : b < n) (hmove : move n a b = some delta) :
    Lifts n (count + delta) b := by
  rw [Lifts] at h ⊢
  rcases move_cases hmove with ⟨rfl, hab⟩ | ⟨rfl, hab⟩ | ⟨rfl, hab⟩
  · omega
  · omega
  · omega

/-- Back at 0 there was a whole turn or none. -/
theorem Lifts.home (h : Lifts n count a) (ha : a < n) (hmove : move n a 0 = some delta) :
    count + delta = 0 ∨ count + delta = n ∨ count + delta = -n := by
  rw [Lifts] at h
  rcases move_cases hmove with ⟨rfl, hab⟩ | ⟨rfl, hab⟩ | ⟨rfl, hab⟩
  · omega
  · omega
  · omega

/-- A count from a position other than 0 on, since the last visit of 0. -/
def Drifts (n : Nat) (count : Int) (a : Nat) : Prop :=
  0 < a ∧ ∃ origin : Nat, 0 < origin ∧ origin < n ∧ count = a - origin

theorem Drifts.away (h : Drifts n count a) (hb : 0 < b) (hmove : move n a b = some delta) :
    Drifts n (count + delta) b := by
  obtain ⟨ha, origin, hpos, hlt, rfl⟩ := h
  refine ⟨hb, origin, hpos, hlt, ?_⟩
  rcases move_cases hmove with ⟨rfl, hab⟩ | ⟨rfl, hab⟩ | ⟨rfl, hab⟩
  · omega
  · omega
  · omega

/-- Back at 0 such a count is short of a turn. -/
theorem Drifts.home (h : Drifts n count a) (ha : a < n) (hmove : move n a 0 = some delta) :
    -n < count + delta ∧ count + delta < n := by
  obtain ⟨hpos, origin, horigin, hlt, rfl⟩ := h
  rcases move_cases hmove with ⟨rfl, hab⟩ | ⟨rfl, hab⟩ | ⟨rfl, hab⟩
  · omega
  · omega
  · omega

end Schemes.Winding
