import Mathlib.Tactic

/-! Turns that go around `n` places: of those that wait, the first from the preferred place on is served, and the place
    behind it is preferred next. Whoever waits sees each other place served at most once. -/

namespace Schemes

/-- The place that is served next. -/
def turn (n next : ℕ) (waits : ℕ → Bool) : Option ℕ :=
  ((List.range n).find? fun offset => waits ((next + offset) % n)).map fun offset => (next + offset) % n

def turnAfter (n served : ℕ) : ℕ := (served + 1) % n

/-- How far `place` is behind the preferred one. -/
def behind (n next place : ℕ) : ℕ := (place + (n - next)) % n

namespace Turn

variable {n next place served offset : ℕ} {waits : ℕ → Bool}

theorem behind_lt (hnext : next < n) (place : ℕ) : behind n next place < n :=
  Nat.mod_lt _ (Nat.lt_of_le_of_lt (Nat.zero_le _) hnext)

theorem turnAfter_lt (h : served < n) : turnAfter n served < n := Nat.mod_lt _ (Nat.lt_of_le_of_lt (Nat.zero_le _) h)

/-- Going as far as `place` is behind leads to it. -/
theorem add_behind (hnext : next < n) (hplace : place < n) : (next + behind n next place) % n = place := by
  rw [behind, Nat.add_mod_mod, show next + (place + (n - next)) = place + n by omega, Nat.add_mod_right,
    Nat.mod_eq_of_lt hplace]

theorem behind_add (hnext : next < n) (hoffset : offset < n) : behind n next ((next + offset) % n) = offset := by
  rw [behind, Nat.mod_add_mod, show next + offset + (n - next) = offset + n by omega, Nat.add_mod_right,
    Nat.mod_eq_of_lt hoffset]

theorem turn_some (hnext : next < n) (h : turn n next waits = some served) : served < n ∧ waits served = true ∧
    ∀ place < n, waits place = true → behind n next served ≤ behind n next place := by
  obtain ⟨offset, hfind, rfl⟩ := Option.map_eq_some_iff.1 h
  obtain ⟨hwaits, hmem, hfirst⟩ := List.find?_range_eq_some.1 hfind
  have hoffset := List.mem_range.1 hmem
  refine ⟨Nat.mod_lt _ (by omega), hwaits, fun place hplace hplaceWaits => ?_⟩
  rw [behind_add hnext hoffset]
  by_contra hbefore
  have hnot := hfirst (behind n next place) (Nat.lt_of_not_le hbefore)
  rw [add_behind hnext hplace, hplaceWaits] at hnot
  exact absurd hnot (by decide)

/-- A turn of another brings one that waits closer. -/
theorem behind_turnAfter (hnext : next < n) (hserved : served < n) (hplace : place < n) (hne : served ≠ place)
    (hfirst : behind n next served ≤ behind n next place) :
    behind n (turnAfter n served) place < behind n next place := by
  have hdistance := behind_lt hnext place
  have hbefore : behind n next served < behind n next place := by
    refine Nat.lt_of_le_of_ne hfirst fun heq => hne ?_
    rw [← add_behind hnext hserved, heq, add_behind hnext hplace]
  have hreach : place = (turnAfter n served + (behind n next place - behind n next served - 1)) % n := by
    rw [turnAfter, Nat.mod_add_mod]
    calc place = (next + behind n next place) % n := (add_behind hnext hplace).symm
      _ = ((next + behind n next served) + (behind n next place - behind n next served)) % n := by congr 1; omega
      _ = (served + (behind n next place - behind n next served)) % n := by
        rw [Nat.add_mod, add_behind hnext hserved, Nat.add_mod_mod]
      _ = (served + 1 + (behind n next place - behind n next served - 1)) % n := by congr 1; omega
  calc behind n (turnAfter n served) place = behind n next place - behind n next served - 1 := by
        conv_lhs => rw [hreach]
        exact behind_add (turnAfter_lt hserved) (by omega)
    _ < behind n next place := by omega

end Turn

end Schemes
