import Mathlib.Tactic

/-! A queue in a fixed array: the oldest item is at `head`, the rest behind it, around the end of the array.
    Every operation is tied to the list of what the queue holds. -/

namespace Schemes

structure Ring (α : Type) (n : Nat) where
  slots : Vector α n
  head : Nat
  size : Nat
  head_lt : head < n
  size_le : size ≤ n

namespace Ring

variable {α : Type} {n : Nat}

theorem slot_lt (r : Ring α n) (i : Nat) : (r.head + i) % n < n :=
  Nat.mod_lt _ (Nat.lt_of_le_of_lt (Nat.zero_le _) r.head_lt)

/-- The item `i` places behind the head. -/
def item (r : Ring α n) (i : Nat) : α := getElem r.slots ((r.head + i) % n) (r.slot_lt i)

/-- What the queue holds, the oldest first. -/
def contents (r : Ring α n) : List α := (List.range r.size).map r.item

def empty (blank : α) (h : 0 < n) : Ring α n := ⟨Vector.replicate n blank, 0, 0, h, Nat.zero_le n⟩

def front (r : Ring α n) : Option α := if r.size = 0 then none else some (r.item 0)

def back (r : Ring α n) : Option α := if r.size = 0 then none else some (r.item (r.size - 1))

/-- Overwrites the item `i` places behind the head. -/
def set (r : Ring α n) (i : Nat) (a : α) : Ring α n :=
  { r with slots := r.slots.set ((r.head + i) % n) a (r.slot_lt i) }

def pushBack (r : Ring α n) (a : α) (h : r.size < n) : Ring α n :=
  { r.set r.size a with size := r.size + 1, size_le := h }

def popFront (r : Ring α n) (blank : α) : Ring α n :=
  { r.set 0 blank with
    head := (r.head + 1) % n
    size := r.size - 1
    head_lt := r.slot_lt 1
    size_le := Nat.le_trans (Nat.sub_le _ _) r.size_le }

variable {r : Ring α n} {a b : α} {l : List α}

@[simp] theorem length_contents : r.contents.length = r.size := by
  rw [contents, List.length_map, List.length_range]

theorem slot_inj {i j : Nat} (hi : i < n) (hj : j < n) (h : (r.head + i) % n = (r.head + j) % n) : i = j := by
  have hhead := r.head_lt
  rcases Nat.lt_or_ge (r.head + i) n with h1 | h1 <;> rcases Nat.lt_or_ge (r.head + j) n with h2 | h2
  · rw [Nat.mod_eq_of_lt h1, Nat.mod_eq_of_lt h2] at h
    omega
  · rw [Nat.mod_eq_of_lt h1, Nat.mod_eq_sub_mod h2, Nat.mod_eq_of_lt (by omega)] at h
    omega
  · rw [Nat.mod_eq_sub_mod h1, Nat.mod_eq_of_lt (by omega), Nat.mod_eq_of_lt h2] at h
    omega
  · rw [Nat.mod_eq_sub_mod h1, Nat.mod_eq_sub_mod h2, Nat.mod_eq_of_lt (by omega),
      Nat.mod_eq_of_lt (by omega)] at h
    omega

theorem item_set {i j : Nat} (hi : i < n) (hj : j < n) : (r.set i a).item j = if i = j then a else r.item j := by
  have hslot := r.slot_lt j
  show (r.slots.set ((r.head + i) % n) a (r.slot_lt i))[(r.head + j) % n] = _
  rw [Vector.getElem_set, item]
  split
  next hslot => rw [if_pos (slot_inj hi hj hslot)]
  next hslot =>
    rw [if_neg]
    rintro rfl
    exact hslot rfl

/-- Overwriting an item changes it in the list. -/
theorem contents_set {i : Nat} (hi : i < r.size) : (r.set i a).contents = r.contents.set i a := by
  have hsize := r.size_le
  refine List.ext_getElem (by simp [set]) ?_
  rintro j hj _
  have hj : j < r.size := by simpa [set] using hj
  simp only [contents, List.getElem_map, List.getElem_range, List.getElem_set]
  exact item_set (by omega) (by omega)

theorem contents_pushBack (h : r.size < n) : (r.pushBack a h).contents = r.contents ++ [a] := by
  have hitem : ∀ j, (r.pushBack a h).item j = (r.set r.size a).item j := fun _ => rfl
  have hlast : (r.set r.size a).item r.size = a := by rw [item_set h h, if_pos rfl]
  have hold : (List.range r.size).map (r.set r.size a).item = r.contents := by
    refine List.map_congr_left ?_
    rintro j hj
    have hj := List.mem_range.1 hj
    rw [item_set h (by omega), if_neg (by omega)]
  rw [contents, show (r.pushBack a h).size = r.size + 1 from rfl, List.range_succ, List.map_append,
    List.map_congr_left fun j _ => hitem j, hold, List.map_singleton, hitem, hlast]

theorem contents_eq_cons (h : r.size ≠ 0) (blank : α) :
    r.contents = r.item 0 :: (r.popFront blank).contents := by
  have hsize := r.size_le
  obtain ⟨size, hsucc⟩ := Nat.exists_eq_succ_of_ne_zero h
  have hpop : (r.popFront blank).size = size := by
    show r.size - 1 = size
    rw [hsucc, Nat.succ_sub_one]
  rw [contents, contents, hsucc, hpop, Nat.succ_eq_add_one, List.range_succ_eq_map, List.map_cons, List.map_map]
  refine congrArg _ (List.map_congr_left ?_)
  rintro j hj
  have hj := List.mem_range.1 hj
  have hslot : ((r.head + 1) % n + j) % n = (r.head + (j + 1)) % n := by
    rw [Nat.mod_add_mod, Nat.add_assoc, Nat.add_comm 1 j]
  have hset : (r.set 0 blank).item (j + 1) = r.item (j + 1) := by
    rw [item_set (by omega) (by omega), if_neg (by omega)]
  rw [Function.comp, ← hset]
  simp only [item, popFront, set, hslot]

theorem front_eq : r.front = r.contents.head? := by
  rw [front]
  split
  next h => rw [List.eq_nil_of_length_eq_zero (length_contents.trans h), List.head?_nil]
  next h => rw [contents_eq_cons h (r.item 0), List.head?_cons]

theorem contents_of_front (h : r.front = some a) (blank : α) :
    r.contents = a :: (r.popFront blank).contents := by
  rw [front] at h
  split at h
  · exact absurd h (by simp)
  next hsize => rw [contents_eq_cons hsize blank, Option.some.inj h]

theorem back_eq : r.back = r.contents.getLast? := by
  rw [back]
  split
  next h => rw [List.eq_nil_of_length_eq_zero (length_contents.trans h), List.getLast?_nil]
  next h =>
    obtain ⟨size, hsucc⟩ := Nat.exists_eq_succ_of_ne_zero h
    rw [contents, hsucc, Nat.succ_eq_add_one, List.range_succ, List.map_append, List.map_singleton,
      List.getLast?_append, List.getLast?_singleton, Option.some_or, Nat.add_sub_cancel]

/-- Overwriting the oldest item. -/
theorem contents_setFront (h : r.contents = b :: l) : (r.set 0 a).contents = a :: l := by
  have hsize : 0 < r.size := by rw [← length_contents, h]; exact Nat.succ_pos _
  rw [contents_set hsize, h, List.set_cons_zero]

/-- Overwriting the last item. -/
theorem contents_setBack (h : r.contents = l ++ [b]) : (r.set (r.size - 1) a).contents = l ++ [a] := by
  have hsize : r.size = l.length + 1 := by rw [← length_contents, h, List.length_append, List.length_singleton]
  rw [contents_set (by omega), h, hsize, Nat.add_sub_cancel, List.set_append_right _ _ (Nat.le_refl _),
    Nat.sub_self, List.set_cons_zero]

end Ring

end Schemes
