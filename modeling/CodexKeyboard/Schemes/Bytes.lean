import CodexKeyboard.Schemes.Chunks
import Mathlib.Data.Nat.Bitwise
import Mathlib.Tactic.Ring

/-! Records laid out in bytes: little-endian integers, the slices of a buffer and writes into it, as
    whole-slice copies and as loops over single bytes. -/

namespace Schemes.Bytes

open Schemes.Chunks

/-! ### Little-endian integers -/

/-- The low `width` bytes of a value, the lowest first. -/
def leBytes : (width value : Nat) → List UInt8
  | 0, _ => []
  | width + 1, value => UInt8.ofNat value :: leBytes width (value / 256)

def leNat : List UInt8 → Nat
  | [] => 0
  | b :: bs => b.toNat + 256 * leNat bs

@[simp] theorem length_leBytes (width value : Nat) : (leBytes width value).length = width := by
  induction width generalizing value with
  | zero => rfl
  | succ width ih => simp [leBytes, ih]

theorem leNat_leBytes {width value : Nat} (h : value < 256 ^ width) :
    leNat (leBytes width value) = value := by
  induction width generalizing value with
  | zero =>
    simp only [Nat.pow_zero] at h
    simp [leBytes, leNat]
    omega
  | succ width ih =>
    have hdiv : value / 256 < 256 ^ width := by
      rw [Nat.pow_succ] at h
      exact Nat.div_lt_of_lt_mul (by rwa [Nat.mul_comm])
    rw [leBytes, leNat, ih hdiv, UInt8.toNat_ofNat']
    omega

/-- Reading is canonical: a value has one representation in so many bytes. -/
theorem leBytes_leNat (bs : List UInt8) : leBytes bs.length (leNat bs) = bs := by
  induction bs with
  | nil => rfl
  | cons b bs ih =>
    have hb := b.toNat_lt
    have hlow : UInt8.ofNat (b.toNat + 256 * leNat bs) = b := by
      apply UInt8.toNat_inj.1
      rw [UInt8.toNat_ofNat']
      omega
    have hhigh : (b.toNat + 256 * leNat bs) / 256 = leNat bs := by omega
    rw [List.length_cons, leNat, leBytes, hlow, hhigh, ih]

theorem leNat_lt (bs : List UInt8) : leNat bs < 256 ^ bs.length := by
  induction bs with
  | nil => simp [leNat]
  | cons b bs ih =>
    have hb := b.toNat_lt
    rw [leNat, List.length_cons, Nat.pow_succ]
    omega

/-! ### Slices -/

variable {α : Type} {p q bs : List α} {o l : Nat}

/-- The `l` elements from `o` on. -/
def slice (p : List α) (o l : Nat) : List α := (p.drop o).take l

theorem length_slice (h : o + l ≤ p.length) : (slice p o l).length = l := by
  rw [slice, List.length_take, List.length_drop]
  omega

@[simp] theorem slice_all (p : List α) : slice p 0 p.length = p := by simp [slice]

theorem slice_append_left (h : o + l ≤ p.length) : slice (p ++ q) o l = slice p o l := by
  rw [slice, slice, List.drop_append_of_le_length (by omega), List.take_append_of_le_length]
  rw [List.length_drop]
  omega

theorem slice_append_right (h : p.length ≤ o) : slice (p ++ q) o l = slice q (o - p.length) l := by
  rw [slice, slice, List.drop_append, List.drop_eq_nil_of_le h, List.nil_append]

theorem slice_append_here (h : p.length = l) : slice (p ++ q) 0 l = p := by
  rw [slice, List.drop_zero, List.take_left' h]

/-- A slice inside the middle part of a buffer. -/
theorem slice_append_mid {front middle back : List α} (h : o + l ≤ middle.length) :
    slice (front ++ middle ++ back) (front.length + o) l = slice middle o l := by
  rw [List.append_assoc, slice_append_right (Nat.le_add_right _ _), Nat.add_sub_cancel_left,
    slice_append_left h]

/-- A buffer cut into consecutive slices of the given lengths, from `o` on. -/
def chop (p : List α) : (o : Nat) → List Nat → List (List α)
  | _, [] => []
  | o, l :: ls => slice p o l :: chop p (o + l) ls

theorem flatten_chop (p : List α) (o : Nat) (ls : List Nat) :
    (chop p o ls).flatten = slice p o ls.sum := by
  induction ls generalizing o with
  | nil => simp [chop, slice]
  | cons l ls ih => rw [chop, List.flatten_cons, ih, List.sum_cons, slice, slice, slice, List.take_add,
      List.drop_drop]

/-- A buffer is made of its slices. -/
theorem eq_flatten_chop {ls : List Nat} (h : p.length = ls.sum) : p = (chop p 0 ls).flatten := by
  rw [flatten_chop, ← h, slice_all]

theorem chop_append_left (p q : List α) (o : Nat) (ls : List Nat) (h : o + ls.sum ≤ p.length) :
    chop (p ++ q) o ls = chop p o ls := by
  induction ls generalizing o with
  | nil => rfl
  | cons l ls ih =>
    rw [List.sum_cons] at h
    rw [chop, chop, ih _ (by omega), slice_append_left (by omega)]

theorem chop_append_right (p q : List α) (o : Nat) (ls : List Nat) :
    chop (p ++ q) (p.length + o) ls = chop q o ls := by
  induction ls generalizing o with
  | nil => rfl
  | cons l ls ih =>
    rw [chop, chop, Nat.add_assoc, ih, slice_append_right (Nat.le_add_right _ _), Nat.add_sub_cancel_left]

theorem chop_flatten (segments : List (List α)) :
    chop segments.flatten 0 (segments.map List.length) = segments := by
  induction segments with
  | nil => rfl
  | cons s segments ih =>
    rw [List.flatten_cons, List.map_cons, chop, slice_append_here rfl, Nat.zero_add,
      ← Nat.add_zero s.length, chop_append_right, ih]

/-- A buffer is a row of fields exactly when each of its slices is. -/
theorem eq_flatten_iff {segments : List (List α)} {ls : List Nat} (h : segments.map List.length = ls) :
    p = segments.flatten ↔ p.length = ls.sum ∧ chop p 0 ls = segments := by
  constructor
  · rintro rfl
    rw [← h, List.length_flatten]
    exact ⟨rfl, chop_flatten segments⟩
  · rintro ⟨hlength, hchop⟩
    rw [eq_flatten_chop hlength, hchop]

/-- The first bytes of a buffer are a row of fields exactly when its slices are. -/
theorem take_eq_flatten_iff (ls : List Nat) {segments : List (List α)} (h : segments.map List.length = ls)
    (hlong : ls.sum ≤ p.length) : p.take ls.sum = segments.flatten ↔ chop p 0 ls = segments := by
  have hlength : (p.take ls.sum).length = ls.sum := by
    rw [List.length_take]
    exact Nat.min_eq_left hlong
  have hsame :=
    chop_append_left (p.take ls.sum) (p.drop ls.sum) 0 ls (by rw [hlength]; exact Nat.le_of_eq (Nat.zero_add _))
  rw [List.take_append_drop] at hsame
  rw [eq_flatten_iff h, ← hsame]
  exact ⟨And.right, fun hchop => ⟨hlength, hchop⟩⟩

theorem slice_one (h : o < p.length) (d : α) : slice p o 1 = [p.getD o d] := by
  rw [slice, List.drop_eq_getElem_cons h, List.take_succ_cons, List.take_zero, List.getD_eq_getElem _ _ h]

/-- A slice behind a prefix is a slice of the rest. -/
theorem slice_drop (p : List α) (n o l : Nat) : slice (p.drop n) o l = slice p (n + o) l := by
  rw [slice, slice, List.drop_drop]

/-! ### Writes -/

theorem splice_append_right (h : p.length ≤ o) : splice (p ++ q) o bs = p ++ splice q (o - p.length) bs := by
  have htake : (p ++ q).take o = p ++ q.take (o - p.length) := by
    rw [List.take_append, List.take_of_length_le h]
  have hdrop : (p ++ q).drop (o + bs.length) = q.drop (o - p.length + bs.length) := by
    rw [List.drop_append, List.drop_eq_nil_of_le (by omega), List.nil_append]
    congr 1
    omega
  rw [splice, splice, htake, hdrop, List.append_assoc, List.append_assoc, List.append_assoc]

theorem splice_append_here (h : p.length = bs.length) : splice (p ++ q) 0 bs = bs ++ q := by
  rw [splice, List.take_zero, List.nil_append, Nat.zero_add, List.drop_left' h]

theorem splice_here (h : p.length = bs.length) : splice p 0 bs = bs := by
  have hall := splice_append_here (q := []) h
  simpa using hall

@[simp] theorem length_splice (h : o + bs.length ≤ p.length) : (splice p o bs).length = p.length := by
  rw [splice, List.length_append, List.length_append, List.length_take, List.length_drop]
  omega

/-! ### Loops over single bytes -/

/-- `output[offset + i] = value >> (8 * i)` for every `i < width`. -/
def putLoop (output : List UInt8) (offset width value : Nat) : List UInt8 :=
  (List.range width).foldl
    (fun out i => out.set (offset + i) (UInt8.ofNat (value >>> (i * 8)))) output

/-- `value |= input[offset + i] << (8 * i)` for every `i < width`. -/
def getLoop (input : List UInt8) (offset width : Nat) : Nat :=
  (List.range width).foldl
    (fun value i => value ||| ((input.getD (offset + i) 0).toNat <<< (i * 8))) 0

@[simp] theorem length_putLoop (output : List UInt8) (offset width value : Nat) :
    (putLoop output offset width value).length = output.length := by
  induction width with
  | zero => rfl
  | succ width ih =>
    rw [putLoop, List.range_succ, List.foldl_append, List.foldl_cons, List.foldl_nil, List.length_set]
    exact ih

theorem leBytes_succ (width value : Nat) :
    leBytes (width + 1) value = leBytes width value ++ [UInt8.ofNat (value >>> (width * 8))] := by
  induction width generalizing value with
  | zero => simp [leBytes]
  | succ width ih =>
    have hshift : (value / 256) >>> (width * 8) = value >>> ((width + 1) * 8) := by
      rw [Nat.shiftRight_eq_div_pow, Nat.shiftRight_eq_div_pow, Nat.div_div_eq_div_mul,
        show (width + 1) * 8 = 8 + width * 8 by ring, Nat.pow_add]
    rw [leBytes, ih, hshift]
    rfl

theorem leNat_append_singleton (bs : List UInt8) (b : UInt8) :
    leNat (bs ++ [b]) = leNat bs + b.toNat * 256 ^ bs.length := by
  induction bs with
  | nil => simp [leNat]
  | cons a bs ih =>
    rw [List.cons_append, leNat, ih, leNat, List.length_cons, Nat.pow_succ]
    ring

/-- The writing loop copies the slice. -/
theorem putLoop_eq {output : List UInt8} {offset width : Nat} (value : Nat)
    (h : offset + width ≤ output.length) :
    putLoop output offset width value = splice output offset (leBytes width value) := by
  induction width with
  | zero => simp [putLoop, leBytes, splice]
  | succ width ih =>
    have hstep : putLoop output offset (width + 1) value =
        (putLoop output offset width value).set (offset + width)
          (UInt8.ofNat (value >>> (width * 8))) := by
      simp only [putLoop, List.range_succ, List.foldl_append, List.foldl_cons, List.foldl_nil]
    rw [hstep, ih (by omega), leBytes_succ]
    have hhead : (output.take offset ++ leBytes width value).length = offset + width := by
      simp only [List.length_append, List.length_take, length_leBytes]
      omega
    rw [splice, splice, length_leBytes, List.set_append_right _ _ (by omega), hhead, Nat.sub_self,
      List.length_append, length_leBytes, List.length_singleton,
      List.drop_eq_getElem_cons (show offset + width < output.length by omega), List.set_cons_zero]
    simp [Nat.add_assoc]

/-- The reading loop reads the slice. -/
theorem getLoop_eq {input : List UInt8} {offset width : Nat} (h : offset + width ≤ input.length) :
    getLoop input offset width = leNat (slice input offset width) := by
  induction width with
  | zero => simp [getLoop, slice, leNat]
  | succ width ih =>
    have hstep : getLoop input offset (width + 1) = getLoop input offset width |||
        ((input.getD (offset + width) 0).toNat <<< (width * 8)) := by
      simp only [getLoop, List.range_succ, List.foldl_append, List.foldl_cons, List.foldl_nil]
    have hin : offset + width < input.length := by omega
    have hslice : slice input offset (width + 1) = slice input offset width ++ [input[offset + width]] := by
      rw [slice, slice, List.take_add, List.drop_drop, List.drop_eq_getElem_cons hin]
      rfl
    have hlength := length_slice (show offset + width ≤ input.length by omega)
    have hlt := leNat_lt (slice input offset width)
    rw [hlength] at hlt
    have hpow : 256 ^ width = 2 ^ (width * 8) := by
      rw [show (256 : Nat) = 2 ^ 8 by rfl, ← Nat.pow_mul, Nat.mul_comm]
    rw [hstep, ih (by omega), hslice, leNat_append_singleton, hlength, Nat.or_comm,
      ← Nat.shiftLeft_add_eq_or_of_lt (by rwa [hpow] at hlt), Nat.shiftLeft_eq, hpow,
      List.getD_eq_getElem _ _ hin, Nat.add_comm]

end Schemes.Bytes
