import Mathlib.Tactic

/-! Text indexed by bytes. A string is the list of its characters; an index counts the bytes of its
    UTF-8 encoding, so that an index inside a character, or behind the end, cannot be sliced at.
    Each search is described by how it cuts the text, with no arithmetic left over. -/

namespace Schemes

/-- A string, by its characters. -/
abbrev Text := List Char

instance : LawfulBEq Text := inferInstanceAs (LawfulBEq (List Char))

namespace Text

/-- The number of bytes. -/
def size (s : Text) : Nat := (s.map Char.utf8Size).sum

/-- The two sides of a byte index; `none` where it is no character boundary. -/
def splitBytes : Text → Nat → Option (Text × Text)
  | s, 0 => some ([], s)
  | [], _ + 1 => none
  | c :: s, n + 1 =>
    if c.utf8Size ≤ n + 1 then (splitBytes s (n + 1 - c.utf8Size)).map fun p => (c :: p.1, p.2) else none

/-- `s[i..]`. -/
def sliceFrom (s : Text) (i : Nat) : Option Text := (splitBytes s i).map Prod.snd

/-- `s[..i]`. -/
def sliceTo (s : Text) (i : Nat) : Option Text := (splitBytes s i).map Prod.fst

/-- `s[i..j]`. -/
def slice (s : Text) (i j : Nat) : Option Text :=
  if i ≤ j then (sliceFrom s i).bind (sliceTo · (j - i)) else none

/-- The index of the first character that satisfies `p`. -/
def find (p : Char → Bool) : Text → Option Nat
  | [] => none
  | c :: s => if p c then some 0 else (find p s).map (c.utf8Size + ·)

/-- The index of the last one. -/
def rfind (p : Char → Bool) : Text → Option Nat
  | [] => none
  | c :: s =>
    match rfind p s with
    | some i => some (c.utf8Size + i)
    | none => if p c then some 0 else none

/-- The index of the first occurrence of a pattern. -/
def findText (pattern : Text) : Text → Option Nat
  | [] => if pattern = [] then some 0 else none
  | c :: s => if pattern <+: c :: s then some 0 else (findText pattern s).map (c.utf8Size + ·)

/-- The hyphenated form of a UUID. -/
def hyphenated (s : Text) : Bool :=
  let groups := s.splitOn '-'
  groups.map List.length == [8, 4, 4, 4, 12] &&
    groups.all (·.all fun c => c.isDigit || ('a' ≤ c && c ≤ 'f') || ('A' ≤ c && c ≤ 'F'))

/-- The bytes of the encoding. -/
def asBytes (s : Text) : List UInt8 := s.flatMap String.utf8EncodeChar

variable {s a b : Text} {c : Char} {p : Char → Bool} {i n : Nat}

/-! ### Sizes -/

@[simp] theorem size_nil : size [] = 0 := rfl

@[simp] theorem size_cons (c : Char) (s : Text) : size (c :: s) = c.utf8Size + size s := rfl

@[simp] theorem size_append (a b : Text) : size (a ++ b) = size a + size b := by
  simp [size]

theorem size_pos (h : s ≠ []) : 0 < size s := by
  cases s with
  | nil => exact absurd rfl h
  | cons c s =>
    have hpos := c.utf8Size_pos
    rw [size_cons]
    omega

theorem length_asBytes (s : Text) : (asBytes s).length = size s := by
  simp [asBytes, size, List.length_flatMap]

theorem asBytes_append (a b : Text) : asBytes (a ++ b) = asBytes a ++ asBytes b := by
  simp [asBytes]

theorem asBytes_inj {s t : Text} (h : asBytes s = asBytes t) : s = t := by
  have hdecode (text : Text) : (asBytes text).toByteArray.utf8Decode? = some text.toArray :=
    List.utf8Decode?_utf8Encode
  have hsame := hdecode s
  rw [h, hdecode t] at hsame
  exact (List.toArray_inj (Option.some.inj hsame)).symm

theorem ascii_size (h : c.val ≤ 127) : c.utf8Size = 1 := Char.utf8Size_eq_one_iff.2 h

/-! ### Cuts -/

theorem splitBytes_append (a b : Text) : splitBytes (a ++ b) (size a) = some (a, b) := by
  induction a with
  | nil => cases b <;> rfl
  | cons c a ih =>
    obtain ⟨n, hn⟩ : ∃ n, size (c :: a) = n + 1 := by
      have hpos := size_pos (List.cons_ne_nil c a)
      exact ⟨size (c :: a) - 1, by omega⟩
    have hrest : n + 1 - c.utf8Size = size a := by
      rw [← hn, size_cons]
      omega
    have hle : c.utf8Size ≤ n + 1 := by
      rw [← hn, size_cons]
      omega
    rw [hn, List.cons_append, splitBytes, if_pos hle, hrest, ih]
    rfl

theorem splitBytes_some (h : splitBytes s n = some (a, b)) : s = a ++ b ∧ size a = n := by
  induction s, n using splitBytes.induct generalizing a with
  | case1 s =>
    rw [splitBytes] at h
    cases h
    exact ⟨rfl, rfl⟩
  | case2 n => cases h
  | case3 c s n hle ih =>
    rw [splitBytes, if_pos hle, Option.map_eq_some_iff] at h
    obtain ⟨⟨a', b'⟩, hrest, hcons⟩ := h
    cases hcons
    obtain ⟨rfl, hsize⟩ := ih hrest
    refine ⟨rfl, ?_⟩
    rw [size_cons, hsize]
    omega
  | case4 c s n hlt =>
    rw [splitBytes, if_neg hlt] at h
    cases h

/-- An index can be cut at exactly when some first characters have that many bytes. -/
theorem splitBytes_iff : splitBytes s n = some (a, b) ↔ s = a ++ b ∧ size a = n := by
  constructor
  · exact splitBytes_some
  · rintro ⟨rfl, rfl⟩
    exact splitBytes_append a b

@[simp] theorem sliceFrom_append (a b : Text) : sliceFrom (a ++ b) (size a) = some b := by
  simp [sliceFrom, splitBytes_append]

@[simp] theorem sliceTo_append (a b : Text) : sliceTo (a ++ b) (size a) = some a := by
  simp [sliceTo, splitBytes_append]

@[simp] theorem sliceFrom_zero (s : Text) : sliceFrom s 0 = some s := sliceFrom_append [] s

theorem slice_append (a b rest : Text) :
    slice (a ++ b ++ rest) (size a) (size (a ++ b)) = some b := by
  rw [slice, if_pos (by rw [size_append]; omega), List.append_assoc, sliceFrom_append]
  simp

/-- No cut inside a character. -/
theorem splitBytes_inside (hlow : size a < n) (hhigh : n < size a + c.utf8Size) :
    splitBytes (a ++ c :: b) n = none := by
  rw [Option.eq_none_iff_forall_not_mem]
  rintro ⟨left, right⟩ hsplit
  obtain ⟨heq, hsize⟩ := splitBytes_some hsplit
  rcases List.append_eq_append_iff.1 heq with ⟨more, rfl, hright⟩ | ⟨more, rfl, hleft⟩
  · cases more with
    | nil =>
      rw [List.append_nil] at hsize
      omega
    | cons d more =>
      obtain rfl : c = d := by
        simp only [List.cons_append, List.cons.injEq] at hright
        exact hright.1
      rw [size_append, size_cons] at hsize
      omega
  · rw [size_append] at hlow
    omega

/-! ### Searches -/

theorem find_none : find p s = none ↔ ∀ c ∈ s, p c = false := by
  induction s with
  | nil => simp [find]
  | cons c s ih => cases hc : p c <;> simp [find, hc, ih]

/-- The first hit cuts the text behind characters that are none. -/
theorem find_some : find p s = some i ↔
    ∃ a c b, s = a ++ c :: b ∧ size a = i ∧ p c = true ∧ ∀ x ∈ a, p x = false := by
  induction s generalizing i with
  | nil => simp [find]
  | cons d s ih =>
    cases hd : p d with
    | true =>
      simp only [find, hd, if_true, Option.some.injEq]
      constructor
      · rintro rfl
        exact ⟨[], d, s, rfl, rfl, hd, by simp⟩
      · rintro ⟨a, c, b, hs, rfl, hc, hnone⟩
        cases a with
        | nil => rfl
        | cons x a =>
          obtain rfl : d = x := by
            rw [List.cons_append, List.cons.injEq] at hs
            exact hs.1
          rw [hnone d (List.mem_cons_self ..)] at hd
          cases hd
    | false =>
      simp only [find, hd, Bool.false_eq_true, if_false, Option.map_eq_some_iff]
      constructor
      · rintro ⟨j, hj, rfl⟩
        obtain ⟨a, c, b, rfl, rfl, hc, hnone⟩ := ih.1 hj
        refine ⟨d :: a, c, b, rfl, rfl, hc, ?_⟩
        rintro x hx
        rcases List.mem_cons.1 hx with rfl | hx
        · exact hd
        · exact hnone x hx
      · rintro ⟨a, c, b, hs, rfl, hc, hnone⟩
        cases a with
        | nil =>
          rw [List.nil_append, List.cons.injEq] at hs
          rw [hs.1, hc] at hd
          cases hd
        | cons x a =>
          rw [List.cons_append, List.cons.injEq] at hs
          obtain ⟨rfl, rfl⟩ := hs
          exact ⟨size a, ih.2 ⟨a, c, b, rfl, rfl, hc, fun y hy => hnone y (List.mem_cons_of_mem _ hy)⟩,
            rfl⟩

theorem rfind_none : rfind p s = none ↔ ∀ c ∈ s, p c = false := by
  induction s with
  | nil => simp [rfind]
  | cons c s ih =>
    cases hs : rfind p s with
    | some i =>
      have hne := mt ih.2 (by simp [hs])
      simp only [rfind, hs, reduceCtorEq, List.mem_cons, forall_eq_or_imp, false_iff, not_and]
      exact fun _ => hne
    | none =>
      have hall := ih.1 hs
      cases hc : p c <;> simp [rfind, hs, hc]
      exact hall

/-- The last hit cuts the text before characters that are none. -/
theorem rfind_some (h : rfind p s = some i) :
    ∃ a c b, s = a ++ c :: b ∧ size a = i ∧ p c = true ∧ ∀ x ∈ b, p x = false := by
  induction s generalizing i with
  | nil => cases h
  | cons d s ih =>
    cases hs : rfind p s with
    | some j =>
      simp only [rfind, hs, Option.some.injEq] at h
      obtain ⟨a, c, b, rfl, rfl, hc, hnone⟩ := ih hs
      exact ⟨d :: a, c, b, rfl, h, hc, hnone⟩
    | none =>
      simp only [rfind, hs] at h
      split at h
      next hd =>
        cases h
        exact ⟨[], d, s, rfl, rfl, hd, rfind_none.1 hs⟩
      next => cases h

theorem findText_some {pattern : Text} (h : findText pattern s = some i) :
    ∃ a b, s = a ++ pattern ++ b ∧ size a = i := by
  induction s generalizing i with
  | nil =>
    rw [findText] at h
    split at h
    next hnil =>
      cases h
      exact ⟨[], [], by simp [hnil], rfl⟩
    next => cases h
  | cons c s ih =>
    rw [findText] at h
    split at h
    next hpat =>
      cases h
      obtain ⟨b, hb⟩ := hpat
      exact ⟨[], b, hb.symm, rfl⟩
    next =>
      obtain ⟨j, hj, rfl⟩ := Option.map_eq_some_iff.1 h
      obtain ⟨a, b, rfl, rfl⟩ := ih hj
      exact ⟨c :: a, b, rfl, rfl⟩

/-! ### Single bytes -/

theorem high_of_or {x y : UInt8} (h : 128 ≤ y) : 128 ≤ x ||| y := by
  rw [UInt8.le_iff_toNat_le] at h ⊢
  rw [UInt8.toNat_or]
  exact Nat.le_trans h Nat.right_le_or

/-- A character outside ASCII has no ASCII byte. -/
theorem encode_high (h : 127 < c.val) : ∀ x ∈ String.utf8EncodeChar c, 128 ≤ x := by
  have hlow : (128 : UInt8) ≤ 0x80 ∧ (128 : UInt8) ≤ 0xc0 ∧ (128 : UInt8) ≤ 0xe0 ∧ (128 : UInt8) ≤ 0xf0 := by
    decide
  rcases c.utf8Size_eq with hsize | hsize | hsize | hsize
  · rw [Char.utf8Size_eq_one_iff] at hsize
    exact absurd hsize (UInt32.not_le.2 h)
  · simp [String.utf8EncodeChar_eq_cons_cons hsize, high_of_or, hlow]
  · simp [String.utf8EncodeChar_eq_cons_cons_cons hsize, high_of_or, hlow]
  · simp [String.utf8EncodeChar_eq_cons_cons_cons_cons hsize, high_of_or, hlow]

/-- Some byte of a character: its own code in ASCII, and no ASCII byte beyond. -/
theorem byte_of_char {x : UInt8} (h : x ∈ String.utf8EncodeChar c) :
    (c.val ≤ 127 ∧ x = c.val.toUInt8) ∨ (127 < c.val ∧ 128 ≤ x) := by
  by_cases hc : c.val ≤ 127
  · rw [String.utf8EncodeChar_eq_singleton (ascii_size hc), List.mem_singleton] at h
    exact Or.inl ⟨hc, h⟩
  · have hlt := UInt32.not_le.1 hc
    exact Or.inr ⟨hlt, encode_high hlt x h⟩

/-- The byte before a boundary belongs to the character before it. -/
theorem byte_before (a : Text) (c : Char) (b : Text) :
    ∃ x ∈ String.utf8EncodeChar c, (asBytes (a ++ c :: b))[size (a ++ [c]) - 1]? = some x := by
  have hpos := c.utf8Size_pos
  have hindex : (asBytes (a ++ c :: b))[size (a ++ [c]) - 1]? =
      (String.utf8EncodeChar c)[c.utf8Size - 1]? := by
    rw [asBytes_append, show asBytes (c :: b) = String.utf8EncodeChar c ++ asBytes b from rfl,
      List.getElem?_append_right (by simp [length_asBytes]; omega), length_asBytes,
      List.getElem?_append_left (by simp; omega)]
    congr 1
    simp
    omega
  have hlt : c.utf8Size - 1 < (String.utf8EncodeChar c).length := by
    rw [String.length_utf8EncodeChar]
    omega
  rw [hindex]
  exact ⟨_, List.getElem_mem hlt, List.getElem?_eq_getElem hlt⟩

/-- The byte after a boundary belongs to the character after it. -/
theorem byte_after (a : Text) (c : Char) (b : Text) :
    ∃ x ∈ String.utf8EncodeChar c, (asBytes (a ++ c :: b))[size a]? = some x := by
  have hlt : 0 < (String.utf8EncodeChar c).length := by
    rw [String.length_utf8EncodeChar]
    exact c.utf8Size_pos
  rw [asBytes_append, show asBytes (c :: b) = String.utf8EncodeChar c ++ asBytes b from rfl,
    List.getElem?_append_right (Nat.le_of_eq (length_asBytes a)), length_asBytes, Nat.sub_self,
    List.getElem?_append_left hlt]
  exact ⟨_, List.getElem_mem hlt, List.getElem?_eq_getElem hlt⟩

end Text

end Schemes
