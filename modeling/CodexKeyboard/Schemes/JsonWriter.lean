import CodexKeyboard.Schemes.Text

/-! Compact JSON from the writer's side, and the bytes it takes: a quote or a control character in a string takes two to
    six of them. -/

namespace Schemes.Text

def lowerHexDigit (n : Nat) : Char := if n < 10 then Char.ofNat (0x30 + n) else Char.ofNat (0x57 + n)

/-- A character inside a string. -/
def escapeChar (c : Char) : Text :=
  if c = '"' then ['\\', '"']
  else if c = '\\' then ['\\', '\\']
  else if c = '\x08' then ['\\', 'b']
  else if c = '\t' then ['\\', 't']
  else if c = '\n' then ['\\', 'n']
  else if c = '\x0c' then ['\\', 'f']
  else if c = '\r' then ['\\', 'r']
  else if c.toNat < 0x20 then ['\\', 'u', '0', '0', lowerHexDigit (c.toNat / 16), lowerHexDigit (c.toNat % 16)]
  else [c]

def jsonString (s : Text) : Text := '"' :: s.flatMap escapeChar ++ ['"']

def jsonWord (word : String) : Text := jsonString word.toList

def jsonArray (items : List Text) : Text := '[' :: List.intercalate [','] items ++ [']']

def jsonObject (members : List (String × Text)) : Text :=
  '\x7b' :: List.intercalate [','] (members.map fun member => jsonWord member.1 ++ ':' :: member.2) ++ ['\x7d']

variable {s : Text} {c : Char}

/-! ### Escapes -/

theorem escapeChar_plain (hquote : c ≠ '"') (hbackslash : c ≠ '\\') (h : 0x20 ≤ c.toNat) : escapeChar c = [c] := by
  have hne : ∀ other : Char, other.toNat < 0x20 → c ≠ other := by
    rintro other hother rfl
    exact Nat.not_lt.2 h hother
  rw [escapeChar, if_neg hquote, if_neg hbackslash, if_neg (hne _ (by decide)), if_neg (hne _ (by decide)),
    if_neg (hne _ (by decide)), if_neg (hne _ (by decide)), if_neg (hne _ (by decide)), if_neg (Nat.not_lt.2 h)]

/-- An escape has six bytes at most. -/
theorem escapeChar_le (c : Char) : size (escapeChar c) ≤ 6 * c.utf8Size := by
  have hpos := c.utf8Size_pos
  by_cases hlow : c.toNat < 0x20
  · have hall : ∀ n < 32, size (escapeChar (Char.ofNat n)) ≤ 6 := by decide
    have hescape := hall c.toNat hlow
    rw [Char.ofNat_toNat] at hescape
    omega
  by_cases hspecial : c = '"' ∨ c = '\\'
  · rcases hspecial with rfl | rfl
    · decide
    · decide
  obtain ⟨hquote, hbackslash⟩ := not_or.1 hspecial
  rw [escapeChar_plain hquote hbackslash (Nat.not_lt.1 hlow)]
  show c.utf8Size + 0 ≤ _
  omega

/-- The bytes of a text inside a string. -/
def escaped (s : Text) : Nat := size (s.flatMap escapeChar)

@[simp] theorem escaped_cons (c : Char) (s : Text) : escaped (c :: s) = size (escapeChar c) + escaped s := by
  rw [escaped, List.flatMap_cons, size_append, escaped]

theorem escaped_le (s : Text) : escaped s ≤ 6 * size s := by
  induction s with
  | nil => exact Nat.zero_le _
  | cons c s ih =>
    have hescape := escapeChar_le c
    rw [escaped_cons, size_cons]
    omega

/-! ### Sizes -/

theorem size_jsonString (s : Text) : size (jsonString s) = 2 + escaped s := by
  have hquote : '"'.utf8Size = 1 := by decide
  rw [jsonString, size_append, size_cons, size_cons, size_nil, hquote, escaped]
  omega

/-- The bytes of an array of items of these sizes. -/
def arrayBytes (sizes : List Nat) : Nat := 2 + sizes.sum + (sizes.length - 1)

theorem size_intercalate (items : List Text) :
    size (List.intercalate [','] items) = (items.map size).sum + (items.length - 1) := by
  have hcomma : size [','] = 1 := by decide
  induction items with
  | nil => rfl
  | cons item items ih =>
    cases items with
    | nil => simp [List.intercalate]
    | cons next items =>
      rw [List.intercalate_cons_cons, size_append, size_append, ih, hcomma]
      simp only [List.map_cons, List.sum_cons, List.length_cons]
      omega

theorem size_jsonArray (items : List Text) : size (jsonArray items) = arrayBytes (items.map size) := by
  have hbracket : '['.utf8Size = 1 ∧ size [']'] = 1 := by decide
  rw [jsonArray, size_append, size_cons, size_intercalate, hbracket.1, hbracket.2, arrayBytes, List.length_map]
  omega

theorem size_jsonObject (members : List (String × Text)) : size (jsonObject members) =
    2 + (members.map fun member => size (jsonWord member.1) + 1 + size member.2).sum + (members.length - 1) := by
  have hbrace : '\x7b'.utf8Size = 1 ∧ size ['\x7d'] = 1 ∧ ':'.utf8Size = 1 := by decide
  have hmap : (members.map fun member => jsonWord member.1 ++ ':' :: member.2).map size =
      members.map fun member => size (jsonWord member.1) + 1 + size member.2 := by
    rw [List.map_map]
    refine List.map_congr_left fun member _ => ?_
    rw [Function.comp_apply, size_append, size_cons, hbrace.2.2]
    omega
  rw [jsonObject, size_append, size_cons, size_intercalate, hmap, hbrace.1, hbrace.2.1, List.length_map]
  omega

end Schemes.Text
