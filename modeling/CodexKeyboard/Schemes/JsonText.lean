import CodexKeyboard.Schemes.Text

/-! The grammar of JSON texts, RFC 8259, over bytes: what a text derives from, with the decoded strings and
    the source text of every member. A surrogate escape stands in a pair. -/

namespace Schemes

namespace JsonText

abbrev Bytes := List UInt8

/-! ### Lexical parts -/

def isWs (byte : UInt8) : Bool := byte == 32 || byte == 9 || byte == 10 || byte == 13

/-- White space between the tokens. -/
def Space (w : Bytes) : Prop := w.all isWs = true

def isDigit (byte : UInt8) : Bool := 48 ≤ byte && byte ≤ 57

inductive IntPart : Bytes → Prop
  | zero : IntPart [48]
  | nonzero {d : UInt8} {ds : Bytes} (first : isDigit d = true) (nonzero : d ≠ 48) (digits : ds.all isDigit = true) :
    IntPart (d :: ds)

inductive FracPart : Bytes → Prop
  | none : FracPart []
  | some {d : UInt8} {ds : Bytes} (digits : (d :: ds).all isDigit = true) : FracPart (46 :: d :: ds)

inductive ExpPart : Bytes → Prop
  | none : ExpPart []
  | some {e d : UInt8} {sign ds : Bytes} (mark : e = 101 ∨ e = 69) (signed : sign = [] ∨ sign = [43] ∨ sign = [45])
    (digits : (d :: ds).all isDigit = true) : ExpPart (e :: sign ++ d :: ds)

/-- A number or a literal. -/
inductive Scalar : Bytes → Prop
  | number {sign i f e : Bytes} (signed : sign = [] ∨ sign = [45]) (int : IntPart i) (frac : FracPart f)
    (exp : ExpPart e) : Scalar (sign ++ i ++ f ++ e)
  | trueWord : Scalar [116, 114, 117, 101]
  | falseWord : Scalar [102, 97, 108, 115, 101]
  | nullWord : Scalar [110, 117, 108, 108]

def hexValue (byte : UInt8) : Option Nat :=
  if 48 ≤ byte ∧ byte ≤ 57 then some (byte.toNat - 48)
  else if 65 ≤ byte ∧ byte ≤ 70 then some (byte.toNat - 65 + 10)
  else if 97 ≤ byte ∧ byte ≤ 102 then some (byte.toNat - 97 + 10)
  else none

/-- Four hexadecimal digits. -/
inductive Hex4 : Bytes → Nat → Prop
  | digits {a b c d : UInt8} {w x y z : Nat} (first : hexValue a = some w) (second : hexValue b = some x)
    (third : hexValue c = some y) (fourth : hexValue d = some z) :
    Hex4 [a, b, c, d] (((w * 16 + x) * 16 + y) * 16 + z)

/-- The escapes of one letter. -/
def escapes : List (UInt8 × Char) :=
  [(34, '"'), (92, '\\'), (47, '/'), (98, '\x08'), (102, '\x0c'), (110, '\n'), (114, '\r'), (116, '\t')]

/-- What stands between the quotes of a string, and the string. -/
inductive StringText : Text → Bytes → Prop
  | nil : StringText [] []
  | char {c : Char} {s : Text} {b : Bytes} (low : 0x20 ≤ c.val.toNat) (quote : c ≠ '"') (backslash : c ≠ '\\')
    (rest : StringText s b) : StringText (c :: s) (String.utf8EncodeChar c ++ b)
  | escape {e : UInt8} {c : Char} {s : Text} {b : Bytes} (known : (e, c) ∈ escapes) (rest : StringText s b) :
    StringText (c :: s) (92 :: e :: b)
  | unicode {hex : Bytes} {c : Char} {s : Text} {b : Bytes} (digits : Hex4 hex c.val.toNat)
    (rest : StringText s b) : StringText (c :: s) (92 :: 117 :: hex ++ b)
  | pair {high low : Bytes} {m n : Nat} {c : Char} {s : Text} {b : Bytes} (first : Hex4 high m) (second : Hex4 low n)
    (isHigh : 0xD800 ≤ m ∧ m ≤ 0xDBFF) (isLow : 0xDC00 ≤ n ∧ n ≤ 0xDFFF)
    (decoded : c.val.toNat = 0x10000 + (m - 0xD800) * 1024 + (n - 0xDC00)) (rest : StringText s b) :
    StringText (c :: s) (92 :: 117 :: high ++ 92 :: 117 :: low ++ b)

/-! ### Values -/

/-- What a text can be a derivation of. Items and members come with the texts of their values. -/
inductive Symbol where
  | value
  | items (values : List Bytes)
  | members (members : List (Text × Bytes))

inductive Derives : Symbol → Bytes → Prop
  | scalar {b : Bytes} (scalar : Scalar b) : Derives .value b
  | string {s : Text} {b : Bytes} (string : StringText s b) : Derives .value (34 :: b ++ [34])
  | emptyArray {w : Bytes} (space : Space w) : Derives .value (91 :: w ++ [93])
  | array {values : List Bytes} {b : Bytes} (items : Derives (.items values) b) : Derives .value (91 :: b ++ [93])
  | emptyObject {w : Bytes} (space : Space w) : Derives .value (123 :: w ++ [125])
  | object {members : List (Text × Bytes)} {b : Bytes} (body : Derives (.members members) b) :
    Derives .value (123 :: b ++ [125])
  | item {before v after : Bytes} (left : Space before) (value : Derives .value v) (right : Space after) :
    Derives (.items [v]) (before ++ v ++ after)
  | items {before v after b : Bytes} {values : List Bytes} (left : Space before) (value : Derives .value v)
    (right : Space after) (rest : Derives (.items values) b) :
    Derives (.items (v :: values)) (before ++ v ++ after ++ 44 :: b)
  | member {before k inner outer v after : Bytes} {name : Text} (left : Space before) (key : StringText name k)
    (colonLeft : Space inner) (colonRight : Space outer) (value : Derives .value v) (right : Space after) :
    Derives (.members [(name, v)]) (before ++ 34 :: k ++ 34 :: inner ++ 58 :: outer ++ v ++ after)
  | members {before k inner outer v after b : Bytes} {name : Text} {members : List (Text × Bytes)}
    (left : Space before) (key : StringText name k) (colonLeft : Space inner) (colonRight : Space outer)
    (value : Derives .value v) (right : Space after) (rest : Derives (.members members) b) :
    Derives (.members ((name, v) :: members))
      (before ++ 34 :: k ++ 34 :: inner ++ 58 :: outer ++ v ++ after ++ 44 :: b)

/-- What stands between the braces of an object. -/
inductive Body : List (Text × Bytes) → Bytes → Prop
  | empty {w : Bytes} (space : Space w) : Body [] w
  | members {members : List (Text × Bytes)} {b : Bytes} (body : Derives (.members members) b) : Body members b

/-- What stands between the brackets of an array. -/
inductive Elements : List Bytes → Bytes → Prop
  | empty {w : Bytes} (space : Space w) : Elements [] w
  | items {values : List Bytes} {b : Bytes} (items : Derives (.items values) b) : Elements values b

/-- A JSON text that is an object, by its members. -/
inductive ObjectText : List (Text × Bytes) → Bytes → Prop
  | mk {members : List (Text × Bytes)} {before b after : Bytes} (left : Space before) (body : Body members b)
    (right : Space after) : ObjectText members (before ++ 123 :: b ++ 125 :: after)

inductive ArrayText : List Bytes → Bytes → Prop
  | mk {values : List Bytes} {before b after : Bytes} (left : Space before) (elements : Elements values b)
    (right : Space after) : ArrayText values (before ++ 91 :: b ++ 93 :: after)

inductive StringValue : Text → Bytes → Prop
  | mk {s : Text} {before b after : Bytes} (left : Space before) (string : StringText s b) (right : Space after) :
    StringValue s (before ++ 34 :: b ++ 34 :: after)

/-! ### The bytes of the parts -/

variable {w b : Bytes} {byte : UInt8}

theorem Space.nil : Space [] := rfl

theorem Space.ws (h : Space w) (hbyte : byte ∈ w) : isWs byte = true := List.all_eq_true.1 h byte hbyte

/-- The bytes that numbers and literals are made of. -/
def isScalarByte (byte : UInt8) : Bool :=
  isDigit byte || byte == 43 || byte == 45 || byte == 46 || (97 ≤ byte && byte ≤ 117) || byte == 69

theorem scalarByte_low (h : isScalarByte byte = true) : 43 ≤ byte.toNat := by
  rw [isScalarByte, isDigit] at h
  simp only [Bool.or_eq_true, Bool.and_eq_true, decide_eq_true_iff, beq_iff_eq] at h
  rcases h with ((((⟨hlow, -⟩ | rfl) | rfl) | rfl) | ⟨hlow, -⟩) | rfl
  · exact Nat.le_trans (by decide) hlow
  · decide
  · decide
  · decide
  · exact Nat.le_trans (by decide) hlow
  · decide

theorem digits_scalar {ds : Bytes} (h : ds.all isDigit = true) : ds.all isScalarByte = true := by
  rw [List.all_eq_true] at h ⊢
  rintro byte hbyte
  rw [isScalarByte, h byte hbyte]
  rfl

theorem IntPart.scalar (h : IntPart b) : b.all isScalarByte = true ∧ b ≠ [] := by
  cases h with
  | zero => exact ⟨by decide, by simp⟩
  | nonzero first nonzero digits => exact ⟨digits_scalar (by rw [List.all_cons, first, digits]; rfl), by simp⟩

theorem FracPart.scalar (h : FracPart b) : b.all isScalarByte = true := by
  cases h with
  | none => rfl
  | some digits =>
    rw [List.all_cons, digits_scalar digits]
    decide

theorem ExpPart.scalar (h : ExpPart b) : b.all isScalarByte = true := by
  cases h with
  | none => rfl
  | some mark signed digits =>
    rw [List.cons_append, List.all_cons, List.all_append, digits_scalar digits, Bool.and_true]
    rcases mark with rfl | rfl <;> rcases signed with rfl | rfl | rfl <;> decide

theorem Scalar.bytes (h : Scalar b) : b.all isScalarByte = true ∧ b ≠ [] := by
  cases h with
  | number signed int frac exp =>
    obtain ⟨hint, hne⟩ := int.scalar
    refine ⟨?_, by simp [hne]⟩
    rw [List.all_append, List.all_append, List.all_append, hint, frac.scalar, exp.scalar]
    rcases signed with rfl | rfl <;> decide
  | trueWord => exact ⟨by decide, by simp⟩
  | falseWord => exact ⟨by decide, by simp⟩
  | nullWord => exact ⟨by decide, by simp⟩

/-! ### Control characters -/

/-- White space, or no control character of ASCII. -/
def isPrinted (byte : UInt8) : Bool := isWs byte || 32 ≤ byte

theorem printed_high {n : Nat} (h : n ≤ byte.toNat) (hn : 32 ≤ n) : isPrinted byte = true := by
  have hbyte : 32 ≤ byte := UInt8.le_iff_toNat_le.2 (Nat.le_trans hn h)
  rw [isPrinted, decide_eq_true hbyte, Bool.or_true]

theorem Space.printed (h : Space w) : w.all isPrinted = true := by
  rw [List.all_eq_true]
  rintro byte hbyte
  rw [isPrinted, h.ws hbyte, Bool.true_or]

theorem Scalar.printed (h : Scalar b) : b.all isPrinted = true := by
  rw [List.all_eq_true]
  rintro byte hbyte
  exact printed_high (scalarByte_low (List.all_eq_true.1 h.bytes.1 byte hbyte)) (by decide)

theorem hexValue_printed {n : Nat} (h : hexValue byte = some n) : isPrinted byte = true := by
  rw [hexValue] at h
  split at h
  next hdigit => exact printed_high (UInt8.le_iff_toNat_le.1 hdigit.1) (by decide)
  split at h
  next hupper => exact printed_high (UInt8.le_iff_toNat_le.1 hupper.1) (by decide)
  split at h
  next hlower => exact printed_high (UInt8.le_iff_toNat_le.1 hlower.1) (by decide)
  · cases h

theorem Hex4.printed {n : Nat} (h : Hex4 b n) : b.all isPrinted = true := by
  cases h with
  | digits first second third fourth =>
    simp only [List.all_cons, List.all_nil, hexValue_printed first, hexValue_printed second, hexValue_printed third,
      hexValue_printed fourth, Bool.and_self]

theorem encodeChar_printed {c : Char} (h : 0x20 ≤ c.val.toNat) : (String.utf8EncodeChar c).all isPrinted = true := by
  rw [List.all_eq_true]
  rintro byte hbyte
  rcases Text.byte_of_char hbyte with ⟨hascii, rfl⟩ | ⟨-, hhigh⟩
  · have hle : c.val.toNat ≤ 127 := hascii
    refine printed_high (n := 32) ?_ (by decide)
    rw [UInt32.toNat_toUInt8, Nat.mod_eq_of_lt (by omega)]
    exact h
  · exact printed_high (UInt8.le_iff_toNat_le.1 hhigh) (by decide)

theorem StringText.printed {s : Text} (h : StringText s b) : b.all isPrinted = true := by
  have hslash : isPrinted 92 = true := by decide
  have hu : isPrinted 117 = true := by decide
  induction h with
  | nil => rfl
  | char low quote backslash rest ih => rw [List.all_append, encodeChar_printed low, ih, Bool.and_self]
  | @escape e c s b known rest ih =>
    have hletter : isPrinted e = true := by
      have hall : escapes.all (fun entry => isPrinted entry.1) = true := by decide
      exact List.all_eq_true.1 hall _ known
    rw [List.all_cons, List.all_cons, hslash, hletter, ih, Bool.and_self, Bool.and_self]
  | unicode digits rest ih =>
    simp only [List.all_cons, List.all_append, List.cons_append, hslash, hu, digits.printed, ih, Bool.and_self]
  | pair first second isHigh isLow decoded rest ih =>
    simp only [List.all_cons, List.all_append, List.cons_append, hslash, hu, first.printed, second.printed, ih,
      Bool.and_self]

theorem printed_between {opens closes : UInt8} (hopens : isPrinted opens = true) (hcloses : isPrinted closes = true)
    (h : b.all isPrinted = true) : (opens :: b ++ [closes]).all isPrinted = true := by
  rw [List.cons_append, List.all_cons, List.all_append, hopens, h]
  simp [hcloses]

/-- No derivation writes another control character than its white space. -/
theorem Derives.printed {symbol : Symbol} (h : Derives symbol b) : b.all isPrinted = true := by
  have hquote : isPrinted 34 = true := by decide
  have hcomma : isPrinted 44 = true := by decide
  have hcolon : isPrinted 58 = true := by decide
  induction h with
  | scalar scalar => exact scalar.printed
  | string string => exact printed_between hquote hquote string.printed
  | emptyArray space => exact printed_between (by decide) (by decide) space.printed
  | array items ih => exact printed_between (by decide) (by decide) ih
  | emptyObject space => exact printed_between (by decide) (by decide) space.printed
  | object body ih => exact printed_between (by decide) (by decide) ih
  | item left value right ih => simp only [List.all_append, left.printed, right.printed, ih, Bool.and_self]
  | items left value right rest ih ihRest =>
    simp only [List.all_cons, List.all_append, left.printed, right.printed, hcomma, ih, ihRest, Bool.and_self]
  | member left key colonLeft colonRight value right ih =>
    simp only [List.all_cons, List.all_append, List.cons_append, List.append_assoc, left.printed, key.printed,
      colonLeft.printed, colonRight.printed, right.printed, hquote, hcolon, ih, Bool.and_self]
  | members left key colonLeft colonRight value right rest ih ihRest =>
    simp only [List.all_cons, List.all_append, List.cons_append, List.append_assoc, left.printed, key.printed,
      colonLeft.printed, colonRight.printed, right.printed, hquote, hcolon, hcomma, ih, ihRest, Bool.and_self]

theorem ObjectText.printed {members : List (Text × Bytes)} {json : Bytes} (h : ObjectText members json) :
    json.all isPrinted = true := by
  have hbrace : isPrinted 123 = true := by decide
  have hend : isPrinted 125 = true := by decide
  cases h with
  | @mk before b after left body right =>
    have hbody : b.all isPrinted = true := by
      cases body with
      | empty space => exact space.printed
      | members body => exact body.printed
    simp only [List.all_cons, List.all_append, List.cons_append, List.append_assoc, left.printed, right.printed,
      hbrace, hend, hbody, Bool.and_self]

/-- The text of an object can be stored as a C string. -/
theorem ObjectText.no_zero {members : List (Text × Bytes)} {json : Bytes} (h : ObjectText members json) :
    (0 : UInt8) ∉ json := by
  intro hzero
  exact absurd (List.all_eq_true.1 h.printed 0 hzero) (by decide)

end JsonText

end Schemes
