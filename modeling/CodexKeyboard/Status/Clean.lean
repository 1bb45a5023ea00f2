import CodexKeyboard.Status.Escapes
import CodexKeyboard.Status.Members

/-! Texts of objects in which no name is there twice and every string is one that is allowed at its place. -/

namespace CodexKeyboard.Status

open Schemes Text
open Schemes.JsonText (Bytes Scalar IntPart FracPart ExpPart StringText Body Derives Space isPlain ObjectText)

/-- A path from the inside out, and what strings may stand there. -/
abbrev Strings := List String → Text → Prop

/-- A value whose strings are allowed at their paths, with no name twice in an object. -/
inductive Clean (allowed : Strings) : List String → Bytes → Prop
  | scalar {path : List String} {b : Bytes} (scalar : Scalar b) : Clean allowed path b
  | string {path : List String} {s : Text} {b : Bytes} (string : StringText s b) (isAllowed : allowed path s) :
    Clean allowed path (34 :: b ++ [34])
  | object {path : List String} {members : Members} {b : Bytes}
    (body : Body (members.map fun member => (member.1.toList, member.2)) b)
    (distinct : (members.map Prod.fst).Nodup)
    (values : ∀ member ∈ members, Clean allowed (member.1 :: path) member.2) : Clean allowed path (123 :: b ++ [125])

variable {allowed : Strings} {path names : List String} {members : Members} {name : String} {value : Bytes}

theorem Clean.derives (h : Clean allowed path value) : Derives .value value := by
  cases h with
  | scalar scalar => exact .scalar scalar
  | string string isAllowed => exact .string string
  | object body distinct values => exact body.value

/-- Members whose names are some of those given, in order, and whose values are clean. -/
structure Fields (allowed : Strings) (path : List String) (members : Members) (names : List String) : Prop where
  within : (members.map Prod.fst).Sublist names
  values : ∀ member ∈ members, Clean allowed (member.1 :: path) member.2

/-- Names that are different, and stand for themselves between quotes. -/
def goodNames (names : List String) : Bool := decide names.Nodup && names.all fun name => name.toList.all isPlain

theorem derives_joined (hplain : ∀ member ∈ members, member.1.toList.all isPlain = true)
    (hvalues : ∀ member ∈ members, Derives .value member.2) (hmembers : members ≠ []) :
    Derives (.members (members.map fun member => (member.1.toList, member.2))) (joined members) := by
  induction members with
  | nil => exact absurd rfl hmembers
  | cons member members ih =>
    obtain ⟨name, value⟩ := member
    have hkey : StringText name.toList (lit name) := .plain (hplain _ List.mem_cons_self)
    have hvalue := hvalues _ List.mem_cons_self
    cases members with
    | nil =>
      have hone : Derives (.members [(name.toList, value)])
          ([] ++ 34 :: lit name ++ 34 :: [] ++ 58 :: [] ++ value ++ []) := .member .nil hkey .nil .nil hvalue .nil
      have htext : [] ++ 34 :: lit name ++ 34 :: [] ++ 58 :: [] ++ value ++ [] = joined [(name, value)] := by
        simp [joined, memberText, quoted, quote, colon]
      exact htext ▸ hone
    | cons next members =>
      have hrest := ih (fun member hmember => hplain member (List.mem_cons_of_mem _ hmember))
        (fun member hmember => hvalues member (List.mem_cons_of_mem _ hmember)) (List.cons_ne_nil _ _)
      have hall : Derives
          (.members ((name.toList, value) :: (next :: members).map fun member => (member.1.toList, member.2)))
          ([] ++ 34 :: lit name ++ 34 :: [] ++ 58 :: [] ++ value ++ [] ++ 44 :: joined (next :: members)) :=
        .members .nil hkey .nil .nil hvalue .nil hrest
      have htext : [] ++ 34 :: lit name ++ 34 :: [] ++ 58 :: [] ++ value ++ [] ++ 44 :: joined (next :: members) =
          joined ((name, value) :: next :: members) := by
        simp [joined, memberText, quoted, quote, colon, comma]
      exact htext ▸ hall

/-- Members between braces are a text of an object. -/
theorem Fields.body (h : Fields allowed path members names) (hnames : goodNames names = true)
    (hmembers : members ≠ []) :
    Body (members.map fun member => (member.1.toList, member.2)) (joined members) ∧ (members.map Prod.fst).Nodup := by
  rw [goodNames, Bool.and_eq_true, decide_eq_true_iff] at hnames
  obtain ⟨hdistinct, hplain⟩ := hnames
  refine ⟨.members (derives_joined ?_ (fun member hmember => (h.values member hmember).derives) hmembers),
    h.within.nodup hdistinct⟩
  intro member hmember
  exact List.all_eq_true.1 hplain _ (h.within.subset (List.mem_map_of_mem hmember))

theorem Fields.clean (h : Fields allowed path members names) (hnames : goodNames names = true)
    (hmembers : members ≠ []) :
    Clean allowed path (objectText members) := by
  obtain ⟨hbody, hdistinct⟩ := h.body hnames hmembers
  exact .object hbody hdistinct h.values

/-! ### Fields, put together -/

theorem Fields.nil : Fields allowed path [] [] := ⟨.slnil, fun _ hmember => absurd hmember List.not_mem_nil⟩

theorem Fields.cons (hvalue : Clean allowed (name :: path) value) (h : Fields allowed path members names) :
    Fields allowed path ((name, value) :: members) (name :: names) :=
  ⟨h.within.cons_cons name, List.forall_mem_cons.2 ⟨hvalue, h.values⟩⟩

theorem Fields.append {more : Members} {others : List String} (h : Fields allowed path members names)
    (hmore : Fields allowed path more others) : Fields allowed path (members ++ more) (names ++ others) := by
  refine ⟨?_, List.forall_mem_append.2 ⟨h.values, hmore.values⟩⟩
  rw [List.map_append]
  exact h.within.append hmore.within

theorem Fields.asked (included : Bool) (h : Fields allowed path members names) :
    Fields allowed path (asked included members) names := by
  cases included with
  | true => exact h
  | false => exact ⟨List.nil_sublist _, fun _ hmember => absurd hmember List.not_mem_nil⟩

/-! ### Values -/

theorem isDigit_digitByte {c : Char} (h : c.isDigit = true) : JsonText.isDigit (digitByte c) = true := by
  rw [Char.isDigit, Bool.and_eq_true, decide_eq_true_iff, decide_eq_true_iff] at h
  have hlow : 48 ≤ c.toNat := h.1
  have hhigh : c.toNat ≤ 57 := h.2
  have hbyte : (digitByte c).toNat = c.toNat := toNat_byte (by omega)
  rw [JsonText.isDigit, Bool.and_eq_true, decide_eq_true_iff, decide_eq_true_iff, UInt8.le_iff_toNat_le,
    UInt8.le_iff_toNat_le, hbyte]
  exact ⟨hlow, hhigh⟩

theorem decimal_digits (n : Nat) : (decimal n).all JsonText.isDigit = true := by
  rw [decimal, List.all_map, List.all_eq_true]
  intro c hc
  exact isDigit_digitByte (Nat.isDigit_of_mem_toDigits (by decide) (by decide) hc)

theorem decimal_positive {n : Nat} (hpos : 0 < n) : ∃ d ds, decimal n = d :: ds ∧ d ≠ 48 := by
  induction n using Nat.strongRecOn with
  | ind n ih =>
    rcases Nat.lt_or_ge n 10 with hlt | hge
    · refine ⟨digitByte n.digitChar, [], by rw [decimal, Nat.toDigits_of_lt_base hlt]; rfl, ?_⟩
      interval_cases n <;> decide
    · obtain ⟨d, ds, hdigits, hnonzero⟩ := ih (n / 10) (by omega) (by omega)
      refine ⟨d, ds ++ [digitByte (n % 10).digitChar], ?_, hnonzero⟩
      rw [decimal, Nat.toDigits_of_base_le (by decide) hge, List.map_append, ← decimal, hdigits]
      rfl

theorem decimal_int (n : Nat) : IntPart (decimal n) := by
  rcases Nat.eq_zero_or_pos n with rfl | hpos
  · exact .zero
  · obtain ⟨d, ds, hdigits, hnonzero⟩ := decimal_positive hpos
    have hall := decimal_digits n
    rw [hdigits, List.all_cons, Bool.and_eq_true] at hall
    rw [hdigits]
    exact .nonzero hall.1 hnonzero hall.2

theorem clean_decimal (n : Nat) : Clean allowed path (decimal n) := by
  have hnumber := Scalar.number (.inl rfl) (decimal_int n) .none .none
  rw [List.nil_append, List.append_nil, List.append_nil] at hnumber
  exact .scalar hnumber

theorem clean_signedDecimal (i : Int) : Clean allowed path (signedDecimal i) := by
  rw [signedDecimal]
  split
  next =>
    have hnumber := Scalar.number (.inr rfl) (decimal_int i.natAbs) .none .none
    rw [List.append_nil, List.append_nil] at hnumber
    exact .scalar hnumber
  next => exact clean_decimal _

theorem clean_bool (value : Bool) : Clean allowed path (boolText value) := by
  cases value with
  | true => exact .scalar .trueWord
  | false => exact .scalar .falseWord

theorem clean_quoted {s : Text} {b : Bytes} (h : StringText s b) (hallowed : allowed path s) :
    Clean allowed path (quoted b) :=
  .string h hallowed

end CodexKeyboard.Status
