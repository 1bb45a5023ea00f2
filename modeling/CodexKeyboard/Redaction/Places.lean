import CodexKeyboard.Redaction.Redact

/-! Where `local_path_start` finds a path, told by characters: a cut of the line into what is before
    and what is after. The indices of the source are the sizes of what is before.

    The start of a scheme is taken to be one byte after the character before it. Where that character
    has more than one byte, the slice panics. -/

namespace CodexKeyboard.Redaction

open Schemes Text Transact Store

/-- The letters and digits a text ends in, and what is before them. -/
def trailing (s : Text) : Text := s.rtakeWhile Char.isAlphanum
def leading (s : Text) : Text := s.rdropWhile Char.isAlphanum

/-- The letters and digits a text ends in follow a character of more than one byte. -/
def Glued (s : Text) : Prop := ∃ c, (leading s).getLast? = some c ∧ 127 < c.val

/-- The two places where the scheme before a colon is sliced out. -/
inductive Stuck : (before rest : Text) → Prop
  | scheme {before rest : Text} : "://".toList <+: rest → Glued before → Stuck before rest
  | slash {before rest : Text} : Glued before → Stuck (before ++ [':']) ('/' :: rest)

/-- A drive letter ends `before`, and a path follows. -/
def driveLetter (before rest : Text) : Bool :=
  match before.getLast?, rest with
  | some letter, ':' :: slash :: _ =>
    (slash == '/' || slash == '\\') && letter.isAlpha &&
      (before.dropLast.isEmpty || before.dropLast.getLast?.any opensPath)
  | _, _ => false

/-- The part of `before` that a path through the cut takes with it; `none` where there is no path. -/
def plainRun (before rest : Text) : Option Text :=
  if driveLetter before rest then some before.getLast?.toList
  else if opensHere before rest (size before) then some [] else none

def pathRun (before rest : Text) : Option Text :=
  if "://".toList <+: rest then
    if lowercase (trailing before) = "file".toList then some (trailing before) else none
  else if rest.head? = some '/' ∧ before.getLast? = some ':' then
    if lowercase (trailing before.dropLast) = "file".toList then some (trailing before.dropLast ++ [':'])
    else if lowercase (trailing before.dropLast) ∈ webSchemes then none
    else plainRun before rest
  else plainRun before rest

variable {before rest s : Text} {c : Char}

/-! ### Slices at a cut -/

@[simp] theorem sliced_some {α : Type} (a : α) : sliced (some a) = .ok a := rfl

@[simp] theorem sliced_none {α : Type} : sliced (none : Option α) = .error .panic := rfl

@[simp] theorem panic_bind {α β : Type} (f : α → Except Halt β) :
    ((Except.error .panic : Except Halt α) >>= f) = .error .panic := rfl

theorem leading_trailing (s : Text) : leading s ++ trailing s = s := List.rdropWhile_append_rtakeWhile

theorem trailing_of_all (h : ∀ c ∈ s, c.isAlphanum = true) : leading s = [] ∧ trailing s = s :=
  ⟨List.rdropWhile_eq_nil_iff.2 h, List.rtakeWhile_eq_self_iff.2 h⟩

theorem trailing_of_cut {a b : Text} (hc : c.isAlphanum = false) (hb : ∀ x ∈ b, x.isAlphanum = true) :
    leading (a ++ c :: b) = a ++ [c] ∧ trailing (a ++ c :: b) = b := by
  induction b using List.reverseRecOn with
  | nil =>
    have hnot : ¬ c.isAlphanum = true := by simp [hc]
    exact ⟨List.rdropWhile_concat_neg _ _ c hnot, List.rtakeWhile_concat_neg _ _ c hnot⟩
  | append_singleton b x ih =>
    have hx : x.isAlphanum = true := hb x (by simp)
    obtain ⟨hlead, htrail⟩ := ih fun y hy => hb y (List.mem_append_left _ hy)
    have hsplit : a ++ c :: (b ++ [x]) = (a ++ c :: b) ++ [x] := by simp
    rw [leading, trailing, hsplit, List.rdropWhile_concat_pos _ _ x hx,
      List.rtakeWhile_concat_pos _ _ x hx]
    exact ⟨hlead, by rw [← trailing, htrail]⟩

/-- The slice of the scheme before a cut goes wrong exactly behind a character of several bytes. -/
theorem schemeBefore_cut (before rest : Text) :
    (Glued before ∧ schemeBefore (before ++ rest) (size before) = .error .panic) ∨
    (¬ Glued before ∧
      schemeBefore (before ++ rest) (size before) = .ok (size (leading before), trailing before)) := by
  unfold schemeBefore
  rw [sliceTo_append, sliced_some, ok_bind]
  cases hfind : rfind (fun c => !c.isAlphanum) before with
  | none =>
    have hall : ∀ c ∈ before, c.isAlphanum = true := by
      simpa using rfind_none.1 hfind
    obtain ⟨hlead, htrail⟩ := trailing_of_all hall
    have hslice := slice_append [] before rest
    refine Or.inr ⟨by simp [Glued, hlead], ?_⟩
    simp only [List.nil_append, size_nil] at hslice
    simp [hlead, htrail, hslice]
  | some position =>
    obtain ⟨a, c, b, rfl, rfl, hc, hb⟩ := rfind_some hfind
    obtain ⟨hlead, htrail⟩ := @trailing_of_cut c a b (by simpa using hc) (by simpa using hb)
    have hglued : Glued (a ++ c :: b) ↔ 127 < c.val := by simp [Glued, hlead]
    rw [hglued, hlead, htrail]
    by_cases hascii : c.val ≤ 127
    · refine Or.inr ⟨UInt32.not_lt.2 hascii, ?_⟩
      have hstart : size a + 1 = size (a ++ [c]) := by simp [ascii_size hascii]
      have hline : a ++ c :: b = a ++ [c] ++ b := by simp
      simp only [hstart, hline, slice_append, sliced_some, ok_bind]
    · have hwide := UInt32.not_le.1 hascii
      refine Or.inl ⟨hwide, ?_⟩
      have hbytes : 1 < c.utf8Size := by
        have hpos := c.utf8Size_pos
        have hne : c.utf8Size ≠ 1 := mt Char.utf8Size_eq_one_iff.1 hascii
        omega
      have hcut : splitBytes (a ++ c :: b ++ rest) (size a + 1) = none := by
        rw [List.append_assoc, List.cons_append]
        exact splitBytes_inside (by omega) (by omega)
      have hnone : slice (a ++ c :: b ++ rest) (size a + 1) (size (a ++ c :: b)) = none := by
        unfold slice sliceFrom
        rw [hcut]
        split <;> rfl
      simp only [hnone, sliced_none, panic_bind]

/-! ### Drive letters -/

theorem toNat_toUInt8 {x : UInt32} (h : x ≤ 127) : x.toUInt8.toNat = x.toNat := by
  rw [UInt32.le_iff_toNat_le] at h
  rw [UInt32.toNat_toUInt8]
  have hle : x.toNat ≤ 127 := h
  omega

/-- A byte of a character is a slash exactly when the character is. -/
theorem isSlash_iff {x : UInt8} (h : x ∈ String.utf8EncodeChar c) :
    isSlash x = (c == '/' || c == '\\') := by
  rw [Bool.eq_iff_iff]
  simp only [isSlash, Bool.or_eq_true, beq_iff_eq, ← UInt8.toNat_inj, Char.ext_iff, ← UInt32.toNat_inj]
  rcases byte_of_char h with ⟨hle, rfl⟩ | ⟨hlt, hx⟩
  · rw [toNat_toUInt8 hle]
    rfl
  · rw [UInt8.le_iff_toNat_le] at hx
    rw [UInt32.lt_iff_toNat_lt] at hlt
    simp at hx hlt ⊢
    omega

theorem isAlphabetic_iff {x : UInt8} (h : x ∈ String.utf8EncodeChar c) :
    isAlphabetic x = c.isAlpha := by
  rw [Bool.eq_iff_iff]
  unfold Char.isAlpha Char.isUpper Char.isLower
  simp only [isAlphabetic, Bool.or_eq_true, Bool.and_eq_true, decide_eq_true_eq, UInt8.le_iff_toNat_le,
    UInt32.le_iff_toNat_le, ge_iff_le]
  rcases byte_of_char h with ⟨hle, rfl⟩ | ⟨hlt, hx⟩
  · rw [toNat_toUInt8 hle]
    rfl
  · rw [UInt8.le_iff_toNat_le] at hx
    rw [UInt32.lt_iff_toNat_lt] at hlt
    simp at hx hlt ⊢
    omega

/-- The byte behind a colon at a cut, and the byte before it, say what the characters say. -/
theorem slash_after_colon (rest : Text) :
    (asBytes (':' :: rest))[1]?.any isSlash = rest.head?.any fun c => c == '/' || c == '\\' := by
  cases rest with
  | nil => rfl
  | cons c rest =>
    obtain ⟨x, hx, hget⟩ := byte_after [':'] c rest
    have hget' : (asBytes (':' :: c :: rest))[1]? = some x := hget
    rw [hget', Option.any_some, isSlash_iff hx]
    rfl

theorem letter_before_cut (a : Text) (c : Char) (rest : Text) :
    (asBytes (a ++ [c] ++ rest))[size (a ++ [c]) - 1]?.any isAlphabetic = c.isAlpha := by
  obtain ⟨x, hx, hget⟩ := byte_before a c rest
  rw [List.append_assoc, List.singleton_append, hget, Option.any_some, isAlphabetic_iff hx]

theorem ascii_of_alpha (h : c.isAlpha = true) : c.val ≤ 127 := by
  unfold Char.isAlpha Char.isUpper Char.isLower at h
  simp only [Bool.or_eq_true, Bool.and_eq_true, decide_eq_true_eq, UInt32.le_iff_toNat_le, ge_iff_le] at h ⊢
  simp at h ⊢
  omega

theorem driveBefore_cut (before rest : Text) :
    driveBefore (before ++ rest) rest (size before) = .ok (driveLetter before rest) := by
  unfold driveBefore
  rcases List.eq_nil_or_concat before with rfl | ⟨a, d, hconcat⟩
  · simp [driveLetter]
  rw [List.concat_eq_append] at hconcat
  subst hconcat
  have hpos : 0 < size (a ++ [d]) := size_pos (by simp)
  rw [letter_before_cut]
  have hcases : ∀ tail, rest = ':' :: tail →
      driveLetter (a ++ [d]) rest = ((tail.head?.any fun c => c == '/' || c == '\\') && d.isAlpha &&
        (a.isEmpty || a.getLast?.any opensPath)) := by
    rintro tail rfl
    cases tail <;> simp [driveLetter]
  split
  next hdrive =>
    obtain ⟨hcolon, hslash, -, hletter⟩ := hdrive
    obtain ⟨tail, rfl⟩ : ∃ tail, rest = ':' :: tail := List.head?_eq_some_iff.1 hcolon
    rw [slash_after_colon] at hslash
    -- a letter is one byte, so the index before it is a cut again
    have hone : size (a ++ [d]) = size a + 1 := by
      rw [size_append, size_cons, size_nil, ascii_size (ascii_of_alpha hletter)]
    rw [hcases tail rfl, hslash, hletter, hone, List.append_assoc, Nat.add_sub_cancel, sliceTo_append,
      sliced_some, ok_bind]
    cases a with
    | nil => rfl
    | cons e a =>
      have hfirst := size_pos (List.cons_ne_nil e a)
      rw [if_neg (by omega)]
      simp
  next hdrive =>
    rw [Except.ok.injEq]
    by_cases hcolon : rest.head? = some ':'
    · obtain ⟨tail, rfl⟩ : ∃ tail, rest = ':' :: tail := List.head?_eq_some_iff.1 hcolon
      rw [slash_after_colon] at hdrive
      rw [hcases tail rfl]
      simp only [hcolon, hpos, true_and, not_and, Bool.not_eq_true] at hdrive
      cases hslash : tail.head?.any fun c => c == '/' || c == '\\' with
      | false => rfl
      | true => rw [hdrive hslash]; rfl
    · cases rest with
      | nil => simp [driveLetter]
      | cons r rest =>
        have hne : r ≠ ':' := by simpa using hcolon
        unfold driveLetter
        split
        next heq => exact absurd (List.cons.inj heq).1 hne
        next => rfl

/-! ### The start of a path -/

/-- Where a drive letter is, the text before it is one letter shorter. -/
theorem driveLetter_cut (h : driveLetter before rest = true) :
    ∃ a d, before = a ++ [d] ∧ d.isAlpha = true ∧ ∃ tail, rest = ':' :: tail := by
  unfold driveLetter at h
  split at h
  next d slash tail hlast =>
    simp only [Bool.and_eq_true] at h
    obtain ⟨a, rfl⟩ := List.getLast?_eq_some_iff.1 hlast
    exact ⟨a, d, rfl, h.1.2, _, rfl⟩
  next => cases h

theorem plainPathStart_cut (before rest : Text) :
    plainPathStart (before ++ rest) before rest (size before) =
      .ok ((plainRun before rest).map fun run => size before - size run) := by
  rw [plainPathStart, driveBefore_cut, ok_bind, plainRun]
  cases hdrive : driveLetter before rest with
  | true =>
    obtain ⟨a, d, rfl, hd, -⟩ := driveLetter_cut hdrive
    simp [ascii_size (ascii_of_alpha hd)]
  | false =>
    simp only [Bool.false_eq_true, if_false]
    split <;> simp

theorem size_trailing (s : Text) : size s - size (trailing s) = size (leading s) := by
  have hsplit := congrArg size (leading_trailing s)
  rw [size_append] at hsplit
  omega

/-- What `local_path_start` does at a cut: it panics where it is stuck, and else finds the path the
    characters show. -/
theorem localPathStart_cut (before rest : Text) :
    (Stuck before rest ∧ localPathStart (before ++ rest) (size before) = .error .panic) ∨
    (¬ Stuck before rest ∧ localPathStart (before ++ rest) (size before) =
      .ok ((pathRun before rest).map fun run => size before - size run)) := by
  unfold localPathStart pathRun
  rw [sliceFrom_append, sliced_some, ok_bind, sliceTo_append, sliced_some, ok_bind]
  simp only [List.isPrefixOf_iff_prefix]
  by_cases hscheme : "://".toList <+: rest
  · rw [if_pos hscheme, if_pos hscheme]
    rcases schemeBefore_cut before rest with ⟨hglued, hpanic⟩ | ⟨hfree, hok⟩
    · exact Or.inl ⟨.scheme hscheme hglued, by rw [hpanic, panic_bind]⟩
    · refine Or.inr ⟨?_, ?_⟩
      · rintro (⟨-, hglued⟩ | hslash)
        · exact hfree hglued
        · simp at hscheme
      · rw [hok, ok_bind]
        dsimp only
        split <;> simp [size_trailing]
  rw [if_neg hscheme, if_neg hscheme]
  by_cases hslash : rest.head? = some '/' ∧ before.getLast? = some ':'
  · rw [if_pos hslash, if_pos hslash]
    obtain ⟨tail, rfl⟩ : ∃ tail, rest = '/' :: tail := List.head?_eq_some_iff.1 hslash.1
    obtain ⟨a, rfl⟩ := List.getLast?_eq_some_iff.1 hslash.2
    have hindex : size (a ++ [':']) - 1 = size a := by
      rw [size_append]
      exact Nat.add_sub_cancel (size a) 1
    have hline : a ++ [':'] ++ '/' :: tail = a ++ ':' :: '/' :: tail := by simp
    rw [hindex, List.dropLast_concat]
    rcases schemeBefore_cut a (':' :: '/' :: tail) with ⟨hglued, hpanic⟩ | ⟨hfree, hok⟩
    · exact Or.inl ⟨.slash hglued, by rw [hline, hpanic, panic_bind]⟩
    · refine Or.inr ⟨?_, ?_⟩
      · generalize hbefore : a ++ [':'] = before
        rintro (⟨hrest, -⟩ | hglued)
        · exact hscheme hrest
        · exact hfree ((List.append_inj_left' hbefore rfl) ▸ hglued)
      · have hplain := plainPathStart_cut (a ++ [':']) ('/' :: tail)
        rw [hline] at hplain ⊢
        rw [hok, ok_bind]
        dsimp only
        split
        · have hsize := size_trailing a
          rw [Option.map_some, size_append, size_append]
          simp only [size_cons, size_nil]
          rw [Nat.add_sub_add_right, hsize]
        · split
          · rfl
          · exact hplain
  · rw [if_neg hslash, if_neg hslash]
    refine Or.inr ⟨?_, plainPathStart_cut before rest⟩
    rintro (⟨hrest, -⟩ | -)
    · exact hscheme hrest
    · exact hslash ⟨rfl, by simp⟩

/-- The cuts at which the scan of a line goes wrong: it is stuck, or a path by the scheme `file:` with
    one slash is to start behind what has been copied. -/
inductive Trap : (before rest : Text) → Prop
  | stuck {before rest : Text} : Stuck before rest → Trap before rest
  | file {before rest : Text} : lowercase (trailing before) = "file".toList →
    Trap (before ++ [':']) ('/' :: rest)

theorem mem_trailing (h : c ∈ trailing s) : c.isAlphanum = true := List.mem_rtakeWhile_imp h

theorem alnum_of_alpha (h : c.isAlpha = true) : c.isAlphanum = true := by
  simp [Char.isAlphanum, h]

/-- A path takes letters and digits only from before the cut. -/
theorem pathRun_some {run : Text} (h : pathRun before rest = some run) (hfree : ¬ Trap before rest) :
    ∃ kept, before = kept ++ run ∧ ∀ x ∈ run, x.isAlphanum = true := by
  have hplain : plainRun before rest = some run →
      ∃ kept, before = kept ++ run ∧ ∀ x ∈ run, x.isAlphanum = true := by
    intro hrun
    unfold plainRun at hrun
    split at hrun
    next hdrive =>
      obtain ⟨a, d, rfl, hd, -⟩ := driveLetter_cut hdrive
      cases hrun
      refine ⟨a, by simp, ?_⟩
      simpa using alnum_of_alpha hd
    next =>
      split at hrun
      · cases hrun
        exact ⟨before, by simp, by simp⟩
      · cases hrun
  unfold pathRun at h
  split at h
  · split at h
    · cases h
      exact ⟨leading before, (leading_trailing before).symm, fun x hx => mem_trailing hx⟩
    · cases h
  · split at h
    next hslash =>
      split at h
      next hfile =>
        obtain ⟨tail, rfl⟩ : ∃ tail, rest = '/' :: tail := List.head?_eq_some_iff.1 hslash.1
        obtain ⟨a, rfl⟩ := List.getLast?_eq_some_iff.1 hslash.2
        rw [List.dropLast_concat] at hfile
        exact absurd (.file hfile) hfree
      next =>
        split at h
        · cases h
        · exact hplain h
    next => exact hplain h

end CodexKeyboard.Redaction
