import CodexKeyboard.Redaction.Scan

/-! When redaction returns. The searches for assignments, credentials and tokens slice at characters
    they have found, so they always do; the scan for paths does where no trap is in its way. -/

namespace CodexKeyboard.Redaction

open Schemes Text Transact Store

variable {line rest done : Text} {c : Char}

/-! ### Assignments -/

theorem anyM_ok {α : Type} {l : List α} {f : α → Except Halt Bool} (h : ∀ a ∈ l, ∃ b, f a = .ok b) :
    ∃ b, l.anyM f = .ok b := by
  induction l with
  | nil => exact ⟨false, rfl⟩
  | cons a l ih =>
    obtain ⟨b, hb⟩ := h a (List.mem_cons_self ..)
    rw [List.anyM, hb, ok_bind]
    cases b with
    | true => exact ⟨true, rfl⟩
    | false => exact ih fun a ha => h a (List.mem_cons_of_mem _ ha)

theorem mem_matchIndices {key s : Text} {skip offset start : Nat}
    (h : start ∈ matchIndices key s skip offset) :
    ∃ a b, s = a ++ key ++ b ∧ start = offset + size a := by
  induction s, skip, offset using matchIndices.induct key with
  | case1 skip offset => simp [matchIndices] at h
  | case2 c s skip offset ih =>
    rw [matchIndices] at h
    obtain ⟨a, b, rfl, rfl⟩ := ih h
    exact ⟨c :: a, b, rfl, by rw [size_cons]; omega⟩
  | case3 c s offset hkey ih =>
    rw [matchIndices, if_pos hkey] at h
    rcases List.mem_cons.1 h with rfl | h
    · obtain ⟨b, hb⟩ := hkey
      exact ⟨[], b, hb.symm, rfl⟩
    · obtain ⟨a, b, rfl, rfl⟩ := ih h
      exact ⟨c :: a, b, rfl, by rw [size_cons]; omega⟩
  | case4 c s offset hkey ih =>
    rw [matchIndices, if_neg hkey] at h
    obtain ⟨a, b, rfl, rfl⟩ := ih h
    exact ⟨c :: a, b, rfl, by rw [size_cons]; omega⟩

theorem assignedAt_ok (a key b : Text) : ∃ v, assignedAt (a ++ key ++ b) key (size a) = .ok v := by
  unfold assignedAt
  have hbefore : sliceTo (a ++ key ++ b) (size a) = some a := by
    rw [List.append_assoc]
    exact sliceTo_append a (key ++ b)
  have hsuffix : sliceFrom (a ++ key ++ b) (size a + size key) = some b := by
    rw [← size_append]
    exact sliceFrom_append (a ++ key) b
  rw [hbefore, sliced_some, ok_bind]
  split
  · exact ⟨_, rfl⟩
  rw [hsuffix, sliced_some, ok_bind]
  split
  next hquote =>
    cases b with
    | nil => simp at hquote
    | cons q b =>
      have hq : size [q] = 1 := by
        have hcases : q = '"' ∨ q = '\'' := by simpa using hquote
        rcases hcases with rfl | rfl <;> rfl
      have hrest : sliceFrom (q :: b) 1 = some b := by
        have hcut := sliceFrom_append [q] b
        rwa [hq] at hcut
      rw [hrest, sliced_some, ok_bind]
      exact ⟨_, rfl⟩
  next => exact ⟨_, rfl⟩

theorem containsSensitiveAssignment_ok (line : Text) : ∃ v, containsSensitiveAssignment line = .ok v := by
  refine anyM_ok fun key _ => anyM_ok fun start hstart => ?_
  obtain ⟨a, b, hline, rfl⟩ := mem_matchIndices hstart
  rw [hline, Nat.zero_add]
  exact assignedAt_ok a key.toList b

/-! ### Credentials -/

theorem utf8Size_toLower (c : Char) : c.toLower.utf8Size = c.utf8Size := by
  unfold Char.toLower
  split
  next hupper =>
    have hlow : c.val ≤ 127 := by
      have hz := hupper.2
      rw [UInt32.le_iff_toNat_le] at hz ⊢
      exact Nat.le_trans hz (by decide)
    rw [ascii_size hlow, ascii_size]
    obtain ⟨ha, hz⟩ := hupper
    rw [ge_iff_le, UInt32.le_iff_toNat_le] at ha
    rw [UInt32.le_iff_toNat_le] at hz ⊢
    simp at ha hz ⊢
    omega
  next => rfl

@[simp] theorem size_lowercase (s : Text) : size (lowercase s) = size s := by
  simp [size, lowercase, utf8Size_toLower, Function.comp_def]

theorem foldl_min_mem {best : Option (Nat × Text)} {l : List (Nat × Text)} {x : Nat × Text}
    (h : l.foldl (fun best next => match best with
      | none => some next
      | some best => if next.1 < best.1 then some next else some best) best = some x) :
    x ∈ l ∨ best = some x := by
  induction l generalizing best with
  | nil => exact Or.inr h
  | cons y l ih =>
    rcases ih h with hmem | hbest
    · exact Or.inl (List.mem_cons_of_mem _ hmem)
    · cases best with
      | none =>
        cases hbest
        exact Or.inl (List.mem_cons_self ..)
      | some best =>
        simp only at hbest
        split at hbest
        · cases hbest
          exact Or.inl (List.mem_cons_self ..)
        · exact Or.inr hbest

/-- The next scheme is there, and is not empty. -/
theorem nextScheme_some {relative : Nat} {scheme : Text} (h : nextScheme rest = some (relative, scheme)) :
    ∃ a b, rest = a ++ scheme ++ b ∧ size a = relative ∧ scheme ≠ [] := by
  rcases foldl_min_mem h with hmem | hnone
  · obtain ⟨found, hscheme, hfound⟩ := List.mem_filterMap.1 hmem
    obtain ⟨offset, hoffset, heq⟩ := Option.map_eq_some_iff.1 hfound
    cases heq
    obtain ⟨a, b, hrest, hsize⟩ := findText_some hoffset
    refine ⟨a, b, hrest, hsize, ?_⟩
    rintro rfl
    exact absurd hscheme (by decide)
  · cases hnone

theorem redactAuthority_ok (authority : Text) : ∃ out, redactAuthority authority = .ok out := by
  unfold redactAuthority
  cases hat : rfind (· == '@') authority with
  | none => exact ⟨_, rfl⟩
  | some i =>
    obtain ⟨a, c, b, rfl, rfl, hc, -⟩ := rfind_some hat
    obtain rfl : c = '@' := by simpa using hc
    have hhost : sliceFrom (a ++ '@' :: b) (size a + 1) = some b := by
      have hcut := sliceFrom_append (a ++ ['@']) b
      rw [size_append, List.append_assoc] at hcut
      exact hcut
    exact ⟨_, by simp only [hhost, sliced_some, ok_bind]; rfl⟩

theorem redactUrlUserinfoLoop_ok (fuel : Nat) : ∀ (done rest output : Text), size rest < fuel →
    ∃ out, redactUrlUserinfoLoop (done ++ rest) fuel (size done) output = .ok out := by
  induction fuel with
  | zero => exact fun _ _ _ h => absurd h (Nat.not_lt_zero _)
  | succ fuel ih =>
    intro done rest output hfuel
    rw [redactUrlUserinfoLoop]
    split
    next =>
      have hlower : sliceFrom (lowercase (done ++ rest)) (size done) = some (lowercase rest) := by
        have hcut := sliceFrom_append (lowercase done) (lowercase rest)
        rwa [size_lowercase, lowercase, lowercase, ← List.map_append] at hcut
      rw [hlower, sliced_some, ok_bind]
      cases hnext : nextScheme (lowercase rest) with
      | none => exact ⟨_, by simp only [sliceFrom_append, sliced_some, ok_bind]; rfl⟩
      | some found =>
        obtain ⟨relative, scheme⟩ := found
        obtain ⟨a, b, hsplit, hrelative, hne⟩ := nextScheme_some hnext
        -- the same cut of the line itself
        obtain ⟨head, tail, rfl, hhead, -⟩ := List.map_eq_append_iff.1 hsplit
        have hsize : relative + size scheme = size head := by
          rw [← hrelative, ← size_append, ← hhead]
          exact size_lowercase head
        have hpos : 0 < size scheme := size_pos hne
        have hstart : size done + relative + size scheme = size (done ++ head) := by
          rw [Nat.add_assoc, hsize, size_append]
        obtain ⟨redacted, hredacted⟩ := redactAuthority_ok (tail.takeWhile fun c => !endsAuthority c)
        have hwhole : done ++ (head ++ tail) = done ++ head ++ tail := by simp
        have hcut : done ++ head ++ tail = done ++ head ++ (tail.takeWhile fun c => !endsAuthority c) ++
            tail.dropWhile fun c => !endsAuthority c := by
          rw [List.append_assoc _ (tail.takeWhile _), List.takeWhile_append_dropWhile]
        have hauthority : slice (done ++ head ++ tail) (size (done ++ head))
            (size (done ++ head ++ tail.takeWhile fun c => !endsAuthority c)) =
              some (tail.takeWhile fun c => !endsAuthority c) := by
          have hslice := slice_append (done ++ head) (tail.takeWhile fun c => !endsAuthority c)
            (tail.dropWhile fun c => !endsAuthority c)
          rwa [← hcut] at hslice
        simp only [hstart, hwhole, slice_append, sliceFrom_append, sliced_some, ok_bind, runEnd_cut,
          hauthority, hredacted]
        rw [hcut]
        refine ih _ _ _ ?_
        have htail := congrArg size (List.takeWhile_append_dropWhile (p := fun c => !endsAuthority c)
          (l := tail))
        rw [size_append] at htail hfuel
        omega
    next => exact ⟨_, rfl⟩

theorem redactUrlUserinfo_ok (line : Text) : ∃ out, redactUrlUserinfo line = .ok out :=
  redactUrlUserinfoLoop_ok (size line + 1) [] line [] (Nat.lt_succ_self _)

/-! ### Tokens -/

theorem redactEmbeddedTokensLoop_ok (fuel : Nat) : ∀ (done rest output : Text), size rest < fuel →
    ∃ out, redactEmbeddedTokensLoop (done ++ rest) fuel (size done) output = .ok out := by
  induction fuel with
  | zero => exact fun _ _ _ h => absurd h (Nat.not_lt_zero _)
  | succ fuel ih =>
    intro done rest output hfuel
    rw [redactEmbeddedTokensLoop]
    split
    next =>
      rw [sliceFrom_append, sliced_some, ok_bind]
      cases hfind : find isTokenCharacter rest with
      | none => exact ⟨_, rfl⟩
      | some relative =>
        obtain ⟨gap, c, after, rfl, rfl, hc, -⟩ := find_some.1 hfind
        have hstart : size done + size gap = size (done ++ gap) := (size_append done gap).symm
        have hwhole : done ++ (gap ++ c :: after) = done ++ gap ++ c :: after := by simp
        have hstop := runEnd_cut (fun c => !isTokenCharacter c) (done ++ gap) (c :: after)
        have htoken := List.takeWhile_append_dropWhile (p := fun c => !!isTokenCharacter c)
          (l := c :: after)
        generalize htake : (c :: after).takeWhile (fun c => !!isTokenCharacter c) = token at hstop htoken
        generalize (c :: after).dropWhile (fun c => !!isTokenCharacter c) = others at htoken
        have hcut : done ++ gap ++ c :: after = done ++ gap ++ token ++ others := by
          rw [List.append_assoc _ token, htoken]
        have hslice : slice (done ++ gap ++ c :: after) (size (done ++ gap)) (size (done ++ gap ++ token)) =
            some token := by
          rw [hcut]
          exact slice_append (done ++ gap) token others
        simp only [hstart, hwhole, slice_append, sliceFrom_append, sliced_some, ok_bind, hstop, hslice]
        rw [hcut]
        refine ih _ _ _ ?_
        have hne : token ≠ [] := by
          rw [← htake, List.takeWhile_cons_of_pos (by simp [hc])]
          exact List.cons_ne_nil _ _
        have hpos := size_pos hne
        have hsize := congrArg size htoken
        rw [size_append] at hsize hfuel
        omega
    next => exact ⟨_, rfl⟩

theorem redactEmbeddedTokens_ok (line : Text) : ∃ out, redactEmbeddedTokens line = .ok out :=
  redactEmbeddedTokensLoop_ok (size line + 1) [] line [] (Nat.lt_succ_self _)

/-! ### The whole text -/

/-- A line that is replaced as a whole, outside a private key. -/
def sensitiveLine (line : Text) : Bool :=
  contains "bearer " (lowercase line) ||
    (containsSensitiveAssignment (lowercase line)).toOption.getD false

/-- The lines that the three searches go through. -/
def searchedLines : Bool → List Text → List Text
  | _, [] => []
  | privateKey, line :: rest =>
    if privateKey || startsPrivateKey line then searchedLines (!endsPrivateKey line) rest
    else if sensitiveLine line then searchedLines false rest
    else line :: searchedLines false rest

/-- No trap is in the way of the scan for paths, once the credentials are out of the line. -/
def LineOk (line : Text) : Prop := ∀ userinfo, redactUrlUserinfo line = .ok userinfo → TrapFree [] userinfo

/-- Whether a line is searched, and what then comes of it. -/
theorem redactLine_cases (privateKey : Bool) (line : Text) :
    ((privateKey || startsPrivateKey line) = true ∧
      redactLine privateKey line = .ok (redactedLine, !endsPrivateKey line)) ∨
    ((privateKey || startsPrivateKey line) = false ∧ sensitiveLine line = true ∧
      redactLine privateKey line = .ok (redactedLine, false)) ∨
    ((privateKey || startsPrivateKey line) = false ∧ sensitiveLine line = false ∧ LineOk line ∧
      ∃ out, redactLine privateKey line = .ok (out, false)) ∨
    ((privateKey || startsPrivateKey line) = false ∧ sensitiveLine line = false ∧ ¬ LineOk line ∧
      redactLine privateKey line = .error .panic) := by
  unfold redactLine
  cases hkey : privateKey || startsPrivateKey line with
  | true => exact Or.inl ⟨rfl, rfl⟩
  | false =>
    obtain ⟨assigned, hassigned⟩ := containsSensitiveAssignment_ok (lowercase line)
    have hsensitive : isSensitiveLine (lowercase line) = .ok (sensitiveLine line) := by
      rw [isSensitiveLine, sensitiveLine, hassigned]
      cases contains "bearer " (lowercase line) <;> rfl
    rw [hsensitive]
    refine Or.inr ?_
    cases sensitiveLine line with
    | true => exact Or.inl ⟨rfl, rfl, rfl⟩
    | false =>
      obtain ⟨userinfo, huserinfo⟩ := redactUrlUserinfo_ok line
      have hline : LineOk line ↔ TrapFree [] userinfo := by
        refine ⟨fun h => h userinfo huserinfo, fun h other hother => ?_⟩
        rw [huserinfo] at hother
        cases hother
        exact h
      refine Or.inr ?_
      rw [hline, huserinfo]
      rcases redactEmbeddedPaths_eq userinfo with ⟨hfree, hok⟩ | ⟨htrap, hpanic⟩
      · obtain ⟨tokens, htokens⟩ := redactEmbeddedTokens_ok (withoutPaths [] userinfo)
        refine Or.inl ⟨rfl, rfl, hfree, tokens, ?_⟩
        simp only [Bool.false_eq_true, if_false, ok_bind, hok, htokens]
      · refine Or.inr ⟨rfl, rfl, htrap, ?_⟩
        simp only [Bool.false_eq_true, if_false, ok_bind, hpanic, panic_bind]

theorem redactLines_iff (lines : List Text) : ∀ privateKey,
    ((∃ out, redactLines privateKey lines = .ok out) ∧ ∀ line ∈ searchedLines privateKey lines, LineOk line) ∨
    (redactLines privateKey lines = .error .panic ∧
      ¬ ∀ line ∈ searchedLines privateKey lines, LineOk line) := by
  induction lines with
  | nil => exact fun _ => Or.inl ⟨⟨[], rfl⟩, by simp [searchedLines]⟩
  | cons line lines ih =>
    intro privateKey
    rw [redactLines, searchedLines]
    rcases redactLine_cases privateKey line with ⟨hkey, hline⟩ | ⟨hkey, hsens, hline⟩ |
      ⟨hkey, hsens, hok, out, hline⟩ | ⟨hkey, hsens, hno, hline⟩
    · rw [hline, if_pos hkey, ok_bind]
      rcases ih (!endsPrivateKey line) with ⟨⟨rest, hrest⟩, hall⟩ | ⟨hpanic, hall⟩
      · exact Or.inl ⟨⟨_, by simp only [hrest, ok_bind]; rfl⟩, hall⟩
      · exact Or.inr ⟨by simp only [hpanic, panic_bind], hall⟩
    · rw [hline, hkey, hsens, ok_bind]
      rcases ih false with ⟨⟨rest, hrest⟩, hall⟩ | ⟨hpanic, hall⟩
      · exact Or.inl ⟨⟨_, by simp only [hrest, ok_bind]; rfl⟩, hall⟩
      · exact Or.inr ⟨by simp only [hpanic, panic_bind], hall⟩
    · rw [hline, hkey, hsens, ok_bind]
      rcases ih false with ⟨⟨rest, hrest⟩, hall⟩ | ⟨hpanic, hall⟩
      · exact Or.inl ⟨⟨_, by simp only [hrest, ok_bind]; rfl⟩, by simpa using ⟨hok, hall⟩⟩
      · exact Or.inr ⟨by simp only [hpanic, panic_bind], by simpa using fun _ => hall⟩
    · rw [hline, hkey, hsens, panic_bind]
      exact Or.inr ⟨rfl, fun hall => hno (hall line (by simp))⟩

/-- Redaction always comes to an end, and it returns a text exactly when every line that is searched
    is free of traps: no scheme glued to a character of several bytes, and no `file:` with one slash,
    where the scan for paths stops. -/
theorem redactSensitiveText_returns_iff (text : Text) :
    redactSensitiveText text ≠ .error .unfinished ∧
    ((∃ out, redactSensitiveText text = .ok out) ↔
      ∀ line ∈ searchedLines false (lines (text.filter (· != '\x00'))), LineOk line) := by
  unfold redactSensitiveText
  rcases redactLines_iff (lines (text.filter (· != '\x00'))) false with ⟨⟨out, hout⟩, hall⟩ | ⟨hpanic, hall⟩
  · rw [hout, ok_bind]
    exact ⟨by simp, fun _ => hall, fun _ => ⟨_, rfl⟩⟩
  · rw [hpanic, panic_bind]
    refine ⟨by simp, ?_, fun h => absurd h hall⟩
    rintro ⟨out, hout⟩
    cases hout

/-- A scheme right behind a Chinese word, and a `file:` path with one slash. -/
theorem redactSensitiveText_panics :
    redactSensitiveText "见http://host".toList = .error .panic ∧
    redactSensitiveText "see file:/etc/hosts".toList = .error .panic := by
  decide +kernel

end CodexKeyboard.Redaction
