import CodexKeyboard.Redaction.Total

/-! Text that redaction leaves as it is: one without a character any of its searches begins with. -/

namespace CodexKeyboard.Redaction

open Schemes Text Transact Store

/-- A character that no token, path or key begins with, and that does not end a line. -/
structure Inert (c : Char) : Prop where
  token : isTokenCharacter c = false
  mark : isPathMark c = false
  whitespace : isWhitespace c = false
  nul : c ≠ '\x00'
  lower : c.toLower = c

variable {s : Text}

/-- A pattern whose first character does not occur is not found. -/
theorem findText_none {pattern : Text} {first : Char} (hpattern : pattern.head? = some first)
    (h : first ∉ s) : findText pattern s = none := by
  cases hfound : findText pattern s with
  | none => rfl
  | some i =>
    obtain ⟨a, b, hs, -⟩ := findText_some hfound
    cases pattern with
    | nil => simp at hpattern
    | cons c pattern =>
      obtain rfl := Option.some.inj hpattern
      exact absurd (hs ▸ by simp) h

theorem matchIndices_none {key : Text} {first : Char} (hkey : key.head? = some first) (h : first ∉ s) :
    matchIndices key s 0 0 = [] := by
  rw [List.eq_nil_iff_forall_not_mem]
  rintro start hstart
  obtain ⟨a, b, rfl, -⟩ := mem_matchIndices hstart
  cases key with
  | nil => simp at hkey
  | cons c key =>
    obtain rfl := Option.some.inj hkey
    exact h (by simp)

theorem anyM_false {α : Type} {l : List α} {f : α → Except Halt Bool} (h : ∀ a ∈ l, f a = .ok false) :
    l.anyM f = .ok false := by
  induction l with
  | nil => rfl
  | cons a l ih =>
    rw [List.anyM, h a List.mem_cons_self, ok_bind]
    exact ih fun b hb => h b (List.mem_cons_of_mem a hb)

section
variable (h : ∀ c ∈ s, Inert c)
include h

/-- A token character does not occur in inert text. -/
theorem not_mem_inert {c : Char} (hc : isTokenCharacter c = true) : c ∉ s := by
  intro hmem
  rw [(h c hmem).token] at hc
  exact absurd hc (by simp)

theorem lowercase_inert : lowercase s = s := by
  have hmap : s.map Char.toLower = s.map id := List.map_congr_left fun c hc => (h c hc).lower
  rw [lowercase, hmap, List.map_id]

theorem contains_inert {pattern : String} (first : Char) (hpattern : pattern.toList.head? = some first)
    (hfirst : isTokenCharacter first = true) : contains pattern s = false := by
  rw [contains, findText_none hpattern (not_mem_inert h hfirst)]
  rfl

theorem lines_inert (hne : s ≠ []) : lines s = [s] := by
  have hsplit : s.splitOn '\n' = [s] := by
    rw [List.splitOn_eq_splitOnP]
    refine List.splitOnP_eq_singleton fun c hc => ?_
    have hspace := (h c hc).whitespace
    rw [beq_eq_false_iff_ne]
    rintro rfl
    exact absurd hspace (by decide)
  rw [lines, hsplit]
  cases s with
  | nil => exact absurd rfl hne
  | cons c s => rfl

theorem containsSensitiveAssignment_inert : containsSensitiveAssignment s = .ok false := by
  have hkeys : (sensitiveKeys.all fun key => key.toList.head?.any isTokenCharacter) = true := by decide +kernel
  refine anyM_false fun key hkey => ?_
  obtain ⟨first, hfirst, htoken⟩ := (Option.any_eq_true _ _).1 (List.all_eq_true.1 hkeys key hkey)
  rw [matchIndices_none hfirst (not_mem_inert h htoken)]
  rfl

theorem find_inert {p : Char → Bool} (hp : ∀ c, Inert c → p c = false) : find p s = none :=
  find_none.2 fun c hc => hp c (h c hc)

theorem nextScheme_inert : nextScheme s = none := by
  have hschemes : (urlSchemes.all fun scheme => scheme.head?.any isTokenCharacter) = true := by decide +kernel
  have hnone : (urlSchemes.filterMap fun scheme => (findText scheme s).map (·, scheme)) = [] := by
    refine List.filterMap_eq_nil_iff.2 fun scheme hscheme => ?_
    obtain ⟨first, hfirst, htoken⟩ := (Option.any_eq_true _ _).1 (List.all_eq_true.1 hschemes scheme hscheme)
    rw [findText_none hfirst (not_mem_inert h htoken)]
    rfl
  rw [nextScheme, hnone]
  rfl

/-- An inert line outside a private key comes back as it is. -/
theorem redactLine_inert (hne : s ≠ []) : redactLine false s = .ok (s, false) := by
  have hpos := size_pos hne
  have hlower := lowercase_inert h
  have hurl : redactUrlUserinfo s = .ok s := by
    rw [redactUrlUserinfo, redactUrlUserinfoLoop, if_pos hpos, hlower, sliced, sliceFrom_zero, orThrow, ok_bind,
      nextScheme_inert h]
    rfl
  have hpaths : redactEmbeddedPaths s = .ok s := by
    rw [redactEmbeddedPaths, redactEmbeddedPathsLoop, if_pos hpos, sliced, sliceFrom_zero, orThrow, ok_bind,
      find_inert h fun c hc => hc.mark]
    rfl
  have htokens : redactEmbeddedTokens s = .ok s := by
    rw [redactEmbeddedTokens, redactEmbeddedTokensLoop, if_pos hpos, sliced, sliceFrom_zero, orThrow, ok_bind,
      find_inert h fun c hc => hc.token]
    rfl
  have hbegin : startsPrivateKey s = false := by
    rw [startsPrivateKey, hlower, contains_inert h '-' (by decide) (by decide), Bool.false_and]
  have hsensitive : isSensitiveLine s = .ok false := by
    rw [isSensitiveLine, contains_inert h 'b' (by decide) (by decide), if_neg (by decide),
      containsSensitiveAssignment_inert h]
  rw [redactLine, hbegin, if_neg (by decide), hlower, hsensitive, ok_bind, if_neg (by decide), hurl, ok_bind,
    hpaths, ok_bind, htokens, ok_bind]

theorem filter_inert : s.filter (· != '\x00') = s :=
  List.filter_eq_self.2 fun c hc => by simpa using (h c hc).nul

end

/-- The lines of a text without a carriage return at the end of one, and with something on its last. -/
theorem lines_eq {parts : List Text} (hparts : s.splitOn '\n' = parts)
    (hreturn : ∀ part ∈ parts, part.getLast? ≠ some '\r') (hlast : [] ∉ parts.getLast?) : lines s = parts := by
  have hended : (parts.dropLast.map fun line => if line.getLast? = some '\r' then line.dropLast else line) =
      parts.dropLast := by
    conv_rhs => rw [← List.map_id parts.dropLast]
    exact List.map_congr_left fun line hline => if_neg (hreturn line (List.mem_of_mem_dropLast hline))
  rw [lines, hparts, hended]
  cases hend : parts.getLast? with
  | none => rw [List.getLast?_eq_none_iff.1 hend, List.dropLast_nil]
  | some last =>
    rw [hend, Option.mem_some] at hlast
    cases last with
    | nil => exact absurd rfl hlast
    | cons c last => exact List.dropLast_append_getLast? _ hend

/-- A text that neither begins nor ends in whitespace is not trimmed. -/
theorem trim_eq (hfirst : ∀ c, s.head? = some c → isWhitespace c = false)
    (hlast : ∀ c, s.getLast? = some c → isWhitespace c = false) : trim s = s := by
  rw [trim, trimMatches, List.dropWhile_eq_self_iff.2, List.rdropWhile_eq_self_iff.2]
  · exact fun hs => by simpa using hlast _ (List.getLast?_eq_some_getLast hs)
  · exact fun hs => by simpa using hfirst _ (by rw [List.head?_eq_getElem?, List.getElem?_eq_getElem hs])

/-- Inert text comes back as it is. -/
theorem redactSensitiveText_inert (h : ∀ c ∈ s, Inert c) (hne : s ≠ []) : redactSensitiveText s = .ok s := by
  have htrim : trim s = s := trim_eq (fun c hc => (h c (List.mem_of_mem_head? hc)).whitespace)
    fun c hc => (h c (List.mem_of_getLast? hc)).whitespace
  rw [redactSensitiveText, filter_inert h, lines_inert h hne, redactLines, redactLine_inert h hne, ok_bind]
  dsimp only
  rw [redactLines, ok_bind, ok_bind, show List.intercalate ['\n'] [s] = s by simp [List.intercalate], htrim]

end CodexKeyboard.Redaction
