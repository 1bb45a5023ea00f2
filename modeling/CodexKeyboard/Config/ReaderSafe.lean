import CodexKeyboard.Config.Reader
import CodexKeyboard.Schemes.Text

/-! The reader on any bytes: every loop comes to its end, every read is inside the view, and what is decoded
    is UTF-8. -/

namespace CodexKeyboard.Config

open Schemes Text Transact

/-- A reader that stops inside the view, with nothing or with a value and a position further on. -/
inductive Reads {α : Type} (valid : α → Prop) (json : Bytes) : Except Fault (Option (α × Bytes)) → Prop
  | none : Reads valid json (.ok .none)
  | some {a : α} {rest : Bytes} (holds : valid a) (suffix : rest <:+ json) (shorter : rest.length < json.length) :
    Reads valid json (.ok (.some (a, rest)))

def Utf8 (bytes : Bytes) : Prop := ∃ s : Text, bytes = asBytes s

variable {α β : Type} {valid : α → Prop} {json rest bytes : Bytes} {c : Char}

theorem Utf8.append {more : Bytes} (h : Utf8 bytes) (hmore : Utf8 more) : Utf8 (bytes ++ more) := by
  obtain ⟨s, rfl⟩ := h
  obtain ⟨t, rfl⟩ := hmore
  exact ⟨s ++ t, (asBytes_append s t).symm⟩

theorem utf8_char (c : Char) : Utf8 (String.utf8EncodeChar c) := ⟨[c], by simp [asBytes]⟩

theorem utf8_nil : Utf8 [] := ⟨[], rfl⟩

theorem Reads.weaken {r : Except Fault (Option (α × Bytes))} {further : Bytes} (h : Reads valid json r)
    (hsuffix : json <:+ further) : Reads valid further r := by
  cases h with
  | none => exact .none
  | some holds suffix shorter =>
    exact .some holds (suffix.trans hsuffix) (Nat.lt_of_lt_of_le shorter hsuffix.length_le)

/-- A reader that goes on with what another has read. -/
theorem Reads.bind {r : Except Fault (Option (α × Bytes))} {more : β → Prop}
    {next : Option (α × Bytes) → Except Fault (Option (β × Bytes))} (h : Reads valid json r)
    (hnone : next .none = .ok .none)
    (hsome : ∀ a rest, valid a → rest <:+ json → rest.length < json.length →
      Reads more json (next (.some (a, rest)))) :
    Reads more json (r >>= next) := by
  cases h with
  | none =>
    rw [show (Except.ok Option.none >>= next) = next .none from rfl, hnone]
    exact .none
  | some holds suffix shorter => exact hsome _ _ holds suffix shorter

theorem readAt_eq {offset : Nat} (h : offset < json.length) : readAt json offset = .ok (getElem json offset h) := by
  rw [readAt, List.getElem?_eq_getElem h]
  rfl

theorem skipWs_suffix (json : Bytes) : skipWs json <:+ json := List.dropWhile_suffix _

/-! ### Characters -/

theorem exists_char {n : Nat} (h : n.isValidChar) : ∃ c : Char, c.val.toNat = n :=
  ⟨Char.ofNatAux n h, rfl⟩

theorem encode_one (h : c.val.toNat ≤ 0x7f) : String.utf8EncodeChar c = [.ofNat c.val.toNat] := by
  rw [String.utf8EncodeChar]
  exact if_pos h

theorem encode_two (hlow : 0x7f < c.val.toNat) (h : c.val.toNat ≤ 0x7ff) :
    String.utf8EncodeChar c = [.ofNat (c.val.toNat / 64 % 32 + 0xc0), .ofNat (c.val.toNat % 64 + 0x80)] := by
  rw [String.utf8EncodeChar, if_neg (by omega), if_pos h]

theorem encode_three (hlow : 0x7ff < c.val.toNat) (h : c.val.toNat ≤ 0xffff) :
    String.utf8EncodeChar c = [.ofNat (c.val.toNat / 4096 % 16 + 0xe0), .ofNat (c.val.toNat / 64 % 64 + 0x80),
      .ofNat (c.val.toNat % 64 + 0x80)] := by
  rw [String.utf8EncodeChar, if_neg (by omega), if_neg (by omega), if_pos h]

theorem encode_four (hlow : 0xffff < c.val.toNat) :
    String.utf8EncodeChar c = [.ofNat (c.val.toNat / 262144 % 8 + 0xf0), .ofNat (c.val.toNat / 4096 % 64 + 0x80),
      .ofNat (c.val.toNat / 64 % 64 + 0x80), .ofNat (c.val.toNat % 64 + 0x80)] := by
  rw [String.utf8EncodeChar, if_neg (by omega), if_neg (by omega), if_neg (by omega)]

/-- The bytes of a code point are those of its character. -/
theorem utf8CodePoint_char (c : Char) : utf8CodePoint c.val.toNat = some (String.utf8EncodeChar c) := by
  have hvalid : c.val.toNat < 0xd800 ∨ (0xdfff < c.val.toNat ∧ c.val.toNat < 0x110000) := c.valid
  rw [utf8CodePoint, if_neg (by omega)]
  split
  next hone => rw [encode_one hone]
  split
  next hone htwo =>
    rw [encode_two (by omega) htwo, Nat.add_comm 0xC0, Nat.add_comm 0x80, Nat.mod_eq_of_lt (by omega : _ / 64 < 32)]
  split
  next hone htwo hthree =>
    rw [encode_three (by omega) hthree, Nat.add_comm 0xE0, Nat.add_comm 0x80, Nat.add_comm 0x80,
      Nat.mod_eq_of_lt (by omega : _ / 4096 < 16)]
  next hone htwo hthree =>
    rw [encode_four (by omega), Nat.add_comm 0xF0, Nat.add_comm 0x80, Nat.add_comm 0x80, Nat.add_comm 0x80,
      Nat.mod_eq_of_lt (by omega : _ / 262144 < 8)]

theorem utf8CodePoint_utf8 {n : Nat} (h : utf8CodePoint n = some bytes) :
    ∃ c : Char, bytes = String.utf8EncodeChar c := by
  have hvalid : n.isValidChar := by
    rw [utf8CodePoint] at h
    split at h
    · cases h
    next hvalid =>
      show n < 0xd800 ∨ (0xdfff < n ∧ n < 0x110000)
      omega
  obtain ⟨c, rfl⟩ := exists_char hvalid
  rw [utf8CodePoint_char] at h
  exact ⟨c, (Option.some.inj h).symm⟩

theorem ofNat_eq {n : Nat} {b : UInt8} (h : n = b.toNat) : UInt8.ofNat n = b := by
  rw [h]
  exact UInt8.ofNat_toNat

/-! ### Sequences -/

theorem continuation_range {byte : UInt8} : isContinuation byte = true ↔ 0x80 ≤ byte.toNat ∧ byte.toNat < 0xC0 := by
  rw [isContinuation, Bool.and_eq_true, decide_eq_true_iff, decide_eq_true_iff, UInt8.le_iff_toNat_le,
    UInt8.lt_iff_toNat_lt]
  rfl

theorem continuationLoop_eq (json : Bytes) (count offset : Nat) (h : offset + count ≤ json.length) :
    continuationLoop json count offset = .ok (((json.drop offset).take count).all isContinuation) := by
  induction count generalizing offset with
  | zero => rfl
  | succ count ih =>
    have hlt : offset < json.length := by omega
    rw [continuationLoop, readAt_eq hlt, List.drop_eq_getElem_cons hlt, List.take_succ_cons, List.all_cons]
    show (if isContinuation (getElem json offset hlt) = true then _ else _) = _
    split
    next hcontinued => rw [ih (offset + 1) (by omega), hcontinued, Bool.true_and]
    next hother =>
      rw [Bool.eq_false_iff.2 hother, Bool.false_and]

/-- What `append_literal_utf8` checks of a sequence. -/
def literalOk (lead : UInt8) (tail : Bytes) : Bool :=
  tail.all isContinuation && !secondRefused lead (tail.headD 0)

theorem literalSequence_eq {lead : UInt8} {len : Nat} (hlen : 2 ≤ len) (tail : Bytes) :
    literalSequence lead (lead :: tail) len =
      if tail.length + 1 < len then .ok none
      else if literalOk lead (tail.take (len - 1)) = true then
        .ok (some (lead :: tail.take (len - 1), tail.drop (len - 1)))
      else .ok none := by
  rw [literalSequence, List.length_cons]
  split
  · rfl
  next henough =>
    cases tail with
    | nil =>
      rw [List.length_nil] at henough
      omega
    | cons second tail =>
      rw [List.length_cons] at henough
      obtain ⟨more, rfl⟩ : ∃ more, len = more + 2 := ⟨len - 2, by omega⟩
      rw [continuationLoop_eq _ _ _ (by simp; omega)]
      have hread : readAt (lead :: second :: tail) 1 = .ok second := rfl
      rw [hread, literalOk]
      show (if (!((second :: tail).take (more + 1)).all isContinuation) = true then _ else _) = _
      rw [show more + 2 - 1 = more + 1 from rfl]
      cases ((second :: tail).take (more + 1)).all isContinuation with
      | false => rfl
      | true =>
        show (if secondRefused lead second = true then _ else _) = _
        have htake : (second :: tail).take (more + 1) = second :: tail.take more := rfl
        rw [htake, List.headD_cons]
        cases secondRefused lead second <;> rfl

theorem sequenceLen_cases {lead : UInt8} {len : Nat} (h : sequenceLen lead = some len) :
    (len = 2 ∧ 0xC2 ≤ lead.toNat ∧ lead.toNat ≤ 0xDF) ∨ (len = 3 ∧ 0xE0 ≤ lead.toNat ∧ lead.toNat ≤ 0xEF) ∨
      (len = 4 ∧ 0xF0 ≤ lead.toNat ∧ lead.toNat ≤ 0xF4) := by
  have hrange : ∀ low high : UInt8,
      (low ≤ lead ∧ lead ≤ high) ↔ (low.toNat ≤ lead.toNat ∧ lead.toNat ≤ high.toNat) := by
    rintro low high
    rw [UInt8.le_iff_toNat_le, UInt8.le_iff_toNat_le]
  rw [sequenceLen] at h
  split at h
  next hlead => exact .inl ⟨(Option.some.inj h).symm, (hrange _ _).1 hlead⟩
  split at h
  next hlead => exact .inr (.inl ⟨(Option.some.inj h).symm, (hrange _ _).1 hlead⟩)
  split at h
  next hlead => exact .inr (.inr ⟨(Option.some.inj h).symm, (hrange _ _).1 hlead⟩)
  cases h

theorem secondRefused_iff {lead second : UInt8} : secondRefused lead second = true ↔
    (lead.toNat = 0xE0 ∧ second.toNat < 0xA0) ∨ (lead.toNat = 0xED ∧ 0x9F < second.toNat) ∨
      (lead.toNat = 0xF0 ∧ second.toNat < 0x90) ∨ (lead.toNat = 0xF4 ∧ 0x8F < second.toNat) := by
  have heq : ∀ byte : UInt8, (lead == byte) = true ↔ lead.toNat = byte.toNat := by
    rintro byte
    rw [beq_iff_eq, UInt8.toNat_inj]
  rw [secondRefused]
  simp only [Bool.or_eq_true, Bool.and_eq_true, heq, decide_eq_true_iff, UInt8.lt_iff_toNat_lt, or_assoc]
  rfl

/-- A sequence that passes is a character. -/
theorem literalOk_char {lead : UInt8} {tail : Bytes} (hlen : sequenceLen lead = some (tail.length + 1))
    (h : literalOk lead tail = true) : ∃ c : Char, lead :: tail = String.utf8EncodeChar c := by
  rw [literalOk, Bool.and_eq_true, Bool.not_eq_true', ← Bool.not_eq_true, secondRefused_iff] at h
  obtain ⟨hall, hsecond⟩ := h
  rcases sequenceLen_cases hlen with ⟨hn, hlow, hhigh⟩ | ⟨hn, hlow, hhigh⟩ | ⟨hn, hlow, hhigh⟩
  · obtain ⟨b, rfl⟩ : ∃ b, tail = [b] := List.length_eq_one_iff.1 (by omega)
    simp only [List.all_cons, List.all_nil, Bool.and_true, continuation_range] at hall
    obtain ⟨c, hc⟩ := exists_char (n := (lead.toNat - 0xC0) * 64 + (b.toNat - 0x80)) (.inl (by omega))
    refine ⟨c, ?_⟩
    rw [encode_two (by omega) (by omega), hc, ofNat_eq (b := lead) (by omega), ofNat_eq (b := b) (by omega)]
  · obtain ⟨b, d, rfl⟩ : ∃ b d, tail = [b, d] := List.length_eq_two.1 (by omega)
    simp only [List.all_cons, List.all_nil, Bool.and_true, Bool.and_eq_true, continuation_range] at hall
    rw [List.headD_cons] at hsecond
    have hvalid : ((lead.toNat - 0xE0) * 4096 + (b.toNat - 0x80) * 64 + (d.toNat - 0x80)).isValidChar := by
      show _ < 0xd800 ∨ (0xdfff < _ ∧ _ < 0x110000)
      omega
    obtain ⟨c, hc⟩ := exists_char hvalid
    refine ⟨c, ?_⟩
    rw [encode_three (by omega) (by omega), hc, ofNat_eq (b := lead) (by omega), ofNat_eq (b := b) (by omega),
      ofNat_eq (b := d) (by omega)]
  · obtain ⟨b, d, e, rfl⟩ : ∃ b d e, tail = [b, d, e] := List.length_eq_three.1 (by omega)
    simp only [List.all_cons, List.all_nil, Bool.and_true, Bool.and_eq_true, continuation_range] at hall
    rw [List.headD_cons] at hsecond
    have hvalid : ((lead.toNat - 0xF0) * 262144 + (b.toNat - 0x80) * 4096 + (d.toNat - 0x80) * 64 +
        (e.toNat - 0x80)).isValidChar := by
      show _ < 0xd800 ∨ (0xdfff < _ ∧ _ < 0x110000)
      omega
    obtain ⟨c, hc⟩ := exists_char hvalid
    refine ⟨c, ?_⟩
    rw [encode_four (by omega), hc, ofNat_eq (b := lead) (by omega), ofNat_eq (b := b) (by omega),
      ofNat_eq (b := d) (by omega), ofNat_eq (b := e) (by omega)]

theorem appendLiteralUtf8_reads (json : Bytes) :
    Reads (fun bytes => ∃ c : Char, bytes = String.utf8EncodeChar c) json (appendLiteralUtf8 json) := by
  cases json with
  | nil => exact .none
  | cons lead tail =>
    rw [appendLiteralUtf8]
    split
    next hascii =>
      split
      · exact .none
      · have hle : lead.toNat ≤ 0x7f := hascii
        obtain ⟨c, hc⟩ := exists_char (n := lead.toNat) (.inl (by omega))
        refine .some ⟨c, ?_⟩ (List.suffix_cons _ _) (Nat.lt_succ_self _)
        rw [encode_one (by omega), hc, UInt8.ofNat_toNat]
    next hhigh =>
      cases hlen : sequenceLen lead with
      | none => exact .none
      | some len =>
        have htwo : 2 ≤ len := by
          rcases sequenceLen_cases hlen with ⟨rfl, -⟩ | ⟨rfl, -⟩ | ⟨rfl, -⟩ <;> omega
        dsimp only
        rw [literalSequence_eq htwo]
        split
        · exact .none
        next henough =>
          split
          next hok =>
            have htake : (tail.take (len - 1)).length + 1 = len := by
              rw [List.length_take]
              omega
            refine .some (literalOk_char (by rw [htake]; exact hlen) hok) ?_ ?_
            · exact (List.drop_suffix _ _).trans (List.suffix_cons _ _)
            · rw [List.length_drop, List.length_cons]
              omega
          · exact .none

/-! ### Escapes -/

theorem codeUnitLoop_ok (json : Bytes) (count index value : Nat) (h : index + count ≤ json.length) :
    ∃ r, codeUnitLoop json count index value = .ok r := by
  induction count generalizing index value with
  | zero => exact ⟨_, rfl⟩
  | succ count ih =>
    have hlt : index < json.length := by omega
    rw [codeUnitLoop, readAt_eq hlt]
    rw [ok_bind]
    cases hexDigitValue (getElem json index hlt) with
    | none => exact ⟨none, rfl⟩
    | some digit => exact ih (index + 1) _ (by omega)

theorem readUtf16CodeUnit_reads (json : Bytes) : Reads (fun _ => True) json (readUtf16CodeUnit json) := by
  rw [readUtf16CodeUnit]
  split
  · exact .none
  next henough =>
    obtain ⟨r, hr⟩ := codeUnitLoop_ok json 4 0 0 (by omega)
    rw [hr]
    cases r with
    | none => exact .none
    | some value =>
      refine .some trivial (List.drop_suffix _ _) ?_
      rw [List.length_drop]
      omega

theorem readLowSurrogate_reads (first : Nat) (json : Bytes) :
    Reads (fun _ => True) json (readLowSurrogate first json) := by
  rw [readLowSurrogate.eq_def]
  split
  next rest =>
    refine Reads.weaken ?_ ((List.suffix_cons _ _).trans (List.suffix_cons _ _) : rest <:+ _)
    refine (readUtf16CodeUnit_reads rest).bind rfl ?_
    rintro second behind - hsuffix hlt
    dsimp only
    split
    · exact .none
    · exact .some trivial hsuffix hlt
  · exact .none

theorem readCodePoint_reads (json : Bytes) : Reads (fun _ => True) json (readCodePoint json) := by
  rw [readCodePoint]
  refine (readUtf16CodeUnit_reads json).bind rfl ?_
  rintro first rest - hsuffix hlt
  dsimp only
  split
  · exact (readLowSurrogate_reads first rest).weaken hsuffix
  split
  · exact .none
  · exact .some trivial hsuffix hlt

theorem simpleEscape_ascii {escaped byte : UInt8} (h : simpleEscape escaped = some byte) : byte ≤ 0x7f := by
  rw [simpleEscape] at h
  split at h
  next hself =>
    obtain rfl := Option.some.inj h
    rcases hself with rfl | rfl | rfl <;> decide
  split at h
  · cases h; decide
  split at h
  · cases h; decide
  split at h
  · cases h; decide
  split at h
  · cases h; decide
  split at h
  · cases h; decide
  cases h

theorem utf8_ascii {byte : UInt8} (h : byte ≤ 0x7f) : Utf8 [byte] := by
  have hle : byte.toNat ≤ 0x7f := h
  obtain ⟨c, hc⟩ := exists_char (n := byte.toNat) (.inl (by omega))
  have hencode := encode_one (c := c) (by omega)
  rw [hc, UInt8.ofNat_toNat] at hencode
  rw [← hencode]
  exact utf8_char c

theorem readEscape_reads (json : Bytes) : Reads Utf8 json (readEscape json) := by
  cases json with
  | nil => exact .none
  | cons escaped rest =>
    rw [readEscape]
    cases hsimple : simpleEscape escaped with
    | some byte => exact .some (utf8_ascii (simpleEscape_ascii hsimple)) (List.suffix_cons _ _) (Nat.lt_succ_self _)
    | none =>
      dsimp only
      split
      · refine Reads.weaken ?_ (List.suffix_cons _ rest)
        refine (readCodePoint_reads rest).bind rfl ?_
        rintro codePoint behind - hsuffix hlt
        dsimp only
        cases hbytes : utf8CodePoint codePoint with
        | none => exact .none
        | some bytes =>
          obtain ⟨c, rfl⟩ := utf8CodePoint_utf8 hbytes
          exact .some (utf8_char c) hsuffix hlt
      · exact .none

/-! ### Strings and spans -/

theorem Reads.imp {further : α → Prop} {r : Except Fault (Option (α × Bytes))} (h : Reads valid json r)
    (himp : ∀ a, valid a → further a) : Reads further json r := by
  cases h with
  | none => exact .none
  | some holds suffix shorter => exact .some (himp _ holds) suffix shorter

theorem readPiece_reads (ch : UInt8) (json : Bytes) : Reads Utf8 (ch :: json) (readPiece ch json) := by
  rw [readPiece]
  split
  · refine (appendLiteralUtf8_reads (ch :: json)).imp ?_
    rintro bytes ⟨c, rfl⟩
    exact utf8_char c
  · exact (readEscape_reads json).weaken (List.suffix_cons _ _)

/-- The loop of a string ends inside the view, with fuel for every byte of it. -/
theorem parseStringLoop_reads (fuel : Nat) (json parsed : Bytes) (hfuel : json.length < fuel) (h : Utf8 parsed) :
    Reads Utf8 json (parseStringLoop fuel json parsed) := by
  induction fuel generalizing json parsed with
  | zero => omega
  | succ fuel ih =>
    cases json with
    | nil => exact .none
    | cons ch json =>
      rw [parseStringLoop]
      split
      · exact .some h (List.suffix_cons _ _) (Nat.lt_succ_self _)
      next hquote =>
        refine (readPiece_reads ch json).bind rfl ?_
        rintro bytes rest hbytes hsuffix hlt
        rw [List.length_cons] at hfuel hlt
        exact (ih rest (parsed ++ bytes) (by omega) (h.append hbytes)).weaken hsuffix

theorem parseString_reads (json : Bytes) : Reads Utf8 json (parseString json) := by
  rw [parseString]
  refine Reads.weaken ?_ (skipWs_suffix json)
  cases skipWs json with
  | nil => exact .none
  | cons ch json =>
    dsimp only
    split
    · exact .none
    · exact (parseStringLoop_reads _ json [] (Nat.lt_succ_self _) utf8_nil).weaken (List.suffix_cons _ _)

/-- A skip that stops inside the view. -/
inductive Stops (json : Bytes) : Except Fault (Option Bytes) → Prop
  | none : Stops json (.ok .none)
  | some {rest : Bytes} (suffix : rest <:+ json) (shorter : rest.length < json.length) : Stops json (.ok (.some rest))

theorem Stops.weaken {r : Except Fault (Option Bytes)} {further : Bytes} (h : Stops json r)
    (hsuffix : json <:+ further) : Stops further r := by
  cases h with
  | none => exact .none
  | some suffix shorter => exact .some (suffix.trans hsuffix) (Nat.lt_of_lt_of_le shorter hsuffix.length_le)

theorem skipCompositeLoop_stops (opens closes : UInt8) (fuel : Nat) (json : Bytes) (depth : Int)
    (hfuel : json.length < fuel) : Stops json (skipCompositeLoop opens closes fuel json depth) := by
  induction fuel generalizing json depth with
  | zero => omega
  | succ fuel ih =>
    cases json with
    | nil => exact .none
    | cons ch json =>
      rw [List.length_cons] at hfuel
      have hnext : ∀ depth, Stops (ch :: json) (skipCompositeLoop opens closes fuel json depth) := fun depth =>
        (ih json depth (by omega)).weaken (List.suffix_cons _ _)
      rw [skipCompositeLoop]
      split
      · cases hstring : parseString (ch :: json) with
        | error e =>
          have hreads := parseString_reads (ch :: json)
          rw [hstring] at hreads
          cases hreads
        | ok r =>
          cases r with
          | none => exact .none
          | some pair =>
            have hreads := parseString_reads (ch :: json)
            rw [hstring] at hreads
            cases hreads with
            | some holds suffix shorter =>
              rw [List.length_cons] at shorter
              exact (ih _ depth (by omega)).weaken suffix
      split
      · exact hnext _
      split
      · split
        · exact .some (List.suffix_cons _ _) (Nat.lt_succ_self _)
        · exact hnext _
      · exact hnext _

theorem skipComposite_stops (json : Bytes) (opens closes : UInt8) : Stops json (skipComposite json opens closes) := by
  rw [skipComposite]
  split
  · exact .none
  · exact skipCompositeLoop_stops opens closes _ json 0 (Nat.lt_succ_self _)

/-- A span of the view, and a position not before it. -/
inductive Spans (json : Bytes) : Except Fault (Option (Bytes × Bytes)) → Prop
  | none : Spans json (.ok .none)
  | some {text rest : Bytes} (part : text <:+: json) (suffix : rest <:+ json) : Spans json (.ok (.some (text, rest)))

theorem Spans.weaken {r : Except Fault (Option (Bytes × Bytes))} {further : Bytes} (h : Spans json r)
    (hsuffix : json <:+ further) : Spans further r := by
  cases h with
  | none => exact .none
  | some part suffix => exact .some (part.trans hsuffix.isInfix) (suffix.trans hsuffix)

theorem rangeTo_spans {behind : Except Fault (Option Bytes)} (h : Stops json behind) :
    Spans json (behind >>= fun behind => .ok (rangeTo json behind)) := by
  cases h with
  | none => exact .none
  | some suffix shorter => exact .some (List.take_prefix _ _).isInfix suffix

theorem readValueRange_spans (json : Bytes) : Spans json (readValueRange json) := by
  rw [readValueRange]
  refine Spans.weaken ?_ (skipWs_suffix json)
  cases skipWs json with
  | nil => exact .none
  | cons ch rest =>
    dsimp only
    split
    · have hstring := parseString_reads (ch :: rest)
      cases hread : parseString (ch :: rest) with
      | error e =>
        rw [hread] at hstring
        cases hstring
      | ok r =>
        rw [hread] at hstring
        cases hstring with
        | none => exact .none
        | some holds suffix shorter => exact .some (List.take_prefix _ _).isInfix suffix
    split
    · exact rangeTo_spans (skipComposite_stops _ _ _)
    split
    · exact rangeTo_spans (skipComposite_stops _ _ _)
    · exact .some (List.take_prefix _ _).isInfix (List.dropWhile_suffix _)

/-! ### Members -/

/-- The value of a member is a part of the object. -/
inductive Part (object : Bytes) : Except Fault (Option Bytes) → Prop
  | none : Part object (.ok .none)
  | some {value : Bytes} (part : value <:+: object) : Part object (.ok (.some value))

theorem Part.weaken {r : Except Fault (Option Bytes)} {further : Bytes} (h : Part json r) (hpart : json <:+: further) :
    Part further r := by
  cases h with
  | none => exact .none
  | some part => exact .some (part.trans hpart)

/-- Every turn of the loop reads a key, so the fuel suffices. -/
theorem fieldValueLoop_part (field : Bytes) (fuel : Nat) (json : Bytes) (hfuel : json.length < fuel) :
    Part json (fieldValueLoop field fuel json) := by
  induction fuel generalizing json with
  | zero => omega
  | succ fuel ih =>
    have hws := skipWs_suffix json
    have hlength := hws.length_le
    rw [fieldValueLoop]
    split
    · exact .none
    split
    · exact .none
    have hkey := parseString_reads (skipWs json)
    cases hread : parseString (skipWs json) with
    | error e =>
      rw [hread] at hkey
      cases hkey
    | ok r =>
      rw [hread] at hkey
      cases hkey with
      | none => exact .none
      | @some key behind holds suffix shorter =>
        rw [ok_bind]
        dsimp only
        split
        · exact .none
        have hcolon : (skipWs behind).tail <:+ behind := (List.tail_suffix _).trans (skipWs_suffix behind)
        have hspans := readValueRange_spans (skipWs behind).tail
        cases hvalue : readValueRange (skipWs behind).tail with
        | error e =>
          rw [hvalue] at hspans
          cases hspans
        | ok r =>
          rw [hvalue] at hspans
          cases hspans with
          | none => exact .none
          | @some value rest part after =>
            have hbehind : behind <:+ json := suffix.trans hws
            have hrest : rest <:+ behind := after.trans hcolon
            have hshort := hrest.length_le
            have hnext : ∀ more, more <:+ skipWs rest → Part json (fieldValueLoop field fuel more) := by
              rintro more hmore
              have hmore' := hmore.trans (skipWs_suffix rest)
              have hle := hmore'.length_le
              exact (ih more (by omega)).weaken ((hmore'.trans hrest).trans hbehind).isInfix
            rw [ok_bind]
            dsimp only
            split
            · exact .some (part.trans (hcolon.trans hbehind).isInfix)
            split
            · exact hnext _ (List.tail_suffix _)
            · exact hnext _ List.suffix_rfl

theorem trim_part (value : Bytes) : trim value <:+: value :=
  (List.rdropWhile_prefix _ _).isInfix.trans (List.dropWhile_suffix _).isInfix

theorem fieldValue_part (object field : Bytes) : Part object (fieldValue object field) := by
  rw [fieldValue]
  split
  · exact .none
  · refine (fieldValueLoop_part field _ _ ?_).weaken ((List.tail_suffix _).isInfix.trans (trim_part object))
    rw [List.length_tail]
    omega

theorem firstArrayValue_part (array : Bytes) : Part array (firstArrayValue array) := by
  rw [firstArrayValue]
  split
  · exact .none
  split
  · exact .none
  · have hpart : skipWs (trim array).tail <:+: array :=
      ((skipWs_suffix _).trans (List.tail_suffix _)).isInfix.trans (trim_part array)
    refine Part.weaken ?_ hpart
    have hspans := readValueRange_spans (skipWs (trim array).tail)
    cases hvalue : readValueRange (skipWs (trim array).tail) with
    | error e =>
      rw [hvalue] at hspans
      cases hspans
    | ok r =>
      rw [hvalue] at hspans
      cases hspans with
      | none => exact .none
      | some part suffix => exact .some part

theorem stringValue_utf8 (value : Bytes) :
    stringValue value = .ok none ∨ ∃ parsed, stringValue value = .ok (some parsed) ∧ Utf8 parsed := by
  have hreads := parseString_reads value
  rw [stringValue]
  cases hread : parseString value with
  | error e =>
    rw [hread] at hreads
    cases hreads
  | ok r =>
    rw [hread] at hreads
    cases hreads with
    | none => exact .inl rfl
    | @some parsed rest holds suffix shorter =>
      rw [ok_bind]
      dsimp only
      split
      · exact .inr ⟨parsed, rfl, holds⟩
      · exact .inl rfl

end CodexKeyboard.Config
