import CodexKeyboard.Status.Writer
import CodexKeyboard.Config.ReaderSafe
import CodexKeyboard.Schemes.JsonWriting

/-! Both escapers on UTF-8: what they write decodes to the text, or to a part of it from its start on. -/

namespace CodexKeyboard.Status

open Schemes Text
open Schemes.JsonText (Bytes StringText Hex4 hexValue)
open Config (encode_one encode_two encode_three encode_four)

variable {c : Char} {byte : UInt8} {s t : Text} {rest : Bytes}

/-! ### Bytes of ASCII -/

theorem toNat_byte {n : Nat} (h : n < 256) : (UInt8.ofNat n).toNat = n := by
  rw [UInt8.toNat_ofNat', Nat.mod_eq_of_lt h]

theorem hexValue_upper {n : Nat} (h : n < 16) : hexValue (upperHexDigit n) = some n := by
  have hall : (List.range 16).all (fun n => decide (hexValue (upperHexDigit n) = some n)) = true := by decide
  exact of_decide_eq_true (List.all_eq_true.1 hall n (List.mem_range.2 h))

theorem hexByte4_hex (byte : UInt8) : Hex4 (hexByte4 byte) byte.toNat := by
  have hlt := byte.toNat_lt
  have hhex := Hex4.digits (by decide : hexValue 48 = some 0) (by decide : hexValue 48 = some 0)
    (hexValue_upper (by omega : byte.toNat / 16 < 16)) (hexValue_upper (by omega : byte.toNat % 16 < 16))
  have hvalue : ((0 * 16 + 0) * 16 + byte.toNat / 16) * 16 + byte.toNat % 16 = byte.toNat := by omega
  rw [hvalue] at hhex
  exact hhex

/-- A byte of ASCII is written as its character. -/
theorem escapeByte_text (hchar : String.utf8EncodeChar c = [byte]) (hval : c.val.toNat = byte.toNat) :
    StringText [c] (escapeByte byte) := by
  have hsame {d : Char} (h : byte.toNat = d.val.toNat) : c = d :=
    Char.ext (UInt32.toNat_inj.1 (hval.trans h))
  have hescape {e : UInt8} {d : Char} (h : byte.toNat = d.val.toNat) (hknown : (e, d) ∈ JsonText.escapes) :
      StringText [c] [92, e] := by
    rw [hsame h]
    exact .escape hknown .nil
  rw [escapeByte]
  split
  next hbyte => exact hescape (d := '"') (by rw [hbyte]; rfl) (by decide)
  split
  next hbyte => exact hescape (d := '\\') (by rw [hbyte]; rfl) (by decide)
  split
  next hbyte => exact hescape (d := '\x08') (by rw [hbyte]; rfl) (by decide)
  split
  next hbyte => exact hescape (d := '\x0c') (by rw [hbyte]; rfl) (by decide)
  split
  next hbyte => exact hescape (d := '\n') (by rw [hbyte]; rfl) (by decide)
  split
  next hbyte => exact hescape (d := '\r') (by rw [hbyte]; rfl) (by decide)
  split
  next hbyte => exact hescape (d := '\t') (by rw [hbyte]; rfl) (by decide)
  split
  next =>
    have hunicode : StringText [c] (92 :: 117 :: hexByte4 byte ++ []) :=
      .unicode (hval.symm ▸ hexByte4_hex byte) .nil
    rwa [List.append_nil] at hunicode
  next hquote hbackslash _ _ _ _ _ hhigh =>
    have hlow : 0x20 ≤ c.val.toNat := by
      rw [UInt8.lt_iff_toNat_lt] at hhigh
      rw [hval]
      exact Nat.le_of_not_lt hhigh
    have hplain : StringText [c] (String.utf8EncodeChar c ++ []) := by
      refine .char hlow ?_ ?_ .nil
      · rintro rfl
        exact hquote (UInt8.toNat_inj.1 hval.symm)
      · rintro rfl
        exact hbackslash (UInt8.toNat_inj.1 hval.symm)
    rwa [List.append_nil, hchar] at hplain

theorem escapeByte_high (h : 128 ≤ byte.toNat) : escapeByte byte = [byte] := by
  have hne (low : UInt8) (hlow : low.toNat < 128) : byte ≠ low := by
    rintro rfl
    omega
  have hnot : ¬ byte < 0x20 := by
    rw [UInt8.lt_iff_toNat_lt, Nat.not_lt]
    exact Nat.le_trans (by decide) h
  rw [escapeByte, if_neg (hne _ (by decide)), if_neg (hne _ (by decide)), if_neg (hne _ (by decide)),
    if_neg (hne _ (by decide)), if_neg (hne _ (by decide)), if_neg (hne _ (by decide)), if_neg (hne _ (by decide)),
    if_neg hnot]

theorem escapeJsonString_high {bytes : Bytes} (h : ∀ byte ∈ bytes, 128 ≤ byte.toNat) :
    escapeJsonString bytes = bytes := by
  induction bytes with
  | nil => rfl
  | cons byte bytes ih =>
    rw [escapeJsonString, List.flatMap_cons, escapeByte_high (h byte List.mem_cons_self), ← escapeJsonString,
      ih fun other hother => h other (List.mem_cons_of_mem _ hother)]
    rfl

theorem escapeJsonString_append (bytes more : Bytes) :
    escapeJsonString (bytes ++ more) = escapeJsonString bytes ++ escapeJsonString more :=
  List.flatMap_append

/-- A character is a byte of ASCII, or all its bytes are none. -/
theorem encodeChar_cases (c : Char) :
    (∃ byte, String.utf8EncodeChar c = [byte] ∧ byte.toNat < 128 ∧ c.val.toNat = byte.toNat) ∨
      (128 ≤ c.val.toNat ∧ ∀ byte ∈ String.utf8EncodeChar c, 128 ≤ byte.toNat) := by
  by_cases hlow : ∃ byte ∈ String.utf8EncodeChar c, byte.toNat < 128
  · obtain ⟨byte, hmem, hbyte⟩ := hlow
    rcases encodeChar_byte hmem with h | ⟨hhigh, -⟩
    · exact .inl ⟨byte, h⟩
    · omega
  · have hhigh (byte : UInt8) (hmem : byte ∈ String.utf8EncodeChar c) : 128 ≤ byte.toNat :=
      Nat.le_of_not_lt fun h => hlow ⟨byte, hmem, h⟩
    obtain ⟨byte, bytes, hbytes⟩ := List.exists_cons_of_ne_nil (String.utf8EncodeChar_ne_nil (c := c))
    rcases encodeChar_byte (hbytes ▸ List.mem_cons_self : byte ∈ String.utf8EncodeChar c) with ⟨-, hbyte, -⟩ | ⟨-, hval⟩
    · exact absurd hbyte (Nat.not_lt.2 (hhigh byte (hbytes ▸ List.mem_cons_self)))
    · exact .inr ⟨hval, hhigh⟩

theorem stringText_high (h : 128 ≤ c.val.toNat) : StringText [c] (String.utf8EncodeChar c) := by
  have hplain : StringText [c] (String.utf8EncodeChar c ++ []) := by
    refine .char (by omega) ?_ ?_ .nil
    · rintro rfl
      exact absurd h (by decide)
    · rintro rfl
      exact absurd h (by decide)
  rwa [List.append_nil] at hplain

/-- The escaper of the full view. -/
theorem escapeJsonString_text (t : Text) : StringText t (escapeJsonString (asBytes t)) := by
  induction t with
  | nil => exact .nil
  | cons c t ih =>
    rw [asBytes_cons, escapeJsonString_append]
    refine StringText.append (s := [c]) ?_ ih
    rcases encodeChar_cases c with ⟨byte, hchar, -, hval⟩ | ⟨hval, hhigh⟩
    · rw [hchar, escapeJsonString, List.flatMap_singleton]
      exact escapeByte_text hchar hval
    · rw [escapeJsonString_high hhigh]
      exact stringText_high hval

/-! ### Sequences -/

theorem continuation_iff : isContinuation byte = true ↔ 0x80 ≤ byte.toNat ∧ byte.toNat < 0xC0 := by
  have hall : (List.range 256).all
      (fun n => isContinuation (.ofNat n) == (decide (0x80 ≤ n) && decide (n < 0xC0))) := by
    decide +kernel
  have hbyte := beq_iff_eq.1 (List.all_eq_true.1 hall byte.toNat (List.mem_range.2 byte.toNat_lt))
  rw [UInt8.ofNat_toNat] at hbyte
  rw [hbyte, Bool.and_eq_true, decide_eq_true_iff, decide_eq_true_iff]

theorem sequenceLen_lead (lead : UInt8) : (0xC2 ≤ lead.toNat ∧ lead.toNat ≤ 0xDF → sequenceLen lead = 2) ∧
    (0xE0 ≤ lead.toNat ∧ lead.toNat ≤ 0xEF → sequenceLen lead = 3) ∧
    (0xF0 ≤ lead.toNat ∧ lead.toNat ≤ 0xF4 → sequenceLen lead = 4) := by
  have habove : ∀ low high : UInt8, high.toNat < lead.toNat → ¬ (low ≤ lead ∧ lead ≤ high) := by
    rintro low high hlt ⟨-, hle⟩
    exact absurd hlt (Nat.not_lt.2 hle)
  refine ⟨fun h => ?_, fun h => ?_, fun h => ?_⟩
  · exact if_pos h
  · rw [sequenceLen, if_neg (habove 0xC2 0xDF (Nat.lt_of_lt_of_le (by decide) h.1))]
    exact if_pos h
  · rw [sequenceLen, if_neg (habove 0xC2 0xDF (Nat.lt_of_lt_of_le (by decide) h.1)),
      if_neg (habove 0xE0 0xEF (Nat.lt_of_lt_of_le (by decide) h.1))]
    exact if_pos h

theorem secondExcluded_false {lead second : UInt8} (h : (lead.toNat = 0xE0 → 0xA0 ≤ second.toNat) ∧
    (lead.toNat = 0xED → second.toNat ≤ 0x9F) ∧ (lead.toNat = 0xF0 → 0x90 ≤ second.toNat) ∧
    (lead.toNat = 0xF4 → second.toNat ≤ 0x8F)) : secondExcluded lead second = false := by
  rw [Bool.eq_false_iff]
  intro hexcluded
  simp only [secondExcluded, Bool.or_eq_true, Bool.and_eq_true, beq_iff_eq, decide_eq_true_iff, UInt8.lt_iff_toNat_lt,
    gt_iff_lt] at hexcluded
  obtain ⟨hE0, hED, hF0, hF4⟩ := h
  rcases hexcluded with ((⟨rfl, hlt⟩ | ⟨rfl, hlt⟩) | ⟨rfl, hlt⟩) | ⟨rfl, hlt⟩
  · exact absurd hlt (Nat.not_lt.2 (hE0 rfl))
  · exact absurd hlt (Nat.not_lt.2 (hED rfl))
  · exact absurd hlt (Nat.not_lt.2 (hF0 rfl))
  · exact absurd hlt (Nat.not_lt.2 (hF4 rfl))

/-- A sequence of a character is taken whole. -/
theorem nextToken_sequence {lead : UInt8} {tail : Bytes} (hhigh : 0x7F < lead.toNat)
    (hlen : sequenceLen lead = tail.length + 1) (htail : tail ≠ [])
    (hcontinued : ∀ byte ∈ tail, 0x80 ≤ byte.toNat ∧ byte.toNat < 0xC0)
    (hsecond : secondExcluded lead (tail.headD 0) = false) (rest : Bytes) :
    nextToken lead (tail ++ rest) = (lead :: tail, tail.length) := by
  have hnot : ¬ lead ≤ 0x7F := by
    rw [UInt8.le_iff_toNat_le]
    exact Nat.not_le.2 hhigh
  obtain ⟨second, more, rfl⟩ := List.exists_cons_of_ne_nil htail
  have hvalid : validSequence lead (second :: more ++ rest) = true := by
    rw [validSequence, hlen, Nat.add_sub_cancel, List.take_left, List.all_eq_true.2 fun byte hbyte =>
      continuation_iff.2 (hcontinued byte hbyte)]
    rw [List.cons_append, List.headD_cons]
    rw [List.headD_cons] at hsecond
    rw [hsecond]
    simp
  rw [nextToken, if_neg hnot, if_pos hvalid, hlen, Nat.add_sub_cancel, List.take_left]

/-- The next character is the next token. -/
theorem nextToken_char (c : Char) : ∃ (lead : UInt8) (tail token : Bytes), String.utf8EncodeChar c = lead :: tail ∧
    StringText [c] token ∧ ∀ rest, nextToken lead (tail ++ rest) = (token, tail.length) := by
  rcases encodeChar_cases c with ⟨byte, hchar, hlow, hval⟩ | ⟨hval, -⟩
  · refine ⟨byte, [], escapeByte byte, hchar, escapeByte_text hchar hval, fun rest => ?_⟩
    have hle : byte ≤ 0x7F := by
      rw [UInt8.le_iff_toNat_le]
      exact Nat.le_of_lt_succ hlow
    rw [List.nil_append, nextToken, if_pos hle]
    rfl
  have htext := stringText_high hval
  have hvalid : c.val.toNat < 0xd800 ∨ (0xdfff < c.val.toNat ∧ c.val.toNat < 0x110000) := c.valid
  have hwhole {lead : UInt8} {tail : Bytes} (hchar : String.utf8EncodeChar c = lead :: tail) (hhigh : 0x7F < lead.toNat)
      (hlen : sequenceLen lead = tail.length + 1) (htail : tail ≠ [])
      (hcontinued : ∀ byte ∈ tail, 0x80 ≤ byte.toNat ∧ byte.toNat < 0xC0)
      (hsecond : secondExcluded lead (tail.headD 0) = false) :
      ∃ (lead : UInt8) (tail token : Bytes), String.utf8EncodeChar c = lead :: tail ∧ StringText [c] token ∧
        ∀ rest, nextToken lead (tail ++ rest) = (token, tail.length) :=
    ⟨lead, tail, lead :: tail, hchar, hchar ▸ htext, nextToken_sequence hhigh hlen htail hcontinued hsecond⟩
  generalize hn : c.val.toNat = n at hval hvalid
  by_cases htwo : n ≤ 0x7ff
  · have hlead := toNat_byte (n := n / 64 % 32 + 0xc0) (by omega)
    have hsecond := toNat_byte (n := n % 64 + 0x80) (by omega)
    have hchar := encode_two (c := c) (by omega) (by omega)
    rw [hn] at hchar
    refine hwhole hchar (by omega) ((sequenceLen_lead _).1 (by omega))
      (List.cons_ne_nil _ _) ?_ (secondExcluded_false ?_)
    · simp only [List.mem_singleton, forall_eq, hsecond]
      omega
    · rw [List.headD_cons, hlead]
      omega
  by_cases hthree : n ≤ 0xffff
  · have hlead := toNat_byte (n := n / 4096 % 16 + 0xe0) (by omega)
    have hsecond := toNat_byte (n := n / 64 % 64 + 0x80) (by omega)
    have hthird := toNat_byte (n := n % 64 + 0x80) (by omega)
    have hchar := encode_three (c := c) (by omega) (by omega)
    rw [hn] at hchar
    refine hwhole hchar (by omega) ((sequenceLen_lead _).2.1 (by omega))
      (List.cons_ne_nil _ _) ?_ (secondExcluded_false ?_)
    · simp only [List.mem_cons, List.not_mem_nil, or_false, forall_eq_or_imp, forall_eq, hsecond, hthird]
      omega
    · rw [List.headD_cons, hlead, hsecond]
      omega
  · have hlead := toNat_byte (n := n / 262144 % 8 + 0xf0) (by omega)
    have hsecond := toNat_byte (n := n / 4096 % 64 + 0x80) (by omega)
    have hthird := toNat_byte (n := n / 64 % 64 + 0x80) (by omega)
    have hfourth := toNat_byte (n := n % 64 + 0x80) (by omega)
    have hchar := encode_four (c := c) (by omega)
    rw [hn] at hchar
    refine hwhole hchar (by omega) ((sequenceLen_lead _).2.2 (by omega))
      (List.cons_ne_nil _ _) ?_ (secondExcluded_false ?_)
    · simp only [List.mem_cons, List.not_mem_nil, or_false, forall_eq_or_imp, forall_eq, hsecond, hthird, hfourth]
      omega
    · rw [List.headD_cons, hlead, hsecond]
      omega

/-! ### The bounded escaper -/

theorem escapeBoundedLoop_skip (maxEncodedLen : Nat) (skipped rest escaped : Bytes) :
    escapeBoundedLoop maxEncodedLen skipped.length (skipped ++ rest) escaped =
      escapeBoundedLoop maxEncodedLen 0 rest escaped := by
  induction skipped with
  | nil => rfl
  | cons byte skipped ih =>
    rw [List.length_cons, List.cons_append, escapeBoundedLoop, ih]

theorem escapeBoundedLoop_text (maxEncodedLen : Nat) {escaped : Bytes} (h : StringText s escaped) (t : Text) :
    ∃ front, front <+: t ∧
      StringText (s ++ front) (escapeBoundedLoop maxEncodedLen 0 (asBytes t) escaped) := by
  induction t generalizing s escaped with
  | nil =>
    refine ⟨[], List.nil_prefix, ?_⟩
    rw [List.append_nil, asBytes_nil, escapeBoundedLoop]
    exact h
  | cons c t ih =>
    obtain ⟨lead, tail, token, hchar, htoken, hnext⟩ := nextToken_char c
    rw [asBytes_cons, hchar, List.cons_append, escapeBoundedLoop, hnext]
    dsimp only
    split
    next => exact ⟨[], List.nil_prefix, by rwa [List.append_nil]⟩
    next =>
      rw [escapeBoundedLoop_skip]
      obtain ⟨front, hfront, hwritten⟩ := ih (h.append htoken)
      refine ⟨c :: front, List.cons_prefix_cons.2 ⟨rfl, hfront⟩, ?_⟩
      rwa [List.append_assoc, List.singleton_append] at hwritten

/-- The bounded escaper writes whole characters from the start on. -/
theorem escapeJsonStringBounded_text (t : Text) (maxEncodedLen : Nat) :
    ∃ front, front <+: t ∧ StringText front (escapeJsonStringBounded (asBytes t) maxEncodedLen) :=
  escapeBoundedLoop_text maxEncodedLen .nil t

/-! ### The clip -/

/-- What is written of a clipped text is UTF-8 only when the clip is behind a whole character. -/
theorem clipped_encoded (maxLen : Nat) (h : Encoded (escapeJsonString (clippedStatusString (asBytes t) maxLen))) :
    Encoded (clippedStatusString (asBytes t) maxLen) := by
  rw [clippedStatusString] at h ⊢
  split
  next => exact encoded_asBytes t
  next hlong =>
    rw [if_neg hlong] at h
    obtain ⟨front, cut, htake, hcut, -⟩ := take_asBytes t maxLen
    rw [htake] at h ⊢
    rcases hcut with rfl | hcut
    · rw [List.append_nil]
      exact encoded_asBytes front
    · rw [escapeJsonString_append, escapeJsonString_high fun byte hbyte => hcut.high hbyte] at h
      obtain ⟨written, hwritten⟩ := (escapeJsonString_text front).encoded
      rw [hwritten] at h
      exact absurd h.cancel hcut.not_encoded

/-- A text that is clipped behind a whole character is written from its start on. -/
theorem clipped_text (maxLen : Nat) (h : Encoded (clippedStatusString (asBytes t) maxLen)) :
    ∃ front, front <+: t ∧ StringText front (escapeJsonString (clippedStatusString (asBytes t) maxLen)) := by
  rw [clippedStatusString] at h ⊢
  split
  next => exact ⟨t, List.prefix_rfl, escapeJsonString_text t⟩
  next hlong =>
    rw [if_neg hlong] at h
    obtain ⟨front, cut, htake, hcut, hfront⟩ := take_asBytes t maxLen
    rw [htake] at h ⊢
    rcases hcut with rfl | hcut
    · rw [List.append_nil]
      exact ⟨front, hfront, escapeJsonString_text front⟩
    · exact absurd h.cancel hcut.not_encoded

end CodexKeyboard.Status
