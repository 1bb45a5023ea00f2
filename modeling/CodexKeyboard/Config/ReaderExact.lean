import CodexKeyboard.Config.ReaderSafe
import CodexKeyboard.Schemes.JsonText

/-! The reader on JSON texts: strings are decoded, and spans and members are found as the grammar has them. -/

namespace CodexKeyboard.Config

open Schemes Text Transact JsonText

variable {json rest b w : Bytes} {s : Text} {c : Char} {byte : UInt8}

theorem ws_space (h : isWs byte = true) : isSpace byte = true := by
  rw [isWs, Bool.or_eq_true, Bool.or_eq_true, Bool.or_eq_true] at h
  rcases h with ((h | h) | h) | h <;> rw [eq_of_beq h] <;> decide

/-- White space in front of a token is skipped. -/
theorem skipWs_space (hspace : Space w) (hrest : ∀ byte ∈ rest.head?, isSpace byte = false) :
    skipWs (w ++ rest) = rest := by
  rw [skipWs, List.dropWhile_append_of_pos fun byte hbyte => ws_space (hspace.ws hbyte)]
  cases rest with
  | nil => rfl
  | cons byte rest => exact List.dropWhile_cons_of_neg (by rw [hrest byte rfl]; decide)

/-! ### Strings -/

theorem hexDigitValue_eq (byte : UInt8) : hexDigitValue byte = hexValue byte := by
  rw [hexDigitValue, hexValue]
  split
  · rfl
  split
  next hlower =>
    have hle : 97 ≤ byte.toNat := hlower.1
    have hupper : ¬ (65 ≤ byte ∧ byte ≤ 70) := by
      rintro ⟨-, hhigh⟩
      have hhigh' : byte.toNat ≤ 70 := hhigh
      omega
    rw [if_neg hupper]
    congr 1
    omega
  split
  next hupper =>
    have hle : 65 ≤ byte.toNat := hupper.1
    congr 1
    omega
  · rfl

theorem toNat_byte {n : Nat} (h : n < 256) : (UInt8.ofNat n).toNat = n := by
  rw [UInt8.toNat_ofNat', Nat.mod_eq_of_lt h]

theorem appendLiteralUtf8_sequence {lead : UInt8} {tail : Bytes} (hhigh : 0x7F < lead.toNat)
    (hlen : sequenceLen lead = some (tail.length + 1)) (hok : literalOk lead tail = true) (rest : Bytes) :
    appendLiteralUtf8 (lead :: tail ++ rest) = .ok (some (lead :: tail, rest)) := by
  have hnot : ¬ lead ≤ 0x7F := by
    rw [UInt8.le_iff_toNat_le]
    exact Nat.not_le.2 hhigh
  have htwo : 2 ≤ tail.length + 1 := by
    rcases sequenceLen_cases hlen with ⟨hn, -⟩ | ⟨hn, -⟩ | ⟨hn, -⟩ <;> omega
  rw [List.cons_append, appendLiteralUtf8, if_neg hnot, hlen]
  dsimp only
  rw [literalSequence_eq htwo, if_neg (by simp), Nat.add_sub_cancel, List.take_left, List.drop_left, if_pos hok]

theorem sequenceLen_lead (lead : UInt8) : (0xC2 ≤ lead.toNat ∧ lead.toNat ≤ 0xDF → sequenceLen lead = some 2) ∧
    (0xE0 ≤ lead.toNat ∧ lead.toNat ≤ 0xEF → sequenceLen lead = some 3) ∧
    (0xF0 ≤ lead.toNat ∧ lead.toNat ≤ 0xF4 → sequenceLen lead = some 4) := by
  have habove : ∀ low high : UInt8, high.toNat < lead.toNat → ¬ (low ≤ lead ∧ lead ≤ high) := by
    rintro low high hlt ⟨-, hle⟩
    exact absurd hlt (Nat.not_lt.2 hle)
  refine ⟨fun h => ?_, fun h => ?_, fun h => ?_⟩
  · exact if_pos h
  · rw [sequenceLen, if_neg (habove 0xC2 0xDF (Nat.lt_of_lt_of_le (by decide) h.1))]
    exact if_pos h
  · rw [sequenceLen, if_neg (habove 0xC2 0xDF (Nat.lt_of_lt_of_le (by decide) h.1)),
      if_neg (habove 0xE0 0xEF (Nat.lt_of_lt_of_le (by decide) h.1))]
    exact if_pos h

/-- The bytes of a character in a string are taken as they are. -/
theorem appendLiteralUtf8_char (hlow : 0x20 ≤ c.val.toNat) (rest : Bytes) :
    appendLiteralUtf8 (String.utf8EncodeChar c ++ rest) = .ok (some (String.utf8EncodeChar c, rest)) := by
  have hvalid : c.val.toNat < 0xd800 ∨ (0xdfff < c.val.toNat ∧ c.val.toNat < 0x110000) := c.valid
  generalize hn : c.val.toNat = n at hlow hvalid
  have hok : ∀ (lead : UInt8) (tail : Bytes), (∀ byte ∈ tail, 0x80 ≤ byte.toNat ∧ byte.toNat < 0xC0) →
      ¬ secondRefused lead (tail.headD 0) = true → literalOk lead tail = true := by
    rintro lead tail hall hsecond
    rw [literalOk, Bool.and_eq_true, Bool.not_eq_true', List.all_eq_true]
    exact ⟨fun byte hbyte => continuation_range.2 (hall byte hbyte), Bool.eq_false_iff.2 hsecond⟩
  by_cases hone : n ≤ 0x7f
  · have hbyte := toNat_byte (n := n) (by omega)
    have hle : UInt8.ofNat n ≤ 0x7F := by
      rw [UInt8.le_iff_toNat_le, hbyte]
      exact hone
    have hnot : ¬ UInt8.ofNat n < 0x20 := by
      rw [UInt8.lt_iff_toNat_lt, hbyte]
      exact Nat.not_lt.2 hlow
    rw [encode_one (by omega), hn, List.cons_append, appendLiteralUtf8, if_pos hle, if_neg hnot]
    rfl
  by_cases htwo : n ≤ 0x7ff
  · rw [encode_two (by omega) (by omega), hn]
    have hlead := toNat_byte (n := n / 64 % 32 + 0xc0) (by omega)
    have hsecond := toNat_byte (n := n % 64 + 0x80) (by omega)
    refine appendLiteralUtf8_sequence (by omega) ((sequenceLen_lead _).1 (by omega)) (hok _ _ ?_ ?_) rest
    · simp only [List.mem_singleton, forall_eq, hsecond]
      omega
    · rw [secondRefused_iff, List.headD_cons, hlead]
      omega
  by_cases hthree : n ≤ 0xffff
  · rw [encode_three (by omega) (by omega), hn]
    have hlead := toNat_byte (n := n / 4096 % 16 + 0xe0) (by omega)
    have hsecond := toNat_byte (n := n / 64 % 64 + 0x80) (by omega)
    have hthird := toNat_byte (n := n % 64 + 0x80) (by omega)
    refine appendLiteralUtf8_sequence (by omega) ((sequenceLen_lead _).2.1 (by omega)) (hok _ _ ?_ ?_) rest
    · simp only [List.mem_cons, List.not_mem_nil, or_false, forall_eq_or_imp, forall_eq, hsecond, hthird]
      omega
    · rw [secondRefused_iff, List.headD_cons, hlead, hsecond]
      omega
  · rw [encode_four (by omega), hn]
    have hlead := toNat_byte (n := n / 262144 % 8 + 0xf0) (by omega)
    have hsecond := toNat_byte (n := n / 4096 % 64 + 0x80) (by omega)
    have hthird := toNat_byte (n := n / 64 % 64 + 0x80) (by omega)
    have hfourth := toNat_byte (n := n % 64 + 0x80) (by omega)
    refine appendLiteralUtf8_sequence (by omega) ((sequenceLen_lead _).2.2 (by omega)) (hok _ _ ?_ ?_) rest
    · simp only [List.mem_cons, List.not_mem_nil, or_false, forall_eq_or_imp, forall_eq, hsecond, hthird, hfourth]
      omega
    · rw [secondRefused_iff, List.headD_cons, hlead, hsecond]
      omega

theorem readUtf16CodeUnit_hex {hex : Bytes} {n : Nat} (h : Hex4 hex n) (rest : Bytes) :
    readUtf16CodeUnit (hex ++ rest) = .ok (some (n, rest)) := by
  cases h with
  | @digits a b c d w x y z first second third fourth =>
    have hlt : ∀ {byte v}, hexValue byte = some v → v < 16 := by
      rintro byte v h
      have hlow : ∀ {low high : UInt8}, low ≤ byte ∧ byte ≤ high → low.toNat ≤ byte.toNat ∧
          byte.toNat ≤ high.toNat := by
        rintro low high ⟨hlow, hhigh⟩
        exact ⟨hlow, hhigh⟩
      rw [hexValue] at h
      split at h
      next hdigit =>
        have hrange := hlow hdigit
        cases h
        exact Nat.lt_of_le_of_lt (Nat.sub_le_sub_right hrange.2 48) (by decide)
      split at h
      next hdigit =>
        have hrange := hlow hdigit
        cases h
        exact Nat.lt_of_le_of_lt (Nat.add_le_add_right (Nat.sub_le_sub_right hrange.2 65) 10) (by decide)
      split at h
      next hdigit =>
        have hrange := hlow hdigit
        cases h
        exact Nat.lt_of_le_of_lt (Nat.add_le_add_right (Nat.sub_le_sub_right hrange.2 97) 10) (by decide)
      cases h
    have hw := hlt first
    have hx := hlt second
    have hy := hlt third
    have hz := hlt fourth
    have hread : ∀ byte v (index value count : Nat) (json : Bytes) (h : index < json.length),
        getElem json index h = byte → hexValue byte = some v →
        codeUnitLoop json (count + 1) index value = codeUnitLoop json count (index + 1)
          ((value * 16 + v) % 2 ^ 16) := by
      rintro byte v index value count json hindex hbyte hvalue
      rw [codeUnitLoop, readAt_eq hindex, ok_bind, hbyte, hexDigitValue_eq, hvalue]
    rw [readUtf16CodeUnit, if_neg (by simp)]
    rw [hread a w 0 0 3 _ (by simp) rfl first, hread b x 1 _ 2 _ (by simp) rfl second,
      hread c y 2 _ 1 _ (by simp) rfl third, hread d z 3 _ 0 _ (by simp) rfl fourth, codeUnitLoop, ok_bind]
    show Except.ok
      (some ((((((0 * 16 + w) % 2 ^ 16 * 16 + x) % 2 ^ 16 * 16 + y) % 2 ^ 16 * 16 + z) % 2 ^ 16), rest)) = _
    congr 3
    omega

theorem readEscape_simple {e : UInt8} (h : (e, c) ∈ escapes) (rest : Bytes) :
    readEscape (e :: rest) = .ok (some (String.utf8EncodeChar c, rest)) := by
  have hall : ∀ p ∈ escapes, (simpleEscape p.1).map (fun byte => [byte]) = some (String.utf8EncodeChar p.2) := by decide
  obtain ⟨byte, hbyte, hencode⟩ := Option.map_eq_some_iff.1 (hall (e, c) h)
  rw [readEscape, hbyte, ← hencode]

theorem readEscape_codePoint {behind : Bytes} (h : readCodePoint json = .ok (some (c.val.toNat, behind))) :
    readEscape (117 :: json) = .ok (some (String.utf8EncodeChar c, behind)) := by
  have hsimple : simpleEscape 117 = none := by decide
  rw [readEscape, hsimple]
  dsimp only
  rw [if_pos rfl, h, ok_bind]
  dsimp only
  rw [utf8CodePoint_char]
  rfl

theorem readCodePoint_unicode {hex : Bytes} (h : Hex4 hex c.val.toNat) (rest : Bytes) :
    readCodePoint (hex ++ rest) = .ok (some (c.val.toNat, rest)) := by
  have hvalid : c.val.toNat < 0xd800 ∨ (0xdfff < c.val.toNat ∧ c.val.toNat < 0x110000) := c.valid
  rw [readCodePoint, readUtf16CodeUnit_hex h, ok_bind]
  dsimp only
  rw [if_neg (by omega), if_neg (by omega)]

theorem readCodePoint_pair {high low : Bytes} {m n : Nat} (first : Hex4 high m) (second : Hex4 low n)
    (hhigh : 0xD800 ≤ m ∧ m ≤ 0xDBFF) (hlow : 0xDC00 ≤ n ∧ n ≤ 0xDFFF) (rest : Bytes) :
    readCodePoint (high ++ 92 :: 117 :: low ++ rest) =
      .ok (some (0x10000 + (m - 0xD800) * 1024 + (n - 0xDC00), rest)) := by
  rw [List.append_assoc, readCodePoint, readUtf16CodeUnit_hex first, ok_bind]
  dsimp only
  rw [if_pos hhigh, List.cons_append, List.cons_append, readLowSurrogate, readUtf16CodeUnit_hex second, ok_bind]
  dsimp only
  rw [if_neg (by omega)]

theorem parseStringLoop_step {ch : UInt8} {bytes behind : Bytes} (hquote : ch ≠ quote)
    (hpiece : readPiece ch json = .ok (some (bytes, behind))) (fuel : Nat) (parsed : Bytes) :
    parseStringLoop (fuel + 1) (ch :: json) parsed = parseStringLoop fuel behind (parsed ++ bytes) := by
  rw [parseStringLoop, if_neg hquote, hpiece, ok_bind]

theorem readPiece_escape {bytes behind : Bytes} (h : readEscape json = .ok (some (bytes, behind))) :
    readPiece backslash json = .ok (some (bytes, behind)) := by
  rw [readPiece, if_neg (by simp), h]

/-- The first byte of a character is the byte of the character, or none of ASCII. -/
theorem encode_head (c : Char) : ∃ ch tail, String.utf8EncodeChar c = ch :: tail ∧
    ∀ d : Char, d.val ≤ 127 → c ≠ d → ch ≠ d.val.toUInt8 := by
  have hlength : (String.utf8EncodeChar c).length = c.utf8Size := String.length_utf8EncodeChar c
  obtain ⟨ch, tail, hencode⟩ : ∃ ch tail, String.utf8EncodeChar c = ch :: tail := by
    have hpos := c.utf8Size_pos
    exact List.exists_cons_of_length_pos (by omega)
  refine ⟨ch, tail, hencode, ?_⟩
  rintro d hd hne heq
  have hbyte : d.val.toUInt8.toNat = d.val.toNat := by
    have hle : d.val.toNat ≤ 127 := hd
    rw [UInt32.toNat_toUInt8]
    omega
  rcases byte_of_char (c := c) (x := ch) (by rw [hencode]; exact List.mem_cons_self) with ⟨hc, hch⟩ | ⟨-, hch⟩
  · have hcbyte : c.val.toUInt8.toNat = c.val.toNat := by
      have hle : c.val.toNat ≤ 127 := hc
      rw [UInt32.toNat_toUInt8]
      omega
    have hsame := congrArg UInt8.toNat (hch.symm.trans heq)
    rw [hcbyte, hbyte] at hsame
    exact hne (Char.ext (UInt32.toNat_inj.1 hsame))
  · have hle : 128 ≤ ch.toNat := hch
    have hd' : d.val.toNat ≤ 127 := hd
    rw [heq, hbyte] at hle
    omega

/-- A string is decoded up to its closing quote. -/
theorem parseStringLoop_text (h : StringText s b) (fuel : Nat) (rest parsed : Bytes)
    (hfuel : (b ++ quote :: rest).length < fuel) :
    parseStringLoop fuel (b ++ quote :: rest) parsed = .ok (some (parsed ++ asBytes s, rest)) := by
  have hcons : ∀ (c : Char) (s : Text), asBytes (c :: s) = String.utf8EncodeChar c ++ asBytes s := fun c s => by
    simp [asBytes]
  obtain ⟨fuel, rfl⟩ : ∃ more, fuel = more + 1 := ⟨fuel - 1, by omega⟩
  induction h generalizing fuel parsed with
  | nil =>
    rw [List.nil_append, parseStringLoop, if_pos rfl]
    simp [asBytes]
  | @char c s b low hquote hbackslash _ ih =>
    obtain ⟨ch, tail, hencode, hother⟩ := encode_head c
    have hliteral := appendLiteralUtf8_char low (b ++ quote :: rest)
    have hpiece : readPiece ch (tail ++ (b ++ quote :: rest)) =
        .ok (some (String.utf8EncodeChar c, b ++ quote :: rest)) := by
      have hne : ch ≠ backslash := hother '\\' (by decide) hbackslash
      rw [readPiece, if_pos hne, ← hliteral, hencode]
      rfl
    rw [List.append_assoc, hencode] at hfuel ⊢
    rw [List.cons_append] at hfuel ⊢
    rw [List.length_cons, List.length_append] at hfuel
    rw [parseStringLoop_step (hother '"' (by decide) hquote) hpiece]
    obtain ⟨fuel, rfl⟩ : ∃ more, fuel = more + 1 := ⟨fuel - 1, by omega⟩
    rw [ih _ fuel (by omega), hcons, List.append_assoc]
  | @escape e c s b known _ ih =>
    have hpiece := readPiece_escape (readEscape_simple known (b ++ quote :: rest))
    rw [List.cons_append, List.cons_append] at hfuel ⊢
    rw [List.length_cons, List.length_cons] at hfuel
    rw [show (92 : UInt8) = backslash from rfl, parseStringLoop_step (by decide) hpiece]
    obtain ⟨fuel, rfl⟩ : ∃ more, fuel = more + 1 := ⟨fuel - 1, by omega⟩
    rw [ih _ fuel (by omega), hcons, List.append_assoc]
  | @unicode hex c s b digits _ ih =>
    have hpiece := readPiece_escape (readEscape_codePoint (readCodePoint_unicode digits (b ++ quote :: rest)))
    rw [List.append_assoc, List.cons_append, List.cons_append] at hfuel ⊢
    rw [List.length_cons, List.length_cons, List.length_append] at hfuel
    rw [show (92 : UInt8) = backslash from rfl, parseStringLoop_step (by decide) hpiece]
    obtain ⟨fuel, rfl⟩ : ∃ more, fuel = more + 1 := ⟨fuel - 1, by omega⟩
    rw [ih _ fuel (by omega), hcons, List.append_assoc]
  | @pair high low m n c s b first second isHigh isLow decoded _ ih =>
    have hpoint := readCodePoint_pair first second isHigh isLow (b ++ quote :: rest)
    rw [← decoded] at hpoint
    have hpiece := readPiece_escape (readEscape_codePoint hpoint)
    rw [List.append_assoc] at hfuel ⊢
    have hsplit : 92 :: 117 :: high ++ 92 :: 117 :: low ++ (b ++ quote :: rest) =
        backslash :: 117 :: (high ++ 92 :: 117 :: low ++ (b ++ quote :: rest)) := rfl
    rw [hsplit] at hfuel ⊢
    rw [List.length_cons, List.length_cons, List.length_append] at hfuel
    rw [parseStringLoop_step (by decide) hpiece]
    obtain ⟨fuel, rfl⟩ : ∃ more, fuel = more + 1 := ⟨fuel - 1, by omega⟩
    rw [ih _ fuel (by omega), hcons, List.append_assoc]

theorem skipWs_quote (json : Bytes) : skipWs (quote :: json) = quote :: json :=
  List.dropWhile_cons_of_neg (by decide)

theorem parseString_text (h : StringText s b) (rest : Bytes) :
    parseString (quote :: b ++ quote :: rest) = .ok (some (asBytes s, rest)) := by
  rw [List.cons_append, parseString, skipWs_quote]
  dsimp only
  rw [if_neg (by simp), parseStringLoop_text h _ rest [] (Nat.lt_succ_self _), List.nil_append]

/-! ### Spans -/

variable {opens closes : UInt8}

/-- Fuel for every byte is fuel enough. -/
theorem skipCompositeLoop_fuel (fuel more : Nat) (json : Bytes) (depth : Int) (hfuel : json.length < fuel)
    (hmore : json.length < more) :
    skipCompositeLoop opens closes fuel json depth = skipCompositeLoop opens closes more json depth := by
  induction fuel generalizing more json depth with
  | zero => omega
  | succ fuel ih =>
    obtain ⟨more, rfl⟩ : ∃ other, more = other + 1 := ⟨more - 1, by omega⟩
    cases json with
    | nil => rfl
    | cons ch json =>
      rw [List.length_cons] at hfuel hmore
      rw [skipCompositeLoop, skipCompositeLoop]
      have hreads := parseString_reads (ch :: json)
      have hnext : ∀ depth, skipCompositeLoop opens closes fuel json depth =
          skipCompositeLoop opens closes more json depth := fun depth => ih more json depth (by omega) (by omega)
      simp only [hnext]
      split
      · cases hread : parseString (ch :: json) with
        | error e => rfl
        | ok r =>
          rw [hread] at hreads
          cases hreads with
          | none => rfl
          | @some a rest holds suffix shorter =>
            rw [List.length_cons] at shorter
            rw [ok_bind, ok_bind]
            exact ih more rest depth (by omega) (by omega)
      · rfl

/-- A text that a skip passes over at any depth. -/
def Passes (opens closes : UInt8) (b : Bytes) : Prop :=
  ∀ (rest : Bytes) (depth : Int) (fuel : Nat), 1 ≤ depth → (b ++ rest).length < fuel →
    skipCompositeLoop opens closes fuel (b ++ rest) depth =
      skipCompositeLoop opens closes (rest.length + 1) rest depth

theorem passes_nil : Passes opens closes [] := by
  rintro rest depth fuel - hfuel
  exact skipCompositeLoop_fuel fuel _ rest depth hfuel (Nat.lt_succ_self _)

theorem Passes.append {a b : Bytes} (ha : Passes opens closes a) (hb : Passes opens closes b) :
    Passes opens closes (a ++ b) := by
  rintro rest depth fuel hdepth hfuel
  rw [List.append_assoc] at hfuel ⊢
  rw [ha (b ++ rest) depth fuel hdepth hfuel]
  exact hb rest depth _ hdepth (Nat.lt_succ_self _)

/-- A byte that neither opens nor closes anything. -/
def Plain (opens closes byte : UInt8) : Prop := byte ≠ quote ∧ byte ≠ opens ∧ byte ≠ closes

theorem passes_plain (h : ∀ byte ∈ b, Plain opens closes byte) : Passes opens closes b := by
  induction b with
  | nil => exact passes_nil
  | cons byte b ih =>
    have hbyte := h byte List.mem_cons_self
    have hrest := ih fun other hother => h other (List.mem_cons_of_mem _ hother)
    rintro rest depth fuel hdepth hfuel
    obtain ⟨fuel, rfl⟩ : ∃ more, fuel = more + 1 := ⟨fuel - 1, by omega⟩
    rw [List.cons_append, List.length_cons] at hfuel
    rw [List.cons_append, skipCompositeLoop, if_neg hbyte.1, if_neg hbyte.2.1, if_neg hbyte.2.2]
    exact hrest rest depth fuel hdepth (by omega)

theorem passes_string (h : StringText s b) : Passes opens closes (quote :: b ++ [quote]) := by
  rintro rest depth fuel hdepth hfuel
  obtain ⟨fuel, rfl⟩ : ∃ more, fuel = more + 1 := ⟨fuel - 1, by omega⟩
  have hread := parseString_text h rest
  have hsplit : quote :: b ++ [quote] ++ rest = quote :: (b ++ quote :: rest) := by simp
  rw [hsplit] at hfuel ⊢
  rw [List.cons_append] at hread
  rw [skipCompositeLoop, if_pos rfl, hread, ok_bind]
  rw [List.length_cons, List.length_append, List.length_cons] at hfuel
  exact skipCompositeLoop_fuel fuel _ rest depth (by omega) (Nat.lt_succ_self _)

/-- A nested pair of the brackets that are counted. -/
theorem passes_nested (hquote : opens ≠ quote ∧ closes ≠ quote) (hne : closes ≠ opens) (h : Passes opens closes b) :
    Passes opens closes (opens :: b ++ [closes]) := by
  rintro rest depth fuel hdepth hfuel
  obtain ⟨fuel, rfl⟩ : ∃ more, fuel = more + 1 := ⟨fuel - 1, by omega⟩
  have hsplit : opens :: b ++ [closes] ++ rest = opens :: (b ++ closes :: rest) := by simp
  rw [hsplit] at hfuel ⊢
  rw [List.length_cons] at hfuel
  rw [skipCompositeLoop, if_neg hquote.1, if_pos rfl, h (closes :: rest) (depth + 1) fuel (by omega) (by omega),
    List.length_cons, skipCompositeLoop, if_neg hquote.2, if_neg hne, if_pos rfl, if_neg (by omega),
    Int.add_sub_cancel]

/-- The brackets a skip counts. -/
def Counted (opens closes : UInt8) : Prop :=
  (opens = openBrace ∧ closes = closeBrace) ∨ (opens = openBracket ∧ closes = closeBracket)

theorem Counted.plain (h : Counted opens closes) (hne : byte ≠ quote)
    (hbraces : byte ≠ openBrace ∧ byte ≠ closeBrace) (hbrackets : byte ≠ openBracket ∧ byte ≠ closeBracket) :
    Plain opens closes byte := by
  rcases h with ⟨rfl, rfl⟩ | ⟨rfl, rfl⟩
  · exact ⟨hne, hbraces⟩
  · exact ⟨hne, hbrackets⟩

theorem passes_byte (h : Counted opens closes) (byte : UInt8) (hne : byte ≠ quote)
    (hbraces : byte ≠ openBrace ∧ byte ≠ closeBrace) (hbrackets : byte ≠ openBracket ∧ byte ≠ closeBracket) :
    Passes opens closes [byte] := by
  refine passes_plain fun other hother => ?_
  rw [List.mem_singleton.1 hother]
  exact h.plain hne hbraces hbrackets

theorem ws_plain (h : Counted opens closes) (hbyte : isWs byte = true) : Plain opens closes byte := by
  have hne : ∀ other, isWs other = false → byte ≠ other := by
    rintro other hother rfl
    exact absurd (hother.symm.trans hbyte) (by decide)
  exact h.plain (hne _ (by decide)) ⟨hne _ (by decide), hne _ (by decide)⟩ ⟨hne _ (by decide), hne _ (by decide)⟩

theorem passes_space (h : Counted opens closes) (hspace : Space w) : Passes opens closes w :=
  passes_plain fun _ hbyte => ws_plain h (hspace.ws hbyte)

theorem scalar_plain (h : Counted opens closes) (hbyte : isScalarByte byte = true) : Plain opens closes byte := by
  have hne : ∀ other, isScalarByte other = false → byte ≠ other := by
    rintro other hother rfl
    exact absurd (hother.symm.trans hbyte) (by decide)
  exact h.plain (hne _ (by decide)) ⟨hne _ (by decide), hne _ (by decide)⟩ ⟨hne _ (by decide), hne _ (by decide)⟩

/-- Brackets of either kind around what is passed over. -/
theorem passes_brackets (h : Counted opens closes) (hb : Passes opens closes b) :
    Passes opens closes (openBracket :: b ++ [closeBracket]) ∧
    Passes opens closes (openBrace :: b ++ [closeBrace]) := by
  have hsides : ∀ first last, Plain opens closes first → Plain opens closes last →
      Passes opens closes (first :: b ++ [last]) := by
    rintro first last hfirst hlast
    have hone : ∀ byte, Plain opens closes byte → Passes opens closes [byte] := fun byte hbyte =>
      passes_plain fun other hother => by rw [List.mem_singleton.1 hother]; exact hbyte
    exact ((hone first hfirst).append hb).append (hone last hlast)
  rcases h with ⟨rfl, rfl⟩ | ⟨rfl, rfl⟩
  · refine ⟨hsides _ _ ?_ ?_, passes_nested (by decide) (by decide) hb⟩
    · exact ⟨by decide, by decide, by decide⟩
    · exact ⟨by decide, by decide, by decide⟩
  · refine ⟨passes_nested (by decide) (by decide) hb, hsides _ _ ?_ ?_⟩
    · exact ⟨by decide, by decide, by decide⟩
    · exact ⟨by decide, by decide, by decide⟩

/-- Whatever derives from the grammar is passed over. -/
theorem derives_passes {symbol : Symbol} (hcounted : Counted opens closes) (h : Derives symbol b) :
    Passes opens closes b := by
  have hcomma : ∀ {b}, Passes opens closes b → Passes opens closes (comma :: b) := fun hb =>
    (passes_byte hcounted comma (by decide) ⟨by decide, by decide⟩ ⟨by decide, by decide⟩).append hb
  have hcolon : ∀ {b}, Passes opens closes b → Passes opens closes (colon :: b) := fun hb =>
    (passes_byte hcounted colon (by decide) ⟨by decide, by decide⟩ ⟨by decide, by decide⟩).append hb
  have hkey : ∀ {before k inner : Bytes} {name : Text}, Space before → StringText name k → Space inner →
      Passes opens closes (before ++ 34 :: k ++ 34 :: inner) := by
    rintro before k inner name left key right
    have hsplit : before ++ 34 :: k ++ 34 :: inner = before ++ (quote :: k ++ [quote]) ++ inner := by simp [quote]
    rw [hsplit]
    exact ((passes_space hcounted left).append (passes_string key)).append (passes_space hcounted right)
  induction h with
  | scalar hscalar =>
    exact passes_plain fun byte hbyte => scalar_plain hcounted (List.all_eq_true.1 hscalar.bytes.1 byte hbyte)
  | string hstring => exact passes_string hstring
  | emptyArray hspace => exact (passes_brackets hcounted (passes_space hcounted hspace)).1
  | array _ ih => exact (passes_brackets hcounted ih).1
  | emptyObject hspace => exact (passes_brackets hcounted (passes_space hcounted hspace)).2
  | object _ ih => exact (passes_brackets hcounted ih).2
  | item left _ right ih => exact ((passes_space hcounted left).append ih).append (passes_space hcounted right)
  | items left _ right _ ih ihrest =>
    exact (((passes_space hcounted left).append ih).append (passes_space hcounted right)).append (hcomma ihrest)
  | member left key colonLeft colonRight _ right ih =>
    exact (((hkey left key colonLeft).append (hcolon (passes_space hcounted colonRight))).append ih).append
      (passes_space hcounted right)
  | members left key colonLeft colonRight _ right _ ih ihrest =>
    exact ((((hkey left key colonLeft).append (hcolon (passes_space hcounted colonRight))).append ih).append
      (passes_space hcounted right)).append (hcomma ihrest)

theorem skipComposite_passes (hcounted : Counted opens closes) (h : Passes opens closes b) (rest : Bytes) :
    skipComposite (opens :: b ++ closes :: rest) opens closes = .ok (some rest) := by
  have hne : opens ≠ quote ∧ closes ≠ quote ∧ closes ≠ opens := by
    rcases hcounted with ⟨rfl, rfl⟩ | ⟨rfl, rfl⟩
    · decide
    · decide
  have hloop := h (closes :: rest) (0 + 1) (opens :: (b ++ closes :: rest)).length (by decide) (Nat.lt_succ_self _)
  rw [List.cons_append, skipComposite, if_neg (by simp), skipCompositeLoop, if_neg hne.1, if_pos rfl, hloop,
    List.length_cons, skipCompositeLoop, if_neg hne.2.1, if_neg hne.2.2, if_pos rfl, if_pos (by decide)]

/-! ### Values -/

/-- The byte behind a value in an object or an array. -/
def Closer (byte : UInt8) : Prop := byte = comma ∨ byte = closeBrace ∨ byte = closeBracket

theorem Closer.notSpace (h : Closer byte) : isSpace byte = false := by
  rcases h with rfl | rfl | rfl <;> decide

theorem endsScalar_iff : endsScalar byte = true ↔ Closer byte := by
  rw [endsScalar, Bool.or_eq_true, Bool.or_eq_true, beq_iff_eq, beq_iff_eq, beq_iff_eq, or_assoc]
  rfl

theorem rangeTo_append (text rest : Bytes) : rangeTo (text ++ rest) (some rest) = some (text, rest) := by
  rw [rangeTo, Option.map_some, List.length_append, Nat.add_sub_cancel, List.take_left]

theorem scalar_first (h : isScalarByte byte = true) :
    isSpace byte = false ∧ byte ≠ quote ∧ byte ≠ openBrace ∧ byte ≠ openBracket := by
  have hne : ∀ other, isScalarByte other = false → byte ≠ other := by
    rintro other hother rfl
    exact absurd (hother.symm.trans h) (by decide)
  refine ⟨?_, hne _ (by decide), hne _ (by decide), hne _ (by decide)⟩
  rw [Bool.eq_false_iff]
  rintro hspace
  have hlow := scalarByte_low h
  rw [isSpace, Bool.or_eq_true, Bool.and_eq_true, decide_eq_true_iff, decide_eq_true_iff] at hspace
  rcases hspace with hblank | ⟨-, hhigh⟩
  · rw [eq_of_beq hblank] at hlow
    exact absurd hlow (by decide)
  · exact absurd (Nat.le_trans hlow hhigh) (by decide)

/-- A scalar goes to the first byte that closes it, over the white space behind it. -/
theorem dropWhile_scalar {v after : Bytes} (h : v.all isScalarByte = true) (hafter : Space after)
    (hcloser : Closer byte) (rest : Bytes) :
    (v ++ (after ++ byte :: rest)).dropWhile (!endsScalar ·) = byte :: rest := by
  have hscalar : ∀ other ∈ v, (!endsScalar other) = true := by
    rintro other hother
    have hbyte := List.all_eq_true.1 h other hother
    rw [Bool.not_eq_true', Bool.eq_false_iff]
    rintro hends
    rcases endsScalar_iff.1 hends with rfl | rfl | rfl <;> exact absurd hbyte (by decide)
  have hspace : ∀ other ∈ after, (!endsScalar other) = true := by
    rintro other hother
    have hbyte := hafter.ws hother
    rw [Bool.not_eq_true', Bool.eq_false_iff]
    rintro hends
    rcases endsScalar_iff.1 hends with rfl | rfl | rfl <;> exact absurd hbyte (by decide)
  rw [List.dropWhile_append_of_pos hscalar, List.dropWhile_append_of_pos hspace,
    List.dropWhile_cons_of_neg (by rw [endsScalar_iff.2 hcloser]; decide)]

/-- A value is read with its source text; behind a scalar the white space belongs to it. -/
theorem readValueRange_value {v after : Bytes} (h : Derives .value v) (hw : Space w) (hafter : Space after)
    (hcloser : Closer byte) (rest : Bytes) :
    ∃ inside behind, after = inside ++ behind ∧
      readValueRange (w ++ (v ++ (after ++ byte :: rest))) = .ok (some (v ++ inside, behind ++ byte :: rest)) := by
  have hskip : ∀ (first : UInt8) (more : Bytes), isSpace first = false →
      skipWs (w ++ first :: more) = first :: more := by
    rintro first more hfirst
    refine skipWs_space hw ?_
    rintro other hother
    rw [← Option.some.inj hother]
    exact hfirst
  have hbracket : ∀ {b : Bytes} {opens closes : UInt8} (rest : Bytes), Passes opens closes b → Counted opens closes →
      readValueRange (w ++ (opens :: b ++ closes :: rest)) = .ok (some (opens :: b ++ [closes], rest)) := by
    rintro b opens closes rest hpasses hcounted
    have hcomposite := skipComposite_passes hcounted hpasses rest
    have hrange := rangeTo_append (opens :: b ++ [closes]) rest
    rw [List.append_assoc, List.singleton_append] at hrange
    rw [List.cons_append] at hcomposite hrange ⊢
    rcases hcounted with ⟨rfl, rfl⟩ | ⟨rfl, rfl⟩
    · rw [readValueRange, hskip _ _ (by decide)]
      dsimp only
      rw [if_neg (by decide), if_pos rfl, hcomposite, ok_bind, hrange]
    · rw [readValueRange, hskip _ _ (by decide)]
      dsimp only
      rw [if_neg (by decide), if_neg (by decide), if_pos rfl, hcomposite, ok_bind, hrange]
  have hbraces : Counted openBrace closeBrace := .inl ⟨rfl, rfl⟩
  have hbrackets : Counted openBracket closeBracket := .inr ⟨rfl, rfl⟩
  have hwhole : ∀ {first last : UInt8} {b : Bytes},
      readValueRange (w ++ (first :: b ++ last :: (after ++ byte :: rest))) =
      .ok (some (first :: b ++ [last], after ++ byte :: rest)) →
      ∃ inside behind, after = inside ++ behind ∧
        readValueRange (w ++ (first :: b ++ [last] ++ (after ++ byte :: rest))) =
        .ok (some (first :: b ++ [last] ++ inside, behind ++ byte :: rest)) := by
    rintro first last b hread
    refine ⟨[], after, rfl, ?_⟩
    rw [List.append_nil, List.append_assoc, List.singleton_append]
    exact hread
  cases h with
  | scalar hscalar =>
    refine ⟨after, [], (List.append_nil _).symm, ?_⟩
    obtain ⟨hbytes, hne⟩ := hscalar.bytes
    obtain ⟨first, more, rfl⟩ := List.exists_cons_of_ne_nil hne
    have hstops := dropWhile_scalar hbytes hafter hcloser rest
    have hfirst := scalar_first (List.all_eq_true.1 hbytes first List.mem_cons_self)
    have hrange := rangeTo_append (first :: more ++ after) (byte :: rest)
    rw [List.append_assoc] at hrange
    rw [List.cons_append] at hstops hrange ⊢
    rw [readValueRange, hskip _ _ hfirst.1]
    dsimp only
    rw [if_neg hfirst.2.1, if_neg hfirst.2.2.1, if_neg hfirst.2.2.2, hstops, hrange]
    rfl
  | @string s b hstring =>
    refine hwhole ?_
    have hread := parseString_text hstring (after ++ byte :: rest)
    have hrange := rangeTo_append (quote :: b ++ [quote]) (after ++ byte :: rest)
    rw [List.append_assoc, List.singleton_append] at hrange
    show readValueRange (w ++ (quote :: b ++ quote :: (after ++ byte :: rest))) =
      .ok (some (quote :: b ++ [quote], after ++ byte :: rest))
    rw [List.cons_append] at hread hrange ⊢
    rw [readValueRange, hskip _ _ (by decide)]
    dsimp only
    rw [if_pos rfl, hread, ok_bind]
    exact congrArg _ hrange
  | emptyArray hspace => exact hwhole (hbracket _ (passes_space hbrackets hspace) hbrackets)
  | array items => exact hwhole (hbracket _ (derives_passes hbrackets items) hbrackets)
  | emptyObject hspace => exact hwhole (hbracket _ (passes_space hbraces hspace) hbraces)
  | object body => exact hwhole (hbracket _ (derives_passes hbraces body) hbraces)

/-! ### Members -/

/-- The first member with the name, with white space behind its value. -/
def Found (field : Bytes) (members : List (Text × Bytes)) (r : Option Bytes) : Prop :=
  match members.find? fun member => asBytes member.1 = field with
  | none => r = none
  | some member => ∃ w, Space w ∧ r = some (member.2 ++ w)

theorem skipWs_token {first : UInt8} (hw : Space w) (hfirst : isSpace first = false) (more : Bytes) :
    skipWs (w ++ first :: more) = first :: more := by
  refine skipWs_space hw ?_
  rintro other hother
  rw [← Option.some.inj hother]
  exact hfirst

/-- A turn of the loop over a member: its value, or the loop from the token behind it on. -/
theorem fieldValueLoop_turn {before k inner outer v after : Bytes} {name : Text} (left : Space before)
    (key : StringText name k) (colonLeft : Space inner) (colonRight : Space outer) (value : Derives .value v)
    (right : Space after) (hcloser : Closer byte) (field rest : Bytes) (fuel : Nat) :
    ∃ inside, Space inside ∧
      fieldValueLoop field (fuel + 1) (before ++ quote :: (k ++ quote :: (inner ++ colon :: (outer ++ (v ++
        (after ++ byte :: rest)))))) =
        if asBytes name = field then .ok (some (v ++ inside))
        else if byte = comma then fieldValueLoop field fuel rest
        else fieldValueLoop field fuel (byte :: rest) := by
  obtain ⟨inside, behind, rfl, hvalue⟩ := readValueRange_value value colonRight right hcloser rest
  have hsides : Space inside ∧ Space behind := by
    rw [Space, List.all_append, Bool.and_eq_true] at right
    exact right
  refine ⟨inside, hsides.1, ?_⟩
  have hkey := parseString_text key (inner ++ colon :: (outer ++ (v ++ ((inside ++ behind) ++ byte :: rest))))
  rw [List.cons_append] at hkey
  have hlong : ¬ (before ++ quote :: (k ++ quote :: (inner ++ colon :: (outer ++ (v ++
      ((inside ++ behind) ++ byte :: rest)))))).length ≤ 1 := by
    simp only [List.length_append, List.length_cons]
    omega
  rw [fieldValueLoop, if_neg hlong, skipWs_token left (by decide), List.head?_cons, if_neg (by decide), hkey, ok_bind]
  dsimp only
  rw [skipWs_token colonLeft (by decide), if_neg (by simp), List.tail_cons, hvalue, ok_bind]
  dsimp only
  rw [skipWs_token hsides.2 hcloser.notSpace, List.tail_cons]
  simp only [List.head?_cons, Option.some.injEq]

theorem find_cons (member : Text × Bytes) (members : List (Text × Bytes)) (field : Bytes) (r : Option Bytes) :
    Found field (member :: members) r ↔
      if asBytes member.1 = field then ∃ w, Space w ∧ r = some (member.2 ++ w) else Found field members r := by
  rw [Found, List.find?_cons]
  by_cases hname : asBytes member.1 = field
  · simp [hname]
  · simp [hname, Found]

theorem fieldValueLoop_members {members : List (Text × Bytes)} (h : Derives (.members members) b) (field : Bytes)
    (fuel : Nat) (hfuel : (b ++ [closeBrace]).length < fuel) :
    ∃ r, fieldValueLoop field fuel (b ++ [closeBrace]) = .ok r ∧ Found field members r := by
  generalize hsymbol : Symbol.members members = symbol at h
  obtain ⟨fuel, rfl⟩ : ∃ more, fuel = more + 1 := ⟨fuel - 1, by omega⟩
  induction h generalizing members fuel with
  | @member before k inner outer v after name left key colonLeft colonRight value right _ =>
    cases hsymbol
    obtain ⟨inside, hinside, hturn⟩ :=
      fieldValueLoop_turn left key colonLeft colonRight value right (.inr (.inl rfl)) field [] fuel
    have hsplit : before ++ 34 :: k ++ 34 :: inner ++ 58 :: outer ++ v ++ after ++ [closeBrace] =
        before ++ quote :: (k ++ quote :: (inner ++ colon :: (outer ++ (v ++ (after ++ [closeBrace]))))) := by
      simp [quote, colon]
    rw [hsplit] at hfuel ⊢
    rw [hturn]
    by_cases hname : asBytes name = field
    · rw [if_pos hname]
      refine ⟨_, rfl, (find_cons _ _ _ _).2 ?_⟩
      rw [if_pos hname]
      exact ⟨inside, hinside, rfl⟩
    · rw [if_neg hname, if_neg (by decide)]
      obtain ⟨fuel, rfl⟩ : ∃ more, fuel = more + 1 := by
        refine ⟨fuel - 1, ?_⟩
        simp only [List.length_append, List.length_cons] at hfuel
        omega
      refine ⟨none, rfl, (find_cons _ _ _ _).2 ?_⟩
      rw [if_neg hname]
      rfl
  | @members before k inner outer v after b name members left key colonLeft colonRight value right _ _ ih =>
    cases hsymbol
    obtain ⟨inside, hinside, hturn⟩ :=
      fieldValueLoop_turn left key colonLeft colonRight value right (.inl rfl) field (b ++ [closeBrace]) fuel
    have hsplit : before ++ 34 :: k ++ 34 :: inner ++ 58 :: outer ++ v ++ after ++ 44 :: b ++ [closeBrace] =
        before ++ quote :: (k ++ quote :: (inner ++ colon :: (outer ++ (v ++ (after ++ comma ::
          (b ++ [closeBrace])))))) := by
      simp [quote, colon, comma]
    rw [hsplit] at hfuel ⊢
    rw [hturn]
    by_cases hname : asBytes name = field
    · rw [if_pos hname]
      refine ⟨_, rfl, (find_cons _ _ _ _).2 ?_⟩
      rw [if_pos hname]
      exact ⟨inside, hinside, rfl⟩
    · rw [if_neg hname, if_pos rfl]
      simp only [List.length_append, List.length_cons] at hfuel
      obtain ⟨fuel, rfl⟩ : ∃ more, fuel = more + 1 := ⟨fuel - 1, by omega⟩
      obtain ⟨r, hr, hfound⟩ := ih rfl fuel (by simp only [List.length_append, List.length_cons]; omega)
      refine ⟨r, hr, (find_cons _ _ _ _).2 ?_⟩
      rw [if_neg hname]
      exact hfound
  | _ => cases hsymbol

/-! ### Texts -/

theorem trim_space {before after : Bytes} {first last : UInt8} (left : Space before) (right : Space after)
    (hfirst : isSpace first = false) (hlast : isSpace last = false) (b : Bytes) :
    trim (before ++ first :: b ++ last :: after) = first :: b ++ [last] := by
  have hdrop : (before ++ first :: b ++ last :: after).dropWhile isSpace = first :: b ++ last :: after := by
    rw [List.append_assoc]
    exact skipWs_token left hfirst (b ++ last :: after)
  have hreverse : (first :: b ++ last :: after).reverse = after.reverse ++ last :: (first :: b).reverse := by simp
  have hafter : ∀ byte ∈ after.reverse, isSpace byte = true := fun byte hbyte =>
    ws_space (right.ws (List.mem_reverse.1 hbyte))
  rw [trim, hdrop, List.rdropWhile, hreverse, List.dropWhile_append_of_pos hafter,
    List.dropWhile_cons_of_neg (by rw [hlast]; decide)]
  simp

theorem enclosed_text (opens closes : UInt8) (b : Bytes) : enclosed (opens :: b ++ [closes]) opens closes = true := by
  rw [enclosed, List.getLast?_concat, List.cons_append]
  simp

theorem fieldValue_text {members : List (Text × Bytes)} (h : ObjectText members json) (field : Bytes) :
    ∃ r, fieldValue json field = .ok r ∧ Found field members r := by
  cases h with
  | @mk before b after left body right =>
    have htrim := @trim_space _ _ 123 125 left right (by decide) (by decide) b
    rw [fieldValue, htrim, show enclosed (123 :: b ++ [125]) openBrace closeBrace = true from enclosed_text _ _ b,
      if_neg (by decide), List.cons_append, List.tail_cons]
    cases body with
    | empty hspace =>
      refine ⟨none, ?_, rfl⟩
      rw [fieldValueLoop]
      split
      · rfl
      · rw [skipWs_token hspace (by decide), if_pos (by decide)]
    | members body =>
      refine fieldValueLoop_members body field _ ?_
      rw [List.length_cons]
      exact Nat.lt_succ_of_lt (Nat.lt_succ_self _)

/-- The first element, with white space behind it. -/
def FirstOf : List Bytes → Option Bytes → Prop
  | [], r => r = none
  | value :: _, r => ∃ w, Space w ∧ r = some (value ++ w)

/-- An array of values begins with the first of them. -/
theorem items_first {values : List Bytes} (h : Derives (.items values) b) (rest : Bytes) :
    ∃ value more before after byte behind, values = value :: more ∧ Space before ∧ Derives .value value ∧
      Space after ∧ Closer byte ∧ b ++ closeBracket :: rest = before ++ (value ++ (after ++ byte :: behind)) := by
  cases h with
  | @item before v after left value right =>
    exact ⟨v, [], before, after, closeBracket, rest, rfl, left, value, right, .inr (.inr rfl), by simp⟩
  | @items before v after b values left value right items =>
    exact ⟨v, values, before, after, comma, b ++ closeBracket :: rest, rfl, left, value, right, .inl rfl, by
      simp [comma]⟩

/-- The first byte of a value is no white space and no bracket that closes. -/
theorem value_first {v : Bytes} (h : Derives .value v) :
    ∃ first more, v = first :: more ∧ isSpace first = false ∧ first ≠ closeBracket := by
  cases h with
  | scalar hscalar =>
    obtain ⟨hbytes, hne⟩ := hscalar.bytes
    obtain ⟨first, more, rfl⟩ := List.exists_cons_of_ne_nil hne
    have hfirst := List.all_eq_true.1 hbytes first List.mem_cons_self
    refine ⟨first, more, rfl, (scalar_first hfirst).1, ?_⟩
    rintro rfl
    exact absurd hfirst (by decide)
  | string => exact ⟨_, _, rfl, by decide, by decide⟩
  | emptyArray => exact ⟨_, _, rfl, by decide, by decide⟩
  | array => exact ⟨_, _, rfl, by decide, by decide⟩
  | emptyObject => exact ⟨_, _, rfl, by decide, by decide⟩
  | object => exact ⟨_, _, rfl, by decide, by decide⟩

theorem firstArrayValue_text {values : List Bytes} (h : ArrayText values json) :
    ∃ r, firstArrayValue json = .ok r ∧ FirstOf values r := by
  cases h with
  | @mk before b after left elements right =>
    have htrim := @trim_space _ _ 91 93 left right (by decide) (by decide) b
    rw [firstArrayValue, htrim,
      show enclosed (91 :: b ++ [93]) openBracket closeBracket = true from enclosed_text _ _ b,
      if_neg (by decide), List.cons_append, List.tail_cons]
    cases elements with
    | empty hspace =>
      refine ⟨none, ?_, rfl⟩
      rw [skipWs_token hspace (by decide), if_pos (by decide)]
    | items items =>
      obtain ⟨value, more, space, behind, byte, rest, rfl, hspace, hvalue, hbehind, hcloser, hsplit⟩ :=
        items_first items []
      obtain ⟨first, tail, hfirst, hnot, hne⟩ := value_first hvalue
      rw [show b ++ [93] = b ++ closeBracket :: [] from rfl, hsplit]
      have hskip : skipWs (space ++ (value ++ (behind ++ byte :: rest))) = value ++ (behind ++ byte :: rest) := by
        rw [hfirst]
        exact skipWs_token hspace hnot _
      obtain ⟨inside, back, hback, hread⟩ := readValueRange_value hvalue Space.nil hbehind hcloser rest
      rw [List.nil_append] at hread
      rw [hskip, hread, hfirst]
      rw [List.cons_append, List.head?_cons, if_neg (by simpa using hne)]
      have hinside : Space inside := by
        rw [hback, Space, List.all_append, Bool.and_eq_true] at hbehind
        exact hbehind.1
      exact ⟨_, rfl, inside, hinside, rfl⟩

theorem stringValue_text (h : StringValue s json) : stringValue json = .ok (some (asBytes s)) := by
  cases h with
  | @mk before b after left string right =>
    have hskip : skipWs (before ++ 34 :: b ++ 34 :: after) = quote :: (b ++ quote :: after) := by
      rw [List.append_assoc]
      exact skipWs_token left (by decide) _
    have hread : parseString (before ++ 34 :: b ++ 34 :: after) = .ok (some (asBytes s, after)) := by
      have htext := parseString_text string after
      rw [List.cons_append, parseString, skipWs_quote] at htext
      rw [parseString, hskip]
      exact htext
    have hend : skipWs after = [] := by
      have hspace : skipWs (after ++ []) = [] := skipWs_space right (by simp)
      rwa [List.append_nil] at hspace
    rw [stringValue, hread, ok_bind]
    dsimp only
    rw [if_pos hend]

/-- What the reader does with any bytes. -/
structure SafeOn (json : Bytes) : Prop where
  string : Reads Utf8 json (parseString json)
  composite : ∀ opens closes, Stops json (skipComposite json opens closes)
  range : Spans json (readValueRange json)
  field : ∀ field, Part json (fieldValue json field)
  first : Part json (firstArrayValue json)
  decoded : stringValue json = .ok none ∨ ∃ parsed, stringValue json = .ok (some parsed) ∧ Utf8 parsed

/-- The reader finds what the grammar has in a JSON text, and comes to its end inside the view on any bytes. -/
theorem reader_agrees :
    (∀ members json, ObjectText members json → ∀ field, ∃ r, fieldValue json field = .ok r ∧ Found field members r) ∧
      (∀ s json, StringValue s json → stringValue json = .ok (some (asBytes s))) ∧
      (∀ values json, ArrayText values json → ∃ r, firstArrayValue json = .ok r ∧ FirstOf values r) ∧
      ∀ json, SafeOn json := by
  refine ⟨fun _ _ h => fieldValue_text h, fun _ _ h => stringValue_text h, fun _ _ h => firstArrayValue_text h, ?_⟩
  rintro json
  exact ⟨parseString_reads json, skipComposite_stops json, readValueRange_spans json, fieldValue_part json,
    firstArrayValue_part json, stringValue_utf8 json⟩

namespace ReaderSample

def nested : Bytes := 123 :: ([] ++ 34 :: [98] ++ 34 :: [] ++ 58 :: [] ++ [49] ++ []) ++ [125]
def found : Bytes := 34 :: [120] ++ [34]

/-- `{"a":{"b":1},"b":"x"}`. -/
def text : Bytes :=
  [] ++ 123 :: ([] ++ 34 :: [97] ++ 34 :: [] ++ 58 :: [] ++ nested ++ [] ++ 44 ::
    ([] ++ 34 :: [98] ++ 34 :: [] ++ 58 :: [] ++ found ++ [])) ++ 125 :: []

theorem letter (c : Char) (byte : UInt8) (h : String.utf8EncodeChar c = [byte]) (hlow : 0x20 ≤ c.val.toNat)
    (hquote : c ≠ '"') (hbackslash : c ≠ '\\') : StringText [c] [byte] := by
  have hchar := StringText.char hlow hquote hbackslash .nil
  rwa [h] at hchar

theorem letterA : StringText ['a'] [97] := letter 'a' 97 rfl (by decide) (by decide) (by decide)
theorem letterB : StringText ['b'] [98] := letter 'b' 98 rfl (by decide) (by decide) (by decide)
theorem letterX : StringText ['x'] [120] := letter 'x' 120 rfl (by decide) (by decide) (by decide)

theorem derived : ObjectText [(['a'], nested), (['b'], found)] text := by
  have hone : Scalar ([] ++ [49] ++ [] ++ []) :=
    .number (.inl rfl) (.nonzero (by decide) (by decide) rfl) .none .none
  have hnested : Derives .value nested := .object (.member .nil letterB .nil .nil (.scalar hone) .nil)
  exact .mk .nil (.members (.members .nil letterA .nil .nil hnested .nil
    (.member .nil letterB .nil .nil (.string letterX) .nil))) .nil

end ReaderSample

theorem reader_agrees_nested :
    ∃ r, fieldValue ReaderSample.text [98] = .ok r ∧
      Found [98] [(['a'], ReaderSample.nested), (['b'], ReaderSample.found)] r :=
  reader_agrees.1 _ _ ReaderSample.derived [98]

end CodexKeyboard.Config
