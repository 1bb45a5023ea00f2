import CodexKeyboard.Schemes.Text

/-! Bytes that are UTF-8: what is cut out at ASCII bytes, or behind whole characters, is UTF-8 again, and the first
    bytes of a text are whole characters and a part of the next one. -/

namespace Schemes.Text

/-- Bytes that are the encoding of a text. -/
def Encoded (bytes : List UInt8) : Prop := ∃ s : Text, bytes = asBytes s

variable {s t : Text} {c d : Char} {bytes before after more : List UInt8} {byte : UInt8}

theorem asBytes_nil : asBytes [] = [] := rfl

theorem asBytes_cons (c : Char) (s : Text) : asBytes (c :: s) = String.utf8EncodeChar c ++ asBytes s := rfl

theorem encoded_asBytes (s : Text) : Encoded (asBytes s) := ⟨s, rfl⟩

theorem Encoded.append (h : Encoded bytes) (hmore : Encoded more) : Encoded (bytes ++ more) := by
  obtain ⟨s, rfl⟩ := h
  obtain ⟨t, rfl⟩ := hmore
  exact ⟨s ++ t, (asBytes_append s t).symm⟩

/-! ### Characters -/

/-- A text of bytes begins with one character at most. -/
theorem encodeChar_unique (h : String.utf8EncodeChar c ++ before = String.utf8EncodeChar d ++ after) :
    c = d ∧ before = after := by
  have hdecode (e : Char) (bytes : List UInt8) :
      (String.utf8EncodeChar e ++ bytes).toByteArray.utf8DecodeChar? 0 = some e := by
    rw [List.toByteArray_append]
    exact ByteArray.utf8DecodeChar?_utf8EncodeChar_append
  have hsame : some c = some d := by rw [← hdecode c before, h, hdecode d after]
  obtain rfl := Option.some.inj hsame
  exact ⟨rfl, List.append_cancel_left h⟩

/-- A byte of a character is the character, of ASCII, or it is none of ASCII. -/
theorem encodeChar_byte (h : byte ∈ String.utf8EncodeChar c) :
    (String.utf8EncodeChar c = [byte] ∧ byte.toNat < 128 ∧ c.val.toNat = byte.toNat) ∨
      (128 ≤ byte.toNat ∧ 128 ≤ c.val.toNat) := by
  rcases byte_of_char h with ⟨hle, rfl⟩ | ⟨hlt, hhigh⟩
  · have hval : c.val.toNat ≤ 127 := hle
    have hbyte : c.val.toUInt8.toNat = c.val.toNat := by
      rw [UInt32.toNat_toUInt8]
      omega
    refine .inl ⟨String.utf8EncodeChar_eq_singleton (ascii_size hle), ?_, hbyte.symm⟩
    omega
  · exact .inr ⟨hhigh, hlt⟩

theorem Encoded.cancel (h : Encoded (asBytes s ++ bytes)) : Encoded bytes := by
  induction s with
  | nil => exact h
  | cons c s ih =>
    obtain ⟨t, ht⟩ := h
    rw [asBytes_cons, List.append_assoc] at ht
    cases t with
    | nil => exact absurd (List.append_eq_nil_iff.1 ht).1 String.utf8EncodeChar_ne_nil
    | cons d t =>
      rw [asBytes_cons] at ht
      exact ih ⟨t, (encodeChar_unique ht).2⟩

/-- A byte of ASCII cuts a text into texts. -/
theorem Encoded.around (h : Encoded (before ++ byte :: after)) (hbyte : byte.toNat < 128) :
    Encoded before ∧ Encoded after := by
  obtain ⟨s, hs⟩ := h
  induction s generalizing before with
  | nil => exact absurd (congrArg List.length hs) (by simp [asBytes_nil])
  | cons c s ih =>
    rw [asBytes_cons] at hs
    rcases List.append_eq_append_iff.1 hs with ⟨middle, hmiddle, hrest⟩ | ⟨middle, rfl, hrest⟩
    · -- the byte is in the first character, or the next one begins with it
      cases middle with
      | nil =>
        rw [List.append_nil] at hmiddle
        rw [List.nil_append] at hrest
        refine (@ih [] hrest).imp_left fun _ => ?_
        exact ⟨[c], by rw [← hmiddle, asBytes_cons, asBytes_nil, List.append_nil]⟩
      | cons b middle =>
        rw [List.cons_append] at hrest
        obtain ⟨rfl, hafter⟩ := List.cons.inj hrest
        have hmem : byte ∈ String.utf8EncodeChar c := by
          rw [hmiddle]
          exact List.mem_append_right _ List.mem_cons_self
        rcases encodeChar_byte hmem with ⟨hsingle, -⟩ | ⟨hhigh, -⟩
        · rw [hsingle] at hmiddle
          obtain ⟨rfl, rfl⟩ : before = [] ∧ middle = [] := by
            have hlength := congrArg List.length hmiddle
            simp only [List.length_append, List.length_cons, List.length_nil] at hlength
            exact ⟨List.eq_nil_of_length_eq_zero (by omega), List.eq_nil_of_length_eq_zero (by omega)⟩
          exact ⟨⟨[], rfl⟩, ⟨s, hafter⟩⟩
        · omega
    · obtain ⟨hbefore, hafter⟩ := ih hrest.symm
      refine ⟨?_, hafter⟩
      have hchar : Encoded (String.utf8EncodeChar c) := ⟨[c], by rw [asBytes_cons, asBytes_nil, List.append_nil]⟩
      exact hchar.append hbefore

/-- A part of a character, from its start on: not whole, and not nothing. -/
def Partial (bytes : List UInt8) : Prop :=
  bytes ≠ [] ∧ ∃ (c : Char) (rest : List UInt8), rest ≠ [] ∧ String.utf8EncodeChar c = bytes ++ rest

theorem Partial.not_encoded (h : Partial bytes) : ¬ Encoded bytes := by
  obtain ⟨hsome, c, rest, hrest, hchar⟩ := h
  rintro ⟨s, rfl⟩
  cases s with
  | nil => exact hsome rfl
  | cons d s =>
    rw [asBytes_cons, List.append_assoc] at hchar
    have hsame : String.utf8EncodeChar c ++ [] = String.utf8EncodeChar d ++ (asBytes s ++ rest) := by
      rw [List.append_nil]
      exact hchar
    exact hrest (List.append_eq_nil_iff.1 (encodeChar_unique hsame).2.symm).2

theorem Partial.high (h : Partial bytes) (hbyte : byte ∈ bytes) : 128 ≤ byte.toNat := by
  obtain ⟨-, c, rest, hrest, hchar⟩ := h
  have hmem : byte ∈ String.utf8EncodeChar c := hchar ▸ List.mem_append_left _ hbyte
  rcases encodeChar_byte hmem with ⟨hsingle, -⟩ | ⟨hhigh, -⟩
  · rw [hchar] at hsingle
    have hlength := congrArg List.length hsingle
    have hpos := List.length_pos_iff.2 hrest
    have hpos' := List.length_pos_iff.2 (List.ne_nil_of_mem hbyte)
    simp only [List.length_append, List.length_cons, List.length_nil] at hlength
    omega
  · exact hhigh

/-- The first bytes of a text: whole characters, and a part of the next when the cut is inside it. -/
theorem take_asBytes (s : Text) (n : Nat) :
    ∃ front cut, (asBytes s).take n = asBytes front ++ cut ∧ (cut = [] ∨ Partial cut) ∧ front <+: s := by
  induction s generalizing n with
  | nil => exact ⟨[], [], List.take_nil, .inl rfl, List.nil_prefix⟩
  | cons c s ih =>
    by_cases hwhole : (String.utf8EncodeChar c).length ≤ n
    · obtain ⟨front, cut, htake, hcut, hfront⟩ := ih (n - (String.utf8EncodeChar c).length)
      refine ⟨c :: front, cut, ?_, hcut, List.cons_prefix_cons.2 ⟨rfl, hfront⟩⟩
      rw [asBytes_cons, List.take_append, List.take_of_length_le hwhole, htake, asBytes_cons, List.append_assoc]
    · refine ⟨[], (String.utf8EncodeChar c).take n, ?_, ?_, List.nil_prefix⟩
      · rw [asBytes_cons, List.take_append_of_le_length (by omega)]
        rfl
      · cases n with
        | zero => exact .inl rfl
        | succ n =>
          refine .inr ⟨?_, c, (String.utf8EncodeChar c).drop (n + 1), ?_, (List.take_append_drop _ _).symm⟩
          · exact List.ne_nil_of_length_pos (by rw [List.length_take]; omega)
          · exact List.ne_nil_of_length_pos (by rw [List.length_drop]; omega)

end Schemes.Text
