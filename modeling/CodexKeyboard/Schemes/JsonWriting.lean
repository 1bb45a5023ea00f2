import CodexKeyboard.Schemes.JsonText
import CodexKeyboard.Schemes.Encoded

/-! JSON texts from the writer's side: what stands between quotes, put together, and that every text is UTF-8. -/

namespace Schemes.JsonText

open Text

variable {s t : Text} {b more w : Bytes} {byte : UInt8} {c : Char}

/-! ### Strings -/

theorem StringText.append (h : StringText s b) (hmore : StringText t more) : StringText (s ++ t) (b ++ more) := by
  induction h with
  | nil => exact hmore
  | char low quote backslash rest ih =>
    rw [List.append_assoc]
    exact .char low quote backslash ih
  | escape known rest ih => exact .escape known ih
  | @unicode hex c s b digits rest ih =>
    have hassoc : 92 :: 117 :: hex ++ b ++ more = 92 :: 117 :: hex ++ (b ++ more) := List.append_assoc _ _ _
    rw [hassoc]
    exact .unicode digits ih
  | @pair high low m n c s b first second isHigh isLow decoded rest ih =>
    have hassoc : 92 :: 117 :: high ++ 92 :: 117 :: low ++ b ++ more =
        92 :: 117 :: high ++ 92 :: 117 :: low ++ (b ++ more) := List.append_assoc _ _ _
    rw [hassoc]
    exact .pair first second isHigh isLow decoded ih

/-- A character that stands for itself between quotes. -/
def isPlain (c : Char) : Bool := decide (0x20 ≤ c.val.toNat) && c != '"' && c != '\\'

theorem StringText.plain (h : s.all isPlain = true) : StringText s (asBytes s) := by
  induction s with
  | nil => exact .nil
  | cons c s ih =>
    rw [List.all_cons, Bool.and_eq_true] at h
    obtain ⟨hplain, hrest⟩ := h
    simp only [isPlain, Bool.and_eq_true, decide_eq_true_eq, bne_iff_ne, ne_eq] at hplain
    exact .char hplain.1.1 hplain.1.2 hplain.2 (ih hrest)

/-! ### UTF-8 -/

theorem encoded_ascii (h : ∀ byte ∈ b, byte.toNat < 128) : Encoded b := by
  induction b with
  | nil => exact ⟨[], rfl⟩
  | cons byte b ih =>
    have hlow : byte.toNat < 128 := h byte List.mem_cons_self
    obtain ⟨c, hc⟩ : ∃ c : Char, c.val.toNat = byte.toNat :=
      ⟨Char.ofNatAux byte.toNat (.inl (hlow.trans (by decide))), rfl⟩
    have hchar : String.utf8EncodeChar c = [byte] := by
      have hval : c.val ≤ 127 := by
        have hle : c.val.toNat ≤ 127 := by omega
        exact hle
      rw [String.utf8EncodeChar_eq_singleton (ascii_size hval)]
      refine congrArg (· :: []) (UInt8.toNat_inj.1 ?_)
      rw [UInt32.toNat_toUInt8]
      omega
    have hfirst : Encoded [byte] := ⟨[c], by rw [asBytes_cons, asBytes_nil, List.append_nil, hchar]⟩
    exact hfirst.append (ih fun other hother => h other (List.mem_cons_of_mem _ hother))

theorem Hex4.ascii {n : Nat} (h : Hex4 b n) : ∀ byte ∈ b, byte.toNat < 128 := by
  have hdigit {digit : UInt8} {v : Nat} (hvalue : hexValue digit = some v) : digit.toNat < 128 := by
    rw [hexValue] at hvalue
    simp only [UInt8.le_iff_toNat_le] at hvalue
    split at hvalue
    next hrange => exact Nat.lt_of_le_of_lt hrange.2 (by decide)
    next =>
      split at hvalue
      next hrange => exact Nat.lt_of_le_of_lt hrange.2 (by decide)
      next =>
        split at hvalue
        next hrange => exact Nat.lt_of_le_of_lt hrange.2 (by decide)
        next => cases hvalue
  cases h with
  | digits first second third fourth =>
    intro byte hbyte
    simp only [List.mem_cons, List.not_mem_nil, or_false] at hbyte
    rcases hbyte with rfl | rfl | rfl | rfl
    · exact hdigit first
    · exact hdigit second
    · exact hdigit third
    · exact hdigit fourth

theorem escape_ascii {e : UInt8} (h : (e, c) ∈ escapes) : e.toNat < 128 := by
  have hall : escapes.all (fun escape => decide (escape.1.toNat < 128)) = true := by decide
  exact of_decide_eq_true (List.all_eq_true.1 hall _ h)

theorem encoded_cons (hbyte : byte.toNat < 128) (h : Encoded b) : Encoded (byte :: b) :=
  (encoded_ascii (b := [byte]) (by simpa using hbyte)).append h

theorem StringText.encoded (h : StringText s b) : Encoded b := by
  induction h with
  | nil => exact ⟨[], rfl⟩
  | char low quote backslash rest ih =>
    obtain ⟨t, rfl⟩ := ih
    exact ⟨_ :: t, rfl⟩
  | escape known rest ih => exact encoded_cons (by decide) (encoded_cons (escape_ascii known) ih)
  | unicode digits rest ih =>
    exact encoded_cons (by decide) (encoded_cons (by decide) ((encoded_ascii digits.ascii).append ih))
  | @pair high low m n c s b first second isHigh isLow decoded rest ih =>
    have hhigh : Encoded (92 :: 117 :: high) :=
      encoded_cons (by decide) (encoded_cons (by decide) (encoded_ascii first.ascii))
    have hlow : Encoded (92 :: 117 :: low) :=
      encoded_cons (by decide) (encoded_cons (by decide) (encoded_ascii second.ascii))
    exact (hhigh.append hlow).append ih

theorem Space.encoded (h : Space w) : Encoded w := by
  refine encoded_ascii fun byte hbyte => ?_
  have hws := h.ws hbyte
  simp only [isWs, Bool.or_eq_true, beq_iff_eq] at hws
  rcases hws with ((rfl | rfl) | rfl) | rfl <;> decide

theorem scalarByte_high (h : isScalarByte byte = true) : byte.toNat ≤ 117 := by
  rw [isScalarByte, isDigit] at h
  simp only [Bool.or_eq_true, Bool.and_eq_true, decide_eq_true_iff, beq_iff_eq] at h
  rcases h with ((((⟨-, hhigh⟩ | rfl) | rfl) | rfl) | ⟨-, hhigh⟩) | rfl
  · exact Nat.le_trans hhigh (by decide)
  · decide
  · decide
  · decide
  · exact hhigh
  · decide

theorem Scalar.encoded (h : Scalar b) : Encoded b := by
  refine encoded_ascii fun byte hbyte => ?_
  exact (scalarByte_high (List.all_eq_true.1 h.bytes.1 byte hbyte)).trans_lt (by decide)

theorem Derives.encoded {symbol : Symbol} (h : Derives symbol b) : Encoded b := by
  induction h with
  | scalar scalar => exact scalar.encoded
  | string string => exact (encoded_cons (by decide) string.encoded).append (encoded_cons (by decide) ⟨[], rfl⟩)
  | emptyArray space => exact (encoded_cons (by decide) space.encoded).append (encoded_cons (by decide) ⟨[], rfl⟩)
  | array items ih => exact (encoded_cons (by decide) ih).append (encoded_cons (by decide) ⟨[], rfl⟩)
  | emptyObject space => exact (encoded_cons (by decide) space.encoded).append (encoded_cons (by decide) ⟨[], rfl⟩)
  | object body ih => exact (encoded_cons (by decide) ih).append (encoded_cons (by decide) ⟨[], rfl⟩)
  | item left value right ih => exact (left.encoded.append ih).append right.encoded
  | items left value right rest ih ihRest =>
    exact ((left.encoded.append ih).append right.encoded).append (encoded_cons (by decide) ihRest)
  | member left key colonLeft colonRight value right ih =>
    have hkey := left.encoded.append (encoded_cons (by decide : (34 : UInt8).toNat < 128) key.encoded)
    have hcolon := (hkey.append (encoded_cons (by decide : (34 : UInt8).toNat < 128) colonLeft.encoded)).append
      (encoded_cons (by decide : (58 : UInt8).toNat < 128) colonRight.encoded)
    exact (hcolon.append ih).append right.encoded
  | members left key colonLeft colonRight value right rest ih ihRest =>
    have hkey := left.encoded.append (encoded_cons (by decide : (34 : UInt8).toNat < 128) key.encoded)
    have hcolon := (hkey.append (encoded_cons (by decide : (34 : UInt8).toNat < 128) colonLeft.encoded)).append
      (encoded_cons (by decide : (58 : UInt8).toNat < 128) colonRight.encoded)
    exact ((hcolon.append ih).append right.encoded).append (encoded_cons (by decide) ihRest)

theorem Body.encoded {members : List (Text × Bytes)} (h : Body members b) : Encoded b := by
  cases h with
  | empty space => exact space.encoded
  | members body => exact body.encoded

/-- What stands between braces makes a value with them. -/
theorem Body.value {members : List (Text × Bytes)} (h : Body members b) : Derives .value (123 :: b ++ [125]) := by
  cases h with
  | empty space => exact .emptyObject space
  | members body => exact .object body

theorem ObjectText.encoded {members : List (Text × Bytes)} (h : ObjectText members b) : Encoded b := by
  cases h with
  | mk left body right =>
    exact (left.encoded.append (encoded_cons (by decide) body.encoded)).append
      (encoded_cons (by decide) right.encoded)

end Schemes.JsonText
