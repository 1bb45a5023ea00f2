import CodexKeyboard.Config.Payload

/-! The numbers of a payload: a decimal text of any length, and the `int` it is read into. -/

namespace CodexKeyboard.Config

open Schemes Transact

def isDigitByte (byte : UInt8) : Bool := 48 ≤ byte && byte ≤ 57

/-- The value of digits, behind a value that is there. -/
def digitsFrom (value : Nat) (digits : Bytes) : Nat := digits.foldl (fun v byte => v * 10 + (byte.toNat - 48)) value

/-- The magnitude and the sign of a decimal text. -/
def magnitude (text : Bytes) : Nat := digitsFrom 0 (if text.head? = some minus then text.tail else text)

def numeralValue (text : Bytes) : Int := if text.head? = some minus then -(magnitude text : Int) else magnitude text

/-- Digits, with a minus before them or not. -/
def Numeral (text : Bytes) : Prop :=
  ∃ digits, (text = digits ∨ text = minus :: digits) ∧ digits ≠ [] ∧ digits.all isDigitByte = true

variable {digits text raw json : Bytes}

theorem digitsFrom_le (value : Nat) (digits : Bytes) : value ≤ digitsFrom value digits := by
  induction digits generalizing value with
  | nil => exact Nat.le_refl _
  | cons byte digits ih =>
    have hrest := ih (value * 10 + (byte.toNat - 48))
    show value ≤ digitsFrom (value * 10 + (byte.toNat - 48)) digits
    omega

theorem digit_range {byte : UInt8} (h : isDigitByte byte = true) :
    ¬ (byte < 48 ∨ 57 < byte) ∧ 48 ≤ byte.toNat ∧ byte.toNat ≤ 57 := by
  rw [isDigitByte, Bool.and_eq_true, decide_eq_true_iff, decide_eq_true_iff] at h
  refine ⟨?_, h.1, h.2⟩
  rintro (hlow | hhigh)
  · exact absurd hlow (UInt8.not_lt.2 h.1)
  · exact absurd hhigh (UInt8.not_lt.2 h.2)

theorem checkedInt_nat (n : Nat) : checkedInt n = if n < 2 ^ 31 then .ok (n : Int) else .error .overflow := by
  rw [checkedInt]
  by_cases h : n < 2 ^ 31
  · rw [if_pos h, if_pos (by omega)]
  · rw [if_neg h, if_neg (by omega)]

/-- The accumulator holds the value as long as it fits, and its last step tells whether it ever did not. -/
theorem intValueLoop_digits (digits : Bytes) (value : Nat) (hdigits : digits.all isDigitByte = true)
    (h : value < 2 ^ 31) :
    intValueLoop digits value =
      if digitsFrom value digits < 2 ^ 31 then .ok (some (digitsFrom value digits : Int)) else .error .overflow := by
  induction digits generalizing value with
  | nil =>
    rw [show digitsFrom value [] = value from rfl, if_pos h]
    rfl
  | cons byte digits ih =>
    rw [List.all_cons, Bool.and_eq_true] at hdigits
    obtain ⟨hin, hlow, hhigh⟩ := digit_range hdigits.1
    have hscaled : (value : Int) * 10 = ((value * 10 : Nat) : Int) := by omega
    have hnext : ((value * 10 : Nat) : Int) + ((byte.toNat : Int) - 48) =
        ((value * 10 + (byte.toNat - 48) : Nat) : Int) := by
      omega
    have hle := digitsFrom_le (value * 10 + (byte.toNat - 48)) digits
    have hvalue : digitsFrom value (byte :: digits) = digitsFrom (value * 10 + (byte.toNat - 48)) digits := rfl
    rw [intValueLoop, if_neg hin, hscaled, checkedInt_nat, hvalue]
    by_cases hten : value * 10 < 2 ^ 31
    · rw [if_pos hten, ok_bind, hnext, checkedInt_nat]
      by_cases hsum : value * 10 + (byte.toNat - 48) < 2 ^ 31
      · rw [if_pos hsum, ok_bind]
        exact ih _ hdigits.2 hsum
      · rw [if_neg hsum, if_neg (by omega)]
        rfl
    · rw [if_neg hten, if_neg (by omega)]
      rfl

/-- A decimal text is read exactly, or overflows. -/
theorem intValue_numeral (h : Numeral text) (htrim : trim raw = text) :
    intValue raw = if magnitude text < 2 ^ 31 then .ok (some (numeralValue text)) else .error .overflow := by
  obtain ⟨digits, htext, hne, hdigits⟩ := h
  have hloop := intValueLoop_digits digits 0 hdigits (by decide)
  obtain ⟨first, rest, rfl⟩ := List.exists_cons_of_ne_nil hne
  rw [intValue, htrim]
  rcases htext with rfl | rfl
  · have hfirst : ((first :: rest).head? == some minus) = false := by
      refine Bool.eq_false_iff.2 fun heq => ?_
      rw [List.head?_cons, beq_iff_eq] at heq
      rw [Option.some.inj heq] at hdigits
      exact absurd hdigits (by simp [isDigitByte, minus])
    have hhead : ¬ (first :: rest).head? = some minus := by simpa using hfirst
    have hmagnitude : magnitude (first :: rest) = digitsFrom 0 (first :: rest) := by rw [magnitude, if_neg hhead]
    have hvalue : numeralValue (first :: rest) = digitsFrom 0 (first :: rest) := by
      rw [numeralValue, if_neg hhead, hmagnitude]
    rw [hmagnitude, hvalue, hfirst, if_neg (by simp), if_neg (by simp)]
    show (intValueLoop (first :: rest) (0 : Nat) >>= _) = _
    rw [hloop]
    by_cases hfits : digitsFrom 0 (first :: rest) < 2 ^ 31
    · rw [if_pos hfits, ok_bind]
      dsimp only
      rw [if_neg (by decide), Int.mul_one, checkedInt_nat, if_pos hfits, ok_bind]
    · rw [if_neg hfits]
      rfl
  · have hhead : (minus :: first :: rest).head? = some minus := rfl
    have hmagnitude : magnitude (minus :: first :: rest) = digitsFrom 0 (first :: rest) := by
      rw [magnitude, if_pos hhead, List.tail_cons]
    have hvalue : numeralValue (minus :: first :: rest) = -(digitsFrom 0 (first :: rest) : Int) := by
      rw [numeralValue, if_pos hhead, hmagnitude]
    rw [hmagnitude, hvalue, hhead,
      show ((some minus == some minus) : Bool) = true from by decide, if_pos rfl, List.tail_cons, if_neg (by simp)]
    show (intValueLoop (first :: rest) (0 : Nat) >>= _) = _
    rw [hloop]
    by_cases hfits : digitsFrom 0 (first :: rest) < 2 ^ 31
    · rw [if_pos hfits, if_pos hfits, ok_bind]
      dsimp only
      have hnegative : checkedInt ((digitsFrom 0 (first :: rest) : Int) * -1) =
          .ok (-(digitsFrom 0 (first :: rest) : Int)) := by
        rw [checkedInt, if_pos (by omega), Int.mul_neg_one]
      rw [if_pos rfl, hnegative, ok_bind]
    · rw [if_neg hfits, if_neg hfits]
      rfl

/-! ### Numbers in a payload -/

/-- A number that every check of its field accepts. -/
def sampleNumber : NumberField → Int
  | .audioPort => 1024
  | _ => 1

/-- One number is taken for one that is accepted. -/
def withSample (number : NumberField) : ReadInt := fun field raw =>
  if field = number then .ok (some (sampleNumber number)) else intValue raw

/-- Nothing but the number can make the payload fail. -/
def OtherwiseValid (json : Bytes) (number : NumberField) : Prop :=
  ∃ config, parseConfigPayloadWith (withSample number) json = .ok config

/-- The text that stands for a number. -/
def RawNumber (json : Bytes) (raw : Bytes) : NumberField → Prop
  | .audioPort => fieldOf json "audio_port" = .ok (some raw)
  | .speakerSyncKeyEpoch => fieldOf json "speaker_sync_key_epoch" = .ok (some raw)
  | .scrollSpeed => ∃ profile scroll, parseProfile json = .ok profile ∧ fieldOf profile.2 "scroll" = .ok (some scroll) ∧
      fieldOf scroll "speed" = .ok (some raw)

/-- No operation leaves the range of `int`, and the number is accepted and stored as it is written. -/
structure NumberExact (json raw text : Bytes) (number : NumberField) : Prop where
  inRange : intValue raw ≠ .error .overflow
  port : number = .audioPort →
    ((∃ config, parseConfigPayload json = .ok config) ↔ 1024 ≤ numeralValue text ∧ numeralValue text ≤ 65535) ∧
      ∀ config, parseConfigPayload json = .ok config → config.audioPort = numeralValue text
  epoch : number = .speakerSyncKeyEpoch →
    ((∃ config, parseConfigPayload json = .ok config) ↔ 1 ≤ numeralValue text ∧ numeralValue text ≤ 65535) ∧
      ∀ config, parseConfigPayload json = .ok config → (config.speakerSyncKeyEpoch : Int) = numeralValue text

theorem parseScroll_congr {int other : ReadInt} (h : int .scrollSpeed = other .scrollSpeed) (encoder : Bytes) :
    parseEncoderScrollConfig int encoder = parseEncoderScrollConfig other encoder := by
  have hint : intOf int .scrollSpeed = intOf other .scrollSpeed := by
    funext raw
    rw [intOf, intOf, h]
  simp only [parseEncoderScrollConfig, parseScrollFields, hint]

theorem parseSync_congr {int other : ReadInt} (h : int .speakerSyncKeyEpoch = other .speakerSyncKeyEpoch)
    (json : Bytes) : parseSpeakerSync int json = parseSpeakerSync other json := by
  simp only [parseSpeakerSync, h]

theorem parsePort_congr {int other : ReadInt} (h : int .audioPort = other .audioPort) (json : Bytes) :
    parseAudioPort int json = parseAudioPort other json := by
  have hint : intOf int .audioPort = intOf other .audioPort := by
    funext raw
    rw [intOf, intOf, h]
  simp only [parseAudioPort, hint]

theorem withSample_other {number field : NumberField} (h : field ≠ number) :
    withSample number field = fun raw => intValue raw := by
  funext raw
  rw [withSample, if_neg h]

theorem withSample_self (number : NumberField) (raw : Bytes) :
    withSample number number raw = .ok (some (sampleNumber number)) := by
  rw [withSample, if_pos rfl]

/-- The port is the only thing a payload takes from its reader of ports. -/
theorem parse_port {int other : ReadInt} {config : ParsedKeyboardConfig}
    (h : parseConfigPayloadWith other json = .ok config)
    (hepoch : int .speakerSyncKeyEpoch = other .speakerSyncKeyEpoch)
    (hspeed : int .scrollSpeed = other .scrollSpeed) :
    parseConfigPayloadWith int json = (parseAudioPort int json).map fun port => { config with audioPort := port } := by
  rw [parseConfigPayloadWith] at h ⊢
  simp only [bind_ok] at h
  obtain ⟨platform, hplatform, _, hschema, _, hlegacy, network, hnetwork, port, hport, sync, hsync, enabled,
    henabled, ptt, hptt, editPtt, hedit, mode, hmode, profile, hprofile, keys, hkeys, encoder,
    hencoder, scroll, hscroll, hconfig⟩ := h
  cases hconfig
  rw [hplatform, ok_bind, hschema, ok_bind, hlegacy, ok_bind, hnetwork, ok_bind]
  cases parseAudioPort int json with
  | error e => rfl
  | ok port' =>
    rw [ok_bind, parseSync_congr hepoch, hsync, ok_bind, henabled, ok_bind, hptt, ok_bind, hedit,
      ok_bind, hmode, ok_bind,
      hprofile, ok_bind, hkeys, ok_bind, hencoder, ok_bind, parseScroll_congr hspeed, hscroll, ok_bind]
    rfl

/-- The key and the epoch are the only things a payload takes from its reader of epochs. -/
theorem parse_sync {int other : ReadInt} {config : ParsedKeyboardConfig}
    (h : parseConfigPayloadWith other json = .ok config) (hport : int .audioPort = other .audioPort)
    (hspeed : int .scrollSpeed = other .scrollSpeed) :
    parseConfigPayloadWith int json = (parseSpeakerSync int json).map fun sync =>
      { config with speakerSyncKey := sync.1, speakerSyncKeyEpoch := sync.2 } := by
  rw [parseConfigPayloadWith] at h ⊢
  simp only [bind_ok] at h
  obtain ⟨platform, hplatform, _, hschema, _, hlegacy, network, hnetwork, port, hport', sync, hsync, enabled,
    henabled, ptt, hptt, editPtt, hedit, mode, hmode, profile, hprofile, keys, hkeys, encoder,
    hencoder, scroll, hscroll, hconfig⟩ := h
  cases hconfig
  rw [hplatform, ok_bind, hschema, ok_bind, hlegacy, ok_bind, hnetwork, ok_bind, parsePort_congr hport, hport', ok_bind]
  cases parseSpeakerSync int json with
  | error e => rfl
  | ok sync' =>
    rw [ok_bind, henabled, ok_bind, hptt, ok_bind, hedit, ok_bind, hmode, ok_bind, hprofile, ok_bind, hkeys, ok_bind,
      hencoder, ok_bind, parseScroll_congr hspeed, hscroll, ok_bind]
    rfl

theorem parsePort_raw {int : ReadInt} (h : fieldOf json "audio_port" = .ok (some raw)) :
    parseAudioPort int json = (intOf int .audioPort raw >>= fun port =>
      if isValidAudioPort port = true then .ok port else reject .invalidJson) := by
  rw [parseAudioPort, h, ok_bind]

/-- A payload whose port is a number that fits. -/
theorem parse_fitting_port {config : ParsedKeyboardConfig} {value : Int}
    (h : parseConfigPayloadWith (withSample .audioPort) json = .ok config)
    (hraw : fieldOf json "audio_port" = .ok (some raw)) (hvalue : intValue raw = .ok (some value)) :
    parseConfigPayload json = if 1024 ≤ value ∧ value ≤ 65535 then .ok { config with audioPort := value }
      else reject .invalidJson := by
  have hint : intOf (fun _ => intValue) .audioPort raw = .ok value := by
    rw [intOf, hvalue]
    rfl
  have hvalid : isValidAudioPort value = true ↔ 1024 ≤ value ∧ value ≤ 65535 := by
    rw [isValidAudioPort, Bool.and_eq_true, decide_eq_true_iff, decide_eq_true_iff]
  rw [parseConfigPayload, parse_port h (withSample_other (by decide)).symm (withSample_other (by decide)).symm,
    parsePort_raw hraw, hint, ok_bind]
  by_cases hrange : 1024 ≤ value ∧ value ≤ 65535
  · rw [if_pos (hvalid.2 hrange), if_pos hrange]
    rfl
  · rw [if_neg (fun h => hrange (hvalid.1 h)), if_neg hrange]
    rfl

theorem parse_fitting_epoch {config : ParsedKeyboardConfig} {value : Int}
    (h : parseConfigPayloadWith (withSample .speakerSyncKeyEpoch) json = .ok config)
    (hraw : fieldOf json "speaker_sync_key_epoch" = .ok (some raw)) (hvalue : intValue raw = .ok (some value)) :
    ∃ key, parseConfigPayload json = if 1 ≤ value ∧ value ≤ 65535 then
      .ok { config with speakerSyncKey := key, speakerSyncKeyEpoch := value.toNat } else reject .invalidJson := by
  have hsample := h
  rw [parse_sync h rfl rfl] at hsample
  obtain ⟨sync, hsync, -⟩ : ∃ sync, parseSpeakerSync (withSample .speakerSyncKeyEpoch) json = .ok sync ∧ True := by
    cases hsync : parseSpeakerSync (withSample .speakerSyncKeyEpoch) json with
    | error e =>
      rw [hsync] at hsample
      cases hsample
    | ok sync => exact ⟨sync, rfl, trivial⟩
  rw [parseSpeakerSync, hraw] at hsync
  cases hkey : fieldOf json "speaker_sync_key" with
  | error e =>
    rw [hkey] at hsync
    cases hsync
  | ok keyRaw =>
    rw [hkey, ok_bind, ok_bind] at hsync
    cases keyRaw with
    | none => cases hsync
    | some keyRaw =>
      dsimp only at hsync
      cases hstring : reading (stringValue keyRaw) with
      | error e =>
        rw [hstring] at hsync
        cases hsync
      | ok key =>
        rw [hstring, ok_bind, withSample_self] at hsync
        cases key with
        | none => cases hsync
        | some key =>
          have hkeyValid : isValidSpeakerSyncKey key = true := by
            cases hkeyValid : isValidSpeakerSyncKey key with
            | true => rfl
            | false =>
              replace hsync : (if (!isValidSpeakerSyncKey key || decide ((1 : Int) ≤ 0) ||
                  decide (65535 < (1 : Int))) = true
                then reject .invalidJson else .ok (key, Int.toNat 1)) = .ok sync := hsync
              rw [hkeyValid] at hsync
              cases hsync
          refine ⟨key, ?_⟩
          rw [parseConfigPayload, parse_sync h (withSample_other (by decide)).symm (withSample_other (by decide)).symm,
            parseSpeakerSync, hraw, hkey, ok_bind, ok_bind]
          dsimp only
          rw [hstring, ok_bind, hvalue]
          show Except.map _ (if (!isValidSpeakerSyncKey key || decide (value ≤ 0) || decide (65535 < value)) = true then
            reject .invalidJson else .ok (key, value.toNat)) = _
          rw [hkeyValid]
          by_cases hrange : 1 ≤ value ∧ value ≤ 65535
          · rw [if_pos hrange, if_neg (by simp; omega)]
            rfl
          · rw [if_neg hrange, if_pos (by simp; omega)]
            rfl

theorem accepted_iff {range : Prop} [Decidable range] {config : ParsedKeyboardConfig}
    (h : parseConfigPayload json = if range then .ok config else reject .invalidJson) :
    ((∃ config, parseConfigPayload json = .ok config) ↔ range) ∧
      ∀ other, parseConfigPayload json = .ok other → other = config := by
  rw [h]
  by_cases hrange : range
  · rw [if_pos hrange]
    exact ⟨iff_of_true ⟨config, rfl⟩ hrange, fun other hother => by cases hother; rfl⟩
  · rw [if_neg hrange]
    refine ⟨iff_of_false ?_ hrange, ?_⟩
    · rintro ⟨config, hconfig⟩
      cases hconfig
    · rintro other hother
      cases hother

/-- A number of a payload is handled exactly as long as its magnitude fits an `int`. -/
theorem config_number_exact (json raw text : Bytes) (number : NumberField) (hraw : RawNumber json raw number)
    (htrim : trim raw = text) (hnumeral : Numeral text) (hvalid : OtherwiseValid json number) :
    NumberExact json raw text number ↔ magnitude text < 2 ^ 31 := by
  have hread := intValue_numeral hnumeral htrim
  constructor
  · rintro hexact
    by_contra hlarge
    rw [if_neg hlarge] at hread
    exact hexact.inRange hread
  · rintro hfits
    rw [if_pos hfits] at hread
    obtain ⟨config, hconfig⟩ := hvalid
    refine ⟨?_, ?_, ?_⟩
    · rw [hread]
      exact fun h => by cases h
    · rintro rfl
      have haccepted := accepted_iff (parse_fitting_port hconfig hraw hread)
      refine ⟨haccepted.1, ?_⟩
      rintro other hother
      rw [haccepted.2 other hother]
    · rintro rfl
      obtain ⟨key, hparsed⟩ := parse_fitting_epoch hconfig hraw hread
      have haccepted := accepted_iff hparsed
      refine ⟨haccepted.1, ?_⟩
      rintro other hother
      have hrange := haccepted.1.1 ⟨other, hother⟩
      rw [haccepted.2 other hother]
      exact Int.toNat_of_nonneg (by omega)

namespace NumberSample

/-- Every key and the encoder are disabled. -/
def profiles : Bytes :=
  ascii ",\"profiles\":[\x7b\"keys\":\x7b" ++
    (List.intersperse (ascii ",") (keyNames.map fun name =>
      ascii "\"" ++ ascii name ++ ascii "\":\x7b\"press\":\"disabled\"\x7d")).flatten ++
    ascii "\x7d,\"encoder\":\x7b\"left\":\"disabled\",\"right\":\"disabled\",\"press\":\"disabled\"\x7d\x7d]\x7d"

def payload (port : String) : Bytes :=
  ascii "\x7b\"schema\":\"ai_keyboard.v1\",\"audio_port\":" ++ ascii port ++ profiles

theorem accepted {r : Except Stop ParsedKeyboardConfig} (h : r.isOk = true) : ∃ config, r = .ok config := by
  cases r with
  | error e => cases h
  | ok config => exact ⟨config, rfl⟩

theorem rawPort {json raw : Bytes} (h : fieldOf json "audio_port" = .ok (some raw)) : RawNumber json raw .audioPort := h

theorem numeral (port : String) (h : (ascii port).all isDigitByte = true) (hne : ascii port ≠ []) :
    Numeral (ascii port) := ⟨ascii port, .inl rfl, hne, h⟩

end NumberSample

/-- A port of ten digits leaves the range of `int`. -/
theorem config_number_overflows : ¬ ∀ (json raw text : Bytes) (number : NumberField), RawNumber json raw number →
    trim raw = text → Numeral text → OtherwiseValid json number → NumberExact json raw text number := by
  rintro hall
  have hexact := hall (NumberSample.payload "4294984629") (ascii "4294984629") (ascii "4294984629") .audioPort
    (NumberSample.rawPort (by decide +kernel)) (by decide +kernel)
    (NumberSample.numeral _ (by decide +kernel) (by decide +kernel))
    (NumberSample.accepted (by decide +kernel))
  exact hexact.inRange (by decide +kernel)

theorem config_number_exact_default :
    NumberExact (NumberSample.payload "17333") (ascii "17333") (ascii "17333") .audioPort ↔
      magnitude (ascii "17333") < 2 ^ 31 :=
  config_number_exact _ _ _ .audioPort (NumberSample.rawPort (by decide +kernel)) (by decide +kernel)
    (NumberSample.numeral _ (by decide +kernel) (by decide +kernel)) (NumberSample.accepted (by decide +kernel))

end CodexKeyboard.Config
