import CodexKeyboard.Provisioning.LanPayload

/-! The keyboard reads the payload of an accepted `LanProvisioning` as it was meant. -/

namespace CodexKeyboard.Provisioning

open Schemes Text Transact JsonText Config Observer

variable {w : List UInt8}

/-! ### Numbers and words -/

theorem trim_plain {b : List UInt8} (hb : ∀ byte ∈ b, isSpace byte = false) (hw : Space w) : trim (b ++ w) = b := by
  have hspace : ∀ byte ∈ w.reverse, isSpace byte = true := fun byte hbyte => ws_space (hw.ws (List.mem_reverse.1 hbyte))
  have hself : b.reverse.dropWhile isSpace = b.reverse := by
    refine List.dropWhile_eq_self_iff.2 fun hlength => ?_
    rw [hb _ (List.mem_reverse.1 (List.getElem_mem _))]
    decide
  cases b with
  | nil =>
    have hdrop : w.dropWhile isSpace = [] := List.dropWhile_eq_nil_iff.2 fun byte hbyte => ws_space (hw.ws hbyte)
    rw [trim, List.nil_append, hdrop]
    rfl
  | cons first b =>
    rw [trim, List.cons_append, List.dropWhile_cons_of_neg (by rw [hb first List.mem_cons_self]; decide),
      ← List.cons_append, List.rdropWhile, List.reverse_append, List.dropWhile_append_of_pos hspace, hself,
      List.reverse_reverse]

/-- What the decimal digits of a number are. -/
structure Decimal (n : Nat) (digits : List UInt8) : Prop where
  decimal : digits.all isDigitByte = true
  nonempty : digits ≠ []
  first : 0 < n → digits.head? ≠ some 48
  value : digitsFrom 0 digits = n

theorem digitChar_byte : ∀ n < 10, asBytes [Nat.digitChar n] = [UInt8.ofNat (48 + n)] ∧
    isDigitByte (UInt8.ofNat (48 + n)) = true ∧ (UInt8.ofNat (48 + n)).toNat - 48 = n ∧
    (0 < n → UInt8.ofNat (48 + n) ≠ 48) := by
  decide

theorem decimal_toDigits (n : Nat) : Decimal n (asBytes (Nat.toDigits 10 n)) := by
  induction n using Nat.strongRecOn with
  | ind n ih =>
    by_cases hlow : n < 10
    · obtain ⟨hchar, hdigit, hvalue, hzero⟩ := digitChar_byte n hlow
      rw [Nat.toDigits_of_lt_base hlow, hchar]
      refine ⟨by rw [List.all_cons, hdigit]; rfl, List.cons_ne_nil _ _, fun hn h => hzero hn (Option.some.inj h), ?_⟩
      rw [digitsFrom, List.foldl_cons, hvalue, Nat.zero_mul, Nat.zero_add]
      rfl
    · have hrest := ih (n / 10) (by omega)
      obtain ⟨hchar, hdigit, hvalue, -⟩ := digitChar_byte (n % 10) (Nat.mod_lt _ (by decide))
      rw [Nat.toDigits_of_base_le (show 1 < 10 by decide) (show 10 ≤ n by omega), asBytes_append, hchar]
      refine ⟨?_, by simp, fun _ => ?_, ?_⟩
      · rw [List.all_append, hrest.decimal, List.all_cons, hdigit]
        rfl
      · obtain ⟨first, tail, htail⟩ := List.exists_cons_of_ne_nil hrest.nonempty
        have hfirst := hrest.first (by omega)
        rw [htail] at hfirst ⊢
        exact hfirst
      · rw [digitsFrom, List.foldl_append,
          show List.foldl _ 0 (asBytes (Nat.toDigits 10 (n / 10))) = n / 10 from hrest.value,
          List.foldl_cons, hvalue, List.foldl_nil, Nat.mul_comm]
        exact Nat.div_add_mod n 10

/-- A number is written as JSON has it. -/
theorem derives_toDigits {n : Nat} (hn : 0 < n) : Derives .value (asBytes (Nat.toDigits 10 n)) := by
  have hdecimal := decimal_toDigits n
  obtain ⟨first, rest, hdigits⟩ := List.exists_cons_of_ne_nil hdecimal.nonempty
  have hall := hdecimal.decimal
  have hfirst := hdecimal.first hn
  rw [hdigits, List.all_cons, Bool.and_eq_true] at hall
  rw [hdigits] at hfirst ⊢
  have hint : IntPart (first :: rest) := .nonzero hall.1 (fun h => hfirst (congrArg some h)) hall.2
  have hscalar : Scalar ([] ++ (first :: rest) ++ [] ++ []) := .number (.inl rfl) hint .none .none
  rw [List.nil_append, List.append_nil, List.append_nil] at hscalar
  exact .scalar hscalar

theorem digit_space {byte : UInt8} (h : isDigitByte byte = true) : isSpace byte = false := by
  have hrange := (digit_range h).2.1
  rw [isSpace, Bool.or_eq_false_iff, Bool.and_eq_false_iff]
  refine ⟨beq_eq_false_iff_ne.2 ?_, .inr (decide_eq_false ?_)⟩
  · rintro rfl
    exact absurd hrange (by decide)
  · rw [UInt8.le_iff_toNat_le]
    have hhigh : (13 : UInt8).toNat = 13 := rfl
    omega

/-- A number below the range of `int` is read as it was written. -/
theorem intValue_written {n : Nat} (hn : n < 2 ^ 31) (hw : Space w) :
    intValue (asBytes (Nat.toDigits 10 n) ++ w) = .ok (some (n : Int)) := by
  have hdecimal := decimal_toDigits n
  have hdigits := List.all_eq_true.1 hdecimal.decimal
  have htrim := trim_plain (fun byte hbyte => digit_space (hdigits byte hbyte)) hw
  have hsign : (asBytes (Nat.toDigits 10 n)).head? ≠ some minus := by
    rintro hhead
    have hminus := hdigits minus (List.mem_of_mem_head? hhead)
    exact absurd hminus (by decide)
  have hmagnitude : magnitude (asBytes (Nat.toDigits 10 n)) = n := by
    rw [magnitude, if_neg hsign]
    exact hdecimal.value
  have hnumeral : Numeral (asBytes (Nat.toDigits 10 n)) := ⟨_, .inl rfl, hdecimal.nonempty, hdecimal.decimal⟩
  rw [intValue_numeral hnumeral htrim, hmagnitude, if_pos hn, numeralValue, if_neg hsign, hmagnitude]

theorem boolOf_true (hw : Space w) : boolOf (asBytes "true".toList ++ w) = .ok true := by
  have htrim : trim (asBytes "true".toList ++ w) = asBytes "true".toList := trim_plain (by decide +kernel) hw
  rw [boolOf, boolValue, htrim, if_pos (by decide +kernel)]
  rfl

/-! ### The secret -/

theorem hexByte : ∀ n < 16, asBytes [Store.hexChar n] = [(Store.hexChar n).val.toUInt8] ∧
    hexDigitValue (Store.hexChar n).val.toUInt8 = some n := by
  decide

theorem asBytes_hexEncode (byte : UInt8) (bytes : List UInt8) : asBytes (hexEncode (byte :: bytes)) =
    (Store.hexChar (byte.toNat / 16)).val.toUInt8 :: (Store.hexChar (byte.toNat % 16)).val.toUInt8 ::
      asBytes (hexEncode bytes) := by
  have hlt := byte.toNat_lt
  have hhigh := (hexByte (byte.toNat / 16) (by omega)).1
  have hlow := (hexByte (byte.toNat % 16) (by omega)).1
  show asBytes ([Store.hexChar (byte.toNat / 16)] ++ ([Store.hexChar (byte.toNat % 16)] ++ hexEncode bytes)) = _
  rw [asBytes_append, asBytes_append, hhigh, hlow]
  rfl

theorem hexEncode_digits (bytes : List UInt8) :
    (asBytes (hexEncode bytes)).length = 2 * bytes.length ∧
      (asBytes (hexEncode bytes)).all (fun byte => (hexDigitValue byte).isSome) = true ∧
      (bytes.all (· == 0) = false →
        (asBytes (hexEncode bytes)).any (fun byte => hexDigitValue byte != some 0) = true) := by
  induction bytes with
  | nil => exact ⟨rfl, rfl, fun h => nomatch h⟩
  | cons byte bytes ih =>
    have hlt := byte.toNat_lt
    have hhigh := (hexByte (byte.toNat / 16) (by omega)).2
    have hlow := (hexByte (byte.toNat % 16) (by omega)).2
    rw [asBytes_hexEncode]
    refine ⟨by simp only [List.length_cons, ih.1]; omega,
      by simp only [List.all_cons, hhigh, hlow, ih.2.1]; rfl, fun hzero => ?_⟩
    rw [List.any_cons, List.any_cons, hhigh, hlow]
    by_cases hbyte : byte = 0
    · subst hbyte
      rw [ih.2.2 hzero, Bool.or_true, Bool.or_true]
    · have hne : byte.toNat ≠ 0 := fun h => hbyte (UInt8.toNat_inj.1 h)
      have hsome : byte.toNat / 16 ≠ 0 ∨ byte.toNat % 16 ≠ 0 := by omega
      rcases hsome with h | h
      · simp [h]
      · simp [h]

theorem validKey_hexEncode {secret : List UInt8} (hlength : secret.length = 32)
    (hzero : secret.all (· == 0) = false) : isValidSpeakerSyncKey (asBytes (hexEncode secret)) = true := by
  obtain ⟨hsize, hall, hany⟩ := hexEncode_digits secret
  rw [isValidSpeakerSyncKey, hsize, hlength, hall, hany hzero]
  rfl

/-! ### The payload -/

/-- What its types say of an accepted `LanProvisioning`, and what `new` checks of it. -/
structure LanProvisioning.Accepted (provisioning : LanProvisioning) : Prop where
  ssid : provisioning.ssid ≠ []
  portLow : 1024 ≤ provisioning.port
  portHigh : provisioning.port < 2 ^ 16
  secret : provisioning.deviceSecret.length = 32
  nonzero : provisioning.deviceSecret.all (· == 0) = false

variable {provisioning : LanProvisioning}

theorem profile_values : ∀ member ∈ LanProvisioning.profileMembers, Derives .value (asBytes member.2) := by
  rintro member hmember
  rw [LanProvisioning.profileMembers] at hmember
  simp only [List.mem_cons, List.not_mem_nil, or_false] at hmember
  rcases hmember with rfl | rfl | rfl
  · exact derives_string _
  · exact derives_object (by simp [keyNames]) (derives_const derives_press)
  · exact derives_object (by simp [encoderNames]) (derives_const (derives_string _))

theorem profile_object (hw : Space w) :
    ObjectText (written LanProvisioning.profileMembers) (asBytes LanProvisioning.profile ++ w) :=
  objectText_written (by simp [LanProvisioning.profileMembers]) profile_values hw

theorem asBytes_profiles : asBytes (jsonArray [LanProvisioning.profile]) =
    91 :: ([] ++ asBytes LanProvisioning.profile ++ []) ++ [93] := by
  have hsingle : List.intercalate [','] [LanProvisioning.profile] = LanProvisioning.profile := by
    simp [List.intercalate]
  rw [jsonArray, hsingle, List.cons_append, asBytes_ascii (by decide), asBytes_append, List.nil_append, List.append_nil]
  rfl

theorem profile_items :
    Derives (.items [asBytes LanProvisioning.profile]) ([] ++ asBytes LanProvisioning.profile ++ []) :=
  .item .nil (derives_object (by simp [LanProvisioning.profileMembers]) profile_values) .nil

/-- The profiles are an array of one object. -/
theorem firstArrayValue_profiles (hw : Space w) : ∃ w', Space w' ∧
    firstArrayValue (asBytes (jsonArray [LanProvisioning.profile]) ++ w) =
      .ok (some (asBytes LanProvisioning.profile ++ w')) := by
  have harray : ArrayText [asBytes LanProvisioning.profile]
      ([] ++ 91 :: ([] ++ asBytes LanProvisioning.profile ++ []) ++ 93 :: w) := .mk .nil (.items profile_items) hw
  obtain ⟨r, hr, w', hw', rfl⟩ := firstArrayValue_text harray
  refine ⟨w', hw', ?_⟩
  rw [asBytes_profiles, ← hr]
  simp

theorem derives_true : Derives .value (asBytes "true".toList) := by
  have hword : asBytes "true".toList = [116, 114, 117, 101] := by decide +kernel
  rw [hword]
  exact .scalar .trueWord

theorem members_values (h : provisioning.Accepted) :
    ∀ member ∈ provisioning.members, Derives .value (asBytes member.2) := by
  rintro member hmember
  rw [LanProvisioning.members] at hmember
  simp only [List.mem_cons, List.not_mem_nil, or_false] at hmember
  have hlow := h.portLow
  have hone : ['1'] = Nat.toDigits 10 1 := by decide
  rcases hmember with rfl | rfl | rfl | rfl | rfl | rfl | rfl | rfl | rfl | rfl
  · exact derives_string _
  · exact derives_string _
  · exact derives_string _
  · exact derives_string _
  · exact derives_string _
  · exact @derives_toDigits provisioning.port (by omega)
  · exact derives_true
  · exact derives_string _
  · rw [hone]
    exact @derives_toDigits 1 (by decide)
  · rw [asBytes_profiles]
    exact .array profile_items

theorem payload_object (h : provisioning.Accepted) :
    ObjectText (written provisioning.members) (asBytes (jsonObject provisioning.members)) := by
  have hobject := objectText_written (by simp [LanProvisioning.members]) (members_values h) Space.nil
  rwa [List.append_nil] at hobject

/-! ### The stages of the parser -/

theorem orReject_some {α : Type} (status : Config.ConfigParseStatus) (a : α) :
    orReject status (some a) = .ok a := rfl

section Stages

variable {json : List UInt8} (h : ObjectText (written provisioning.members) json)
include h

theorem absent {α : Type} {name : String} (parse : List UInt8 → Except Config.Stop α) (hascii : isAscii name = true)
    (hnone : provisioning.members.lookup name = none) : optionally json name parse = .ok none :=
  optionally_none h hascii hnone parse

theorem parseSchema_written : parseSchema json = .ok () := by
  obtain ⟨w, hw, hfield⟩ :=
    @fieldOf_some _ _ "schema" (jsonWord "ai_keyboard.v1") h (isAscii_field (by simp [fieldNames]))
    (by simp [LanProvisioning.members])
  have hschema : asBytes "ai_keyboard.v1".toList = ascii "ai_keyboard.v1" := by decide +kernel
  rw [parseSchema, hfield, ok_bind, orReject_some, ok_bind, jsonWord, stringValue_written _ hw, hschema]
  rfl

theorem parseLegacySources_written : parseLegacySources json = .ok () := by
  rw [parseLegacySources,
    absent h _ (isAscii_field (by simp [fieldNames])) (by simp [LanProvisioning.members, List.lookup_cons]), ok_bind,
    absent h _ (isAscii_field (by simp [fieldNames])) (by simp [LanProvisioning.members, List.lookup_cons]), ok_bind]

theorem parseNetwork_written : parseNetwork json =
    .ok ⟨asBytes provisioning.ssid, asBytes provisioning.password, asBytes provisioning.host.toText⟩ := by
  have hssid := @optionally_string _ _ "wifi_ssid" provisioning.ssid h (isAscii_field (by simp [fieldNames]))
    (by simp [LanProvisioning.members, List.lookup_cons])
  have hpassword :=
    @optionally_string _ _ "wifi_password" provisioning.password h (isAscii_field (by simp [fieldNames]))
    (by simp [LanProvisioning.members, List.lookup_cons])
  have hhost := @optionally_string _ _ "audio_host" provisioning.host.toText h (isAscii_field (by simp [fieldNames]))
    (by simp [LanProvisioning.members, List.lookup_cons])
  rw [parseNetwork, hssid, ok_bind, hpassword, ok_bind, hhost, ok_bind]
  rfl

theorem parseAudioPort_written (hlow : 1024 ≤ provisioning.port) (hhigh : provisioning.port < 2 ^ 16) :
    parseAudioPort (fun _ => intValue) json = .ok (provisioning.port : Int) := by
  obtain ⟨w, hw, hfield⟩ := @fieldOf_some _ _ "audio_port" (Nat.toDigits 10 provisioning.port)
    h (isAscii_field (by simp [fieldNames]))
    (by simp [LanProvisioning.members, List.lookup_cons])
  have hvalid : isValidAudioPort (provisioning.port : Int) = true := by
    rw [isValidAudioPort, Bool.and_eq_true, decide_eq_true_iff, decide_eq_true_iff]
    omega
  rw [parseAudioPort, hfield, ok_bind]
  dsimp only
  rw [intOf, intValue_written (by omega) hw, reading_ok, ok_bind]
  show (Except.ok (provisioning.port : Int) >>= _) = _
  rw [ok_bind, if_pos hvalid]

theorem parseSpeakerSync_written (hlength : provisioning.deviceSecret.length = 32)
    (hzero : provisioning.deviceSecret.all (· == 0) = false) :
    parseSpeakerSync (fun _ => intValue) json = .ok (asBytes (hexEncode provisioning.deviceSecret), 1) := by
  obtain ⟨w, hw, hkey⟩ := @fieldOf_some _ _ "speaker_sync_key" (jsonString (hexEncode provisioning.deviceSecret)) h
    (isAscii_field (by simp [fieldNames])) (by simp [LanProvisioning.members, List.lookup_cons])
  obtain ⟨w', hw', hepoch⟩ := @fieldOf_some _ _ "speaker_sync_key_epoch" (Nat.toDigits 10 1) h
    (isAscii_field (by simp [fieldNames])) (by simp [LanProvisioning.members, List.lookup_cons]; decide)
  rw [parseSpeakerSync, hkey, ok_bind, hepoch, ok_bind]
  dsimp only
  rw [stringValue_written _ hw, reading_ok, ok_bind, intValue_written (by decide) hw', reading_ok, ok_bind]
  dsimp only
  rw [validKey_hexEncode hlength hzero]
  rfl

theorem audioEnabled_written : optionally json "audio_enabled" boolOf = .ok (some true) := by
  obtain ⟨w, hw, hfield⟩ := @fieldOf_some _ _ "audio_enabled" "true".toList h (isAscii_field (by simp [fieldNames]))
    (by simp [LanProvisioning.members, List.lookup_cons])
  rw [optionally, hfield, ok_bind]
  dsimp only
  rw [boolOf_true hw]
  rfl

theorem parseHotkey_written {field sourceField : String} (fresh : List UInt8) (hfield : isAscii field = true)
    (hnone : provisioning.members.lookup field = none) (hsource : isAscii sourceField = true)
    (hnoSource : provisioning.members.lookup sourceField = none) :
    parseHotkey json field sourceField fresh = .ok { hotkey := fresh } := by
  rw [parseHotkey, absent h _ hfield hnone, ok_bind, if_neg (by simp), absent h _ hsource hnoSource, ok_bind]
  rfl

theorem parseProfile_written : ∃ w w', Space w ∧ Space w' ∧ parseProfile json =
    .ok (asBytes LanProvisioning.profileKeys ++ w, asBytes LanProvisioning.profileEncoder ++ w') := by
  obtain ⟨w, hw, hprofiles⟩ := @fieldOf_some _ _ "profiles" (jsonArray [LanProvisioning.profile])
    h (isAscii_field (by simp [fieldNames]))
    (by simp [LanProvisioning.members, List.lookup_cons])
  obtain ⟨w', hw', hfirst⟩ := firstArrayValue_profiles hw
  obtain ⟨u, hu, hkeys⟩ := @fieldOf_some _ _ "keys" LanProvisioning.profileKeys (profile_object hw')
    (isAscii_field (by simp [fieldNames]))
    (by simp [LanProvisioning.profileMembers, List.lookup_cons])
  obtain ⟨v, hv, hencoder⟩ := @fieldOf_some _ _ "encoder" LanProvisioning.profileEncoder (profile_object hw')
    (isAscii_field (by simp [fieldNames])) (by simp [LanProvisioning.profileMembers, List.lookup_cons])
  refine ⟨u, v, hu, hv, ?_⟩
  rw [parseProfile, hprofiles, ok_bind, orReject_some, ok_bind, hfirst, reading_ok, ok_bind,
    orReject_some, ok_bind, hkeys, ok_bind, hencoder, ok_bind]
  rfl

/-- The payload is accepted, with the network as it was provisioned and every key and the encoder disabled. -/
theorem parseConfigPayload_written (haccepted : provisioning.Accepted) :
    ∃ config, parseConfigPayload json = .ok config ∧
    config.wifiSsid = asBytes provisioning.ssid ∧ config.wifiPassword = asBytes provisioning.password ∧
    config.audioHost = asBytes provisioning.host.toText ∧ config.audioPort = provisioning.port ∧
    config.speakerSyncKey = asBytes (hexEncode provisioning.deviceSecret) ∧ config.speakerSyncKeyEpoch = 1 ∧
    config.keymap = (keyNames ++ encoderNames).map fun _ => { kind := .disabled } := by
  obtain ⟨w, w', hw, hw', hprofile⟩ := parseProfile_written h
  have hplatform := @absent _ _ h _ "target_platform" (namedOf parseHostPlatform)
    (isAscii_field (by simp [fieldNames])) (by simp [LanProvisioning.members])
  have hmode := @absent _ _ h _ "hotkey_mode" (namedOf parsePttMode) (isAscii_field (by simp [fieldNames]))
    (by simp [LanProvisioning.members])
  have hptt := @parseHotkey_written _ _ h "ptt_hotkey" "ptt_hotkey_source" (ascii "RightMeta")
    (isAscii_field (by simp [fieldNames]))
    (by simp [LanProvisioning.members]) (isAscii_field (by simp [fieldNames])) (by simp [LanProvisioning.members])
  have hedit := @parseHotkey_written _ _ h "edit_ptt_hotkey" "edit_ptt_hotkey_source" (ascii "RightOption")
    (isAscii_field (by simp [fieldNames])) (by simp [LanProvisioning.members]) (isAscii_field (by simp [fieldNames]))
    (by simp [LanProvisioning.members])
  rw [parseConfigPayload]
  unfold parseConfigPayloadWith
  rw [hplatform, ok_bind, parseSchema_written h, ok_bind, parseLegacySources_written h, ok_bind, parseNetwork_written h,
    ok_bind, parseAudioPort_written h haccepted.portLow haccepted.portHigh, ok_bind,
    parseSpeakerSync_written h haccepted.secret haccepted.nonzero, ok_bind, audioEnabled_written h,
      ok_bind, hptt, ok_bind,
    hedit, ok_bind, hmode, ok_bind, hprofile, ok_bind, parseKeys_written hw, ok_bind, parseEncoder_written hw', ok_bind,
    parseScroll_written _ hw', ok_bind]
  exact ⟨_, rfl, rfl, rfl, rfl, rfl, rfl, rfl, rfl⟩

end Stages

/-! ### The size of the payload -/

theorem size_ascii {s : Text} (h : ∀ c ∈ s, c.utf8Size = 1) : size s = s.length := by
  induction s with
  | nil => rfl
  | cons c s ih =>
    rw [size_cons, h c List.mem_cons_self, ih fun other hother => h other (List.mem_cons_of_mem _ hother),
      List.length_cons, Nat.add_comm]

/-- A number has as many bytes as digits. -/
theorem size_digits {n k : Nat} (hk : 0 < k) (hn : n < 10 ^ k) : size (Nat.toDigits 10 n) ≤ k := by
  have hlength := (Nat.length_toDigits_le_iff (by decide) hk).2 hn
  rwa [size_ascii]
  rintro c hc
  have hdigit := Nat.isDigit_of_mem_toDigits (by decide) (by decide) hc
  rw [Char.isDigit, Bool.and_eq_true, decide_eq_true_iff, decide_eq_true_iff] at hdigit
  exact ascii_size (UInt32.le_trans hdigit.2 (by decide))

theorem size_host (host : Ipv4Addr) : size host.toText ≤ 15 := by
  have hoctet : ∀ octet : UInt8, size (Nat.toDigits 10 octet.toNat) ≤ 3 := fun octet =>
    size_digits (by decide) (octet.toNat_lt.trans (by decide))
  have ha := hoctet host.a
  have hb := hoctet host.b
  have hc := hoctet host.c
  have hd := hoctet host.d
  have hdot : size ['.'] = 1 := by decide
  rw [Ipv4Addr.toText, List.map_cons, List.map_cons, List.map_cons, List.map_cons, List.map_nil,
    List.intercalate_cons_cons, List.intercalate_cons_cons, List.intercalate_cons_cons, List.intercalate_singleton]
  simp only [size_append, hdot]
  omega

/-- The payload of accepted fields is never too long. -/
theorem payload_size (h : provisioning.Accepted) (hssid : size provisioning.ssid ≤ 32)
    (hpassword : size provisioning.password ≤ 64) : size (jsonObject provisioning.members) ≤ maxConfigBytes := by
  have hnames : size (jsonWord "schema") = 8 ∧ size (jsonWord "device_name") = 13 ∧
      size (jsonWord "wifi_ssid") = 11 ∧ size (jsonWord "wifi_password") = 15 ∧
      size (jsonWord "audio_host") = 12 ∧ size (jsonWord "audio_port") = 12 ∧
      size (jsonWord "audio_enabled") = 15 ∧ size (jsonWord "speaker_sync_key") = 18 ∧
      size (jsonWord "speaker_sync_key_epoch") = 24 ∧ size (jsonWord "profiles") = 10 := by
    decide +kernel
  have hwords : size (jsonWord "ai_keyboard.v1") = 16 ∧
      size (jsonWord "Easy Codex Input") = 18 ∧ size "true".toList = 4 ∧ size ['1'] = 1 ∧
      size (jsonArray [LanProvisioning.profile]) = 319 := by
    decide +kernel
  obtain ⟨hn1, hn2, hn3, hn4, hn5, hn6, hn7, hn8, hn9, hn10⟩ := hnames
  obtain ⟨hschema, hname, htrue, hone, hprofiles⟩ := hwords
  have hport : size (Nat.toDigits 10 provisioning.port) ≤ 5 :=
    size_digits (by decide) (h.portHigh.trans (by decide))
  have hkey : size (hexEncode provisioning.deviceSecret) = 64 := by
    rw [← length_asBytes, (hexEncode_digits _).1, h.secret]
  have hstring : ∀ s : Text, size (jsonString s) ≤ 2 + 6 * size s := by
    rintro s
    have hescaped := escaped_le s
    rw [size_jsonString]
    omega
  have hssid' := hstring provisioning.ssid
  have hpassword' := hstring provisioning.password
  have hhost := size_host provisioning.host
  have hhost' := hstring provisioning.host.toText
  have hkey' := hstring (hexEncode provisioning.deviceSecret)
  rw [size_jsonObject, LanProvisioning.members, maxConfigBytes]
  simp only [List.map_cons, List.map_nil, List.sum_cons, List.sum_nil, List.length_cons, List.length_nil, hn1, hn2, hn3,
    hn4, hn5, hn6, hn7, hn8, hn9, hn10, hschema, hname, htrue, hone, hprofiles]
  omega

/-- An accepted provisioning has a payload, and the keyboard reads it as it was meant. -/
theorem payloadJson_ok (h : provisioning.Accepted) (hssid : size provisioning.ssid ≤ 32)
    (hpassword : size provisioning.password ≤ 64) :
    provisioning.payloadJson = .ok (asBytes (jsonObject provisioning.members)) := by
  have hsize := payload_size h hssid hpassword
  have hne : asBytes (jsonObject provisioning.members) ≠ [] := by
    rw [asBytes_object]
    exact List.cons_ne_nil _ _
  rw [LanProvisioning.payloadJson, if_neg]
  rintro (hempty | hlong)
  · exact hne hempty
  · rw [length_asBytes] at hlong
    omega

end CodexKeyboard.Provisioning
