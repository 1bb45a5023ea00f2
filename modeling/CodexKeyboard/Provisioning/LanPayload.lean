import CodexKeyboard.Config.Numbers
import CodexKeyboard.Config.ReaderExact
import CodexKeyboard.Observer.PackSize
import CodexKeyboard.Provisioning.DeviceSecret

/-! `LanProvisioning`: what the host accepts, and the payload it sends to the keyboard. -/

namespace CodexKeyboard.Provisioning

open Schemes Text Transact JsonText Config Observer

def maxConfigBytes : Nat := 2048

inductive ProvisioningError where
  | invalidSsid | invalidPassword | invalidHost | invalidPort | invalidPayload
  deriving DecidableEq, Repr

structure Ipv4Addr where
  a : UInt8
  b : UInt8
  c : UInt8
  d : UInt8
  deriving DecidableEq, Repr

inductive IpAddr where
  | v4 (address : Ipv4Addr)
  | v6
  deriving DecidableEq, Repr

namespace Ipv4Addr

/-- Unspecified, loopback, multicast, broadcast or link-local. -/
def isRefused (host : Ipv4Addr) : Bool :=
  host == ⟨0, 0, 0, 0⟩ || host.a == 127 || (224 ≤ host.a && host.a ≤ 239) || host == ⟨255, 255, 255, 255⟩ ||
    (host.a == 169 && host.b == 254)

def toText (host : Ipv4Addr) : Text :=
  List.intercalate ['.'] ([host.a, host.b, host.c, host.d].map fun octet => Nat.toDigits 10 octet.toNat)

end Ipv4Addr

structure LanProvisioning where
  ssid : Text
  password : Text
  host : Ipv4Addr
  port : Nat
  deviceSecret : List UInt8
  deriving DecidableEq, Repr

namespace LanProvisioning

/-- `LanProvisioning::new`, of a port of 16 bits and a secret of 32 bytes. -/
def new (ssid password : Text) (host : IpAddr) (port : Nat) (deviceSecret : List UInt8) :
    Except ProvisioningError LanProvisioning :=
  if ssid = [] ∨ 32 < size ssid then .error .invalidSsid
  else if 64 < size password then .error .invalidPassword
  else
    match host with
    | .v6 => .error .invalidHost
    | .v4 host =>
      if host.isRefused then .error .invalidHost
      else if port < 1024 then .error .invalidPort
      else if deviceSecret.all (· == 0) then .error .invalidPayload
      else .ok ⟨ssid, password, host, port, deviceSecret⟩

def pressDisabled : Text := jsonObject [("press", jsonWord "disabled")]

def profileKeys : Text := jsonObject (keyNames.map (·, pressDisabled))
def profileEncoder : Text := jsonObject (encoderNames.map (·, jsonWord "disabled"))

def profileMembers : List (String × Text) :=
  [("id", jsonWord "default"), ("keys", profileKeys), ("encoder", profileEncoder)]

def profile : Text := jsonObject profileMembers

def members (provisioning : LanProvisioning) : List (String × Text) :=
  [("schema", jsonWord "ai_keyboard.v1"), ("device_name", jsonWord "Easy Codex Input"),
    ("wifi_ssid", jsonString provisioning.ssid), ("wifi_password", jsonString provisioning.password),
    ("audio_host", jsonString provisioning.host.toText), ("audio_port", Nat.toDigits 10 provisioning.port),
    ("audio_enabled", "true".toList), ("speaker_sync_key", jsonString (hexEncode provisioning.deviceSecret)),
    ("speaker_sync_key_epoch", ['1']), ("profiles", jsonArray [profile])]

def payloadJson (provisioning : LanProvisioning) : Except ProvisioningError (List UInt8) :=
  let json := asBytes (jsonObject provisioning.members)
  if json = [] ∨ maxConfigBytes < json.length then .error .invalidPayload else .ok json

end LanProvisioning

/-! ### What the writer derives -/

variable {s : Text} {w b : List UInt8} {members : List (String × Text)}

/-- A control character has two hexadecimal digits. -/
theorem hex4_control : ∀ n < 32, hexValue (lowerHexDigit (n / 16)).val.toUInt8 = some (n / 16) ∧
    hexValue (lowerHexDigit (n % 16)).val.toUInt8 = some (n % 16) ∧ (lowerHexDigit (n / 16)).val ≤ 127 ∧
    (lowerHexDigit (n % 16)).val ≤ 127 := by
  decide

/-- How a control character is written. -/
theorem escape_control : ∀ n < 32,
    (∃ e ∈ ['b', 't', 'n', 'f', 'r'], escapeChar (Char.ofNat n) = ['\\', e] ∧
      (e.val.toUInt8, Char.ofNat n) ∈ escapes) ∨
    escapeChar (Char.ofNat n) =
      ['\\', 'u', '0', '0', lowerHexDigit (n / 16), lowerHexDigit (n % 16)] := by
  have hall : ∀ n < 32, (['b', 't', 'n', 'f', 'r'].any fun e => decide (escapeChar (Char.ofNat n) = ['\\', e] ∧
      (e.val.toUInt8, Char.ofNat n) ∈ escapes)) = true ∨ escapeChar (Char.ofNat n) =
        ['\\', 'u', '0', '0', lowerHexDigit (n / 16), lowerHexDigit (n % 16)] := by
    decide
  rintro n hn
  rcases hall n hn with hletter | hcode
  · obtain ⟨e, he, hescape⟩ := List.any_eq_true.1 hletter
    exact .inl ⟨e, he, of_decide_eq_true hescape⟩
  · exact .inr hcode

theorem letter_ascii {e : Char} (he : e ∈ ['b', 't', 'n', 'f', 'r']) : e.val ≤ 127 := by
  have hall : ['b', 't', 'n', 'f', 'r'].all (fun e => decide (e.val ≤ 127)) = true := by decide
  exact of_decide_eq_true (List.all_eq_true.1 hall e he)

theorem asBytes_ascii {c : Char} (h : c.val ≤ 127) (s : Text) : asBytes (c :: s) = c.val.toUInt8 :: asBytes s := by
  rw [asBytes, List.flatMap_cons, String.utf8EncodeChar_eq_singleton (ascii_size h)]
  rfl

/-- The text between the quotes of a written string is that string. -/
theorem stringText_escaped (s : Text) : StringText s (asBytes (s.flatMap escapeChar)) := by
  induction s with
  | nil => exact .nil
  | cons c s ih =>
    rw [List.flatMap_cons, asBytes_append]
    have hletter : ∀ (e : Char), e.val ≤ 127 → (e.val.toUInt8, c) ∈ escapes → escapeChar c = ['\\', e] →
        StringText (c :: s) (asBytes (escapeChar c) ++ asBytes (s.flatMap escapeChar)) := by
      rintro e he hknown hescape
      rw [hescape, asBytes_ascii (by decide), asBytes_ascii he]
      exact .escape hknown ih
    by_cases hquote : c = '"'
    · subst hquote
      exact hletter '"' (by decide) (by decide) (by decide)
    by_cases hbackslash : c = '\\'
    · subst hbackslash
      exact hletter '\\' (by decide) (by decide) (by decide)
    by_cases hlow : c.toNat < 0x20
    · have hself := Char.ofNat_toNat c
      rcases escape_control c.toNat hlow with ⟨e, he, hescape, hknown⟩ | hescape
      · rw [hself] at hescape hknown
        exact hletter e (letter_ascii he) hknown hescape
      · rw [hself] at hescape
        obtain ⟨hhigh, hlow', hhighAscii, hlowAscii⟩ := hex4_control c.toNat hlow
        rw [hescape, asBytes_ascii (by decide), asBytes_ascii (by decide), asBytes_ascii (by decide),
          asBytes_ascii (by decide), asBytes_ascii hhighAscii, asBytes_ascii hlowAscii]
        have hdigits : Hex4 [48, 48, _, _] (((0 * 16 + 0) * 16 + c.toNat / 16) * 16 + c.toNat % 16) :=
          .digits (by decide) (by decide) hhigh hlow'
        rw [show ((0 * 16 + 0) * 16 + c.toNat / 16) * 16 + c.toNat % 16 = c.val.toNat by
          rw [Nat.zero_mul, Nat.zero_add, Nat.div_add_mod']
          rfl] at hdigits
        exact .unicode hdigits ih
    · rw [escapeChar_plain hquote hbackslash (Nat.not_lt.1 hlow),
        show asBytes [c] = String.utf8EncodeChar c from List.append_nil _]
      exact .char (Nat.not_lt.1 hlow) hquote hbackslash ih

theorem asBytes_jsonString (s : Text) :
    asBytes (jsonString s) = 34 :: asBytes (s.flatMap escapeChar) ++ [34] := by
  rw [jsonString, List.cons_append, asBytes_ascii (by decide), asBytes_append]
  rfl

theorem derives_string (s : Text) : Derives .value (asBytes (jsonString s)) := by
  rw [asBytes_jsonString]
  exact .string (stringText_escaped s)

/-- A written string reads back, with white space behind it. -/
theorem stringOf_written (s : Text) (hw : Space w) : stringOf (asBytes (jsonString s) ++ w) = .ok (asBytes s) := by
  have hvalue : StringValue s ([] ++ 34 :: asBytes (s.flatMap escapeChar) ++ 34 :: w) :=
    .mk .nil (stringText_escaped s) hw
  rw [asBytes_jsonString, stringOf, show 34 :: asBytes (s.flatMap escapeChar) ++ [34] ++ w =
    [] ++ 34 :: asBytes (s.flatMap escapeChar) ++ 34 :: w by simp, stringValue_text hvalue]
  rfl

/-- The members of a written object as the grammar has them. -/
def written (members : List (String × Text)) : List (Text × List UInt8) :=
  members.map fun member => (member.1.toList, asBytes member.2)

/-- The text of one member. -/
def memberText (member : String × Text) : Text := jsonWord member.1 ++ ':' :: member.2

theorem asBytes_member (member : String × Text) :
    asBytes (memberText member) = [] ++ 34 :: asBytes (member.1.toList.flatMap escapeChar) ++ 34 :: [] ++ 58 :: [] ++
      asBytes member.2 ++ [] := by
  rw [memberText, asBytes_append, jsonWord, asBytes_jsonString, asBytes_ascii (by decide)]
  simp

theorem derives_members (members : List (String × Text)) (hne : members ≠ [])
    (hall : ∀ member ∈ members, Derives .value (asBytes member.2)) :
    Derives (.members (written members)) (asBytes (List.intercalate [','] (members.map memberText))) := by
  induction members with
  | nil => exact absurd rfl hne
  | cons member members ih =>
    have hname := stringText_escaped member.1.toList
    have hvalue := hall member List.mem_cons_self
    cases members with
    | nil =>
      have htext : List.intercalate [','] ([member].map memberText) = memberText member := by simp [List.intercalate]
      rw [htext, asBytes_member]
      exact .member .nil hname .nil .nil hvalue .nil
    | cons next members =>
      have hrest := ih (by simp) fun other hother => hall other (List.mem_cons_of_mem _ hother)
      rw [List.map_cons, List.map_cons, List.intercalate_cons_cons, ← List.map_cons, asBytes_append, asBytes_append,
        asBytes_member]
      have hcomma : asBytes [','] = [44] := rfl
      rw [hcomma, List.append_assoc _ [44], List.singleton_append]
      exact .members .nil hname .nil .nil hvalue .nil hrest

theorem asBytes_object (members : List (String × Text)) : asBytes (jsonObject members) =
    123 :: asBytes (List.intercalate [','] (members.map memberText)) ++ [125] := by
  rw [jsonObject, List.cons_append, asBytes_ascii (by decide), asBytes_append]
  rfl

theorem derives_object (hne : members ≠ []) (hall : ∀ member ∈ members, Derives .value (asBytes member.2)) :
    Derives .value (asBytes (jsonObject members)) := by
  rw [asBytes_object]
  exact .object (derives_members members hne hall)

theorem objectText_written (hne : members ≠ []) (hall : ∀ member ∈ members, Derives .value (asBytes member.2))
    (hw : Space w) : ObjectText (written members) (asBytes (jsonObject members) ++ w) := by
  rw [asBytes_object, List.append_assoc, List.singleton_append]
  exact @ObjectText.mk _ [] _ _ .nil (.members (derives_members members hne hall)) hw

/-! ### What the keyboard reads of it -/

/-- A name of ASCII characters. -/
def isAscii (name : String) : Bool := name.toList.all fun c => c.val ≤ 127

/-- The fields that the parser looks for. -/
def fieldNames : List String :=
  keyNames ++ encoderNames ++ ["press", "scroll", "schema", "audio_source", "microphone_source", "wifi_ssid",
    "wifi_password", "audio_host", "audio_port", "audio_enabled", "speaker_sync_key",
    "speaker_sync_key_epoch", "profiles",
    "keys", "encoder", "target_platform", "hotkey_mode", "ptt_hotkey", "ptt_hotkey_source", "edit_ptt_hotkey",
    "edit_ptt_hotkey_source"]

theorem fieldNames_ascii : fieldNames.all isAscii = true := by
  decide +kernel

theorem isAscii_field {name : String} (h : name ∈ fieldNames) : isAscii name = true :=
  List.all_eq_true.1 fieldNames_ascii name h

theorem ascii_asBytes {name : String} (h : isAscii name = true) : ascii name = asBytes name.toList := by
  rw [isAscii] at h
  rw [ascii]
  generalize name.toList = s at h
  induction s with
  | nil => rfl
  | cons c s ih =>
    rw [List.all_cons, Bool.and_eq_true, decide_eq_true_iff] at h
    rw [List.map_cons, ih h.2, asBytes_ascii h.1]
    rfl

theorem find_written (members : List (String × Text)) {name : String} (h : isAscii name = true) :
    (written members).find? (fun member => asBytes member.1 = ascii name) =
      (members.lookup name).map fun value => (name.toList, asBytes value) := by
  induction members with
  | nil => rfl
  | cons member members ih =>
    obtain ⟨key, value⟩ := member
    have hkey : (asBytes key.toList = ascii name) ↔ name = key := by
      rw [ascii_asBytes h]
      constructor
      · rintro hbytes
        exact (String.toList_inj.1 (asBytes_inj hbytes)).symm
      · rintro rfl
        rfl
    rw [written, List.map_cons, List.find?_cons, List.lookup_cons]
    by_cases hname : name = key
    · rw [show decide (asBytes key.toList = ascii name) = true from decide_eq_true (hkey.2 hname),
        show (name == key) = true from beq_iff_eq.2 hname, hname]
      rfl
    · rw [show decide (asBytes key.toList = ascii name) = false from decide_eq_false fun h => hname (hkey.1 h),
        show (name == key) = false from beq_eq_false_iff_ne.2 hname]
      exact ih

/-- A member that was written is found, with white space behind it. -/
theorem fieldOf_some {json : List UInt8} {name : String} {value : Text} (h : ObjectText (written members) json)
    (hascii : isAscii name = true) (hvalue : members.lookup name = some value) :
    ∃ w, Space w ∧ fieldOf json name = .ok (some (asBytes value ++ w)) := by
  obtain ⟨r, hr, hfound⟩ := fieldValue_text h (ascii name)
  rw [Found, find_written members hascii, hvalue, Option.map_some] at hfound
  obtain ⟨w, hw, rfl⟩ := hfound
  exact ⟨w, hw, by rw [fieldOf, hr]; rfl⟩

theorem fieldOf_none {json : List UInt8} {name : String} (h : ObjectText (written members) json)
    (hascii : isAscii name = true) (hvalue : members.lookup name = none) : fieldOf json name = .ok none := by
  obtain ⟨r, hr, hfound⟩ := fieldValue_text h (ascii name)
  rw [Found, find_written members hascii, hvalue, Option.map_none] at hfound
  obtain rfl : r = none := hfound
  rw [fieldOf, hr]
  rfl

theorem optionally_none {α : Type} {json : List UInt8} {name : String} (h : ObjectText (written members) json)
    (hascii : isAscii name = true) (hvalue : members.lookup name = none) (parse : List UInt8 → Except Config.Stop α) :
    optionally json name parse = .ok none := by
  rw [optionally, fieldOf_none h hascii hvalue]
  rfl

/-- A string member is read as it was written. -/
theorem optionally_string {json : List UInt8} {name : String} {value : Text} (h : ObjectText (written members) json)
    (hascii : isAscii name = true) (hvalue : members.lookup name = some (jsonString value)) :
    optionally json name stringOf = .ok (some (asBytes value)) := by
  obtain ⟨w, hw, hfield⟩ := fieldOf_some h hascii hvalue
  rw [optionally, hfield, ok_bind]
  dsimp only
  rw [stringOf_written value hw]
  rfl

/-! ### The profile -/

theorem stringValue_written (s : Text) (hw : Space w) :
    stringValue (asBytes (jsonString s) ++ w) = .ok (some (asBytes s)) := by
  have hstring := stringOf_written s hw
  rw [stringOf] at hstring
  cases hvalue : stringValue (asBytes (jsonString s) ++ w) with
  | error e =>
    rw [hvalue] at hstring
    cases hstring
  | ok r =>
    rw [hvalue] at hstring
    cases r with
    | none => cases hstring
    | some value =>
      cases hstring
      rfl

theorem reading_ok {α : Type} (value : α) : reading (.ok value) = .ok value := rfl

/-- An action that is written as its name. -/
theorem parseAction_disabled (hw : Space w) :
    parseAction (asBytes (jsonWord "disabled") ++ w) = .ok { kind := .disabled } := by
  have hkind : namedActionKind (asBytes "disabled".toList) = some .disabled := by decide +kernel
  rw [parseAction, jsonWord, stringValue_written _ hw, reading_ok, ok_bind]
  dsimp only
  rw [hkind]
  rfl

theorem derives_press : Derives .value (asBytes LanProvisioning.pressDisabled) := by
  refine derives_object (by simp) ?_
  rintro press hpress
  rw [List.mem_singleton.1 hpress]
  exact derives_string _

theorem press_object (hw : Space w) : ObjectText (written [("press", jsonWord "disabled")])
    (asBytes LanProvisioning.pressDisabled ++ w) := by
  refine objectText_written (by simp) ?_ hw
  rintro member hmember
  rw [List.mem_singleton.1 hmember]
  exact derives_string _

theorem derives_const {names : List String} {value : Text} (h : Derives .value (asBytes value)) :
    ∀ member ∈ names.map (·, value), Derives .value (asBytes member.2) := by
  rintro member hmember
  obtain ⟨name, -, rfl⟩ := List.mem_map.1 hmember
  exact h

theorem keys_object (hw : Space w) :
    ObjectText (written (keyNames.map (·, LanProvisioning.pressDisabled))) (asBytes LanProvisioning.profileKeys ++ w) :=
  objectText_written (by simp [keyNames]) (derives_const derives_press) hw

theorem encoder_object (hw : Space w) :
    ObjectText (written (encoderNames.map (·, jsonWord "disabled")))
      (asBytes LanProvisioning.profileEncoder ++ w) :=
  objectText_written (by simp [encoderNames]) (derives_const (derives_string _)) hw

theorem mapM_const {α β ε : Type} {f : α → Except ε β} {b : β} {l : List α} (h : ∀ a ∈ l, f a = .ok b) :
    l.mapM f = .ok (l.map fun _ => b) := by
  induction l with
  | nil => rfl
  | cons a l ih =>
    rw [List.mapM_cons, h a List.mem_cons_self, ok_bind, ih fun other hother => h other (List.mem_cons_of_mem _ hother)]
    rfl

theorem lookup_const {value : Text} {names : List String} {name : String} (h : name ∈ names) :
    (names.map (·, value)).lookup name = some value := by
  induction names with
  | nil => cases h
  | cons first names ih =>
    rw [List.map_cons, List.lookup_cons]
    by_cases hname : name = first
    · rw [show (name == first) = true from beq_iff_eq.2 hname]
    · rw [show (name == first) = false from beq_eq_false_iff_ne.2 hname]
      exact ih ((List.mem_cons.1 h).resolve_left hname)

theorem parseKeys_written (hw : Space w) :
    keyNames.mapM (parseBinding (asBytes LanProvisioning.profileKeys ++ w)) =
      .ok (keyNames.map fun _ => { kind := .disabled }) := by
  refine mapM_const fun name hname => ?_
  have hascii : isAscii name = true :=
    isAscii_field (List.mem_append_left _ (List.mem_append_left _ hname))
  obtain ⟨w', hw', hbinding⟩ := fieldOf_some (keys_object hw) hascii (lookup_const hname)
  obtain ⟨w'', hw'', hpress⟩ :=
    @fieldOf_some _ _ "press" _ (press_object hw') (isAscii_field (by simp [fieldNames])) (by simp; rfl)
  rw [parseBinding, hbinding, ok_bind]
  show (fieldOf (asBytes LanProvisioning.pressDisabled ++ w') "press" >>= _) = _
  rw [hpress, ok_bind]
  exact parseAction_disabled hw''

theorem parseEncoder_written (hw : Space w) :
    encoderNames.mapM (parseEncoderAction (asBytes LanProvisioning.profileEncoder ++ w)) =
      .ok (encoderNames.map fun _ => { kind := .disabled }) := by
  refine mapM_const fun name hname => ?_
  have hascii : isAscii name = true :=
    isAscii_field (List.mem_append_left _ (List.mem_append_right _ hname))
  obtain ⟨w', hw', haction⟩ := fieldOf_some (encoder_object hw) hascii (lookup_const hname)
  rw [parseEncoderAction, haction, ok_bind]
  exact parseAction_disabled hw'

theorem parseScroll_written (int : ReadInt) (hw : Space w) :
    parseEncoderScrollConfig int (asBytes LanProvisioning.profileEncoder ++ w) = .ok {} := by
  have hscroll : (encoderNames.map (·, jsonWord "disabled")).lookup "scroll" = none := by
    simp [encoderNames]
  rw [parseEncoderScrollConfig, fieldOf_none (encoder_object hw) (isAscii_field (by simp [fieldNames])) hscroll]
  rfl

end CodexKeyboard.Provisioning
