import CodexKeyboard.Provisioning.LanAccepted

/-! The credentials on their way from the payload to the fields of the Wi-Fi driver. -/

namespace CodexKeyboard.Provisioning

open Schemes Text Transact Config Observer

/-- `KeyboardAudioConfig`; the key is there when it is valid. -/
structure KeyboardAudioConfig where
  enabled : Bool
  wifiSsid : Bytes
  wifiPassword : Bytes
  host : Bytes
  port : Int
  speakerSyncKey : Option Bytes
  speakerSyncKeyEpoch : Nat
  deriving DecidableEq, Repr

/-- The bytes of pairs of hexadecimal digits. -/
def decodePairs : Bytes → Option Bytes
  | [] => some []
  | [_] => none
  | high :: low :: rest => do
    let high ← hexDigitValue high
    let low ← hexDigitValue low
    let rest ← decodePairs rest
    some (.ofNat (high * 16 + low) :: rest)

def decodeSpeakerSyncKey (encoded : Bytes) : Option Bytes :=
  if encoded.length ≠ 64 then none else (decodePairs encoded).filter fun decoded => decoded.any (· != 0)

def audioEnabled (config : ParsedKeyboardConfig) : Bool :=
  !config.wifiSsid.isEmpty && !config.audioHost.isEmpty && 1024 ≤ config.audioPort && config.audioPort ≤ 65535

def syncKeyboardAudioConfig (state : ConfigState) : KeyboardAudioConfig where
  enabled := audioEnabled state.current
  wifiSsid := state.current.wifiSsid
  wifiPassword := state.current.wifiPassword
  host := state.current.audioHost
  port := max 1 (min state.current.audioPort 65535)
  speakerSyncKey :=
    if state.current.speakerSyncKeyEpoch = 0 then none else decodeSpeakerSyncKey state.current.speakerSyncKey
  speakerSyncKeyEpoch := state.current.speakerSyncKeyEpoch

/-! ### The driver -/

/-- A field is filled with zeros behind what was copied, and its last byte is one. -/
def copyWifiField (size : Nat) (source : Bytes) : Bytes :=
  source.take (size - 1) ++ List.replicate (size - min (size - 1) source.length) 0

/-- How the driver reads a field. -/
def readField (field : Bytes) : Bytes := field.takeWhile (· != 0)

inductive WifiAuthMode where
  | isOpen | wpa2Psk
  deriving DecidableEq, Repr

/-- `wifi_config.sta`. -/
structure StaConfig where
  ssid : Bytes
  password : Bytes
  authMode : WifiAuthMode
  deriving DecidableEq, Repr

def staConfig (ssid password : Bytes) : StaConfig where
  ssid := copyWifiField 32 ssid
  password := copyWifiField 64 password
  authMode := if password = [] then .isOpen else .wpa2Psk

inductive EspErr where
  | ok | invalidArg | wifiConn | failed
  deriving DecidableEq, Repr

/-- What the driver answers in a call, whether the connected bit is set, and how the waiting ends. -/
structure Answers where
  begun : EspErr
  connected : Bool
  setConfig : EspErr
  started : EspErr
  connect : EspErr
  waited : EspErr
  deriving DecidableEq, Repr

/-- The link, and what the driver was last configured with. -/
structure WifiLink where
  started : Bool := false
  configuredSsid : Bytes := []
  configuredPassword : Bytes := []
  driver : Option StaConfig := none
  deriving DecidableEq, Repr

namespace WifiLink

def sameWifiConfig (link : WifiLink) (config : KeyboardAudioConfig) : Bool :=
  link.started && link.configuredSsid == config.wifiSsid && link.configuredPassword == config.wifiPassword

def configure (link : WifiLink) (config : KeyboardAudioConfig) : WifiLink :=
  { link with
    configuredSsid := config.wifiSsid
    configuredPassword := config.wifiPassword
    driver := some (staConfig config.wifiSsid config.wifiPassword) }

/-- Start the driver where it is not started, and connect. -/
def connect (link : WifiLink) (answers : Answers) : EspErr × WifiLink :=
  if !link.started && answers.started ≠ .ok && answers.started ≠ .wifiConn then (answers.started, link)
  else if answers.connect ≠ .ok ∧ answers.connect ≠ .wifiConn then (answers.connect, { link with started := true })
  else (answers.waited, { link with started := true })

def prepareWifiConnection (link : WifiLink) (answers : Answers) (config : KeyboardAudioConfig) : EspErr × WifiLink :=
  if answers.begun ≠ .ok then (answers.begun, link)
  else if config.wifiSsid = [] then (.invalidArg, link)
  else if link.sameWifiConfig config then
    if answers.connected then (.ok, link) else link.connect answers
  else if answers.setConfig ≠ .ok then (answers.setConfig, link)
  else (link.configure config).connect answers

def stopWifiForInactiveAudio (link : WifiLink) (canStop : Bool) (stopped : EspErr) : WifiLink :=
  if canStop && stopped = .ok then { link with started := false } else link

/-- The links of all runs. -/
inductive Reachable : WifiLink → Prop
  | boot : Reachable {}
  | prepare {link : WifiLink} (run : Reachable link) (answers : Answers) (config : KeyboardAudioConfig) :
    Reachable (link.prepareWifiConnection answers config).2
  | stop {link : WifiLink} (run : Reachable link) (canStop : Bool) (stopped : EspErr) :
    Reachable (link.stopWifiForInactiveAudio canStop stopped)

/-- A started driver has the configuration that the link keeps. -/
def Faithful (link : WifiLink) : Prop :=
  link.started = true → link.driver = some (staConfig link.configuredSsid link.configuredPassword)

variable {link : WifiLink} {answers : Answers} {config : KeyboardAudioConfig}

theorem connect_keeps (link : WifiLink) (answers : Answers) :
    (link.connect answers).2.driver = link.driver ∧ (link.connect answers).2.configuredSsid = link.configuredSsid ∧
      (link.connect answers).2.configuredPassword = link.configuredPassword := by
  rw [connect]
  split_ifs
  · exact ⟨rfl, rfl, rfl⟩
  · exact ⟨rfl, rfl, rfl⟩
  · exact ⟨rfl, rfl, rfl⟩

theorem configure_faithful (link : WifiLink) (answers : Answers) (config : KeyboardAudioConfig) :
    Faithful ((link.configure config).connect answers).2 := by
  obtain ⟨hdriver, hssid, hpassword⟩ := connect_keeps (link.configure config) answers
  rintro -
  rw [hdriver, hssid, hpassword]
  rfl

theorem sameWifiConfig_iff : link.sameWifiConfig config = true ↔
    link.started = true ∧ link.configuredSsid = config.wifiSsid ∧ link.configuredPassword = config.wifiPassword := by
  rw [sameWifiConfig, Bool.and_eq_true, Bool.and_eq_true, beq_iff_eq, beq_iff_eq, and_assoc]

theorem prepare_faithful (h : link.Faithful) : Faithful (link.prepareWifiConnection answers config).2 := by
  rw [prepareWifiConnection]
  split_ifs with hbegun hempty hsame hconnected hset
  · exact h
  · exact h
  · exact h
  · obtain ⟨hdriver, hssid, hpassword⟩ := connect_keeps link answers
    rintro -
    rw [hdriver, hssid, hpassword]
    exact h (sameWifiConfig_iff.1 hsame).1
  · exact h
  · exact configure_faithful link answers config

theorem stop_faithful (h : link.Faithful) (canStop : Bool) (stopped : EspErr) :
    Faithful (link.stopWifiForInactiveAudio canStop stopped) := by
  rw [stopWifiForInactiveAudio]
  split_ifs
  · rintro hstarted
    exact absurd hstarted Bool.false_ne_true
  · exact h

theorem Reachable.faithful (h : Reachable link) : link.Faithful := by
  induction h with
  | boot =>
    rintro hstarted
    exact absurd hstarted (by decide)
  | prepare run answers config ih => exact prepare_faithful ih
  | stop run canStop stopped ih => exact stop_faithful ih canStop stopped

/-- A call that gets to the driver leaves it with the credentials of its configuration. -/
theorem prepare_driver (h : Reachable link) (hbegun : answers.begun = .ok) (hset : answers.setConfig = .ok)
    (hssid : config.wifiSsid ≠ []) :
    (link.prepareWifiConnection answers config).2.driver = some (staConfig config.wifiSsid config.wifiPassword) := by
  rw [prepareWifiConnection, if_neg (not_not.2 hbegun), if_neg hssid]
  split_ifs with hsame hconnected hfailed
  · obtain ⟨hstarted, hsameSsid, hsamePassword⟩ := sameWifiConfig_iff.1 hsame
    rw [← hsameSsid, ← hsamePassword]
    exact h.faithful hstarted
  · obtain ⟨hstarted, hsameSsid, hsamePassword⟩ := sameWifiConfig_iff.1 hsame
    rw [(connect_keeps link answers).1, ← hsameSsid, ← hsamePassword]
    exact h.faithful hstarted
  · exact absurd hset hfailed
  · rw [(connect_keeps _ answers).1]
    rfl

end WifiLink

/-! ### Fields -/

theorem readField_eq (size : Nat) (source : Bytes) (hsize : 0 < size) :
    readField (copyWifiField size source) = (source.take (size - 1)).takeWhile (· != 0) := by
  have hzeros : ∃ n, List.replicate (size - min (size - 1) source.length) (0 : UInt8) = 0 :: List.replicate n 0 := by
    refine ⟨size - min (size - 1) source.length - 1, ?_⟩
    rw [← List.replicate_succ]
    congr 1
    omega
  obtain ⟨n, hzeros⟩ := hzeros
  rw [readField, copyWifiField, hzeros, List.takeWhile_append]
  split_ifs with hall
  · rw [List.takeWhile_cons_of_neg (by simp), List.append_nil]
    exact ((List.takeWhile_prefix _).eq_of_length hall).symm
  · rfl

/-- A field keeps what is shorter than it and has no zero byte, and nothing else. -/
theorem readField_copyWifiField {size : Nat} (hsize : 0 < size) (source : Bytes) :
    readField (copyWifiField size source) = source ↔ source.length < size ∧ 0 ∉ source := by
  rw [readField_eq size source hsize]
  constructor
  · rintro heq
    have hlength := congrArg List.length heq
    have hle := (List.takeWhile_prefix (l := source.take (size - 1)) (· != 0)).length_le
    rw [List.length_take] at hle
    refine ⟨by omega, fun hzero => ?_⟩
    rw [← heq] at hzero
    exact absurd (List.mem_takeWhile_imp hzero) (by decide)
  · rintro ⟨hshort, hzero⟩
    rw [List.take_of_length_le (by omega), List.takeWhile_eq_self_iff]
    rintro byte hbyte
    rw [bne_iff_ne]
    rintro rfl
    exact hzero hbyte

/-! ### Credentials -/

/-- Credentials that were accepted and carried to the driver, and what it was configured with. -/
inductive Carried (ssid password : Text) : StaConfig → Prop
  | mk {host : IpAddr} {port : Nat} {secret json : List UInt8} {provisioning : LanProvisioning}
      {state next : ConfigState}
    {link : WifiLink} {answers : Answers} {sta : StaConfig} (word : port < 2 ^ 16) (array : secret.length = 32)
    (accepted : LanProvisioning.new ssid password host port secret = .ok provisioning)
    (payload : provisioning.payloadJson = .ok json) (applied : state.applyJson json = .ok next)
    (run : link.Reachable) (begun : answers.begun = .ok) (set : answers.setConfig = .ok)
    (driver : (link.prepareWifiConnection answers (syncKeyboardAudioConfig next)).2.driver = some sta) :
    Carried ssid password sta

/-- The driver reads the credentials in its fields. -/
def Gets (sta : StaConfig) (ssid password : Text) : Prop :=
  readField sta.ssid = asBytes ssid ∧ readField sta.password = asBytes password

/-- Both credentials are shorter than their field and have no zero character. -/
def Fits (ssid password : Text) : Prop :=
  size ssid < 32 ∧ size password < 64 ∧ '\x00' ∉ ssid ∧ '\x00' ∉ password

variable {ssid password : Text} {host : IpAddr} {port : Nat} {secret : List UInt8} {provisioning : LanProvisioning}

/-- What `new` checks. -/
theorem new_accepted (h : LanProvisioning.new ssid password host port secret = .ok provisioning) (hport : port < 2 ^ 16)
    (hsecret : secret.length = 32) : provisioning.Accepted ∧ provisioning.ssid = ssid ∧
      provisioning.password = password ∧ size ssid ≤ 32 ∧ size password ≤ 64 := by
  unfold LanProvisioning.new at h
  split at h
  · cases h
  rename_i hssid
  split at h
  · cases h
  rename_i hpassword
  obtain ⟨hempty, hlong⟩ := not_or.1 hssid
  cases host with
  | v6 => cases h
  | v4 host =>
    dsimp only at h
    split at h
    · cases h
    split at h
    · cases h
    rename_i hlow
    split at h
    · cases h
    rename_i hzero
    cases h
    exact ⟨⟨hempty, Nat.not_lt.1 hlow, hport, hsecret, Bool.eq_false_iff.2 hzero⟩, rfl, rfl, Nat.not_lt.1 hlong,
      Nat.not_lt.1 hpassword⟩

theorem applyJson_ok {json : List UInt8} {config : ParsedKeyboardConfig} (h : parseConfigPayload json = .ok config)
    (state : ConfigState) : state.applyJson json = .ok ⟨ConfigState.setTargetPlatform config
      (if config.targetPlatformExplicit then config.targetPlatform else state.current.targetPlatform), json⟩ := by
  rw [ConfigState.applyJson, h, ok_bind]

/-- The state keeps the credentials as they were provisioned. -/
theorem payload_applied (h : provisioning.Accepted) (hssid : size provisioning.ssid ≤ 32)
    (hpassword : size provisioning.password ≤ 64) (state : ConfigState) : ∃ json next,
      provisioning.payloadJson = .ok json ∧ state.applyJson json = .ok next ∧
      (syncKeyboardAudioConfig next).wifiSsid = asBytes provisioning.ssid ∧
      (syncKeyboardAudioConfig next).wifiPassword = asBytes provisioning.password := by
  obtain ⟨config, hparse, hconfigSsid, hconfigPassword, -⟩ := parseConfigPayload_written (payload_object h) h
  exact ⟨_, _, payloadJson_ok h hssid hpassword, applyJson_ok hparse state, hconfigSsid, hconfigPassword⟩

theorem asBytes_ne_nil {s : Text} (h : s ≠ []) : asBytes s ≠ [] := by
  rintro hnil
  exact h (asBytes_inj hnil)

/-- The driver is configured with the credentials as bytes. -/
theorem carried_sta {sta : StaConfig} (h : Carried ssid password sta) :
    sta = staConfig (asBytes ssid) (asBytes password) := by
  cases h with
  | mk word array accepted payload applied run begun set driver =>
    obtain ⟨haccepted, rfl, rfl, hssid, hpassword⟩ := new_accepted accepted word array
    obtain ⟨json, next, hjson, hnext, hconfigSsid, hconfigPassword⟩ := payload_applied haccepted hssid hpassword _
    obtain rfl := Except.ok.inj (payload.symm.trans hjson)
    obtain rfl := Except.ok.inj (applied.symm.trans hnext)
    have hdriver := WifiLink.prepare_driver run begun set (by rw [hconfigSsid]; exact asBytes_ne_nil haccepted.ssid)
    rw [driver, hconfigSsid, hconfigPassword] at hdriver
    exact Option.some.inj hdriver

theorem zero_byte (s : Text) : (0 : UInt8) ∈ asBytes s ↔ '\x00' ∈ s := by
  rw [asBytes, List.mem_flatMap]
  constructor
  · rintro ⟨c, hc, hzero⟩
    rcases byte_of_char hzero with ⟨hascii, hbyte⟩ | ⟨-, hhigh⟩
    · have hle : c.val.toNat ≤ 127 := hascii
      have hnat := congrArg UInt8.toNat hbyte
      rw [UInt32.toNat_toUInt8, Nat.mod_eq_of_lt (by omega)] at hnat
      rwa [show c = '\x00' from Char.ext (UInt32.toNat_inj.1 hnat.symm)] at hc
    · exact absurd hhigh (by decide)
  · rintro hc
    exact ⟨_, hc, by decide⟩

theorem gets_iff (ssid password : Text) :
    Gets (staConfig (asBytes ssid) (asBytes password)) ssid password ↔ Fits ssid password := by
  rw [Gets, staConfig, readField_copyWifiField (by decide), readField_copyWifiField (by decide), length_asBytes,
    length_asBytes, zero_byte, zero_byte, Fits]
  constructor
  · rintro ⟨⟨hssid, hssidZero⟩, hpassword, hpasswordZero⟩
    exact ⟨hssid, hpassword, hssidZero, hpasswordZero⟩
  · rintro ⟨hssid, hpassword, hssidZero, hpasswordZero⟩
    exact ⟨⟨hssid, hssidZero⟩, hpassword, hpasswordZero⟩

/-- Accepted credentials reach the driver. -/
theorem carried (hport : port < 2 ^ 16) (hsecret : secret.length = 32)
    (hnew : LanProvisioning.new ssid password host port secret = .ok provisioning) (state : ConfigState)
    {link : WifiLink} (hrun : link.Reachable) {answers : Answers} (hbegun : answers.begun = .ok)
    (hset : answers.setConfig = .ok) : ∃ json next, provisioning.payloadJson = .ok json ∧
      state.applyJson json = .ok next ∧
      (link.prepareWifiConnection answers (syncKeyboardAudioConfig next)).2.driver =
        some (staConfig (asBytes ssid) (asBytes password)) ∧
      Carried ssid password (staConfig (asBytes ssid) (asBytes password)) := by
  obtain ⟨haccepted, rfl, rfl, hssid, hpassword⟩ := new_accepted hnew hport hsecret
  obtain ⟨json, next, hjson, hnext, hconfigSsid, hconfigPassword⟩ := payload_applied haccepted hssid hpassword state
  have hdriver := WifiLink.prepare_driver hrun hbegun hset (by rw [hconfigSsid]; exact asBytes_ne_nil haccepted.ssid)
  rw [hconfigSsid, hconfigPassword] at hdriver
  exact ⟨json, next, hjson, hnext, hdriver, .mk hport hsecret hnew hjson hnext hrun hbegun hset hdriver⟩

/-- The driver gets accepted credentials exactly when they are shorter than its fields and have no zero
    character, and among these no two pairs configure it alike. -/
theorem driver_gets_credentials (hport : port < 2 ^ 16) (hsecret : secret.length = 32)
    (hnew : LanProvisioning.new ssid password host port secret = .ok provisioning) (state : ConfigState)
    {link : WifiLink} (hrun : link.Reachable) {answers : Answers} (hbegun : answers.begun = .ok)
    (hset : answers.setConfig = .ok) : ∃ json next sta, provisioning.payloadJson = .ok json ∧
      state.applyJson json = .ok next ∧
      (link.prepareWifiConnection answers (syncKeyboardAudioConfig next)).2.driver = some sta ∧
      (Gets sta ssid password ↔ Fits ssid password) ∧
      ∀ otherSsid otherPassword, Carried otherSsid otherPassword sta → Fits ssid password →
        Fits otherSsid otherPassword → otherSsid = ssid ∧ otherPassword = password := by
  obtain ⟨json, next, hjson, hnext, hdriver, -⟩ := carried hport hsecret hnew state hrun hbegun hset
  refine ⟨json, next, _, hjson, hnext, hdriver, gets_iff ssid password, ?_⟩
  rintro otherSsid otherPassword hother hfits hotherFits
  obtain ⟨hssid, hpassword⟩ := (gets_iff ssid password).2 hfits
  have hotherGets := (gets_iff otherSsid otherPassword).2 hotherFits
  rw [← carried_sta hother] at hotherGets
  exact ⟨asBytes_inj (hotherGets.1.symm.trans hssid), asBytes_inj (hotherGets.2.symm.trans hpassword)⟩

namespace WifiSample

def answers : Answers := ⟨.ok, false, .ok, .ok, .ok, .ok⟩
def lanHost : IpAddr := .v4 ⟨192, 168, 1, 10⟩
def sevens : List UInt8 := List.replicate 32 7

/-- The state before the first payload. -/
def state : ConfigState where
  current := { ptt := { hotkey := [] }, editPtt := { hotkey := [] }, keymap := [] }
  lastAppliedJson := []

theorem driver_gets_home : ∃ json next sta,
    (LanProvisioning.new "home".toList "password".toList lanHost 17333 sevens >>= LanProvisioning.payloadJson) =
        .ok json ∧
      state.applyJson json = .ok next ∧
      (WifiLink.prepareWifiConnection {} answers (syncKeyboardAudioConfig next)).2.driver = some sta ∧
      Gets sta "home".toList "password".toList := by
  have hnew : LanProvisioning.new "home".toList "password".toList lanHost 17333 sevens =
      .ok ⟨"home".toList, "password".toList, ⟨192, 168, 1, 10⟩, 17333, sevens⟩ := by decide +kernel
  obtain ⟨json, next, sta, hjson, hnext, hdriver, hgets, -⟩ :=
    driver_gets_credentials (by decide) rfl hnew state .boot (rfl : answers.begun = .ok) rfl
  have hfits : Fits "home".toList "password".toList := by
    refine ⟨by decide +kernel, by decide +kernel, by decide +kernel, by decide +kernel⟩
  refine ⟨json, next, sta, ?_, hnext, hdriver, hgets.2 hfits⟩
  rw [hnew, ok_bind, hjson]

theorem carried_letters {n : Nat} (hn : n = 31 ∨ n = 32) :
    Carried (List.replicate n 'a') [] (staConfig (asBytes (List.replicate n 'a')) []) := by
  have hnew : LanProvisioning.new (List.replicate n 'a') [] lanHost 17333 sevens =
      .ok ⟨List.replicate n 'a', [], ⟨192, 168, 1, 10⟩, 17333, sevens⟩ := by
    rcases hn with rfl | rfl
    · decide +kernel
    · decide +kernel
  obtain ⟨json, next, -, -, -, hcarried⟩ := carried (by decide) rfl hnew state .boot (rfl : answers.begun = .ok) rfl
  exact hcarried

/-- An accepted name of 32 letters loses its last one, and configures the driver as the shorter name does. -/
theorem credentials_cut : (¬ ∀ ssid password sta, Carried ssid password sta → Gets sta ssid password) ∧
    ¬ ∀ ssid password other otherPassword sta, Carried ssid password sta → Carried other otherPassword sta →
      other = ssid ∧ otherPassword = password := by
  have hlong := carried_letters (.inr rfl)
  have hshort := carried_letters (.inl rfl)
  have hsame : staConfig (asBytes (List.replicate 31 'a')) [] = staConfig (asBytes (List.replicate 32 'a')) [] := by
    decide +kernel
  rw [hsame] at hshort
  constructor
  · rintro hgets
    exact absurd (hgets _ _ _ hlong).1 (by decide +kernel)
  · rintro hinjective
    exact absurd (hinjective _ _ _ _ _ hshort hlong).1 (by decide)

end WifiSample

end CodexKeyboard.Provisioning
