import CodexKeyboard.Status.Members

/-! The length of a status: what is sent fits its transport, but for the probe when its numbers and strings are wide. -/

namespace CodexKeyboard.Status

open Schemes
open Schemes.JsonText (Bytes)
open ConfigStatusSnapshot

variable {snapshot : ConfigStatusSnapshot} {members : Members}

/-! ### The length of an object -/

/-- What members take, with quotes, colons and commas. -/
def memberBytes (members : Members) : Nat := (members.map fun member => member.2.length + (lit member.1).length + 4).sum

theorem memberBytes_cons (name : String) (value : Bytes) (members : Members) :
    memberBytes ((name, value) :: members) = value.length + (lit name).length + 4 + memberBytes members :=
  List.sum_cons

theorem memberBytes_nil : memberBytes [] = 0 := rfl

theorem memberBytes_append (members later : Members) :
    memberBytes (members ++ later) = memberBytes members + memberBytes later := by
  rw [memberBytes, List.map_append, List.sum_append]
  rfl

theorem memberText_length (name : String) (value : Bytes) :
    (memberText name value).length = value.length + (lit name).length + 3 := by
  simp only [memberText, quoted, List.length_append, List.length_cons, List.length_nil]
  omega

theorem laterText_length (members : Members) :
    (members.flatMap fun member => comma :: memberText member.1 member.2).length = memberBytes members := by
  induction members with
  | nil => rfl
  | cons member members ih =>
    rw [List.flatMap_cons, List.length_append, ih, List.length_cons, memberText_length, memberBytes_cons]

theorem objectText_length (hmembers : members ≠ []) : (objectText members).length = memberBytes members + 1 := by
  obtain ⟨⟨name, value⟩, members, rfl⟩ := List.exists_cons_of_ne_nil hmembers
  rw [objectText, joined, List.length_cons, List.length_append, List.length_append, laterText_length,
    memberText_length, memberBytes_cons, List.length_singleton]
  omega

theorem quoted_length (bytes : Bytes) : (quoted bytes).length = bytes.length + 2 := by
  simp only [quoted, List.length_append, List.length_cons, List.length_nil]

theorem stringValue_length (value : Bytes) (maxEncodedLen : Nat) (fallback : String) :
    (stringValue value maxEncodedLen fallback).length ≤ maxEncodedLen + 2 := by
  rw [stringValue, quoted_length]
  exact Nat.add_le_add_right (escapeJsonStringBounded_length _ _) 2

theorem boolText_length (value : Bool) : (boolText value).length ≤ 5 := by
  cases value with
  | true => decide
  | false => decide

theorem decimal_length {n digits : Nat} (hdigits : 0 < digits) (h : n < 10 ^ digits) : (decimal n).length ≤ digits := by
  rw [decimal, List.length_map]
  exact (Nat.length_toDigits_le_iff (by decide) hdigits).2 h

theorem uint_length {n digits : Nat} (hdigits : 0 < digits) (h : n < 10 ^ digits) :
    (decimal (n % 2 ^ 32)).length ≤ digits :=
  decimal_length hdigits ((Nat.mod_le _ _).trans_lt h)

theorem signedDecimal_length (i : Int32) : (signedDecimal i.toInt).length ≤ 11 := by
  have hdigits : (decimal i.toInt.natAbs).length ≤ 10 := by
    have hlow := i.le_toInt
    have hhigh := i.toInt_lt
    exact decimal_length (by decide) (by omega)
  rw [signedDecimal]
  split
  next => exact Nat.succ_le_succ hdigits
  next => exact hdigits.trans (by decide)

theorem decimal_word_length (n : UInt32) : (decimal n.toNat).length ≤ 10 :=
  decimal_length (by decide) (n.toNat_lt.trans (by decide))

theorem decimal_words_length (words : List UInt32) :
    (words.map fun n => (decimal n.toNat).length).sum ≤ words.length * 10 := by
  induction words with
  | nil => exact Nat.zero_le _
  | cons n words ih =>
    have hword := decimal_word_length n
    rw [List.map_cons, List.sum_cons, List.length_cons]
    omega

theorem name_lengths : (lit "schema").length = 6 ∧ (lit "firmware").length = 8 ∧ (lit "phase").length = 5 ∧
    (lit "status").length = 6 ∧ (lit "target_platform").length = 15 ∧ (lit "capabilities").length = 12 ∧
    (lit "semantic_actions").length = 16 ∧ (lit "offline_platform_switch").length = 23 ∧
    (lit "config_max_bytes").length = 16 ∧ (lit "usb_management_v1").length = 17 ∧ (lit "saved").length = 5 ∧
    (lit "bytes").length = 5 ∧ (lit "crc16").length = 5 ∧ (lit "ptt_hotkey").length = 10 ∧
    (lit "edit_ptt_hotkey").length = 15 ∧ (lit "hotkey_mode").length = 11 ∧ (lit "battery_mv").length = 10 ∧
    (lit "battery_percent").length = 15 := by
  decide

theorem schema_length : (quoted (lit "ai_keyboard.config_status.v1")).length = 30 := by decide

theorem limit_length : (decimal kConfigMaxJsonLen).length = 4 := by decide

/-! ### The views that are sent unchecked -/

theorem capabilities_length (legacy : Bool) :
    (objectText (capabilityMembers snapshot true legacy)).length ≤ 108 ∧
      (objectText (capabilityMembers snapshot false legacy)).length ≤ 87 := by
  have hlegacy : memberBytes (asked legacy [boolMember "semantic_actions" snapshot.semanticActions,
      boolMember "offline_platform_switch" snapshot.offlinePlatformSwitch]) ≤ 57 := by
    have hsemantic := boolText_length snapshot.semanticActions
    have hoffline := boolText_length snapshot.offlinePlatformSwitch
    cases legacy with
    | true =>
      simp only [asked, if_true, boolMember, memberBytes_cons, memberBytes_nil, name_lengths]
      omega
    | false => exact Nat.zero_le _
  have husb := boolText_length snapshot.usbManagementV1
  have hnonempty (usb : Bool) : capabilityMembers snapshot usb legacy ≠ [] := by
    rw [capabilityMembers]
    exact List.append_ne_nil_of_right_ne_nil _ (List.cons_ne_nil _ _)
  rw [objectText_length (hnonempty true), objectText_length (hnonempty false)]
  rw [capabilityMembers, capabilityMembers, memberBytes_append, memberBytes_append]
  simp only [asked, if_true, Bool.false_eq_true, if_false, boolMember, memberBytes_cons, memberBytes_nil, name_lengths,
    limit_length] at hlegacy ⊢
  omega

theorem sync_length {usb legacy : Bool} :
    memberBytes (schemaMember :: syncMembers snapshot usb legacy) ≤
      204 + (objectText (capabilityMembers snapshot usb legacy)).length := by
  have hfirmware := stringValue_length snapshot.firmware 40 "unknown"
  have hphase := stringValue_length snapshot.phase 12 "status"
  have hstatus := stringValue_length snapshot.status 12 "unknown"
  have hplatform := stringValue_length snapshot.targetPlatform 12 "macos"
  have hsaved := boolText_length snapshot.saved
  simp only [schemaMember, syncMembers, boolMember, memberBytes_cons, memberBytes_nil, name_lengths, schema_length,
    kFirmwareStringMaxLen, kCompactStatusStringMaxLen]
  omega

theorem fingerprint_length (hbytes : snapshot.bytes ≤ kConfigMaxJsonLen) :
    memberBytes (fingerprintMembers snapshot true) ≤ 157 ∧ memberBytes (fingerprintMembers snapshot false) ≤ 27 := by
  have hcount : (decimal (snapshot.bytes % 2 ^ 32)).length ≤ 4 :=
    uint_length (by decide) (hbytes.trans_lt (by decide))
  have hcrc : (decimal (snapshot.crc16.toNat % 2 ^ 32)).length ≤ 5 :=
    uint_length (by decide) (snapshot.crc16.toNat_lt.trans (by decide))
  have hptt := stringValue_length snapshot.pttHotkey 32 ""
  have hedit := stringValue_length snapshot.editPttHotkey 32 ""
  have hmode := stringValue_length snapshot.hotkeyMode 12 ""
  simp only [fingerprintMembers, asked, if_true, Bool.false_eq_true, if_false, uintMember, memberBytes_cons,
    memberBytes_nil, name_lengths, kCompactStatusStringMaxLen]
  omega

theorem battery_length : memberBytes (batteryMembers snapshot false) ≤ 41 := by
  have hmv : (decimal (snapshot.batteryMv.toNat % 2 ^ 32)).length ≤ 5 :=
    uint_length (by decide) (snapshot.batteryMv.toNat_lt.trans (by decide))
  have hpercent : (decimal (snapshot.batteryPercent.toNat % 2 ^ 32)).length ≤ 3 :=
    uint_length (by decide) (snapshot.batteryPercent.toNat_lt.trans (by decide))
  simp only [batteryMembers, asked, Bool.false_and, Bool.false_eq_true, if_false, uintMember, memberBytes_cons,
    memberBytes_nil, name_lengths]
  omega

theorem compact_length (view : CompactView) :
    (buildCompactStatusJson snapshot view).length =
      memberBytes (schemaMember :: syncMembers snapshot view.usbManagementCapability view.legacyCapabilities) +
        memberBytes (asked view.fingerprint (fingerprintMembers snapshot view.fingerprintDetails)) +
        memberBytes (batteryMembers snapshot view.batteryDetail) +
        memberBytes (asked view.audio (compactAudioMembers snapshot.audio view.audioLastError)) +
        memberBytes (asked view.power (compactPowerMembers snapshot.power)) +
        memberBytes (asked view.diagnostics (compactDiagnosticsMembers snapshot.diagnostics view.diagnosticDetails)) +
        memberBytes (asked view.speakerBoot (speakerBootMembers snapshot.speaker)) + 1 := by
  rw [buildCompactStatusJson_eq, objectText_length (List.cons_ne_nil _ _), ← memberBytes_append, ← memberBytes_append,
    ← memberBytes_append, ← memberBytes_append, ← memberBytes_append, ← memberBytes_append]
  rfl

/-- The view with neither overlays nor telemetry fits, with the fingerprint and without. -/
theorem core_length (fingerprint : Bool) (hbytes : snapshot.bytes ≤ kConfigMaxJsonLen) :
    (buildCompactStatusJson snapshot (core fingerprint)).length ≤ kConfigStatusGattSafeLen := by
  have hsync := @sync_length snapshot true true
  have hcapabilities := (@capabilities_length snapshot true).1
  have hbattery := @battery_length snapshot
  have hfingerprint := (fingerprint_length hbytes).1
  rw [compact_length]
  cases fingerprint with
  | true =>
    simp only [core, asked, if_true, Bool.false_eq_true, if_false, memberBytes_nil, kConfigStatusGattSafeLen]
    omega
  | false =>
    simp only [core, asked, Bool.false_eq_true, if_false, memberBytes_nil, kConfigStatusGattSafeLen]
    omega

/-- The last view of a battery refresh fits the budget that is left by the BLE connection. -/
theorem batteryCore_length (hbytes : snapshot.bytes ≤ kConfigMaxJsonLen) :
    (buildCompactStatusJson snapshot batteryCore).length ≤
      kConfigStatusGattSafeLen - kConfigStatusBatteryBleReserveLen := by
  have hsync := @sync_length snapshot false true
  have hcapabilities := (@capabilities_length snapshot true).2
  have hbattery := @battery_length snapshot
  have hfingerprint := (fingerprint_length hbytes).2
  rw [compact_length]
  simp only [batteryCore, batteryWithoutPower, batteryView, asked, Bool.false_eq_true, if_false,
    if_true, memberBytes_nil, kConfigStatusGattSafeLen, kConfigStatusBatteryBleReserveLen]
  omega

theorem firstFitting_length {limit : Nat} {views : List Bytes} {last : Bytes} (hlast : last.length ≤ limit) :
    (firstFitting limit views last).length ≤ limit := by
  induction views with
  | nil => exact hlast
  | cons view views ih =>
    rw [firstFitting]
    split
    next hfits => exact hfits
    next => exact ih

/-! ### The probe -/

/-- What the strings, the word and the digits of a probe view take. -/
def probeWidth (snapshot : ConfigStatusSnapshot) (speaker : SpeakerProbeSnapshot) : Nat :=
  (escapeJsonStringBounded (selected snapshot.firmware (some "unknown")) 36).length +
    (escapeJsonStringBounded (selected snapshot.targetPlatform (some "macos")) kCompactStatusStringMaxLen).length +
    (boolText snapshot.saved).length + (decimal snapshot.bytes).length + (decimal snapshot.crc16.toNat).length +
    (signedDecimal speaker.rawError.toInt).length +
    ([speaker.version.toNat, speaker.generation.toNat, speaker.stage.toNat, speaker.result.toNat, speaker.error.toNat,
      speaker.microphoneGeneration.toNat, speaker.firstSubmitUs.toNat, speaker.decodeTotalUs.toNat,
      speaker.decodeMaxUs.toNat, speaker.decodedFrames.toNat, speaker.decodedPcmBytes.toNat,
      speaker.stackHighWaterBytes.toNat, speaker.heapBeginFree.toNat, speaker.heapTerminalFree.toNat,
      speaker.heapLargestBlock.toNat, speaker.heapMinimumFree.toNat, speaker.decodedAbsPeak.toNat,
      speaker.decodedRmsPermille.toNat].map fun metric => (decimal metric).length).sum

theorem metric_lengths : (lit "ai_keyboard.config_status.v1").length = 28 ∧ (lit "spk_probe").length = 9 ∧
    (lit "probe").length = 5 ∧ (lit "spk").length = 3 ∧ (lit "v").length = 1 ∧ (lit "g").length = 1 ∧
    (lit "st").length = 2 ∧ (lit "r").length = 1 ∧ (lit "e").length = 1 ∧ (lit "x").length = 1 ∧
    (lit "mg").length = 2 ∧ (lit "fu").length = 2 ∧ (lit "du").length = 2 ∧ (lit "mu").length = 2 ∧
    (lit "n").length = 1 ∧ (lit "p").length = 1 ∧ (lit "sw").length = 2 ∧ (lit "h0").length = 2 ∧
    (lit "h1").length = 2 ∧ (lit "hl").length = 2 ∧ (lit "hm").length = 2 ∧ (lit "pk").length = 2 ∧
    (lit "rm").length = 2 := by
  decide

theorem probe_length (hbytes : snapshot.bytes ≤ kConfigMaxJsonLen) (speaker : SpeakerProbeSnapshot) :
    (buildSpeakerProbeStatusJson snapshot speaker).length = probeWidth snapshot speaker + 296 := by
  have hcount : snapshot.bytes % 2 ^ 32 = snapshot.bytes := Nat.mod_eq_of_lt (hbytes.trans_lt (by decide))
  have hword (n : UInt32) : n.toNat % 2 ^ 32 = n.toNat := Nat.mod_eq_of_lt n.toNat_lt
  have hhalf (n : UInt16) : n.toNat % 2 ^ 32 = n.toNat := Nat.mod_eq_of_lt (n.toNat_lt.trans (by decide))
  have hbyte (n : UInt8) : n.toNat % 2 ^ 32 = n.toNat := Nat.mod_eq_of_lt (n.toNat_lt.trans (by decide))
  have hcapabilities : (objectText [("config_max_bytes", decimal kConfigMaxJsonLen)]).length = 25 := by decide
  have hspk : (objectText (speakerCoreMembers speaker ++ probeMetricMembers speaker)).length =
      memberBytes (speakerCoreMembers speaker ++ probeMetricMembers speaker) + 1 :=
    objectText_length (List.cons_ne_nil _ _)
  rw [buildSpeakerProbeStatusJson_eq, objectText_length (List.cons_ne_nil _ _)]
  rw [probeMembers, schemaMember]
  simp only [uintMember, boolMember, memberBytes_cons, hspk]
  simp only [memberBytes_append, speakerCoreMembers, probeMetricMembers, uintMember, intMember, memberBytes_cons,
    memberBytes_nil, hcapabilities, stringValue, quoted_length, name_lengths, metric_lengths,
    hcount, hword, hhalf, hbyte, probeWidth, List.map_cons, List.map_nil, List.sum_cons, List.sum_nil]
  omega

/-- Both statuses fit their transport, and a battery refresh leaves room for the BLE connection. -/
structure FitsTransport (snapshot : ConfigStatusSnapshot) : Prop where
  status : (buildConfigStatusJson snapshot).length ≤ kConfigStatusGattSafeLen
  battery : snapshot.phase = lit "battery" →
    (buildConfigStatusJson snapshot).length ≤ kConfigStatusGattSafeLen - kConfigStatusBatteryBleReserveLen
  confirmation : (buildConfigConfirmationStatusJson snapshot).length ≤ kConfigStatusGattSafeLen

theorem probe_phase {speaker : SpeakerProbeSnapshot} (h : snapshot.probe = some speaker) :
    snapshot.phase = lit "spk_probe" := by
  rw [probe] at h
  split at h
  next hphase => exact hphase
  next => cases h

theorem probe_status {speaker : SpeakerProbeSnapshot} (h : snapshot.probe = some speaker) :
    buildConfigStatusJson snapshot = buildSpeakerProbeStatusJson snapshot speaker := by
  rw [buildConfigStatusJson, h]

theorem battery_status_length (hbytes : snapshot.bytes ≤ kConfigMaxJsonLen) (hphase : snapshot.phase = lit "battery") :
    (buildConfigStatusJson snapshot).length ≤ kConfigStatusGattSafeLen - kConfigStatusBatteryBleReserveLen := by
  have hprobe : snapshot.probe = none := by
    rw [probe, if_neg]
    rw [hphase]
    decide
  rw [buildConfigStatusJson, hprobe]
  dsimp only
  rw [if_pos hphase]
  exact firstFitting_length (batteryCore_length hbytes)

theorem status_length (hbytes : snapshot.bytes ≤ kConfigMaxJsonLen) (hprobe : snapshot.probe = none) :
    (buildConfigStatusJson snapshot).length ≤ kConfigStatusGattSafeLen := by
  by_cases hphase : snapshot.phase = lit "battery"
  · exact (battery_status_length hbytes hphase).trans (Nat.sub_le _ _)
  · rw [buildConfigStatusJson, hprobe]
    dsimp only
    rw [if_neg hphase]
    split
    · exact firstFitting_length (core_length false hbytes)
    · exact firstFitting_length (core_length _ hbytes)

/-- A status fits unless it is a probe whose strings and numbers are too wide together. -/
theorem fitsTransport_iff (snapshot : ConfigStatusSnapshot) (hbytes : snapshot.bytes ≤ kConfigMaxJsonLen) :
    FitsTransport snapshot ↔ ∀ speaker ∈ snapshot.probe, probeWidth snapshot speaker ≤ 216 := by
  have hconfirmation := core_length true hbytes
  cases hprobe : snapshot.probe with
  | some speaker =>
    have hlength := probe_length hbytes speaker
    constructor
    · intro hfits other hother
      cases hother
      have hsafe := hfits.status
      rw [probe_status hprobe, hlength, kConfigStatusGattSafeLen] at hsafe
      omega
    · intro hwidth
      have hnarrow := hwidth speaker rfl
      refine ⟨?_, battery_status_length hbytes, hconfirmation⟩
      rw [probe_status hprobe, hlength, kConfigStatusGattSafeLen]
      omega
  | none =>
    refine ⟨fun _ speaker hspeaker => absurd hspeaker (by simp), fun _ => ?_⟩
    exact ⟨status_length hbytes hprobe, battery_status_length hbytes, hconfirmation⟩

/-- A probe with the widest numbers there are in it, of a platform with a long name. -/
def widestProbe : ConfigStatusSnapshot where
  firmware := List.replicate 40 102
  phase := lit "spk_probe"
  bytes := 2048
  crc16 := 0xFFFF
  targetPlatform := lit "windows-host"
  speaker := some
    { present := true, stage := 21, result := 6, error := 19, generation := 0xFFFFFFFF, rawError := -2147483648
      microphoneGeneration := 0xFFFFFFFF, firstSubmitUs := 0xFFFFFFFF, decodeTotalUs := 0xFFFFFFFF
      decodeMaxUs := 0xFFFFFFFF, decodedFrames := 0xFFFFFFFF, decodedPcmBytes := 0xFFFFFFFF
      stackHighWaterBytes := 0xFFFFFFFF, heapBeginFree := 0xFFFFFFFF, heapTerminalFree := 0xFFFFFFFF
      heapLargestBlock := 0xFFFFFFFF, heapMinimumFree := 0xFFFFFFFF, decodedAbsPeak := 0xFFFFFFFF
      decodedRmsPermille := 0xFFFFFFFF }

/-- The widest probe takes 515 bytes. -/
theorem fitsTransport_widestProbe : ¬ FitsTransport widestProbe := by
  have hlong : (buildConfigStatusJson widestProbe).length = 515 := by decide +kernel
  intro hfits
  have hsafe := hfits.status
  rw [hlong] at hsafe
  exact absurd hsafe (by decide)

/-- A probe before its first playback. -/
def freshProbe : ConfigStatusSnapshot where
  phase := lit "spk_probe"
  speaker := some { present := true }

theorem fitsTransport_freshProbe : FitsTransport freshProbe := by
  refine (fitsTransport_iff freshProbe (by decide)).2 ?_
  intro speaker hspeaker
  have hprobe : freshProbe.probe = some { present := true } := rfl
  rw [hprobe] at hspeaker
  cases hspeaker
  decide +kernel

/-! ### What is published -/

/-- `publish_config_status` behind the snapshot: what goes to the transports, nothing if even that is too long. -/
def publishConfigStatus (configConfirmation : Bool) (snapshot : ConfigStatusSnapshot) : Bytes :=
  let built := if configConfirmation then buildConfigConfirmationStatusJson snapshot else buildConfigStatusJson snapshot
  let statusJson :=
    if kConfigStatusGattSafeLen < built.length then buildConfigConfirmationStatusJson snapshot else built
  if kConfigStatusGattSafeLen < statusJson.length then [] else statusJson

/-- Something is published for every snapshot: the confirmation when it is asked for or the status is too long. -/
theorem publishConfigStatus_eq (configConfirmation : Bool) (hbytes : snapshot.bytes ≤ kConfigMaxJsonLen) :
    publishConfigStatus configConfirmation snapshot =
      if configConfirmation ∨ kConfigStatusGattSafeLen < (buildConfigStatusJson snapshot).length then
        buildConfigConfirmationStatusJson snapshot
      else buildConfigStatusJson snapshot := by
  have hconfirmation : ¬ kConfigStatusGattSafeLen < (buildConfigConfirmationStatusJson snapshot).length :=
    (core_length true hbytes).not_gt
  cases configConfirmation with
  | true => simp only [publishConfigStatus, if_true, if_neg hconfirmation, true_or]
  | false =>
    by_cases hlong : kConfigStatusGattSafeLen < (buildConfigStatusJson snapshot).length
    · simp only [publishConfigStatus, Bool.false_eq_true, if_false, if_pos hlong, if_neg hconfirmation]
      exact (if_pos (.inr hlong)).symm
    · simp only [publishConfigStatus, Bool.false_eq_true, if_false, if_neg hlong]
      exact (if_neg (not_or.2 ⟨not_false, hlong⟩)).symm

theorem publishConfigStatus_length (configConfirmation : Bool) (hbytes : snapshot.bytes ≤ kConfigMaxJsonLen) :
    (publishConfigStatus configConfirmation snapshot).length ≤ kConfigStatusGattSafeLen := by
  rw [publishConfigStatus_eq configConfirmation hbytes]
  split
  next => exact core_length true hbytes
  next hkept => exact Nat.le_of_not_lt (not_or.1 hkept).2

/-- The enumerations of a probe are the firmware's own. -/
structure SpeakerProbeSnapshot.InRange (speaker : SpeakerProbeSnapshot) : Prop where
  version : speaker.version = 1
  stage : speaker.stage ≤ 21
  result : speaker.result ≤ 6
  error : speaker.error ≤ 19

theorem probeWidth_inRange {speaker : SpeakerProbeSnapshot} (hbytes : snapshot.bytes ≤ kConfigMaxJsonLen)
    (hplatform : snapshot.targetPlatform = lit "windows" ∨ snapshot.targetPlatform = lit "macos")
    (hrange : speaker.InRange) : probeWidth snapshot speaker ≤ 214 := by
  have hfirmware := escapeJsonStringBounded_length (selected snapshot.firmware (some "unknown")) 36
  have hname : (escapeJsonStringBounded (selected snapshot.targetPlatform (some "macos"))
      kCompactStatusStringMaxLen).length ≤ 7 := by
    rcases hplatform with hwindows | hmac
    · rw [hwindows]
      decide
    · rw [hmac]
      decide
  have hsaved := boolText_length snapshot.saved
  have hcount : (decimal snapshot.bytes).length ≤ 4 := decimal_length (by decide) (hbytes.trans_lt (by decide))
  have hcrc : (decimal snapshot.crc16.toNat).length ≤ 5 :=
    decimal_length (by decide) (snapshot.crc16.toNat_lt.trans (by decide))
  have hraw := signedDecimal_length speaker.rawError
  have hversion : (decimal speaker.version.toNat).length ≤ 1 := by
    rw [hrange.version]
    decide
  have hstage : (decimal speaker.stage.toNat).length ≤ 2 :=
    decimal_length (by decide) ((UInt8.le_iff_toNat_le.1 hrange.stage).trans_lt (by decide))
  have hresult : (decimal speaker.result.toNat).length ≤ 1 :=
    decimal_length (by decide) ((UInt8.le_iff_toNat_le.1 hrange.result).trans_lt (by decide))
  have herror : (decimal speaker.error.toNat).length ≤ 2 :=
    decimal_length (by decide) ((UInt8.le_iff_toNat_le.1 hrange.error).trans_lt (by decide))
  have hgeneration := decimal_word_length speaker.generation
  have hwords := decimal_words_length [speaker.microphoneGeneration, speaker.firstSubmitUs, speaker.decodeTotalUs,
    speaker.decodeMaxUs, speaker.decodedFrames, speaker.decodedPcmBytes, speaker.stackHighWaterBytes,
    speaker.heapBeginFree, speaker.heapTerminalFree, speaker.heapLargestBlock, speaker.heapMinimumFree,
    speaker.decodedAbsPeak, speaker.decodedRmsPermille]
  have hmetrics := Nat.add_le_add hversion (Nat.add_le_add hgeneration (Nat.add_le_add hstage
    (Nat.add_le_add hresult (Nat.add_le_add herror hwords))))
  exact Nat.add_le_add (Nat.add_le_add (Nat.add_le_add (Nat.add_le_add (Nat.add_le_add (Nat.add_le_add hfirmware hname)
    hsaved) hcount) hcrc) hraw) hmetrics

/-- With a platform of the firmware's and enumerations in range the view of a probe is published as it is built. -/
theorem publishConfigStatus_probe {speaker : SpeakerProbeSnapshot} (hbytes : snapshot.bytes ≤ kConfigMaxJsonLen)
    (hprobe : snapshot.probe = some speaker)
    (hplatform : snapshot.targetPlatform = lit "windows" ∨ snapshot.targetPlatform = lit "macos")
    (hrange : speaker.InRange) :
    publishConfigStatus false snapshot = buildSpeakerProbeStatusJson snapshot speaker ∧
      (buildSpeakerProbeStatusJson snapshot speaker).length ≤ 510 := by
  have hlength : (buildSpeakerProbeStatusJson snapshot speaker).length ≤ 510 := by
    rw [probe_length hbytes]
    exact Nat.add_le_add_right (probeWidth_inRange hbytes hplatform hrange) 296
  refine ⟨?_, hlength⟩
  rw [publishConfigStatus_eq false hbytes, probe_status hprobe, if_neg]
  rw [kConfigStatusGattSafeLen]
  simp only [Bool.false_eq_true, false_or]
  omega

end CodexKeyboard.Status
