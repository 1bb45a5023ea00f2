import CodexKeyboard.Status.Views

/-! The members of each view: a view is the text of an object whose members are known. -/

namespace CodexKeyboard.Status

open Schemes
open Schemes.JsonText (Bytes)

abbrev Members := List (String × Bytes)

variable {snapshot : ConfigStatusSnapshot}

def asked (included : Bool) (members : Members) : Members := if included then members else []

theorem asked_true (members : Members) : asked true members = members := rfl

theorem asked_false (members : Members) : asked false members = [] := rfl

theorem whenAsked_written (included : Bool) (members : Members) :
    whenAsked included (written members) = written (asked included members) := by
  cases included with
  | true => rfl
  | false => rfl

def stringValue (value : Bytes) (maxEncodedLen : Nat) (fallback : String) : Bytes :=
  quoted (escapeJsonStringBounded (selected value (some fallback)) maxEncodedLen)

theorem boundedMember_some (name : String) (value : Bytes) (maxEncodedLen : Nat) (fallback : String) :
    boundedMember name value maxEncodedLen (some fallback) = [(name, stringValue value maxEncodedLen fallback)] := by
  rw [boundedMember, if_neg fun h => absurd h.2 (by simp)]
  rfl

def uintMember (name : String) (value : Nat) : String × Bytes := (name, decimal (value % 2 ^ 32))

def intMember (name : String) (value : Int32) : String × Bytes := (name, signedDecimal value.toInt)

def boolMember (name : String) (value : Bool) : String × Bytes := (name, boolText value)

/-! ### Compact views -/

def capabilityMembers (snapshot : ConfigStatusSnapshot) (usb legacy : Bool) : Members :=
  asked legacy [boolMember "semantic_actions" snapshot.semanticActions,
      boolMember "offline_platform_switch" snapshot.offlinePlatformSwitch] ++
    ("config_max_bytes", decimal kConfigMaxJsonLen) ::
      asked usb [boolMember "usb_management_v1" snapshot.usbManagementV1]

def syncMembers (snapshot : ConfigStatusSnapshot) (usb legacy : Bool) : Members :=
  [("firmware", stringValue snapshot.firmware kFirmwareStringMaxLen "unknown"),
    ("phase", stringValue snapshot.phase kCompactStatusStringMaxLen "status"),
    ("status", stringValue snapshot.status kCompactStatusStringMaxLen "unknown"),
    ("target_platform", stringValue snapshot.targetPlatform kCompactStatusStringMaxLen "macos"),
    ("capabilities", objectText (capabilityMembers snapshot usb legacy)),
    boolMember "saved" snapshot.saved]

def fingerprintMembers (snapshot : ConfigStatusSnapshot) (details : Bool) : Members :=
  uintMember "bytes" snapshot.bytes :: uintMember "crc16" snapshot.crc16.toNat ::
    asked details
      [("ptt_hotkey", stringValue snapshot.pttHotkey 32 ""),
        ("edit_ptt_hotkey", stringValue snapshot.editPttHotkey 32 ""),
        ("hotkey_mode", stringValue snapshot.hotkeyMode kCompactStatusStringMaxLen "")]

def batteryMembers (snapshot : ConfigStatusSnapshot) (detail : Bool) : Members :=
  uintMember "battery_mv" snapshot.batteryMv.toNat :: uintMember "battery_percent" snapshot.batteryPercent.toNat ::
    asked (detail && snapshot.battery.state != [])
      (uintMember "battery_raw_mv" snapshot.battery.rawMv.toNat ::
        (boundedMember "battery_state" snapshot.battery.state kCompactStatusStringMaxLen none ++
          [uintMember "battery_sample_age_ms" snapshot.battery.sampleAgeMs.toNat,
            boolMember "battery_full_anchor" snapshot.battery.fullAnchorReady]))

def compactPowerMembers (power : PowerDiagnosticsSnapshot) : Members :=
  asked (power.mode != []) [("power", objectText
    [boolMember "compact" true, ("mode", stringValue power.mode kCompactStatusStringMaxLen "unknown"),
      ("last_wake", stringValue power.lastWake kCompactStatusStringMaxLen "unknown")])]

def compactDiagnosticsFields (diagnostics : BoardDiagnosticsSnapshot) (details : Bool) : Members :=
  boolMember "compact" true ::
    (boundedMember "board" diagnostics.board kCompactStatusStringMaxLen none ++
      asked details
        (boundedMember "keys" diagnostics.keys kCompactStatusStringMaxLen none ++
          boundedMember "enc" diagnostics.encoder kCompactStatusStringMaxLen none ++
          boundedMember "last" diagnostics.lastInput 24 none ++
          [uintMember "in_drop" diagnostics.inputDrops.toNat, uintMember "enc_drop" diagnostics.encoderDrops.toNat]))

def compactDiagnosticsMembers (diagnostics : BoardDiagnosticsSnapshot) (details : Bool) : Members :=
  asked (diagnostics.board != []) [("diag", objectText (compactDiagnosticsFields diagnostics details))]

def compactAudioFields (audio : AudioStatusSnapshot) (lastError : Bool) : Members :=
  boolMember "compact" true :: boolMember "enabled" audio.enabled ::
    ("source", stringValue audio.source kCompactStatusStringMaxLen "unknown") ::
    (boundedMember "microphone_source" audio.microphoneSource kCompactStatusStringMaxLen none ++
      boundedMember "capture" audio.capture kAudioCaptureStringMaxLen none ++
      boundedMember "control_state" audio.controlState 40 none ++
      boundedMember "host" audio.host 24 none ++
      asked (decide (0 < audio.port.toInt)) [intMember "port" audio.port] ++
      asked lastError (boundedMember "last_error" audio.lastError 32 none))

def compactAudioMembers (audio : AudioStatusSnapshot) (lastError : Bool) : Members :=
  asked (audio.source != [] || audio.enabled) [("audio", objectText (compactAudioFields audio lastError))]

def speakerCoreMembers (speaker : SpeakerProbeSnapshot) : Members :=
  [uintMember "v" speaker.version.toNat, uintMember "g" speaker.generation.toNat, uintMember "st" speaker.stage.toNat,
    uintMember "r" speaker.result.toNat, uintMember "e" speaker.error.toNat, intMember "x" speaker.rawError]

def speakerBootMembers : Option SpeakerProbeSnapshot → Members
  | none => []
  | some speaker => asked speaker.present [("spk", objectText (speakerCoreMembers speaker))]

def compactMembers (snapshot : ConfigStatusSnapshot) (view : CompactView) : Members :=
  syncMembers snapshot view.usbManagementCapability view.legacyCapabilities ++
    asked view.fingerprint (fingerprintMembers snapshot view.fingerprintDetails) ++
    batteryMembers snapshot view.batteryDetail ++
    asked view.audio (compactAudioMembers snapshot.audio view.audioLastError) ++
    asked view.power (compactPowerMembers snapshot.power) ++
    asked view.diagnostics (compactDiagnosticsMembers snapshot.diagnostics view.diagnosticDetails) ++
    asked view.speakerBoot (speakerBootMembers snapshot.speaker)

def schemaMember : String × Bytes := ("schema", quoted (lit "ai_keyboard.config_status.v1"))

theorem statusText_written (members : Members) :
    statusText (written members) = objectText (schemaMember :: members) := by
  rw [statusText, written_behind]
  rfl

theorem appendSyncCore_written (usb legacy : Bool) :
    appendSyncCore snapshot usb legacy = written (syncMembers snapshot usb legacy) := by
  funext out
  simp only [appendSyncCore, appendBoundedStringField_written, boundedMember_some, appendBoolField_written,
    appendMember_written, ← written_append, whenAsked_written, appendObject_written, List.append_assoc]
  rfl

theorem appendBatterySummary_written (detail : Bool) :
    appendBatterySummary snapshot detail = written (batteryMembers snapshot detail) := by
  funext out
  simp only [appendBatterySummary, appendBoundedStringField_written, appendBoolField_written, appendUintField_written,
    ← written_append, whenAsked_written, List.append_assoc]
  rfl

theorem appendCompactPower_written (power : PowerDiagnosticsSnapshot) :
    appendCompactPower power = written (compactPowerMembers power) := by
  funext out
  simp only [appendCompactPower, appendBoundedStringField_written, boundedMember_some, appendBoolField_written,
    ← written_append, whenAsked_written, appendObject_written]
  rfl

theorem appendCompactDiagnostics_written (diagnostics : BoardDiagnosticsSnapshot) (details : Bool) :
    appendCompactDiagnostics diagnostics details = written (compactDiagnosticsMembers diagnostics details) := by
  funext out
  simp only [appendCompactDiagnostics, appendBoundedStringField_written, appendBoolField_written,
    appendUintField_written,
    ← written_append, whenAsked_written, appendObject_written, compactDiagnosticsMembers, compactDiagnosticsFields,
    List.append_assoc]
  rfl

theorem appendCompactAudio_written (audio : AudioStatusSnapshot) (lastError : Bool) :
    appendCompactAudio audio lastError = written (compactAudioMembers audio lastError) := by
  funext out
  simp only [appendCompactAudio, appendBoundedStringField_written, boundedMember_some, appendBoolField_written,
    appendIntField_written, ← written_append, whenAsked_written, appendObject_written, compactAudioMembers,
    compactAudioFields, List.append_assoc]
  rfl

theorem appendSpeakerCore_written (speaker : SpeakerProbeSnapshot) :
    appendSpeakerCore speaker = written (speakerCoreMembers speaker) := by
  funext out
  simp only [appendSpeakerCore, appendUintField_written, appendIntField_written, ← written_append]
  rfl

theorem appendCompactSpeakerBoot_written (speaker : Option SpeakerProbeSnapshot) :
    appendCompactSpeakerBoot speaker = written (speakerBootMembers speaker) := by
  funext out
  cases speaker with
  | none => rfl
  | some speaker =>
    simp only [appendCompactSpeakerBoot, appendSpeakerCore_written, appendObject_written, whenAsked_written]
    rfl

theorem buildCompactStatusJson_eq (view : CompactView) :
    buildCompactStatusJson snapshot view = objectText (schemaMember :: compactMembers snapshot view) := by
  rw [← statusText_written, buildCompactStatusJson]
  congr 1
  funext out
  simp only [appendSyncCore_written, appendUintField_written, appendBoundedStringField_written, boundedMember_some,
    appendBatterySummary_written, appendCompactAudio_written, appendCompactPower_written,
    appendCompactDiagnostics_written, appendCompactSpeakerBoot_written, ← written_append, whenAsked_written,
    compactMembers, List.append_assoc]
  rfl

/-! ### The probe -/

def probeMetricMembers (speaker : SpeakerProbeSnapshot) : Members :=
  [uintMember "mg" speaker.microphoneGeneration.toNat, uintMember "fu" speaker.firstSubmitUs.toNat,
    uintMember "du" speaker.decodeTotalUs.toNat, uintMember "mu" speaker.decodeMaxUs.toNat,
    uintMember "n" speaker.decodedFrames.toNat, uintMember "p" speaker.decodedPcmBytes.toNat,
    uintMember "sw" speaker.stackHighWaterBytes.toNat, uintMember "h0" speaker.heapBeginFree.toNat,
    uintMember "h1" speaker.heapTerminalFree.toNat, uintMember "hl" speaker.heapLargestBlock.toNat,
    uintMember "hm" speaker.heapMinimumFree.toNat, uintMember "pk" speaker.decodedAbsPeak.toNat,
    uintMember "rm" speaker.decodedRmsPermille.toNat]

def probeMembers (snapshot : ConfigStatusSnapshot) (speaker : SpeakerProbeSnapshot) : Members :=
  [("firmware", stringValue snapshot.firmware 36 "unknown"), ("phase", quoted (lit "spk_probe")),
    ("status", quoted (lit "probe")),
    ("target_platform", stringValue snapshot.targetPlatform kCompactStatusStringMaxLen "macos"),
    ("capabilities", objectText [("config_max_bytes", decimal kConfigMaxJsonLen)]), boolMember "saved" snapshot.saved,
    uintMember "bytes" snapshot.bytes, uintMember "crc16" snapshot.crc16.toNat,
    ("spk", objectText (speakerCoreMembers speaker ++ probeMetricMembers speaker))]

theorem boundedMember_probe : boundedMember "phase" (lit "spk_probe") kCompactStatusStringMaxLen none =
    [("phase", quoted (lit "spk_probe"))] ∧
    boundedMember "status" (lit "probe") kCompactStatusStringMaxLen none = [("status", quoted (lit "probe"))] := by
  decide

theorem buildSpeakerProbeStatusJson_eq (speaker : SpeakerProbeSnapshot) :
    buildSpeakerProbeStatusJson snapshot speaker = objectText (schemaMember :: probeMembers snapshot speaker) := by
  rw [← statusText_written, buildSpeakerProbeStatusJson]
  congr 1
  funext out
  simp only [appendBoundedStringField_written, boundedMember_some, boundedMember_probe.1, boundedMember_probe.2,
    appendBoolField_written, appendUintField_written, appendMember_written, appendSpeakerCore_written,
    ← written_append, appendObject_written, List.append_assoc]
  rfl

/-! ### The full view -/

def plainMember (name : String) (value : Bytes) : String × Bytes := (name, quoted (escapeJsonString value))

theorem plainString_written (name : String) (value : Bytes) :
    plainString name value = written [plainMember name value] := rfl

def fullAudioFields (audio : AudioStatusSnapshot) : Members :=
  boolMember "enabled" audio.enabled ::
    (stringMember "source" audio.source kStatusStringMaxLen ++
      (stringMember "microphone_source" audio.microphoneSource kStatusStringMaxLen ++
      (stringMember "capture" audio.capture kStatusStringMaxLen ++
      (stringMember "host" audio.host kStatusStringMaxLen ++
      (asked (decide (0 < audio.port.toInt)) [intMember "port" audio.port] ++
      (uintMember "sent_packets" audio.sentPackets.toNat :: uintMember "sent_bytes" audio.sentBytes.toNat ::
        uintMember "last_rms_milli" audio.lastRmsMilli.toNat :: uintMember "peak_rms_milli" audio.peakRmsMilli.toNat ::
        uintMember "send_errors" audio.sendErrors.toNat :: uintMember "read_errors" audio.readErrors.toNat ::
        uintMember "recovery_count" audio.recoveryCount.toNat ::
        uintMember "session_generation" audio.sessionGeneration.toNat ::
        ("session_id", decimal audio.sessionId.toNat) ::
        (stringMember "stream_phase" audio.streamPhase kStatusStringMaxLen ++
          (stringMember "stop_reason" audio.stopReason kStatusStringMaxLen ++
          (stringMember "control_state" audio.controlState kStatusStringMaxLen ++
            stringMember "last_error" audio.lastError kStatusStringMaxLen)))))))))

def fullPowerFields (power : PowerDiagnosticsSnapshot) : Members :=
  stringMember "mode" power.mode kStatusStringMaxLen ++
    (uintMember "poll_ms" power.pollMs.toNat :: uintMember "idle_ms" power.idleMs.toNat ::
      uintMember "deep_entries" power.deepEntries.toNat :: uintMember "deep_ms" power.deepMs.toNat ::
      uintMember "last_enter_ms" power.lastEnterMs.toNat :: uintMember "last_exit_ms" power.lastExitMs.toNat ::
      (stringMember "last_wake" power.lastWake kStatusStringMaxLen ++
        (uintMember "wake_edges" power.wakeEdges.toNat :: boolMember "usb" power.usb ::
          asked (power.cycleSeq != 0)
            (uintMember "cycle_seq" power.cycleSeq.toNat :: uintMember "cycle_idle_ms" power.cycleIdleMs.toNat ::
              uintMember "cycle_deep_ms" power.cycleDeepMs.toNat :: uintMember "cycle_flags" power.cycleFlags.toNat ::
              stringMember "cycle_wake" power.cycleWake kStatusStringMaxLen))))

def fullDiagnosticsFields (diagnostics : BoardDiagnosticsSnapshot) : Members :=
  stringMember "board" diagnostics.board kStatusStringMaxLen ++
    (stringMember "keys" diagnostics.keys kStatusStringMaxLen ++
    (stringMember "enc" diagnostics.encoder kStatusStringMaxLen ++
    (stringMember "last" diagnostics.lastInput kStatusStringMaxLen ++
      [uintMember "last_age_ms" diagnostics.lastInputAgeMs.toNat, intMember "wake" diagnostics.keyWake,
        intMember "vin" diagnostics.externalPower, intMember "chrg" diagnostics.charge,
        intMember "pwr_gpio" diagnostics.pwrGpio, intMember "pwr_level" diagnostics.pwrLevel,
        intMember "pwr_active" diagnostics.pwrActive, intMember "led_gpio" diagnostics.ledGpio,
        uintMember "in_edge" diagnostics.inputEdges.toNat, uintMember "in_drop" diagnostics.inputDrops.toNat,
        uintMember "in_evt" diagnostics.inputEvents.toNat, uintMember "in_filter" diagnostics.inputFiltered.toNat,
        uintMember "enc_edge" diagnostics.encoderEdges.toNat, uintMember "enc_step" diagnostics.encoderSteps.toNat,
        uintMember "enc_invalid" diagnostics.encoderInvalid.toNat,
        uintMember "enc_partial" diagnostics.encoderPartial.toNat,
        uintMember "enc_drop" diagnostics.encoderDrops.toNat])))

def fullBatteryMembers (battery : BatteryStatusSnapshot) : Members :=
  asked (battery.state != [])
    [uintMember "battery_raw_mv" battery.rawMv.toNat, plainMember "battery_state" battery.state,
      uintMember "battery_sample_age_ms" battery.sampleAgeMs.toNat,
      boolMember "battery_full_anchor" battery.fullAnchorReady]

def fullMembers (snapshot : ConfigStatusSnapshot) : Members :=
  plainMember "firmware" snapshot.firmware :: plainMember "phase" snapshot.phase ::
    plainMember "status" snapshot.status :: ("bytes", decimal snapshot.bytes) ::
    uintMember "crc16" snapshot.crc16.toNat :: plainMember "ptt_hotkey" snapshot.pttHotkey ::
    plainMember "edit_ptt_hotkey" snapshot.editPttHotkey :: plainMember "hotkey_mode" snapshot.hotkeyMode ::
    plainMember "target_platform" snapshot.targetPlatform ::
    ("capabilities", objectText (capabilityMembers snapshot true true)) :: boolMember "saved" snapshot.saved ::
    uintMember "battery_mv" snapshot.batteryMv.toNat :: uintMember "battery_percent" snapshot.batteryPercent.toNat ::
    (fullBatteryMembers snapshot.battery ++
      (asked snapshot.hasAudioStatus [("audio", objectText (fullAudioFields snapshot.audio))] ++
      (asked (snapshot.power.mode != []) [("power", objectText (fullPowerFields snapshot.power))] ++
        asked (!snapshot.hasAudioStatus && snapshot.diagnostics.board != [])
          [("diag", objectText (fullDiagnosticsFields snapshot.diagnostics))])))

theorem appendFullAudio_written (audio : AudioStatusSnapshot) :
    appendFullAudio audio = written [("audio", objectText (fullAudioFields audio))] := by
  rw [appendFullAudio, ← appendObject_written]
  congr 1
  funext out
  simp only [appendStringField_written, appendBoolField_written, appendUintField_written, appendUint64Field_written,
    appendIntField_written, ← written_append, whenAsked_written, List.append_assoc]
  rfl

theorem appendFullPower_written (power : PowerDiagnosticsSnapshot) :
    appendFullPower power = written [("power", objectText (fullPowerFields power))] := by
  rw [appendFullPower, ← appendObject_written]
  congr 1
  funext out
  simp only [appendStringField_written, appendBoolField_written, appendUintField_written, ← written_append,
    whenAsked_written, List.append_assoc]
  rfl

theorem appendFullDiagnostics_written (diagnostics : BoardDiagnosticsSnapshot) :
    appendFullDiagnostics diagnostics = written [("diag", objectText (fullDiagnosticsFields diagnostics))] := by
  rw [appendFullDiagnostics, ← appendObject_written]
  congr 1
  funext out
  simp only [appendStringField_written, appendUintField_written, appendIntField_written, ← written_append,
    List.append_assoc]
  rfl

theorem buildFullStatusJson_eq (snapshot : ConfigStatusSnapshot) :
    buildFullStatusJson snapshot = objectText (schemaMember :: fullMembers snapshot) := by
  rw [← statusText_written, buildFullStatusJson]
  congr 1
  funext out
  simp only [plainString_written, appendMember_written, appendUintField_written, appendBoolField_written,
    appendFullAudio_written, appendFullPower_written, appendFullDiagnostics_written, appendObject_written,
    ← written_append, whenAsked_written, List.append_assoc]
  rfl

end CodexKeyboard.Status
