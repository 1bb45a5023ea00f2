import CodexKeyboard.Status.Writer

/-! The status views of `config_status.cpp`: the full one, the compact ones, the probe, and which of them is sent. -/

namespace CodexKeyboard.Status

open Schemes
open Schemes.JsonText (Bytes)

def kConfigStatusGattSafeLen : Nat := 512
def kConfigStatusBatteryBleReserveLen : Nat := 120
def kConfigMaxJsonLen : Nat := 2048

/-! ### Snapshots -/

structure PowerDiagnosticsSnapshot where
  mode : Bytes := []
  pollMs : UInt32 := 0
  idleMs : UInt32 := 0
  deepEntries : UInt32 := 0
  deepMs : UInt32 := 0
  lastEnterMs : UInt32 := 0
  lastExitMs : UInt32 := 0
  lastWake : Bytes := []
  wakeEdges : UInt32 := 0
  usb : Bool := false
  cycleSeq : UInt32 := 0
  cycleIdleMs : UInt32 := 0
  cycleDeepMs : UInt32 := 0
  cycleFlags : UInt32 := 0
  cycleWake : Bytes := []

structure BoardDiagnosticsSnapshot where
  board : Bytes := []
  keys : Bytes := []
  encoder : Bytes := []
  lastInput : Bytes := []
  lastInputAgeMs : UInt32 := 0
  keyWake : Int32 := -1
  externalPower : Int32 := -1
  charge : Int32 := -1
  pwrGpio : Int32 := -1
  pwrLevel : Int32 := -1
  pwrActive : Int32 := -1
  ledGpio : Int32 := -1
  inputEdges : UInt32 := 0
  inputDrops : UInt32 := 0
  inputEvents : UInt32 := 0
  inputFiltered : UInt32 := 0
  encoderEdges : UInt32 := 0
  encoderSteps : UInt32 := 0
  encoderInvalid : UInt32 := 0
  encoderPartial : UInt32 := 0
  encoderDrops : UInt32 := 0

structure AudioStatusSnapshot where
  enabled : Bool := false
  source : Bytes := []
  microphoneSource : Bytes := []
  capture : Bytes := []
  host : Bytes := []
  port : Int32 := 0
  sentPackets : UInt32 := 0
  sentBytes : UInt32 := 0
  lastRmsMilli : UInt32 := 0
  peakRmsMilli : UInt32 := 0
  sendErrors : UInt32 := 0
  readErrors : UInt32 := 0
  recoveryCount : UInt32 := 0
  sessionGeneration : UInt32 := 0
  sessionId : UInt64 := 0
  streamPhase : Bytes := []
  stopReason : Bytes := []
  controlState : Bytes := []
  lastError : Bytes := []

structure BatteryStatusSnapshot where
  rawMv : UInt16 := 0
  state : Bytes := []
  sampleAgeMs : UInt32 := 0
  fullAnchorReady : Bool := false

/-- The enumerations of the probe are the bytes that they are sent as. -/
structure SpeakerProbeSnapshot where
  present : Bool := false
  version : UInt8 := 1
  stage : UInt8 := 0
  result : UInt8 := 0
  error : UInt8 := 0
  generation : UInt32 := 0
  rawError : Int32 := 0
  microphoneGeneration : UInt32 := 0
  firstSubmitUs : UInt32 := 0
  decodeTotalUs : UInt32 := 0
  decodeMaxUs : UInt32 := 0
  decodedFrames : UInt32 := 0
  decodedPcmBytes : UInt32 := 0
  stackHighWaterBytes : UInt32 := 0
  heapBeginFree : UInt32 := 0
  heapTerminalFree : UInt32 := 0
  heapLargestBlock : UInt32 := 0
  heapMinimumFree : UInt32 := 0
  decodedAbsPeak : UInt32 := 0
  decodedRmsPermille : UInt32 := 0

structure ConfigStatusSnapshot where
  firmware : Bytes := []
  phase : Bytes := []
  status : Bytes := []
  bytes : Nat := 0
  crc16 : UInt16 := 0
  pttHotkey : Bytes := []
  editPttHotkey : Bytes := []
  hotkeyMode : Bytes := []
  saved : Bool := false
  batteryMv : UInt16 := 0
  batteryPercent : UInt8 := 0
  audio : AudioStatusSnapshot := {}
  power : PowerDiagnosticsSnapshot := {}
  diagnostics : BoardDiagnosticsSnapshot := {}
  battery : BatteryStatusSnapshot := {}
  targetPlatform : Bytes := lit "macos"
  semanticActions : Bool := true
  offlinePlatformSwitch : Bool := true
  usbManagementV1 : Bool := true
  speaker : Option SpeakerProbeSnapshot := none

/-! ### Compact views -/

/-- Fields that are only there when asked for. -/
def whenAsked (asked : Bool) (fields : Out → Out) (out : Out) : Out := if asked then fields out else out

def appendSyncCore (snapshot : ConfigStatusSnapshot) (includeUsbManagementCapability includeLegacyCapabilities : Bool)
    (out : Out) : Out :=
  out
  |> appendBoundedStringField "firmware" snapshot.firmware kFirmwareStringMaxLen (some "unknown")
  |> appendBoundedStringField "phase" snapshot.phase kCompactStatusStringMaxLen (some "status")
  |> appendBoundedStringField "status" snapshot.status kCompactStatusStringMaxLen (some "unknown")
  |> appendBoundedStringField "target_platform" snapshot.targetPlatform kCompactStatusStringMaxLen (some "macos")
  |> appendObject "capabilities" (fun out => out
    |> whenAsked includeLegacyCapabilities (fun out => out
      |> appendBoolField "semantic_actions" snapshot.semanticActions
      |> appendBoolField "offline_platform_switch" snapshot.offlinePlatformSwitch)
    |> appendMember "config_max_bytes" (decimal kConfigMaxJsonLen)
    |> whenAsked includeUsbManagementCapability
      (appendBoolField "usb_management_v1" snapshot.usbManagementV1))
  |> appendBoolField "saved" snapshot.saved

def appendBatterySummary (snapshot : ConfigStatusSnapshot) (includeDetail : Bool) (out : Out) : Out :=
  out
  |> appendUintField "battery_mv" snapshot.batteryMv.toNat
  |> appendUintField "battery_percent" snapshot.batteryPercent.toNat
  |> whenAsked (includeDetail && snapshot.battery.state != []) (fun out => out
    |> appendUintField "battery_raw_mv" snapshot.battery.rawMv.toNat
    |> appendBoundedStringField "battery_state" snapshot.battery.state kCompactStatusStringMaxLen none
    |> appendUintField "battery_sample_age_ms" snapshot.battery.sampleAgeMs.toNat
    |> appendBoolField "battery_full_anchor" snapshot.battery.fullAnchorReady)

def appendCompactPower (power : PowerDiagnosticsSnapshot) (out : Out) : Out :=
  out |> whenAsked (power.mode != []) (appendObject "power" fun out => out
    |> appendBoolField "compact" true
    |> appendBoundedStringField "mode" power.mode kCompactStatusStringMaxLen (some "unknown")
    |> appendBoundedStringField "last_wake" power.lastWake kCompactStatusStringMaxLen (some "unknown"))

def appendCompactDiagnostics (diagnostics : BoardDiagnosticsSnapshot) (includeDetails : Bool) (out : Out) : Out :=
  out |> whenAsked (diagnostics.board != []) (appendObject "diag" fun out => out
    |> appendBoolField "compact" true
    |> appendBoundedStringField "board" diagnostics.board kCompactStatusStringMaxLen none
    |> whenAsked includeDetails (fun out => out
      |> appendBoundedStringField "keys" diagnostics.keys kCompactStatusStringMaxLen none
      |> appendBoundedStringField "enc" diagnostics.encoder kCompactStatusStringMaxLen none
      |> appendBoundedStringField "last" diagnostics.lastInput 24 none
      |> appendUintField "in_drop" diagnostics.inputDrops.toNat
      |> appendUintField "enc_drop" diagnostics.encoderDrops.toNat))

def appendCompactAudio (audio : AudioStatusSnapshot) (includeLastError : Bool) (out : Out) : Out :=
  out |> whenAsked (audio.source != [] || audio.enabled) (appendObject "audio" fun out => out
    |> appendBoolField "compact" true
    |> appendBoolField "enabled" audio.enabled
    |> appendBoundedStringField "source" audio.source kCompactStatusStringMaxLen (some "unknown")
    |> appendBoundedStringField "microphone_source" audio.microphoneSource kCompactStatusStringMaxLen none
    |> appendBoundedStringField "capture" audio.capture kAudioCaptureStringMaxLen none
    |> appendBoundedStringField "control_state" audio.controlState 40 none
    |> appendBoundedStringField "host" audio.host 24 none
    |> whenAsked (decide (0 < audio.port.toInt)) (appendIntField "port" audio.port)
    |> whenAsked includeLastError (appendBoundedStringField "last_error" audio.lastError 32 none))

/-- The first six fields of the probe. -/
def appendSpeakerCore (speaker : SpeakerProbeSnapshot) (out : Out) : Out :=
  out
  |> appendUintField "v" speaker.version.toNat
  |> appendUintField "g" speaker.generation.toNat
  |> appendUintField "st" speaker.stage.toNat
  |> appendUintField "r" speaker.result.toNat
  |> appendUintField "e" speaker.error.toNat
  |> appendIntField "x" speaker.rawError

def appendCompactSpeakerBoot (speaker : Option SpeakerProbeSnapshot) (out : Out) : Out :=
  match speaker with
  | none => out
  | some speaker => out |> whenAsked speaker.present (appendObject "spk" (appendSpeakerCore speaker))

/-- The flags of `build_compact_status_json`. -/
structure CompactView where
  fingerprint : Bool
  batteryDetail : Bool
  audio : Bool
  power : Bool
  diagnostics : Bool
  audioLastError : Bool := true
  fingerprintDetails : Bool := true
  usbManagementCapability : Bool := true
  legacyCapabilities : Bool := true
  diagnosticDetails : Bool := true
  speakerBoot : Bool := false

/-- A text that begins with the schema, and the fields behind that. -/
def statusText (fields : Out → Out) : Bytes :=
  (fields ⟨openBrace :: memberText "schema" (quoted (lit "ai_keyboard.config_status.v1")), false⟩).text ++ [closeBrace]

def buildCompactStatusJson (snapshot : ConfigStatusSnapshot) (view : CompactView) : Bytes :=
  statusText fun out => out
    |> appendSyncCore snapshot view.usbManagementCapability view.legacyCapabilities
    |> whenAsked view.fingerprint (fun out => out
      |> appendUintField "bytes" snapshot.bytes
      |> appendUintField "crc16" snapshot.crc16.toNat
      |> whenAsked view.fingerprintDetails (fun out => out
        |> appendBoundedStringField "ptt_hotkey" snapshot.pttHotkey 32 (some "")
        |> appendBoundedStringField "edit_ptt_hotkey" snapshot.editPttHotkey 32 (some "")
        |> appendBoundedStringField "hotkey_mode" snapshot.hotkeyMode kCompactStatusStringMaxLen (some "")))
    |> appendBatterySummary snapshot view.batteryDetail
    |> whenAsked view.audio (appendCompactAudio snapshot.audio view.audioLastError)
    |> whenAsked view.power (appendCompactPower snapshot.power)
    |> whenAsked view.diagnostics (appendCompactDiagnostics snapshot.diagnostics view.diagnosticDetails)
    |> whenAsked view.speakerBoot (appendCompactSpeakerBoot snapshot.speaker)

def buildBatteryStatusJson (snapshot : ConfigStatusSnapshot) : Bytes :=
  buildCompactStatusJson snapshot
    { fingerprint := true, batteryDetail := true, audio := false, power := true, diagnostics := false,
      fingerprintDetails := false, usbManagementCapability := false, speakerBoot := true }

/-! ### The probe -/

def buildSpeakerProbeStatusJson (snapshot : ConfigStatusSnapshot) (speaker : SpeakerProbeSnapshot) : Bytes :=
  statusText fun out => out
    |> appendBoundedStringField "firmware" snapshot.firmware 36 (some "unknown")
    |> appendBoundedStringField "phase" (lit "spk_probe") kCompactStatusStringMaxLen none
    |> appendBoundedStringField "status" (lit "probe") kCompactStatusStringMaxLen none
    |> appendBoundedStringField "target_platform" snapshot.targetPlatform kCompactStatusStringMaxLen (some "macos")
    |> appendObject "capabilities" (appendMember "config_max_bytes" (decimal kConfigMaxJsonLen))
    |> appendBoolField "saved" snapshot.saved
    |> appendUintField "bytes" snapshot.bytes
    |> appendUintField "crc16" snapshot.crc16.toNat
    |> appendObject "spk" (fun out => out
      |> appendSpeakerCore speaker
      |> appendUintField "mg" speaker.microphoneGeneration.toNat
      |> appendUintField "fu" speaker.firstSubmitUs.toNat
      |> appendUintField "du" speaker.decodeTotalUs.toNat
      |> appendUintField "mu" speaker.decodeMaxUs.toNat
      |> appendUintField "n" speaker.decodedFrames.toNat
      |> appendUintField "p" speaker.decodedPcmBytes.toNat
      |> appendUintField "sw" speaker.stackHighWaterBytes.toNat
      |> appendUintField "h0" speaker.heapBeginFree.toNat
      |> appendUintField "h1" speaker.heapTerminalFree.toNat
      |> appendUintField "hl" speaker.heapLargestBlock.toNat
      |> appendUintField "hm" speaker.heapMinimumFree.toNat
      |> appendUintField "pk" speaker.decodedAbsPeak.toNat
      |> appendUintField "rm" speaker.decodedRmsPermille.toNat)

/-! ### The full view -/

def plainString (name : String) (value : Bytes) : Out → Out := appendMember name (quoted (escapeJsonString value))

def appendFullAudio (audio : AudioStatusSnapshot) : Out → Out :=
  appendObject "audio" fun out => out
    |> appendBoolField "enabled" audio.enabled
    |> appendStringField "source" audio.source kStatusStringMaxLen
    |> appendStringField "microphone_source" audio.microphoneSource kStatusStringMaxLen
    |> appendStringField "capture" audio.capture kStatusStringMaxLen
    |> appendStringField "host" audio.host kStatusStringMaxLen
    |> whenAsked (decide (0 < audio.port.toInt)) (appendIntField "port" audio.port)
    |> appendUintField "sent_packets" audio.sentPackets.toNat
    |> appendUintField "sent_bytes" audio.sentBytes.toNat
    |> appendUintField "last_rms_milli" audio.lastRmsMilli.toNat
    |> appendUintField "peak_rms_milli" audio.peakRmsMilli.toNat
    |> appendUintField "send_errors" audio.sendErrors.toNat
    |> appendUintField "read_errors" audio.readErrors.toNat
    |> appendUintField "recovery_count" audio.recoveryCount.toNat
    |> appendUintField "session_generation" audio.sessionGeneration.toNat
    |> appendUint64Field "session_id" audio.sessionId
    |> appendStringField "stream_phase" audio.streamPhase kStatusStringMaxLen
    |> appendStringField "stop_reason" audio.stopReason kStatusStringMaxLen
    |> appendStringField "control_state" audio.controlState kStatusStringMaxLen
    |> appendStringField "last_error" audio.lastError kStatusStringMaxLen

def appendFullPower (power : PowerDiagnosticsSnapshot) : Out → Out :=
  appendObject "power" fun out => out
    |> appendStringField "mode" power.mode kStatusStringMaxLen
    |> appendUintField "poll_ms" power.pollMs.toNat
    |> appendUintField "idle_ms" power.idleMs.toNat
    |> appendUintField "deep_entries" power.deepEntries.toNat
    |> appendUintField "deep_ms" power.deepMs.toNat
    |> appendUintField "last_enter_ms" power.lastEnterMs.toNat
    |> appendUintField "last_exit_ms" power.lastExitMs.toNat
    |> appendStringField "last_wake" power.lastWake kStatusStringMaxLen
    |> appendUintField "wake_edges" power.wakeEdges.toNat
    |> appendBoolField "usb" power.usb
    |> whenAsked (power.cycleSeq != 0) (fun out => out
      |> appendUintField "cycle_seq" power.cycleSeq.toNat
      |> appendUintField "cycle_idle_ms" power.cycleIdleMs.toNat
      |> appendUintField "cycle_deep_ms" power.cycleDeepMs.toNat
      |> appendUintField "cycle_flags" power.cycleFlags.toNat
      |> appendStringField "cycle_wake" power.cycleWake kStatusStringMaxLen)

def appendFullDiagnostics (diagnostics : BoardDiagnosticsSnapshot) : Out → Out :=
  appendObject "diag" fun out => out
    |> appendStringField "board" diagnostics.board kStatusStringMaxLen
    |> appendStringField "keys" diagnostics.keys kStatusStringMaxLen
    |> appendStringField "enc" diagnostics.encoder kStatusStringMaxLen
    |> appendStringField "last" diagnostics.lastInput kStatusStringMaxLen
    |> appendUintField "last_age_ms" diagnostics.lastInputAgeMs.toNat
    |> appendIntField "wake" diagnostics.keyWake
    |> appendIntField "vin" diagnostics.externalPower
    |> appendIntField "chrg" diagnostics.charge
    |> appendIntField "pwr_gpio" diagnostics.pwrGpio
    |> appendIntField "pwr_level" diagnostics.pwrLevel
    |> appendIntField "pwr_active" diagnostics.pwrActive
    |> appendIntField "led_gpio" diagnostics.ledGpio
    |> appendUintField "in_edge" diagnostics.inputEdges.toNat
    |> appendUintField "in_drop" diagnostics.inputDrops.toNat
    |> appendUintField "in_evt" diagnostics.inputEvents.toNat
    |> appendUintField "in_filter" diagnostics.inputFiltered.toNat
    |> appendUintField "enc_edge" diagnostics.encoderEdges.toNat
    |> appendUintField "enc_step" diagnostics.encoderSteps.toNat
    |> appendUintField "enc_invalid" diagnostics.encoderInvalid.toNat
    |> appendUintField "enc_partial" diagnostics.encoderPartial.toNat
    |> appendUintField "enc_drop" diagnostics.encoderDrops.toNat

namespace ConfigStatusSnapshot

def hasAudioStatus (snapshot : ConfigStatusSnapshot) : Bool := snapshot.audio.source != [] || snapshot.audio.enabled

end ConfigStatusSnapshot

def buildFullStatusJson (snapshot : ConfigStatusSnapshot) : Bytes :=
  statusText fun out => out
    |> plainString "firmware" snapshot.firmware
    |> plainString "phase" snapshot.phase
    |> plainString "status" snapshot.status
    |> appendMember "bytes" (decimal snapshot.bytes)
    |> appendUintField "crc16" snapshot.crc16.toNat
    |> plainString "ptt_hotkey" snapshot.pttHotkey
    |> plainString "edit_ptt_hotkey" snapshot.editPttHotkey
    |> plainString "hotkey_mode" snapshot.hotkeyMode
    |> plainString "target_platform" snapshot.targetPlatform
    |> appendObject "capabilities" (fun out => out
      |> appendBoolField "semantic_actions" snapshot.semanticActions
      |> appendBoolField "offline_platform_switch" snapshot.offlinePlatformSwitch
      |> appendMember "config_max_bytes" (decimal kConfigMaxJsonLen)
      |> appendBoolField "usb_management_v1" snapshot.usbManagementV1)
    |> appendBoolField "saved" snapshot.saved
    |> appendUintField "battery_mv" snapshot.batteryMv.toNat
    |> appendUintField "battery_percent" snapshot.batteryPercent.toNat
    |> whenAsked (snapshot.battery.state != []) (fun out => out
      |> appendUintField "battery_raw_mv" snapshot.battery.rawMv.toNat
      |> plainString "battery_state" snapshot.battery.state
      |> appendUintField "battery_sample_age_ms" snapshot.battery.sampleAgeMs.toNat
      |> appendBoolField "battery_full_anchor" snapshot.battery.fullAnchorReady)
    |> whenAsked snapshot.hasAudioStatus (appendFullAudio snapshot.audio)
    |> whenAsked (snapshot.power.mode != []) (appendFullPower snapshot.power)
    |> whenAsked (!snapshot.hasAudioStatus && snapshot.diagnostics.board != [])
      (appendFullDiagnostics snapshot.diagnostics)

/-! ### The view that is sent -/

namespace ConfigStatusSnapshot

/-- The probe that the probe view is about. -/
def probe (snapshot : ConfigStatusSnapshot) : Option SpeakerProbeSnapshot :=
  if snapshot.phase = lit "spk_probe" then snapshot.speaker.filter (·.present) else none

/-- The views of a battery refresh, in order; the last is sent as it is. -/
def batteryView : CompactView :=
  { fingerprint := true, batteryDetail := false, audio := false, power := true, diagnostics := false,
    fingerprintDetails := false, usbManagementCapability := false, speakerBoot := true }

def batteryWithoutPower : CompactView := { batteryView with power := false }

def batteryCore : CompactView := { batteryWithoutPower with speakerBoot := false }

/-- Whether the configuration's fingerprint is kept when the full view is too long. -/
def preserveFingerprint (snapshot : ConfigStatusSnapshot) : Bool :=
  snapshot.phase == lit "boot" && decide (0 < snapshot.bytes)

/-- The view without diagnostics, audio and power. -/
def core (fingerprint : Bool) : CompactView :=
  { fingerprint, batteryDetail := false, audio := false, power := false, diagnostics := false }

def boardView : CompactView := { core false with power := true, diagnostics := true }

def audioView (snapshot : ConfigStatusSnapshot) : CompactView :=
  { core snapshot.preserveFingerprint with audio := true }

/-- The audio view without the legacy capabilities. -/
def minimalAudio (snapshot : ConfigStatusSnapshot) : CompactView :=
  { audioView snapshot with
      fingerprintDetails := false, usbManagementCapability := false, legacyCapabilities := false }

end ConfigStatusSnapshot

open ConfigStatusSnapshot

/-- The first view that is not too long, or the last. -/
def firstFitting (limit : Nat) : List Bytes → Bytes → Bytes
  | [], last => last
  | view :: views, last => if view.length ≤ limit then view else firstFitting limit views last

def buildConfigStatusJson (snapshot : ConfigStatusSnapshot) : Bytes :=
  match snapshot.probe with
  | some speaker => buildSpeakerProbeStatusJson snapshot speaker
  | none =>
    let compact := buildCompactStatusJson snapshot
    if snapshot.phase = lit "battery" then
      firstFitting (kConfigStatusGattSafeLen - kConfigStatusBatteryBleReserveLen)
        [buildBatteryStatusJson snapshot, compact batteryView, compact batteryWithoutPower] (compact batteryCore)
    else if !snapshot.hasAudioStatus && snapshot.diagnostics.board != [] then
      firstFitting kConfigStatusGattSafeLen
        [compact boardView, compact { boardView with diagnosticDetails := false }] (compact (core false))
    else
      -- the views with the state of the audio control are only tried when there is one
      let controlled (view : Bytes) : List Bytes := if snapshot.audio.controlState = [] then [] else [view]
      firstFitting kConfigStatusGattSafeLen
        ([buildFullStatusJson snapshot, compact { snapshot.audioView with power := true }] ++
          controlled (compact snapshot.minimalAudio) ++
          [compact { snapshot.audioView with power := true, audioLastError := false }] ++
          controlled (compact { snapshot.minimalAudio with audioLastError := false }))
        (compact (core snapshot.preserveFingerprint))

def buildConfigConfirmationStatusJson (snapshot : ConfigStatusSnapshot) : Bytes :=
  buildCompactStatusJson snapshot (core true)

end CodexKeyboard.Status
