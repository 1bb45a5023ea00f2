import CodexKeyboard.Config.Reader
import CodexKeyboard.Device.SlotState

/-! `parse_config_payload` and the state it feeds. A payload is rejected with a status; a reader that leaves
    its view or the range of `int` is a fault.

    The reader of numbers is a parameter of the stages, so that one number can be taken for another. -/

namespace CodexKeyboard.Config

open Schemes Transact Device

inductive ConfigParseStatus where
  | invalidJson | invalidSchema | missingProfile | missingBinding | unknownAction | fixedTextTooLarge
  deriving DecidableEq, Repr

inductive Stop where
  | fault (f : Fault)
  | rejected (status : ConfigParseStatus)
  deriving DecidableEq, Repr

inductive HostPlatform where
  | macOS | windows
  deriving DecidableEq, Repr

inductive HotkeySource where
  | platformDefault | custom
  deriving DecidableEq, Repr

inductive PttMode where
  | hold | toggle
  deriving DecidableEq, Repr

inductive EncoderScrollAxis where
  | vertical | horizontal | toggle
  deriving DecidableEq, Repr

inductive EncoderRotationMode where
  | scroll | cursor
  deriving DecidableEq, Repr

inductive ActionKind where
  | disabled | voicePttHold | editPttHold | pasteLast | openHistory | toggleProfile | hotkey | fixedText
  | previousProfile | nextProfile | settings | scrollAxisToggle | selectAll | copy | paste | undo
  deriving DecidableEq, Repr

structure Action where
  kind : ActionKind
  hotkey : Bytes := []
  text : Bytes := []
  deriving DecidableEq, Repr

structure EncoderScrollConfig where
  enabled : Bool := true
  mode : EncoderRotationMode := .scroll
  axis : EncoderScrollAxis := .vertical
  speed : Int := 3
  reverseVertical : Bool := false
  reverseHorizontal : Bool := false
  macosReverseVertical : Bool := false
  macosReverseHorizontal : Bool := false
  windowsReverseVertical : Bool := false
  windowsReverseHorizontal : Bool := false
  deriving DecidableEq, Repr

/-- A push-to-talk hotkey, where it comes from, and whether the payload says so. -/
structure HotkeyConfig where
  hotkey : Bytes
  source : HotkeySource := .platformDefault
  explicit : Bool := false
  deriving DecidableEq, Repr

structure ParsedKeyboardConfig where
  ptt : HotkeyConfig
  editPtt : HotkeyConfig
  targetPlatform : HostPlatform := .macOS
  targetPlatformExplicit : Bool := false
  pttMode : PttMode := .toggle
  wifiSsid : Bytes := []
  wifiPassword : Bytes := []
  audioHost : Bytes := []
  audioPort : Int := 17333
  speakerSyncKey : Bytes := []
  speakerSyncKeyEpoch : Nat := 0
  /-- The actions of the keys and of the encoder, in the order of `InputId`. -/
  keymap : List Action
  encoderScroll : EncoderScrollConfig := {}
  deriving DecidableEq, Repr

def kDefaultAudioPort : Int := 17333
def kFixedTextMaxUtf8Bytes : Nat := 960

/-! ### Fields -/

def reject {α : Type} (status : ConfigParseStatus) : Except Stop α := .error (.rejected status)

def reading {α : Type} (r : Except Fault α) : Except Stop α := r.mapError .fault

/-- The value of a member, where there is one. -/
def fieldOf (json : Bytes) (field : String) : Except Stop (Option Bytes) := reading (fieldValue json (ascii field))

def optionally {α : Type} (json : Bytes) (field : String) (parse : Bytes → Except Stop α) : Except Stop (Option α) := do
  match ← fieldOf json field with
  | none => .ok none
  | some raw => do
    let value ← parse raw
    .ok (some value)

def orReject {α : Type} (status : ConfigParseStatus) (value : Option α) : Except Stop α :=
  orThrow (.rejected status) value

def stringOf (raw : Bytes) : Except Stop Bytes := do
  let value ← reading (stringValue raw)
  orReject .invalidJson value

def boolOf (raw : Bytes) : Except Stop Bool := orReject .invalidJson (boolValue raw)

/-- A string that names one of several values. -/
def namedOf {α : Type} (name : Bytes → Option α) (raw : Bytes) : Except Stop α := do
  let value ← stringOf raw
  orReject .invalidJson (name value)

def parseHostPlatform (value : Bytes) : Option HostPlatform :=
  if value = ascii "macos" then some .macOS else if value = ascii "windows" then some .windows else none

def parseHotkeySource (value : Bytes) : Option HotkeySource :=
  if value = ascii "platform_default" then some .platformDefault
  else if value = ascii "custom" then some .custom else none

def parsePttMode (mode : Bytes) : Option PttMode :=
  if mode = ascii "hold" then some .hold else if mode = ascii "toggle" then some .toggle else none

def parseScrollAxis (axis : Bytes) : Option EncoderScrollAxis :=
  if axis = ascii "vertical" then some .vertical
  else if axis = ascii "horizontal" then some .horizontal
  else if axis = ascii "toggle" then some .toggle else none

def parseRotationMode (mode : Bytes) : Option EncoderRotationMode :=
  if mode = ascii "scroll" then some .scroll else if mode = ascii "cursor" then some .cursor else none

/-- A string of a fixed set, whose value is not kept. -/
def oneOf (known : List String) (value : Bytes) : Option Unit := if value ∈ known.map ascii then some () else none

def audioSources : List String := ["unavailable", "wifi_udp", "computer"]
def microphoneSources : List String := ["auto", "keyboard", "computer"]

def isValidAudioPort (port : Int) : Bool := 1024 ≤ port && port ≤ 65535

def isValidSpeakerSyncKey (key : Bytes) : Bool :=
  key.length == 64 && key.all (fun byte => (hexDigitValue byte).isSome) &&
    key.any fun byte => hexDigitValue byte != some 0

def namedActions : List (String × ActionKind) :=
  [("disabled", .disabled), ("voice_ptt_hold", .voicePttHold), ("edit_ptt_hold", .editPttHold),
    ("paste_last", .pasteLast), ("history", .openHistory), ("toggle_profile", .toggleProfile),
    ("settings", .settings), ("previous_profile", .previousProfile), ("next_profile", .nextProfile),
    ("scroll_axis_toggle", .scrollAxisToggle), ("select_all", .selectAll), ("copy", .copy), ("paste", .paste),
    ("undo", .undo)]

def namedActionKind (action : Bytes) : Option ActionKind :=
  (namedActions.find? fun named => ascii named.1 == action).map Prod.snd

/-! ### Actions -/

/-- A nonempty string of an action. -/
def actionText (raw : Bytes) : Except Stop Bytes := do
  match ← reading (stringValue raw) with
  | none => reject .unknownAction
  | some [] => reject .unknownAction
  | some value => .ok value

def parseAction (value : Bytes) : Except Stop Action := do
  match ← reading (stringValue value) with
  | some named => (orReject .unknownAction (namedActionKind named)).map fun kind => { kind }
  | none =>
    match ← fieldOf value "hotkey" with
    | some raw => do
      let hotkey ← actionText raw
      .ok { kind := .hotkey, hotkey }
    | none =>
      match ← fieldOf value "text" with
      | some raw => do
        let text ← actionText raw
        if kFixedTextMaxUtf8Bytes < text.length then reject .fixedTextTooLarge
        else .ok { kind := .fixedText, text }
      | none => reject .unknownAction

def parseBinding (bindings : Bytes) (inputName : String) : Except Stop Action := do
  let binding ← fieldOf bindings inputName
  let binding ← orReject .missingBinding binding
  let press ← fieldOf binding "press"
  let press ← orReject .missingBinding press
  parseAction press

def parseEncoderAction (encoder : Bytes) (field : String) : Except Stop Action := do
  let value ← fieldOf encoder field
  let value ← orReject .missingBinding value
  parseAction value

/-! ### Numbers -/

/-- The numbers of a payload. -/
inductive NumberField where
  | audioPort | speakerSyncKeyEpoch | scrollSpeed
  deriving DecidableEq, Repr

abbrev ReadInt := NumberField → Bytes → Except Fault (Option Int)

def intOf (int : ReadInt) (field : NumberField) (raw : Bytes) : Except Stop Int := do
  let value ← reading (int field raw)
  orReject .invalidJson value

def clampScrollSpeed (speed : Int) : Int := if speed < 1 then 1 else if 8 < speed then 8 else speed

def parseAudioPort (int : ReadInt) (json : Bytes) : Except Stop Int := do
  match ← fieldOf json "audio_port" with
  | none => .ok kDefaultAudioPort
  | some raw => do
    let port ← intOf int .audioPort raw
    if isValidAudioPort port then .ok port else reject .invalidJson

/-- The key and its epoch; they come together. -/
def parseSpeakerSync (int : ReadInt) (json : Bytes) : Except Stop (Bytes × Nat) := do
  let key ← fieldOf json "speaker_sync_key"
  let epoch ← fieldOf json "speaker_sync_key_epoch"
  match key, epoch with
  | none, none => .ok ([], 0)
  | some key, some epoch => do
    let key ← reading (stringValue key)
    let epoch ← reading (int .speakerSyncKeyEpoch epoch)
    match key, epoch with
    | some key, some epoch =>
      if !isValidSpeakerSyncKey key || epoch ≤ 0 || 65535 < epoch then reject .invalidJson
      else .ok (key, epoch.toNat)
    | _, _ => reject .invalidJson
  | _, _ => reject .invalidJson

def parseScrollFields (int : ReadInt) (scroll : Bytes) : Except Stop EncoderScrollConfig := do
  let enabled ← optionally scroll "enabled" boolOf
  let mode ← optionally scroll "mode" (namedOf parseRotationMode)
  let axis ← optionally scroll "axis" (namedOf parseScrollAxis)
  let speed ← optionally scroll "speed" (intOf int .scrollSpeed)
  let vertical ← optionally scroll "reverse_vertical" boolOf
  let horizontal ← optionally scroll "reverse_horizontal" boolOf
  let vertical := vertical.getD false
  let horizontal := horizontal.getD false
  let macosVertical ← optionally scroll "macos_reverse_vertical" boolOf
  let macosHorizontal ← optionally scroll "macos_reverse_horizontal" boolOf
  let windowsVertical ← optionally scroll "windows_reverse_vertical" boolOf
  let windowsHorizontal ← optionally scroll "windows_reverse_horizontal" boolOf
  .ok {
    enabled := enabled.getD true
    mode := mode.getD .scroll
    axis := axis.getD .vertical
    speed := (speed.map clampScrollSpeed).getD 3
    reverseVertical := vertical
    reverseHorizontal := horizontal
    macosReverseVertical := macosVertical.getD vertical
    macosReverseHorizontal := macosHorizontal.getD horizontal
    windowsReverseVertical := windowsVertical.getD vertical
    windowsReverseHorizontal := windowsHorizontal.getD horizontal }

def parseEncoderScrollConfig (int : ReadInt) (encoder : Bytes) : Except Stop EncoderScrollConfig := do
  match ← fieldOf encoder "scroll" with
  | none => .ok {}
  | some scroll =>
    if !enclosed (trim scroll) openBrace closeBrace then reject .invalidJson else parseScrollFields int scroll

/-! ### Hotkeys and the keymap -/

def defaultPttHotkey (platform : HostPlatform) : Bytes :=
  if platform = .windows then ascii "Ctrl+Shift+Space" else ascii "RightMeta"

def defaultEditPttHotkey (platform : HostPlatform) : Bytes :=
  if platform = .windows then ascii "Ctrl+Shift+E" else ascii "RightOption"

def legacyPttHotkeys : List String := ["RightMeta", "Ctrl+Shift+Space", "CommandOrControl+Shift+Space"]
def legacyEditPttHotkeys : List String := ["RightOption", "AltGr", "Ctrl+Shift+E", "CommandOrControl+Shift+E"]

/-- One of the two hotkeys, from its field and the field of its source. -/
def parseHotkey (json : Bytes) (field sourceField : String) (fresh : Bytes) : Except Stop HotkeyConfig := do
  let hotkey ← optionally json field stringOf
  if hotkey = some [] then reject .invalidJson
  else do
    let source ← optionally json sourceField (namedOf parseHotkeySource)
    .ok {
      hotkey := hotkey.getD fresh
      source := source.getD (if hotkey.isSome then .custom else .platformDefault)
      explicit := source.isSome }

/-- A factory preset of old payloads follows the platform. -/
def HotkeyConfig.migrated (config : HotkeyConfig) (legacy : List String) : HotkeyConfig :=
  if !config.explicit && config.hotkey ∈ legacy.map ascii then { config with source := .platformDefault } else config

def HotkeyConfig.resolved (config : HotkeyConfig) (default : Bytes) : HotkeyConfig :=
  if config.source = .platformDefault then { config with hotkey := default } else config

def keyNames : List String := ["KEY1", "KEY2", "KEY3", "KEY4", "KEY5", "KEY6", "KEY7", "KEY8"]
def encoderNames : List String := ["left", "right", "press"]

def actionMatches (kind : ActionKind) (hotkey : String) (action : Action) : Bool :=
  action.kind == kind && action.hotkey == ascii hotkey

def matchesAll (expected : List (ActionKind × String)) (actions : List Action) : Bool :=
  (expected.zip actions).all fun pair => actionMatches pair.1.1 pair.1.2 pair.2

def factoryKeymapPrefix : List (ActionKind × String) :=
  [(.voicePttHold, ""), (.hotkey, "Return"), (.editPttHold, ""), (.hotkey, "Backspace")]

/-- What the fifth to the eighth key were in the factory keymaps. -/
def factoryTails : List (List (ActionKind × String)) :=
  [[(.hotkey, "Meta+A"), (.hotkey, "Meta+C"), (.hotkey, "Meta+V"), (.hotkey, "Ctrl+Tab")],
    [(.hotkey, "Meta+A"), (.hotkey, "Meta+C"), (.hotkey, "Meta+V"), (.disabled, "")],
    [(.hotkey, "Meta+A"), (.hotkey, "Meta+C"), (.hotkey, "Meta+V"), (.hotkey, "Meta+Z")],
    [(.hotkey, "Ctrl+A"), (.hotkey, "Ctrl+C"), (.hotkey, "Ctrl+V"), (.hotkey, "Ctrl+Z")]]

/-- A factory keymap gets the semantic actions. -/
def migrateKeys (keys : List Action) : List Action :=
  if matchesAll factoryKeymapPrefix keys && factoryTails.any (matchesAll · (keys.drop 4)) then
    keys.take 4 ++ [{ kind := .selectAll }, { kind := .copy }, { kind := .paste }, { kind := .undo }]
  else keys

/-! ### The payload -/

structure NetworkFields where
  wifiSsid : Bytes
  wifiPassword : Bytes
  audioHost : Bytes
  deriving DecidableEq, Repr

def parseNetwork (json : Bytes) : Except Stop NetworkFields := do
  let ssid ← optionally json "wifi_ssid" stringOf
  let password ← optionally json "wifi_password" stringOf
  let host ← optionally json "audio_host" stringOf
  .ok ⟨ssid.getD [], password.getD [], host.getD []⟩

def parseSchema (json : Bytes) : Except Stop Unit := do
  let raw ← fieldOf json "schema"
  let raw ← orReject .invalidSchema raw
  let schema ← reading (stringValue raw)
  if schema = some (ascii "ai_keyboard.v1") then .ok () else reject .invalidSchema

/-- The fields of old payloads, checked and not kept. -/
def parseLegacySources (json : Bytes) : Except Stop Unit := do
  let _ ← optionally json "audio_source" (namedOf (oneOf audioSources))
  let _ ← optionally json "microphone_source" (namedOf (oneOf microphoneSources))
  .ok ()

/-- The keys and the encoder of the first profile. -/
def parseProfile (json : Bytes) : Except Stop (Bytes × Bytes) := do
  let profiles ← fieldOf json "profiles"
  let profiles ← orReject .missingProfile profiles
  let profile ← reading (firstArrayValue profiles)
  let profile ← orReject .missingProfile profile
  let keys ← fieldOf profile "keys"
  let encoder ← fieldOf profile "encoder"
  let keys ← orReject .missingBinding keys
  let encoder ← orReject .missingBinding encoder
  .ok (keys, encoder)

def parseConfigPayloadWith (int : ReadInt) (json : Bytes) : Except Stop ParsedKeyboardConfig := do
  let platform ← optionally json "target_platform" (namedOf parseHostPlatform)
  parseSchema json
  parseLegacySources json
  let network ← parseNetwork json
  let audioPort ← parseAudioPort int json
  let sync ← parseSpeakerSync int json
  let _ ← optionally json "audio_enabled" boolOf
  let ptt ← parseHotkey json "ptt_hotkey" "ptt_hotkey_source" (ascii "RightMeta")
  let editPtt ← parseHotkey json "edit_ptt_hotkey" "edit_ptt_hotkey_source" (ascii "RightOption")
  let pttMode ← optionally json "hotkey_mode" (namedOf parsePttMode)
  let profile ← parseProfile json
  let keys ← keyNames.mapM (parseBinding profile.1)
  let encoder ← encoderNames.mapM (parseEncoderAction profile.2)
  let scroll ← parseEncoderScrollConfig int profile.2
  let targetPlatform := platform.getD .macOS
  .ok {
    ptt := (ptt.migrated legacyPttHotkeys).resolved (defaultPttHotkey targetPlatform)
    editPtt := (editPtt.migrated legacyEditPttHotkeys).resolved (defaultEditPttHotkey targetPlatform)
    targetPlatform
    targetPlatformExplicit := platform.isSome
    pttMode := pttMode.getD .hold
    wifiSsid := network.wifiSsid
    wifiPassword := network.wifiPassword
    audioHost := network.audioHost
    audioPort
    speakerSyncKey := sync.1
    speakerSyncKeyEpoch := sync.2
    keymap := migrateKeys keys ++ encoder
    encoderScroll := { scroll with
      reverseVertical :=
        if targetPlatform = .windows then scroll.windowsReverseVertical else scroll.macosReverseVertical
      reverseHorizontal :=
        if targetPlatform = .windows then scroll.windowsReverseHorizontal else scroll.macosReverseHorizontal } }

def parseConfigPayload (json : Bytes) : Except Stop ParsedKeyboardConfig :=
  parseConfigPayloadWith (fun _ => intValue) json

/-! ### The state -/

/-- `ConfigState`. -/
structure ConfigState where
  current : ParsedKeyboardConfig
  lastAppliedJson : Bytes
  deriving DecidableEq, Repr

namespace ConfigState

def setTargetPlatform (config : ParsedKeyboardConfig) (platform : HostPlatform) : ParsedKeyboardConfig :=
  { config with
    targetPlatform := platform
    ptt := config.ptt.resolved (defaultPttHotkey platform)
    editPtt := config.editPtt.resolved (defaultEditPttHotkey platform)
    encoderScroll := { config.encoderScroll with
      reverseVertical := if platform = .windows then config.encoderScroll.windowsReverseVertical
        else config.encoderScroll.macosReverseVertical
      reverseHorizontal := if platform = .windows then config.encoderScroll.windowsReverseHorizontal
        else config.encoderScroll.macosReverseHorizontal } }

def applyJson (state : ConfigState) (json : Bytes) : Except Stop ConfigState := do
  let parsed ← parseConfigPayload json
  let effectivePlatform := if parsed.targetPlatformExplicit then parsed.targetPlatform else state.current.targetPlatform
  .ok ⟨setTargetPlatform parsed effectivePlatform, json⟩

end ConfigState

end CodexKeyboard.Config
