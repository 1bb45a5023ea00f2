import CodexKeyboard.Status.Clean
import CodexKeyboard.Status.Fits

/-! What a status is to be: an object with no name twice, in UTF-8, whose strings are parts of the snapshot's,
    from their starts on, or what stands in for an empty one. Each view is one, but for the clips of the full
    one. -/

namespace CodexKeyboard.Status

open Schemes Text
open Schemes.JsonText (Bytes StringText Body ObjectText)

/-! ### What may be sent -/

/-- Whole characters of a string, from its start on, or the text in the place of an empty one. -/
def Shows (value : Bytes) (fallback : Option String) (s : Text) : Prop :=
  (∃ rest : Text, value = asBytes (s ++ rest)) ∨ (value = [] ∧ ∃ text ∈ fallback, s = text.toList)

/-- The strings of a snapshot that may stand in a status, by their paths from the inside out. -/
inductive Taken (snapshot : ConfigStatusSnapshot) : Strings
  | schema : Taken snapshot ["schema"] "ai_keyboard.config_status.v1".toList
  | firmware {s : Text} (shows : Shows snapshot.firmware (some "unknown") s) : Taken snapshot ["firmware"] s
  | phase {s : Text} (shows : Shows snapshot.phase (some "status") s) : Taken snapshot ["phase"] s
  | status {s : Text} (shows : Shows snapshot.status (some "unknown") s) : Taken snapshot ["status"] s
  | targetPlatform {s : Text} (shows : Shows snapshot.targetPlatform (some "macos") s) :
    Taken snapshot ["target_platform"] s
  | pttHotkey {s : Text} (shows : Shows snapshot.pttHotkey none s) : Taken snapshot ["ptt_hotkey"] s
  | editPttHotkey {s : Text} (shows : Shows snapshot.editPttHotkey none s) : Taken snapshot ["edit_ptt_hotkey"] s
  | hotkeyMode {s : Text} (shows : Shows snapshot.hotkeyMode none s) : Taken snapshot ["hotkey_mode"] s
  | batteryState {s : Text} (shows : Shows snapshot.battery.state none s) : Taken snapshot ["battery_state"] s
  | source {s : Text} (shows : Shows snapshot.audio.source (some "unknown") s) : Taken snapshot ["source", "audio"] s
  | microphoneSource {s : Text} (shows : Shows snapshot.audio.microphoneSource none s) :
    Taken snapshot ["microphone_source", "audio"] s
  | capture {s : Text} (shows : Shows snapshot.audio.capture none s) : Taken snapshot ["capture", "audio"] s
  | host {s : Text} (shows : Shows snapshot.audio.host none s) : Taken snapshot ["host", "audio"] s
  | streamPhase {s : Text} (shows : Shows snapshot.audio.streamPhase none s) :
    Taken snapshot ["stream_phase", "audio"] s
  | stopReason {s : Text} (shows : Shows snapshot.audio.stopReason none s) : Taken snapshot ["stop_reason", "audio"] s
  | controlState {s : Text} (shows : Shows snapshot.audio.controlState none s) :
    Taken snapshot ["control_state", "audio"] s
  | lastError {s : Text} (shows : Shows snapshot.audio.lastError none s) : Taken snapshot ["last_error", "audio"] s
  | mode {s : Text} (shows : Shows snapshot.power.mode (some "unknown") s) : Taken snapshot ["mode", "power"] s
  | lastWake {s : Text} (shows : Shows snapshot.power.lastWake (some "unknown") s) :
    Taken snapshot ["last_wake", "power"] s
  | cycleWake {s : Text} (shows : Shows snapshot.power.cycleWake none s) : Taken snapshot ["cycle_wake", "power"] s
  | board {s : Text} (shows : Shows snapshot.diagnostics.board none s) : Taken snapshot ["board", "diag"] s
  | keys {s : Text} (shows : Shows snapshot.diagnostics.keys none s) : Taken snapshot ["keys", "diag"] s
  | encoder {s : Text} (shows : Shows snapshot.diagnostics.encoder none s) : Taken snapshot ["enc", "diag"] s
  | lastInput {s : Text} (shows : Shows snapshot.diagnostics.lastInput none s) : Taken snapshot ["last", "diag"] s

/-- The strings of a status: those of the snapshot, and the word that stands for the status in the view of a probe. -/
def Allowed (snapshot : ConfigStatusSnapshot) : Strings := fun path s =>
  Taken snapshot path s ∨ (snapshot.probe.isSome = true ∧ path = ["status"] ∧ s = "probe".toList)

/-- A valid status. -/
structure Published (allowed : Strings) (json : Bytes) : Prop where
  utf8 : Encoded json
  object : ∃ members : Members, ObjectText (members.map fun member => (member.1.toList, member.2)) json ∧
    (members.map Prod.fst).Nodup ∧ ∀ member ∈ members, Clean allowed [member.1] member.2

/-- A snapshot whose strings are UTF-8. -/
structure Encodes (snapshot : ConfigStatusSnapshot) : Prop where
  firmware : Encoded snapshot.firmware
  phase : Encoded snapshot.phase
  status : Encoded snapshot.status
  targetPlatform : Encoded snapshot.targetPlatform
  pttHotkey : Encoded snapshot.pttHotkey
  editPttHotkey : Encoded snapshot.editPttHotkey
  hotkeyMode : Encoded snapshot.hotkeyMode
  batteryState : Encoded snapshot.battery.state
  source : Encoded snapshot.audio.source
  microphoneSource : Encoded snapshot.audio.microphoneSource
  capture : Encoded snapshot.audio.capture
  host : Encoded snapshot.audio.host
  streamPhase : Encoded snapshot.audio.streamPhase
  stopReason : Encoded snapshot.audio.stopReason
  controlState : Encoded snapshot.audio.controlState
  lastError : Encoded snapshot.audio.lastError
  mode : Encoded snapshot.power.mode
  lastWake : Encoded snapshot.power.lastWake
  cycleWake : Encoded snapshot.power.cycleWake
  board : Encoded snapshot.diagnostics.board
  keys : Encoded snapshot.diagnostics.keys
  encoder : Encoded snapshot.diagnostics.encoder
  lastInput : Encoded snapshot.diagnostics.lastInput

/-! ### Strings -/

variable {snapshot : ConfigStatusSnapshot} {allowed : Strings} {path names : List String} {members : Members}
  {name : String} {value : Bytes} {maxLen : Nat} {fallback : Option String}

theorem Shows.part {t front : Text} (h : value = asBytes t) (hfront : front <+: t) : Shows value fallback front := by
  obtain ⟨rest, rfl⟩ := hfront
  exact .inl ⟨rest, h⟩

/-- A text for an empty string that is written whole. -/
def goodFallback (text : String) (maxLen : Nat) : Bool :=
  decide (escapeJsonStringBounded (lit text) maxLen = lit text) && text.toList.all JsonText.isPlain

theorem clean_stringValue {text : String} (hvalue : Encoded value) (hfallback : goodFallback text maxLen = true)
    (hallowed : ∀ s, Shows value (some text) s → allowed path s) :
    Clean allowed path (stringValue value maxLen text) := by
  rw [goodFallback, Bool.and_eq_true, decide_eq_true_iff] at hfallback
  rw [stringValue, selected]
  split
  next hempty =>
    refine clean_quoted (s := text.toList) ?_ (hallowed _ (.inr ⟨hempty, text, rfl, rfl⟩))
    rw [Option.map_some, Option.getD_some, hfallback.1]
    exact .plain hfallback.2
  next =>
    obtain ⟨t, ht⟩ := hvalue
    obtain ⟨front, hfront, hwritten⟩ := escapeJsonStringBounded_text t maxLen
    rw [ht]
    exact clean_quoted hwritten (hallowed front (.part ht hfront))

theorem fields_bounded (hvalue : Encoded value) (hallowed : ∀ s, Shows value none s → allowed (name :: path) s) :
    Fields allowed path (boundedMember name value maxLen none) [name] := by
  have hselected : selected value none = value := by
    rw [selected]
    split
    next hempty => rw [hempty]; rfl
    next => rfl
  rw [boundedMember, hselected]
  split
  next => exact ⟨List.nil_sublist _, fun _ hmember => absurd hmember List.not_mem_nil⟩
  next =>
    obtain ⟨t, ht⟩ := hvalue
    obtain ⟨front, hfront, hwritten⟩ := escapeJsonStringBounded_text t maxLen
    refine .cons ?_ .nil
    rw [ht]
    exact clean_quoted hwritten (hallowed front (.part ht hfront))

theorem fields_string (hvalue : Encoded value) (hclip : Encoded (clippedStatusString value maxLen))
    (hallowed : ∀ s, Shows value fallback s → allowed (name :: path) s) :
    Fields allowed path (stringMember name value maxLen) [name] := by
  rw [stringMember]
  split
  next => exact ⟨List.nil_sublist _, fun _ hmember => absurd hmember List.not_mem_nil⟩
  next =>
    obtain ⟨t, rfl⟩ := hvalue
    obtain ⟨front, hfront, hwritten⟩ := clipped_text maxLen hclip
    exact .cons (clean_quoted hwritten (hallowed front (.part rfl hfront))) .nil

theorem clean_plain (hvalue : Encoded value) (hallowed : ∀ s, Shows value fallback s → allowed path s) :
    Clean allowed path (quoted (escapeJsonString value)) := by
  obtain ⟨t, rfl⟩ := hvalue
  exact clean_quoted (escapeJsonString_text t) (hallowed t (.part rfl List.prefix_rfl))

/-! ### Compact views -/

theorem clean_capabilities (usb legacy : Bool) :
    Clean allowed path (objectText (capabilityMembers snapshot usb legacy)) := by
  refine Fields.clean (((Fields.cons (clean_bool _) (.cons (clean_bool _) .nil)).asked legacy).append
    (.cons (clean_decimal _) ((Fields.cons (clean_bool _) .nil).asked usb))) (by decide) ?_
  exact List.append_ne_nil_of_right_ne_nil _ (List.cons_ne_nil _ _)

theorem fields_sync (h : Encodes snapshot) (usb legacy : Bool) :
    Fields (Allowed snapshot) [] (syncMembers snapshot usb legacy)
      ["firmware", "phase", "status", "target_platform", "capabilities", "saved"] :=
  .cons (clean_stringValue h.firmware (by decide) fun _ shows => .inl (.firmware shows))
    (.cons (clean_stringValue h.phase (by decide) fun _ shows => .inl (.phase shows))
    (.cons (clean_stringValue h.status (by decide) fun _ shows => .inl (.status shows))
    (.cons (clean_stringValue h.targetPlatform (by decide) fun _ shows => .inl (.targetPlatform shows))
    (.cons (clean_capabilities usb legacy)
    (.cons (clean_bool _) .nil)))))

/-- An empty string in place of an empty one is the whole of it. -/
theorem Shows.whole {s : Text} (h : Shows value (some "") s) : Shows value none s := by
  rcases h with hpart | ⟨rfl, text, htext, rfl⟩
  · exact .inl hpart
  · cases Option.some.inj htext
    exact .inl ⟨[], rfl⟩

theorem fields_fingerprint (h : Encodes snapshot) (details : Bool) :
    Fields (Allowed snapshot) [] (fingerprintMembers snapshot details)
      ["bytes", "crc16", "ptt_hotkey", "edit_ptt_hotkey", "hotkey_mode"] := by
  refine .cons (clean_decimal _) (.cons (clean_decimal _) (Fields.asked details ?_))
  refine .cons (clean_stringValue h.pttHotkey (by decide) fun _ shows => .inl (.pttHotkey shows.whole)) ?_
  refine .cons (clean_stringValue h.editPttHotkey (by decide) fun _ shows => .inl (.editPttHotkey shows.whole)) ?_
  exact .cons (clean_stringValue h.hotkeyMode (by decide) fun _ shows => .inl (.hotkeyMode shows.whole)) .nil

theorem fields_battery (h : Encodes snapshot) (detail : Bool) :
    Fields (Allowed snapshot) [] (batteryMembers snapshot detail)
      ["battery_mv", "battery_percent", "battery_raw_mv", "battery_state", "battery_sample_age_ms",
        "battery_full_anchor"] := by
  refine .cons (clean_decimal _) (.cons (clean_decimal _) (Fields.asked _ (.cons (clean_decimal _) ?_)))
  refine Fields.append (fields_bounded h.batteryState fun _ shows => .inl (.batteryState shows)) ?_
  exact .cons (clean_decimal _) (.cons (clean_bool _) .nil)

theorem fields_compactAudio (h : Encodes snapshot) (lastError : Bool) :
    Fields (Allowed snapshot) [] (compactAudioMembers snapshot.audio lastError) ["audio"] := by
  have hfields : Fields (Allowed snapshot) ["audio"] (compactAudioFields snapshot.audio lastError)
      ("compact" :: "enabled" :: "source" :: (["microphone_source"] ++ ["capture"] ++ ["control_state"] ++ ["host"] ++
        ["port"] ++ ["last_error"])) := by
    refine .cons (clean_bool _) (.cons (clean_bool _) (.cons ?_ ?_))
    · exact clean_stringValue h.source (by decide) fun _ shows => .inl (.source shows)
    refine Fields.append (.append (.append (.append (.append ?_ ?_) ?_) ?_) ?_) ?_
    · exact fields_bounded h.microphoneSource fun _ shows => .inl (.microphoneSource shows)
    · exact fields_bounded h.capture fun _ shows => .inl (.capture shows)
    · exact fields_bounded h.controlState fun _ shows => .inl (.controlState shows)
    · exact fields_bounded h.host fun _ shows => .inl (.host shows)
    · exact Fields.asked _ (.cons (clean_signedDecimal _) .nil)
    · exact (fields_bounded h.lastError fun _ shows => .inl (.lastError shows)).asked lastError
  exact Fields.asked _ (.cons (hfields.clean (by decide) (List.cons_ne_nil _ _)) .nil)

theorem fields_compactPower (h : Encodes snapshot) :
    Fields (Allowed snapshot) [] (compactPowerMembers snapshot.power) ["power"] := by
  have hfields : Fields (Allowed snapshot) ["power"] [boolMember "compact" true,
      ("mode", stringValue snapshot.power.mode kCompactStatusStringMaxLen "unknown"),
      ("last_wake", stringValue snapshot.power.lastWake kCompactStatusStringMaxLen "unknown")]
      ["compact", "mode", "last_wake"] := by
    refine .cons (clean_bool _) (.cons ?_ (.cons ?_ .nil))
    · exact clean_stringValue h.mode (by decide) fun _ shows => .inl (.mode shows)
    · exact clean_stringValue h.lastWake (by decide) fun _ shows => .inl (.lastWake shows)
  exact Fields.asked _ (.cons (hfields.clean (by decide) (List.cons_ne_nil _ _)) .nil)

theorem fields_compactDiagnostics (h : Encodes snapshot) (details : Bool) :
    Fields (Allowed snapshot) [] (compactDiagnosticsMembers snapshot.diagnostics details) ["diag"] := by
  have hfields : Fields (Allowed snapshot) ["diag"] (compactDiagnosticsFields snapshot.diagnostics details)
      ("compact" :: (["board"] ++ (["keys"] ++ ["enc"] ++ ["last"] ++ ["in_drop", "enc_drop"]))) := by
    refine .cons (clean_bool _) (Fields.append ?_ (Fields.asked details ?_))
    · exact fields_bounded h.board fun _ shows => .inl (.board shows)
    refine Fields.append (.append (.append ?_ ?_) ?_) (.cons (clean_decimal _) (.cons (clean_decimal _) .nil))
    · exact fields_bounded h.keys fun _ shows => .inl (.keys shows)
    · exact fields_bounded h.encoder fun _ shows => .inl (.encoder shows)
    · exact fields_bounded h.lastInput fun _ shows => .inl (.lastInput shows)
  exact Fields.asked _ (.cons (hfields.clean (by decide) (List.cons_ne_nil _ _)) .nil)

theorem fields_speakerCore (speaker : SpeakerProbeSnapshot) :
    Fields allowed path (speakerCoreMembers speaker) ["v", "g", "st", "r", "e", "x"] :=
  .cons (clean_decimal _) (.cons (clean_decimal _) (.cons (clean_decimal _) (.cons (clean_decimal _)
    (.cons (clean_decimal _) (.cons (clean_signedDecimal _) .nil)))))

theorem fields_speakerBoot (speaker : Option SpeakerProbeSnapshot) :
    Fields allowed path (speakerBootMembers speaker) ["spk"] := by
  cases speaker with
  | none => exact ⟨List.nil_sublist _, fun _ hmember => absurd hmember List.not_mem_nil⟩
  | some speaker =>
    refine Fields.asked _ (.cons ?_ .nil)
    exact (fields_speakerCore speaker).clean (by decide) (List.cons_ne_nil _ _)

/-- An object with the schema in front. -/
theorem Fields.published (h : Fields (Allowed snapshot) [] members names)
    (hnames : goodNames ("schema" :: names) = true) :
    Published (Allowed snapshot) (objectText (schemaMember :: members)) := by
  have hschema : Clean (Allowed snapshot) ["schema"] (quoted (lit "ai_keyboard.config_status.v1")) :=
    clean_quoted (.plain (by decide)) (.inl .schema)
  have hall : Fields (Allowed snapshot) [] (schemaMember :: members) ("schema" :: names) := .cons hschema h
  obtain ⟨hbody, hdistinct⟩ := hall.body hnames (List.cons_ne_nil _ _)
  have hobject : ObjectText ((schemaMember :: members).map fun member => (member.1.toList, member.2))
      (objectText (schemaMember :: members)) := by
    have htext := ObjectText.mk .nil hbody .nil
    rwa [List.nil_append] at htext
  exact ⟨hobject.encoded, _, hobject, hdistinct, hall.values⟩

/-- The names of a compact view with everything in it. -/
def compactNames : List String :=
  ["firmware", "phase", "status", "target_platform", "capabilities", "saved"] ++
    ["bytes", "crc16", "ptt_hotkey", "edit_ptt_hotkey", "hotkey_mode"] ++
    ["battery_mv", "battery_percent", "battery_raw_mv", "battery_state", "battery_sample_age_ms",
      "battery_full_anchor"] ++ ["audio"] ++ ["power"] ++ ["diag"] ++ ["spk"]

theorem published_compact (h : Encodes snapshot) (view : CompactView) :
    Published (Allowed snapshot) (buildCompactStatusJson snapshot view) := by
  have hfields : Fields (Allowed snapshot) [] (compactMembers snapshot view) compactNames := by
    refine .append (.append (.append (.append (.append (.append ?_ ?_) ?_) ?_) ?_) ?_) ?_
    · exact fields_sync h _ _
    · exact (fields_fingerprint h _).asked _
    · exact fields_battery h _
    · exact (fields_compactAudio h _).asked _
    · exact (fields_compactPower h).asked _
    · exact (fields_compactDiagnostics h _).asked _
    · exact (fields_speakerBoot _).asked _
  rw [buildCompactStatusJson_eq]
  exact hfields.published (by decide)

/-! ### The probe -/

theorem fields_probeMetric (speaker : SpeakerProbeSnapshot) :
    Fields allowed path (probeMetricMembers speaker)
      ["mg", "fu", "du", "mu", "n", "p", "sw", "h0", "h1", "hl", "hm", "pk", "rm"] := by
  refine .cons (clean_decimal _) (.cons (clean_decimal _) (.cons (clean_decimal _) (.cons (clean_decimal _) ?_)))
  refine .cons (clean_decimal _) (.cons (clean_decimal _) (.cons (clean_decimal _) (.cons (clean_decimal _) ?_)))
  refine .cons (clean_decimal _) (.cons (clean_decimal _) (.cons (clean_decimal _) (.cons (clean_decimal _) ?_)))
  exact .cons (clean_decimal _) .nil

theorem published_probe (h : Encodes snapshot) {speaker : SpeakerProbeSnapshot}
    (hprobe : snapshot.probe = some speaker) :
    Published (Allowed snapshot) (buildSpeakerProbeStatusJson snapshot speaker) := by
  have hphase : Shows snapshot.phase (some "status") "spk_probe".toList := .part (probe_phase hprobe) List.prefix_rfl
  have hspk : Fields (Allowed snapshot) ["spk"] (speakerCoreMembers speaker ++ probeMetricMembers speaker)
      (["v", "g", "st", "r", "e", "x"] ++
        ["mg", "fu", "du", "mu", "n", "p", "sw", "h0", "h1", "hl", "hm", "pk", "rm"]) :=
    (fields_speakerCore speaker).append (fields_probeMetric speaker)
  have hlimit : Fields (Allowed snapshot) ["capabilities"] [("config_max_bytes", decimal kConfigMaxJsonLen)]
      ["config_max_bytes"] := .cons (clean_decimal _) .nil
  have hfields : Fields (Allowed snapshot) [] (probeMembers snapshot speaker)
      ["firmware", "phase", "status", "target_platform", "capabilities", "saved", "bytes", "crc16", "spk"] := by
    refine .cons (clean_stringValue h.firmware (by decide) fun _ shows => .inl (.firmware shows)) ?_
    refine .cons (clean_quoted (.plain (by decide)) (.inl (.phase hphase))) ?_
    refine .cons (clean_quoted (.plain (by decide)) (.inr ⟨by rw [hprobe]; rfl, rfl, rfl⟩)) ?_
    refine .cons (clean_stringValue h.targetPlatform (by decide) fun _ shows => .inl (.targetPlatform shows)) ?_
    refine .cons (hlimit.clean (by decide) (List.cons_ne_nil _ _)) (.cons (clean_bool _) ?_)
    refine .cons (clean_decimal _) (.cons (clean_decimal _) (.cons ?_ .nil))
    exact hspk.clean (by decide) (List.cons_ne_nil _ _)
  rw [buildSpeakerProbeStatusJson_eq]
  exact hfields.published (by decide)

end CodexKeyboard.Status
