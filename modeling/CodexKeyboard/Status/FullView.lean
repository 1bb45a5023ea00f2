import CodexKeyboard.Status.Published
import CodexKeyboard.Config.ReaderExact

/-! The full view: with an audio object, or with a string that is clipped, it is too long to be sent. So no character
    is ever cut, and each status that is sent is valid. -/

namespace CodexKeyboard.Status

open Schemes Text
open Schemes.JsonText (Bytes StringText Body ObjectText)
open ConfigStatusSnapshot

variable {snapshot : ConfigStatusSnapshot} {value : Bytes}

/-! ### Its length -/

theorem escapeByte_pos (byte : UInt8) : 1 ≤ (escapeByte byte).length := by
  rw [escapeByte]
  split_ifs <;> exact Nat.succ_pos _

theorem escapeJsonString_length (value : Bytes) : value.length ≤ (escapeJsonString value).length := by
  induction value with
  | nil => exact Nat.zero_le _
  | cons byte value ih =>
    have hbyte := escapeByte_pos byte
    rw [escapeJsonString] at ih ⊢
    rw [List.flatMap_cons, List.length_append, List.length_cons]
    omega

/-- A string that is clipped is at least as wide as the bytes that are left of it. -/
theorem stringMember_length (name : String) (hlong : kStatusStringMaxLen < value.length) :
    (lit name).length + 54 ≤ memberBytes (stringMember name value kStatusStringMaxLen) := by
  have hsome : value ≠ [] := by
    rintro rfl
    exact absurd hlong (Nat.not_lt_zero _)
  have hclip : (clippedStatusString value kStatusStringMaxLen).length = 48 := by
    rw [clippedStatusString, if_neg (Nat.not_le.2 hlong), List.length_take]
    exact Nat.min_eq_left (Nat.le_of_lt hlong)
  have hescaped := escapeJsonString_length (clippedStatusString value kStatusStringMaxLen)
  rw [stringMember, if_neg hsome, memberBytes_cons, memberBytes_nil, quoted_length]
  omega

theorem clipped_whole (h : Encoded value) (hshort : value.length ≤ kStatusStringMaxLen) :
    Encoded (clippedStatusString value kStatusStringMaxLen) := by
  rw [clippedStatusString, if_pos hshort]
  exact h

theorem decimal_pos (n : Nat) : 1 ≤ (decimal n).length := by
  rcases Nat.eq_zero_or_pos n with rfl | hpos
  · decide
  · obtain ⟨d, ds, hdigits, -⟩ := decimal_positive hpos
    rw [hdigits, List.length_cons]
    omega

theorem boolText_pos (value : Bool) : 4 ≤ (boolText value).length := by
  cases value with
  | true => decide
  | false => decide

theorem text_pos (value : Bytes) : 2 ≤ (quoted (escapeJsonString value)).length := by
  rw [quoted_length]
  exact Nat.le_add_left 2 _

/-- What is always there. -/
def coreMembers (snapshot : ConfigStatusSnapshot) : Members :=
  [schemaMember, plainMember "firmware" snapshot.firmware, plainMember "phase" snapshot.phase,
    plainMember "status" snapshot.status, ("bytes", decimal snapshot.bytes), uintMember "crc16" snapshot.crc16.toNat,
    plainMember "ptt_hotkey" snapshot.pttHotkey, plainMember "edit_ptt_hotkey" snapshot.editPttHotkey,
    plainMember "hotkey_mode" snapshot.hotkeyMode, plainMember "target_platform" snapshot.targetPlatform,
    ("capabilities", objectText (capabilityMembers snapshot true true)), boolMember "saved" snapshot.saved,
    uintMember "battery_mv" snapshot.batteryMv.toNat, uintMember "battery_percent" snapshot.batteryPercent.toNat]

theorem capabilities_pos : 105 ≤ (objectText (capabilityMembers snapshot true true)).length := by
  have hsemantic := boolText_pos snapshot.semanticActions
  have hoffline := boolText_pos snapshot.offlinePlatformSwitch
  have husb := boolText_pos snapshot.usbManagementV1
  rw [capabilityMembers, asked_true, asked_true, List.cons_append, objectText_length (List.cons_ne_nil _ _)]
  simp only [boolMember, List.cons_append, List.nil_append, memberBytes_cons, memberBytes_nil,
    name_lengths, limit_length]
  omega

theorem core_wide : 341 ≤ memberBytes (coreMembers snapshot) := by
  have hfirmware := text_pos snapshot.firmware
  have hphase := text_pos snapshot.phase
  have hstatus := text_pos snapshot.status
  have hbytes := decimal_pos snapshot.bytes
  have hcrc := decimal_pos (snapshot.crc16.toNat % 2 ^ 32)
  have hptt := text_pos snapshot.pttHotkey
  have hedit := text_pos snapshot.editPttHotkey
  have hmode := text_pos snapshot.hotkeyMode
  have hplatform := text_pos snapshot.targetPlatform
  have hcapabilities := @capabilities_pos snapshot
  have hsaved := boolText_pos snapshot.saved
  have hmv := decimal_pos (snapshot.batteryMv.toNat % 2 ^ 32)
  have hpercent := decimal_pos (snapshot.batteryPercent.toNat % 2 ^ 32)
  simp only [coreMembers, schemaMember, plainMember, uintMember, boolMember, memberBytes_cons, memberBytes_nil,
    name_lengths, schema_length]
  omega

theorem full_length (snapshot : ConfigStatusSnapshot) :
    (buildFullStatusJson snapshot).length = memberBytes (coreMembers snapshot) +
      (memberBytes (fullBatteryMembers snapshot.battery) +
        (memberBytes (asked snapshot.hasAudioStatus [("audio", objectText (fullAudioFields snapshot.audio))]) +
        (memberBytes (asked (snapshot.power.mode != []) [("power", objectText (fullPowerFields snapshot.power))]) +
          memberBytes (asked (!snapshot.hasAudioStatus && snapshot.diagnostics.board != [])
            [("diag", objectText (fullDiagnosticsFields snapshot.diagnostics))])))) + 1 := by
  rw [buildFullStatusJson_eq, objectText_length (List.cons_ne_nil _ _), ← memberBytes_append, ← memberBytes_append,
    ← memberBytes_append, ← memberBytes_append]
  rfl

theorem audio_names : (lit "audio").length = 5 ∧ (lit "enabled").length = 7 ∧ (lit "sent_packets").length = 12 ∧
    (lit "sent_bytes").length = 10 ∧ (lit "last_rms_milli").length = 14 ∧ (lit "peak_rms_milli").length = 14 ∧
    (lit "send_errors").length = 11 ∧ (lit "read_errors").length = 11 ∧ (lit "recovery_count").length = 14 ∧
    (lit "session_generation").length = 18 ∧ (lit "session_id").length = 10 := by
  decide

/-- The counters of the audio object alone are too much. -/
theorem fullAudio_wide (audio : AudioStatusSnapshot) : 174 ≤ memberBytes (fullAudioFields audio) := by
  have henabled := boolText_pos audio.enabled
  have hpackets := decimal_pos (audio.sentPackets.toNat % 2 ^ 32)
  have hbytes := decimal_pos (audio.sentBytes.toNat % 2 ^ 32)
  have hlast := decimal_pos (audio.lastRmsMilli.toNat % 2 ^ 32)
  have hpeak := decimal_pos (audio.peakRmsMilli.toNat % 2 ^ 32)
  have hsend := decimal_pos (audio.sendErrors.toNat % 2 ^ 32)
  have hread := decimal_pos (audio.readErrors.toNat % 2 ^ 32)
  have hrecovery := decimal_pos (audio.recoveryCount.toNat % 2 ^ 32)
  have hgeneration := decimal_pos (audio.sessionGeneration.toNat % 2 ^ 32)
  have hid := decimal_pos audio.sessionId.toNat
  simp only [fullAudioFields, boolMember, uintMember, memberBytes_cons, memberBytes_append, audio_names]
  omega

theorem no_audio (hfits : (buildFullStatusJson snapshot).length ≤ kConfigStatusGattSafeLen) :
    snapshot.hasAudioStatus = false := by
  rw [Bool.eq_false_iff]
  intro haudio
  have hcore := @core_wide snapshot
  have hwide := fullAudio_wide snapshot.audio
  have hfields : fullAudioFields snapshot.audio ≠ [] := List.cons_ne_nil _ _
  rw [full_length, haudio, asked_true, memberBytes_cons, objectText_length hfields, audio_names.1,
    kConfigStatusGattSafeLen] at hfits
  omega

theorem power_names : (lit "power").length = 5 ∧ (lit "mode").length = 4 ∧ (lit "poll_ms").length = 7 ∧
    (lit "idle_ms").length = 7 ∧ (lit "deep_entries").length = 12 ∧ (lit "deep_ms").length = 7 ∧
    (lit "last_enter_ms").length = 13 ∧ (lit "last_exit_ms").length = 12 ∧ (lit "last_wake").length = 9 ∧
    (lit "wake_edges").length = 10 ∧ (lit "usb").length = 3 ∧ (lit "cycle_wake").length = 10 := by
  decide

/-- The counters of the power object leave no room for a string that is clipped. -/
theorem fullPower_wide (power : PowerDiagnosticsSnapshot) :
    114 + memberBytes (stringMember "mode" power.mode kStatusStringMaxLen) +
        memberBytes (stringMember "last_wake" power.lastWake kStatusStringMaxLen) +
        memberBytes (asked (power.cycleSeq != 0) (stringMember "cycle_wake" power.cycleWake kStatusStringMaxLen)) ≤
      memberBytes (fullPowerFields power) := by
  have hpoll := decimal_pos (power.pollMs.toNat % 2 ^ 32)
  have hidle := decimal_pos (power.idleMs.toNat % 2 ^ 32)
  have hentries := decimal_pos (power.deepEntries.toNat % 2 ^ 32)
  have hdeep := decimal_pos (power.deepMs.toNat % 2 ^ 32)
  have henter := decimal_pos (power.lastEnterMs.toNat % 2 ^ 32)
  have hexit := decimal_pos (power.lastExitMs.toNat % 2 ^ 32)
  have hedges := decimal_pos (power.wakeEdges.toNat % 2 ^ 32)
  have husb := boolText_pos power.usb
  rw [fullPowerFields]
  cases power.cycleSeq != 0 with
  | true =>
    simp only [asked_true, memberBytes_append, uintMember, boolMember, memberBytes_cons, power_names]
    omega
  | false =>
    simp only [asked_false, memberBytes_append, uintMember, boolMember, memberBytes_cons, memberBytes_nil, power_names]
    omega

/-- The strings of the power object are short in a full view that fits. -/
theorem power_short (hfits : (buildFullStatusJson snapshot).length ≤ kConfigStatusGattSafeLen)
    (hmode : snapshot.power.mode ≠ []) :
    snapshot.power.mode.length ≤ kStatusStringMaxLen ∧ snapshot.power.lastWake.length ≤ kStatusStringMaxLen ∧
      (snapshot.power.cycleSeq ≠ 0 → snapshot.power.cycleWake.length ≤ kStatusStringMaxLen) := by
  have hcore := @core_wide snapshot
  have hwide := fullPower_wide snapshot.power
  have hasks : (snapshot.power.mode != []) = true := bne_iff_ne.2 hmode
  have hfields : fullPowerFields snapshot.power ≠ [] := by
    rw [fullPowerFields]
    exact List.append_ne_nil_of_right_ne_nil _ (List.cons_ne_nil _ _)
  rw [full_length, hasks, asked_true, memberBytes_cons, objectText_length hfields, power_names.1,
    kConfigStatusGattSafeLen] at hfits
  refine ⟨?_, ?_, fun hseq => ?_⟩
  · by_contra hlong
    have hclipped := stringMember_length "mode" (Nat.lt_of_not_le hlong)
    omega
  · by_contra hlong
    have hclipped := stringMember_length "last_wake" (Nat.lt_of_not_le hlong)
    omega
  · by_contra hlong
    have hclipped := stringMember_length "cycle_wake" (Nat.lt_of_not_le hlong)
    have hcycle : (snapshot.power.cycleSeq != 0) = true := bne_iff_ne.2 hseq
    rw [hcycle, asked_true] at hwide
    omega

/-! ### Its fields -/

theorem fields_fullPower (h : Encodes snapshot)
    (hfits : (buildFullStatusJson snapshot).length ≤ kConfigStatusGattSafeLen) (hmode : snapshot.power.mode ≠ []) :
    Fields (Allowed snapshot) ["power"] (fullPowerFields snapshot.power)
      (["mode"] ++ ("poll_ms" :: "idle_ms" :: "deep_entries" :: "deep_ms" :: "last_enter_ms" :: "last_exit_ms" ::
        (["last_wake"] ++ ("wake_edges" :: "usb" ::
          ("cycle_seq" :: "cycle_idle_ms" :: "cycle_deep_ms" :: "cycle_flags" :: ["cycle_wake"]))))) := by
  obtain ⟨hshort, hwake, hcycle⟩ := power_short hfits hmode
  refine Fields.append (fields_string h.mode (clipped_whole h.mode hshort) fun _ shows => .inl (.mode shows)) ?_
  refine .cons (clean_decimal _) (.cons (clean_decimal _) (.cons (clean_decimal _) (.cons (clean_decimal _) ?_)))
  refine .cons (clean_decimal _) (.cons (clean_decimal _) (Fields.append ?_ ?_))
  · exact fields_string h.lastWake (clipped_whole h.lastWake hwake) fun _ shows => .inl (.lastWake shows)
  refine .cons (clean_decimal _) (.cons (clean_bool _) ?_)
  by_cases hseq : snapshot.power.cycleSeq = 0
  · rw [hseq]
    exact ⟨List.nil_sublist _, fun _ hmember => absurd hmember List.not_mem_nil⟩
  · refine Fields.asked _ (.cons (clean_decimal _) (.cons (clean_decimal _) (.cons (clean_decimal _) ?_)))
    refine .cons (clean_decimal _) ?_
    exact fields_string h.cycleWake (clipped_whole h.cycleWake (hcycle hseq)) fun _ shows => .inl (.cycleWake shows)

theorem fields_fullBattery (h : Encodes snapshot) :
    Fields (Allowed snapshot) [] (fullBatteryMembers snapshot.battery)
      ["battery_raw_mv", "battery_state", "battery_sample_age_ms", "battery_full_anchor"] := by
  refine Fields.asked _ (.cons (clean_decimal _) (.cons ?_ (.cons (clean_decimal _) (.cons (clean_bool _) .nil))))
  exact clean_plain h.batteryState fun _ shows => .inl (.batteryState shows)

/-- The names of a full view that may be sent. -/
def fullNames : List String :=
  "firmware" :: "phase" :: "status" :: "bytes" :: "crc16" :: "ptt_hotkey" :: "edit_ptt_hotkey" :: "hotkey_mode" ::
    "target_platform" :: "capabilities" :: "saved" :: "battery_mv" :: "battery_percent" ::
    (["battery_raw_mv", "battery_state", "battery_sample_age_ms", "battery_full_anchor"] ++ ([] ++ (["power"] ++ [])))

theorem published_full (h : Encodes snapshot)
    (hboard : (!snapshot.hasAudioStatus && snapshot.diagnostics.board != []) = false)
    (hfits : (buildFullStatusJson snapshot).length ≤ kConfigStatusGattSafeLen) :
    Published (Allowed snapshot) (buildFullStatusJson snapshot) := by
  have hpower : Fields (Allowed snapshot) []
      (asked (snapshot.power.mode != []) [("power", objectText (fullPowerFields snapshot.power))]) ["power"] := by
    by_cases hmode : snapshot.power.mode = []
    · rw [hmode]
      exact ⟨List.nil_sublist _, fun _ hmember => absurd hmember List.not_mem_nil⟩
    · refine Fields.asked _ (.cons ((fields_fullPower h hfits hmode).clean (by decide) ?_) .nil)
      rw [fullPowerFields]
      exact List.append_ne_nil_of_right_ne_nil _ (List.cons_ne_nil _ _)
  have hfields : Fields (Allowed snapshot) [] (fullMembers snapshot) fullNames := by
    rw [fullMembers, hboard, no_audio hfits]
    refine .cons (clean_plain h.firmware fun _ shows => .inl (.firmware shows)) ?_
    refine .cons (clean_plain h.phase fun _ shows => .inl (.phase shows)) ?_
    refine .cons (clean_plain h.status fun _ shows => .inl (.status shows)) ?_
    refine .cons (clean_decimal _) (.cons (clean_decimal _) ?_)
    refine .cons (clean_plain h.pttHotkey fun _ shows => .inl (.pttHotkey shows)) ?_
    refine .cons (clean_plain h.editPttHotkey fun _ shows => .inl (.editPttHotkey shows)) ?_
    refine .cons (clean_plain h.hotkeyMode fun _ shows => .inl (.hotkeyMode shows)) ?_
    refine .cons (clean_plain h.targetPlatform fun _ shows => .inl (.targetPlatform shows)) ?_
    refine .cons (clean_capabilities _ _) (.cons (clean_bool _) (.cons (clean_decimal _) (.cons (clean_decimal _) ?_)))
    exact (fields_fullBattery h).append (Fields.nil.append (hpower.append .nil))
  rw [buildFullStatusJson_eq]
  exact hfields.published (by decide)

/-! ### Every status -/

theorem firstFitting_cases (limit : Nat) (views : List Bytes) (last : Bytes) :
    (∃ view ∈ views, view.length ≤ limit ∧ firstFitting limit views last = view) ∨
    firstFitting limit views last = last := by
  induction views with
  | nil => exact .inr rfl
  | cons view views ih =>
    rw [firstFitting]
    split
    next hfits => exact .inl ⟨view, List.mem_cons_self, hfits, rfl⟩
    next =>
      refine ih.imp_left ?_
      rintro ⟨later, hlater, hfits, heq⟩
      exact ⟨later, List.mem_cons_of_mem _ hlater, hfits, heq⟩

/-- Whichever view is sent, it is a valid status. -/
theorem sent_published (snapshot : ConfigStatusSnapshot) (h : Encodes snapshot) :
    Published (Allowed snapshot) (buildConfigStatusJson snapshot) ∧
      Published (Allowed snapshot) (buildConfigConfirmationStatusJson snapshot) := by
  refine ⟨?_, published_compact h _⟩
  cases hprobe : snapshot.probe with
  | some speaker =>
    rw [buildConfigStatusJson, hprobe]
    exact published_probe h hprobe
  | none =>
    have hcompact (limit : Nat) (views : List CompactView) (last : CompactView) :
        Published (Allowed snapshot)
          (firstFitting limit (views.map (buildCompactStatusJson snapshot))
            (buildCompactStatusJson snapshot last)) := by
      rcases firstFitting_cases limit (views.map (buildCompactStatusJson snapshot))
        (buildCompactStatusJson snapshot last)
        with ⟨view, hview, -, heq⟩ | heq
      · obtain ⟨flags, -, rfl⟩ := List.mem_map.1 hview
        rw [heq]
        exact published_compact h flags
      · rw [heq]
        exact published_compact h last
    rw [buildConfigStatusJson, hprobe]
    dsimp only
    split
    next => exact hcompact _ [_, _, _] _
    split
    next => exact hcompact _ [_, _] _
    next hboard =>
      rw [List.cons_append, List.cons_append, List.cons_append, firstFitting]
      split
      next hfits => exact published_full h (Bool.eq_false_iff.2 hboard) hfits
      next =>
        by_cases hcontrol : snapshot.audio.controlState = []
        · rw [if_pos hcontrol, if_pos hcontrol]
          exact hcompact _ [_, _] _
        · rw [if_neg hcontrol, if_neg hcontrol]
          exact hcompact _ [_, _, _, _] _

theorem Taken.shows_status {path : List String} {s : Text} (h : Taken snapshot path s) (hpath : path = ["status"]) :
    Shows snapshot.status (some "unknown") s := by
  cases h with
  | status shows => exact shows
  | _ => exact absurd hpath (by decide)

/-- A probe that was cancelled. -/
def cancelledProbe : ConfigStatusSnapshot where
  firmware := lit "1.0.0"
  phase := lit "spk_probe"
  status := lit "cancelled"
  speaker := some { present := true, result := 6 }

theorem encodes_cancelledProbe : Encodes cancelledProbe where
  firmware := ⟨_, rfl⟩
  phase := ⟨_, rfl⟩
  status := ⟨_, rfl⟩
  targetPlatform := ⟨_, rfl⟩
  pttHotkey := ⟨[], rfl⟩
  editPttHotkey := ⟨[], rfl⟩
  hotkeyMode := ⟨[], rfl⟩
  batteryState := ⟨[], rfl⟩
  source := ⟨[], rfl⟩
  microphoneSource := ⟨[], rfl⟩
  capture := ⟨[], rfl⟩
  host := ⟨[], rfl⟩
  streamPhase := ⟨[], rfl⟩
  stopReason := ⟨[], rfl⟩
  controlState := ⟨[], rfl⟩
  lastError := ⟨[], rfl⟩
  mode := ⟨[], rfl⟩
  lastWake := ⟨[], rfl⟩
  cycleWake := ⟨[], rfl⟩
  board := ⟨[], rfl⟩
  keys := ⟨[], rfl⟩
  encoder := ⟨[], rfl⟩
  lastInput := ⟨[], rfl⟩

theorem sent_published_cancelled : Published (Allowed cancelledProbe) (buildConfigStatusJson cancelledProbe) ∧
    Published (Allowed cancelledProbe) (buildConfigConfirmationStatusJson cancelledProbe) :=
  sent_published cancelledProbe encodes_cancelledProbe

/-- Its status is neither a part of `cancelled` nor the fallback. -/
theorem sent_published_notTaken :
    ¬ ∀ snapshot : ConfigStatusSnapshot, Encodes snapshot →
      Published (Taken snapshot) (buildConfigStatusJson snapshot) ∧
        Published (Taken snapshot) (buildConfigConfirmationStatusJson snapshot) := by
  intro hall
  obtain ⟨members, hobject, -, hclean⟩ := (hall cancelledProbe encodes_cancelledProbe).1.object
  obtain ⟨r, hread, hfound⟩ := Config.fieldValue_text hobject (lit "status")
  have hstatus : Config.fieldValue (buildConfigStatusJson cancelledProbe) (lit "status") =
      .ok (some (quoted (lit "probe"))) := by decide +kernel
  cases hread.symm.trans hstatus
  rw [Config.Found] at hfound
  split at hfound
  next => cases hfound
  next member hfind =>
    obtain ⟨w, hspace, htext⟩ := hfound
    obtain ⟨⟨name, value⟩, hmember, rfl⟩ := List.mem_map.1 (List.mem_of_find?_eq_some hfind)
    have hfield := List.find?_some hfind
    rw [decide_eq_true_iff] at hfield
    have hname : name = "status" := String.toList_inj.1 (asBytes_inj hfield)
    have hvalue := hclean _ hmember
    have hquoted : value ++ w = quoted (lit "probe") := (Option.some.inj htext).symm
    rw [hname] at hvalue
    cases hvalue with
    | scalar scalar =>
      obtain ⟨hbytes, hsome⟩ := scalar.bytes
      obtain ⟨byte, bytes, rfl⟩ := List.exists_cons_of_ne_nil hsome
      obtain ⟨rfl, -⟩ := List.cons.inj hquoted
      exact absurd (List.all_eq_true.1 hbytes _ List.mem_cons_self) (by decide)
    | object body distinct values => exact absurd (List.cons.inj hquoted).1 (by decide)
    | @string _ s b string isAllowed =>
      have hparsed := Config.parseString_text string w
      have hsame : Config.quote :: b ++ Config.quote :: w = quoted (lit "probe") := by
        rw [← hquoted]
        exact (List.append_assoc (34 :: b) [34] w).symm
      have hprobe : Config.parseString (quoted (lit "probe")) = .ok (some (lit "probe", [])) := by decide
      rw [hsame, hprobe] at hparsed
      have hs : "probe".toList = s := asBytes_inj (Prod.mk.inj (Option.some.inj (Except.ok.inj hparsed))).1
      subst hs
      rcases isAllowed.shows_status rfl with ⟨rest, hpart⟩ | ⟨hempty, -⟩
      · have hfirst : lit "cancelled" = 99 :: lit "ancelled" ∧ lit "probe" = 112 :: lit "robe" := by decide
        have hstatus : lit "cancelled" = lit "probe" ++ asBytes rest := hpart.trans (asBytes_append _ _)
        rw [hfirst.1, hfirst.2] at hstatus
        exact absurd (List.cons.inj hstatus).1 (by decide)
      · exact absurd hempty (by decide)

end CodexKeyboard.Status
