import CodexKeyboard.Schemes.Bytes
import CodexKeyboard.Schemes.Rotation
import CodexKeyboard.Keyboard.HidReportQueue
import CodexKeyboard.Config.Receiver

/-! What goes over the one HID endpoint: the arbiter and the synthetic tap of `usb_hid_endpoint_arbiter.h`, the
    characters of `hid_keycode.cpp`, and the status response of `status_hid_protocol.cpp`. -/

namespace CodexKeyboard.Usb

open Schemes Schemes.Bytes Keyboard Config

/-! ### The arbiter -/

/-- `none` of it stands for `Count`. -/
inductive UsbHidEndpointReportKind
  | keyboard
  | mouseWheel
  | appCommand
  | statusResponse
  | speakerAssets
deriving DecidableEq

def kReportKindCount : ℕ := 5

def UsbHidEndpointReportKind.place : UsbHidEndpointReportKind → ℕ
  | .keyboard => 0
  | .mouseWheel => 1
  | .appCommand => 2
  | .statusResponse => 3
  | .speakerAssets => 4

def kindAt : ℕ → UsbHidEndpointReportKind
  | 0 => .keyboard
  | 1 => .mouseWheel
  | 2 => .appCommand
  | 3 => .statusResponse
  | _ => .speakerAssets

structure UsbHidEndpointPending where
  keyboard : Bool := false
  mouseWheel : Bool := false
  appCommand : Bool := false
  statusResponse : Bool := false
  speakerAssets : Bool := false
deriving DecidableEq

def UsbHidEndpointPending.has (pending : UsbHidEndpointPending) : UsbHidEndpointReportKind → Bool
  | .keyboard => pending.keyboard
  | .mouseWheel => pending.mouseWheel
  | .appCommand => pending.appCommand
  | .statusResponse => pending.statusResponse
  | .speakerAssets => pending.speakerAssets

structure UsbHidEndpointArbiter where
  nextPreferred : UsbHidEndpointReportKind := .keyboard
deriving DecidableEq

namespace UsbHidEndpointArbiter

def select (arbiter : UsbHidEndpointArbiter) (pending : UsbHidEndpointPending) : Option UsbHidEndpointReportKind :=
  (turn kReportKindCount arbiter.nextPreferred.place fun place => pending.has (kindAt place)).map kindAt

def markAccepted (kind : UsbHidEndpointReportKind) : UsbHidEndpointArbiter :=
  ⟨kindAt (turnAfter kReportKindCount kind.place)⟩

/-- How many accepted reports of other classes a class can wait for. -/
def ahead (arbiter : UsbHidEndpointArbiter) (kind : UsbHidEndpointReportKind) : ℕ :=
  behind kReportKindCount arbiter.nextPreferred.place kind.place

variable {arbiter : UsbHidEndpointArbiter} {pending : UsbHidEndpointPending} {kind served : UsbHidEndpointReportKind}

theorem place_lt (kind : UsbHidEndpointReportKind) : kind.place < kReportKindCount := by
  cases kind <;> decide

theorem kindAt_place (kind : UsbHidEndpointReportKind) : kindAt kind.place = kind := by
  cases kind <;> rfl

theorem place_kindAt {place : ℕ} (h : place < kReportKindCount) : (kindAt place).place = place := by
  have hfive : place < 5 := h
  interval_cases place <;> rfl

theorem place_inj (h : kind.place = served.place) : kind = served := by
  rw [← kindAt_place kind, h, kindAt_place]

theorem ahead_le (arbiter : UsbHidEndpointArbiter) (kind : UsbHidEndpointReportKind) : arbiter.ahead kind ≤ 4 :=
  Nat.le_of_lt_succ (Turn.behind_lt (place_lt _) _)

/-- A class that has a report is chosen, and a class that waits is not farther than the chosen one. -/
theorem select_some (h : arbiter.select pending = some served) : pending.has served = true ∧
    ∀ kind, pending.has kind = true → arbiter.ahead served ≤ arbiter.ahead kind := by
  obtain ⟨place, hturn, rfl⟩ := Option.map_eq_some_iff.1 h
  obtain ⟨hplace, hwaits, hfirst⟩ := Turn.turn_some (place_lt _) hturn
  refine ⟨hwaits, fun kind hkind => ?_⟩
  rw [ahead, place_kindAt hplace]
  exact hfirst kind.place (place_lt kind) (by rw [kindAt_place]; exact hkind)

theorem ahead_markAccepted (hne : served ≠ kind) (hfirst : arbiter.ahead served ≤ arbiter.ahead kind) :
    (markAccepted served).ahead kind < arbiter.ahead kind := by
  rw [ahead, markAccepted, place_kindAt (Turn.turnAfter_lt (place_lt served))]
  exact Turn.behind_turnAfter (place_lt _) (place_lt served) (place_lt kind) (fun h => hne (place_inj h)) hfirst

end UsbHidEndpointArbiter

/-! ### Synthetic keys -/

/-- The key in its place, or in the first free one. -/
def addSyntheticKeycode (pressed : Vector UInt8 6) (keycode : UInt8) : Option (Vector UInt8 6) :=
  if keycode = 0 ∨ keycode ∈ pressed.toList then some pressed
  else (pressed.finIdxOf? 0).map fun emptySlot : Fin 6 => pressed.set emptySlot keycode emptySlot.isLt

/-- The pressed and the restored snapshot of `compose_usb_hid_synthetic_tap`; `none` where it returns `false`. -/
def composeUsbHidSyntheticTap (physical synthetic : HidKeyboardSnapshot) :
    Option (HidKeyboardSnapshot × HidKeyboardSnapshot) :=
  if synthetic.empty then none
  else (synthetic.keycodes.toList.foldlM addSyntheticKeycode physical.keycodes).map fun keycodes =>
    (⟨physical.modifier ||| synthetic.modifier, physical.appleFn || synthetic.appleFn, keycodes⟩, physical)

theorem compose_restores {physical synthetic pressed restored : HidKeyboardSnapshot}
    (h : composeUsbHidSyntheticTap physical synthetic = some (pressed, restored)) : restored = physical := by
  rw [composeUsbHidSyntheticTap] at h
  split at h
  · cases h
  · obtain ⟨keycodes, -, hpair⟩ := Option.map_eq_some_iff.1 h
    exact (Prod.mk.inj hpair).2.symm

def kModifierLeftShift : UInt8 := 0x02

def reportForKey (keycode : UInt8) (modifier : UInt8 := 0) : HidKeyboardReport :=
  ⟨true, false, modifier, keycode, (Vector.replicate 6 0).set 0 keycode⟩

/-- `{}` of the type. -/
def noReport : HidKeyboardReport := ⟨false, false, 0, 0, Vector.replicate 6 0⟩

/-- The keys of the punctuation, and of `0` and the white space, by their codes. -/
def reportForSign (value : UInt8) : HidKeyboardReport :=
  match value.toNat with
  | 48 => reportForKey 0x27
  | 10 | 13 => reportForKey 0x28
  | 8 => reportForKey 0x2A
  | 9 => reportForKey 0x2B
  | 32 => reportForKey 0x2C
  | 45 => reportForKey 0x2D
  | 95 => reportForKey 0x2D kModifierLeftShift
  | 61 => reportForKey 0x2E
  | 43 => reportForKey 0x2E kModifierLeftShift
  | 91 => reportForKey 0x2F
  | 123 => reportForKey 0x2F kModifierLeftShift
  | 93 => reportForKey 0x30
  | 125 => reportForKey 0x30 kModifierLeftShift
  | 92 => reportForKey 0x31
  | 124 => reportForKey 0x31 kModifierLeftShift
  | 59 => reportForKey 0x33
  | 58 => reportForKey 0x33 kModifierLeftShift
  | 39 => reportForKey 0x34
  | 34 => reportForKey 0x34 kModifierLeftShift
  | 96 => reportForKey 0x35
  | 126 => reportForKey 0x35 kModifierLeftShift
  | 44 => reportForKey 0x36
  | 60 => reportForKey 0x36 kModifierLeftShift
  | 46 => reportForKey 0x37
  | 62 => reportForKey 0x37 kModifierLeftShift
  | 47 => reportForKey 0x38
  | 63 => reportForKey 0x38 kModifierLeftShift
  | 33 => reportForKey 0x1E kModifierLeftShift
  | 64 => reportForKey 0x1F kModifierLeftShift
  | 35 => reportForKey 0x20 kModifierLeftShift
  | 36 => reportForKey 0x21 kModifierLeftShift
  | 37 => reportForKey 0x22 kModifierLeftShift
  | 94 => reportForKey 0x23 kModifierLeftShift
  | 38 => reportForKey 0x24 kModifierLeftShift
  | 42 => reportForKey 0x25 kModifierLeftShift
  | 40 => reportForKey 0x26 kModifierLeftShift
  | 41 => reportForKey 0x27 kModifierLeftShift
  | _ => noReport

def hidReportForAsciiChar (value : UInt8) : HidKeyboardReport :=
  if 97 ≤ value ∧ value ≤ 122 then reportForKey (0x04 + (value - 97))
  else if 65 ≤ value ∧ value ≤ 90 then reportForKey (0x04 + (value - 65)) kModifierLeftShift
  else if 49 ≤ value ∧ value ≤ 57 then reportForKey (0x1E + (value - 49))
  else reportForSign value

/-- The snapshot that a character is typed by. -/
def syntheticChar (value : UInt8) : HidKeyboardSnapshot :=
  let report := hidReportForAsciiChar value
  ⟨report.modifier, report.appleFn, report.keycodes⟩

/-! ### The status response -/

def kStatusHidProtocolVersion : UInt8 := 1
def kStatusResponseCommandKind : UInt8 := 0x04
def kStatusAppCommandPayloadLen : ℕ := 63
def kStatusAppCommandHeaderLen : ℕ := 4
def kStatusResponseMetadataLen : ℕ := 9
def kStatusResponseJsonPerChunk : ℕ :=
  kStatusAppCommandPayloadLen - kStatusAppCommandHeaderLen - kStatusResponseMetadataLen
def kStatusResponseMaxJsonLen : ℕ := 512

/-- 0 for what cannot be sent. -/
def statusHidResponseChunkCount (jsonLen : ℕ) : ℕ :=
  if jsonLen = 0 ∨ kStatusResponseMaxJsonLen < jsonLen then 0
  else
    let chunks := (jsonLen + kStatusResponseJsonPerChunk - 1) / kStatusResponseJsonPerChunk
    if chunks = 0 ∨ 255 < chunks then 0 else chunks

def encodeStatusHidResponseChunk (requestId : ℕ) (json : Bytes) (chunkIndex : ℕ) : Option (List UInt8) :=
  let totalChunks := statusHidResponseChunkCount json.length
  if requestId = 0 ∨ totalChunks = 0 ∨ totalChunks ≤ chunkIndex then none
  else
    let chunk := (json.drop (chunkIndex * kStatusResponseJsonPerChunk)).take kStatusResponseJsonPerChunk
    some ([kStatusResponseCommandKind, UInt8.ofNat chunkIndex, UInt8.ofNat totalChunks,
      UInt8.ofNat (kStatusResponseMetadataLen + chunk.length), kStatusHidProtocolVersion] ++ leBytes 4 requestId ++
      leBytes 2 json.length ++ leBytes 2 (crc16Ccitt json).toNat ++ chunk ++
      List.replicate (kStatusResponseJsonPerChunk - chunk.length) 0)

structure StatusHidResponseStream where
  json : Bytes := []
  requestId : ℕ := 0
  nextChunk : ℕ := 0
  totalChunks : ℕ := 0
deriving DecidableEq

namespace StatusHidResponseStream

variable (stream : StatusHidResponseStream)

def pending : Bool := stream.totalChunks ≠ 0

/-- `none` where it returns `false` and nothing is replaced. -/
def replace (requestId : ℕ) (json : Bytes) : Option StatusHidResponseStream :=
  let totalChunks := statusHidResponseChunkCount json.length
  if requestId = 0 ∨ totalChunks = 0 then none else some ⟨json, requestId, 0, totalChunks⟩

def encodeNext : Option (List UInt8) :=
  if stream.pending then encodeStatusHidResponseChunk stream.requestId stream.json stream.nextChunk else none

/-- With whether this send completed the response. -/
def markNextSent : StatusHidResponseStream × Bool :=
  if !stream.pending then (stream, false)
  else if stream.nextChunk + 1 < stream.totalChunks then ({ stream with nextChunk := stream.nextChunk + 1 }, false)
  else ({}, true)

end StatusHidResponseStream

end CodexKeyboard.Usb
