import CodexKeyboard.Usb.Lifetime
import CodexKeyboard.Usb.Reports

/-! The owner task's side of `usb_hid.cpp`: the queues of `UsbHidTransport`, what puts reports into them, and
    the poll that hands them to the one HID endpoint.

    The endpoint changes whenever the lifetime mutex is free. A call of the owner task is therefore cut at the
    places where it takes the mutex; a section is what it does next, and between two sections anything can
    happen to the endpoint. -/

namespace CodexKeyboard.Usb

open Schemes Keyboard Config

def kReportIdKeyboard : UInt8 := 1
def kReportIdAppCommand : UInt8 := 0x11
def kAppCommandKindFixedText : UInt8 := 0x01
def kAppCommandReportPayloadLen : ℕ := 63
def kAppCommandHeaderLen : ℕ := 4
def kAppCommandChunkDataLen : ℕ := kAppCommandReportPayloadLen - kAppCommandHeaderLen
def kAppCommandStatefulReserve : ℕ := 2
def kSpeakerAssetsReportPayloadLen : ℕ := 63
def kFixedTextMaxUtf8Bytes : ℕ := 960
def kSyntheticKeyboardOperationCapacity : ℕ := 16

theorem syntheticCapacity_pos : 0 < kSyntheticKeyboardOperationCapacity := by decide

inductive SyntheticKeyboardOperation
  | tap (tap : HidKeyboardSnapshot) (usbEpoch : ℕ)
  | text (text : Bytes) (nextTextByte : ℕ) (usbEpoch : ℕ)
deriving DecidableEq

def SyntheticKeyboardOperation.usbEpoch : SyntheticKeyboardOperation → ℕ
  | .tap _ usbEpoch => usbEpoch
  | .text _ _ usbEpoch => usbEpoch

structure PendingSpeakerAssetsResponse where
  frame : Bytes := []
  runtimeReplySequence : ℕ := 0
  usbEpoch : ℕ := 0
  active : Bool := false
deriving DecidableEq

/-- What was sent and not retired by the callback. -/
structure SpeakerAssetsSent where
  sequence : ℕ := 0
  epoch : ℕ := 0
  ready : Bool := false
deriving DecidableEq

structure UsbHidTransport where
  bus : UsbBus := {}
  pendingKeyboardReports : HidReportQueue := {}
  pendingAppCommandReports : HidReportQueue := {}
  pendingMouseWheelReports : MouseWheelQueue := {}
  pendingSyntheticKeyboardOperations : Ring SyntheticKeyboardOperation kSyntheticKeyboardOperationCapacity :=
    Ring.empty (.tap {} 0) syntheticCapacity_pos
  endpointArbiter : UsbHidEndpointArbiter := {}
  queuedPhysicalKeyboard : HidKeyboardSnapshot := {}
  statusResponse : StatusHidResponseStream := {}
  statusResponseEpoch : ℕ := 0
  speakerAssetsResponse : PendingSpeakerAssetsResponse := {}
  speakerAssetsSent : SpeakerAssetsSent := {}

/-- A request of another part of the firmware. The hotkey is parsed; a text is in bytes. -/
inductive UsbCall
  | keyboardReport (snapshot : HidKeyboardSnapshot) (reportClass : HidReportClass)
  | mouseWheel (vertical horizontal : Int)
  | tapHotkey (tap : HidKeyboardSnapshot)
  | typeText (text : Bytes)
  | appCommand (commandKind chunkIndex totalChunks : UInt8) (data : Bytes) (reservedFreeSlots : ℕ)
  | fixedText (text : Bytes)
  | statusResponse (requestId : ℕ) (json : Bytes)
  | speakerAssetsResponse (runtimeReplySequence : ℕ) (frame : Bytes)
deriving DecidableEq

/-- A report that the endpoint accepted. -/
inductive UsbReport
  | keyboard (data : Bytes)
  | mouseWheel (vertical horizontal : Int)
  | appCommand (data : Bytes)
  | statusResponse (data : Bytes)
  | speakerAssets (runtimeReplySequence : ℕ) (frame : Bytes)
deriving DecidableEq

def UsbReport.kind : UsbReport → UsbHidEndpointReportKind
  | .keyboard _ => .keyboard
  | .mouseWheel _ _ => .mouseWheel
  | .appCommand _ => .appCommand
  | .statusResponse _ => .statusResponse
  | .speakerAssets _ _ => .speakerAssets

/-- What happens in an epoch: a request is taken, or a report is accepted. -/
inductive UsbEvent
  | taken (epoch : ℕ) (call : UsbCall)
  | sent (epoch : ℕ) (report : UsbReport)
deriving DecidableEq

inductive PollAttemptResult
  | empty
  | accepted
  | retryLater
  | dropped
deriving DecidableEq

/-- What a section is told: the time, `tud_hid_ready()`, whether TinyUSB accepts the report, and whether the
    callback retires a response. -/
structure UsbAnswers where
  nowMs : ℕ := 0
  ready : Bool := true
  accepts : Bool := true
  retires : Bool := true

/-- The payload of a keyboard report. -/
def snapshotBytes (snapshot : HidKeyboardSnapshot) : Bytes :=
  snapshot.modifier :: (if snapshot.appleFn then 1 else 0) :: snapshot.keycodes.toList

def keyboardPush (snapshot : HidKeyboardSnapshot) (nowMs epoch : ℕ) : HidPush :=
  { reportId := kReportIdKeyboard, data := some (snapshotBytes snapshot), len := kKeyboardSnapshotPayloadSize
    queuedMs := nowMs, usbEpoch := epoch }

/-- `report` of `push_app_command_report_locked`. -/
def appCommandBytes (commandKind chunkIndex totalChunks : UInt8) (data : Bytes) : Bytes :=
  [commandKind, chunkIndex, totalChunks, UInt8.ofNat data.length] ++ data ++
    List.replicate (kAppCommandChunkDataLen - data.length) 0

namespace UsbHidTransport

variable (transport : UsbHidTransport)

def change (change : UsbChange) : UsbHidTransport := { transport with bus := transport.bus.change change }

def clearPendingReportsOnUnmount : UsbHidTransport :=
  { transport with
    pendingKeyboardReports := transport.pendingKeyboardReports.clear
    pendingMouseWheelReports := transport.pendingMouseWheelReports.clear
    pendingAppCommandReports := transport.pendingAppCommandReports.clear
    pendingSyntheticKeyboardOperations := Ring.empty (.tap {} 0) syntheticCapacity_pos
    endpointArbiter := {}
    queuedPhysicalKeyboard := {}
    statusResponse := {}
    statusResponseEpoch := 0
    speakerAssetsResponse := {}
    speakerAssetsSent := {} }

def applyPendingLifetimeReset : UsbHidTransport :=
  if transport.bus.lifetimeResetPending then
    { transport.clearPendingReportsOnUnmount with bus := { transport.bus with lifetimeResetPending := false } }
  else transport

/-! ### Taking requests -/

def pushSyntheticOperation (operation : SyntheticKeyboardOperation) : UsbHidTransport × Bool :=
  if h : transport.pendingSyntheticKeyboardOperations.size < kSyntheticKeyboardOperationCapacity then
    ({ transport with
        pendingSyntheticKeyboardOperations := transport.pendingSyntheticKeyboardOperations.pushBack operation h }, true)
  else (transport, false)

def popSyntheticOperation : UsbHidTransport :=
  if transport.pendingSyntheticKeyboardOperations.size = 0 then transport
  else { transport with
    pendingSyntheticKeyboardOperations := transport.pendingSyntheticKeyboardOperations.popFront (.tap {} 0) }

def pushAppCommandReportLocked (commandKind chunkIndex totalChunks : UInt8) (data : Bytes)
    (reservedFreeSlots nowMs expectedEpoch : ℕ) : UsbHidTransport × Bool :=
  if kAppCommandChunkDataLen < data.length then (transport, false)
  else
    let pushed := transport.pendingAppCommandReports.push
      { reportId := kReportIdAppCommand, data := some (appCommandBytes commandKind chunkIndex totalChunks data)
        len := kAppCommandReportPayloadLen, queuedMs := nowMs, usbEpoch := expectedEpoch } reservedFreeSlots
    ({ transport with pendingAppCommandReports := pushed.1 }, pushed.2.accepted)

/-- The chunks from `index` on, as long as they are queued. -/
def pushFixedText (totalChunks nowMs expectedEpoch : ℕ) : UsbHidTransport → ℕ → List Bytes → UsbHidTransport × Bool
  | transport, _, [] => (transport, true)
  | transport, index, chunk :: chunks =>
    let pushed := transport.pushAppCommandReportLocked kAppCommandKindFixedText (UInt8.ofNat index)
      (UInt8.ofNat totalChunks) chunk kAppCommandStatefulReserve nowMs expectedEpoch
    if pushed.2 then pushFixedText totalChunks nowMs expectedEpoch pushed.1 (index + 1) chunks else (pushed.1, false)

/-- `queue_keyboard_report_for_epoch` under the mutex. -/
def queueKeyboardReport (snapshot : HidKeyboardSnapshot) (reportClass : HidReportClass) (nowMs expectedEpoch : ℕ) :
    UsbHidTransport × Bool :=
  if !isKeyboardSnapshot reportClass then (transport, false)
  else
    let pushed :=
      transport.pendingKeyboardReports.pushClassified (keyboardPush snapshot nowMs expectedEpoch) reportClass
    if pushed.2.accepted then
      ({ transport with pendingKeyboardReports := pushed.1, queuedPhysicalKeyboard := snapshot }, true)
    else ({ transport with pendingKeyboardReports := pushed.1 }, false)

def queueMouseWheel (vertical horizontal : Int) (nowMs expectedEpoch : ℕ) : UsbHidTransport × Bool :=
  let pushed := transport.pendingMouseWheelReports.push
    { vertical, horizontal, queuedMs := nowMs, usbEpoch := expectedEpoch }
  ({ transport with pendingMouseWheelReports := pushed.1 }, pushed.2.accepted)

def queueStatusResponse (requestId : ℕ) (json : Bytes) (expectedEpoch : ℕ) : UsbHidTransport × Bool :=
  match StatusHidResponseStream.replace requestId json with
  | none => (transport, false)
  | some response => ({ transport with statusResponse := response, statusResponseEpoch := expectedEpoch }, true)

def queueSpeakerAssetsResponse (runtimeReplySequence : ℕ) (frame : Bytes) (expectedEpoch : ℕ) :
    UsbHidTransport × Bool :=
  if transport.speakerAssetsResponse.active || transport.speakerAssetsSent.ready then (transport, false)
  else ({ transport with speakerAssetsResponse := ⟨frame, runtimeReplySequence, expectedEpoch, true⟩ }, true)

end UsbHidTransport

/-- The chunks of `send_fixed_text_command`. -/
def fixedTextChunks (text : Bytes) : List Bytes :=
  (List.range ((text.length + kAppCommandChunkDataLen - 1) / kAppCommandChunkDataLen)).map fun index =>
    (text.drop (index * kAppCommandChunkDataLen)).take kAppCommandChunkDataLen

namespace UsbCall

/-- What a request is checked for before the transport is looked at; `false` ends it there. -/
def begins (expectedEpoch : ℕ) : UsbCall → Bool
  | keyboardReport _ _ => true
  | mouseWheel vertical horizontal => vertical ≠ 0 || horizontal ≠ 0
  | tapHotkey tap => !tap.empty
  | typeText text =>
    expectedEpoch ≠ 0 && text.all (fun value => (hidReportForAsciiChar value).valid) && !text.isEmpty
  | appCommand _ _ _ _ _ => true
  | fixedText text => expectedEpoch ≠ 0 && !text.isEmpty && decide (text.length ≤ kFixedTextMaxUtf8Bytes) &&
    decide ((fixedTextChunks text).length ≤ 255)
  | statusResponse requestId json => requestId ≠ 0 && statusHidResponseChunkCount json.length ≠ 0
  | speakerAssetsResponse runtimeReplySequence frame =>
    runtimeReplySequence ≠ 0 && frame.length = kSpeakerAssetsReportPayloadLen

/-- A request that polls once it is taken. -/
def polls : UsbCall → Bool
  | keyboardReport _ _ => false
  | statusResponse _ _ => false
  | speakerAssetsResponse _ _ => false
  | _ => true

/-- What a request does under the mutex, and whether it is taken. -/
def take (transport : UsbHidTransport) (nowMs expectedEpoch : ℕ) : UsbCall → UsbHidTransport × Bool
  | keyboardReport snapshot reportClass => transport.queueKeyboardReport snapshot reportClass nowMs expectedEpoch
  | mouseWheel vertical horizontal => transport.queueMouseWheel vertical horizontal nowMs expectedEpoch
  | tapHotkey tap => transport.pushSyntheticOperation (.tap tap expectedEpoch)
  | typeText text => transport.pushSyntheticOperation (.text text 0 expectedEpoch)
  | appCommand commandKind chunkIndex totalChunks data reservedFreeSlots =>
    transport.pushAppCommandReportLocked commandKind chunkIndex totalChunks data reservedFreeSlots nowMs expectedEpoch
  | fixedText text =>
    if kHidReportQueueCapacity - kAppCommandStatefulReserve <
        transport.pendingAppCommandReports.contents.length + (fixedTextChunks text).length then (transport, false)
    else
      UsbHidTransport.pushFixedText (fixedTextChunks text).length nowMs expectedEpoch transport 0
        (fixedTextChunks text)
  | statusResponse requestId json => transport.queueStatusResponse requestId json expectedEpoch
  | speakerAssetsResponse runtimeReplySequence frame =>
    transport.queueSpeakerAssetsResponse runtimeReplySequence frame expectedEpoch

end UsbCall

/-! ### The poll -/

namespace UsbHidTransport

variable (transport : UsbHidTransport)

/-- What a synthetic operation types next; `none` where it is done or cannot be typed. -/
def nextSynthetic : SyntheticKeyboardOperation → Option HidKeyboardSnapshot
  | .tap tap _ => some tap
  | .text text nextTextByte _ =>
    match text[nextTextByte]? with
    | none => none
    | some value => if (hidReportForAsciiChar value).valid then some (syntheticChar value) else none

/-- The operation behind its next character; `none` where there is no further one. -/
def typedOn : SyntheticKeyboardOperation → Option SyntheticKeyboardOperation
  | .tap _ _ => none
  | .text text nextTextByte usbEpoch =>
    if nextTextByte + 1 < text.length then some (.text text (nextTextByte + 1) usbEpoch) else none

/-- Both reports of a pair in the queue, or none of what was in it. -/
def pushSyntheticPair (pressed restored : HidKeyboardSnapshot) (nowMs epoch : ℕ) : UsbHidTransport × Bool :=
  let press := transport.pendingKeyboardReports.pushClassified (keyboardPush pressed nowMs epoch) .keyboardPress
  let restore := press.1.pushClassified (keyboardPush restored nowMs epoch)
    (if restored.empty then .keyboardAllReleased else .keyboardRelease)
  if press.2.accepted && restore.2.accepted then ({ transport with pendingKeyboardReports := restore.1 }, true)
  else ({ transport with pendingKeyboardReports := restore.1.clear }, false)

def pumpSyntheticKeyboardReports (nowMs : ℕ) : UsbHidTransport :=
  if !transport.pendingKeyboardReports.contents.isEmpty then transport
  else
    match transport.pendingSyntheticKeyboardOperations.front with
    | none => transport
    | some operation =>
      if operation.usbEpoch = 0 then transport.popSyntheticOperation
      else
        match nextSynthetic operation with
        | none => transport.popSyntheticOperation
        | some synthetic =>
          match composeUsbHidSyntheticTap transport.queuedPhysicalKeyboard synthetic with
          | none => transport
          | some (pressed, restored) =>
            if !transport.bus.lockCurrentEpoch operation.usbEpoch then transport.popSyntheticOperation
            else
              let pushed := transport.pushSyntheticPair pressed restored nowMs operation.usbEpoch
              if !pushed.2 then pushed.1
              else
                match typedOn operation with
                | some rest =>
                  { pushed.1 with
                    pendingSyntheticKeyboardOperations := pushed.1.pendingSyntheticKeyboardOperations.set 0 rest }
                | none => pushed.1.popSyntheticOperation

/-- What an attempt leaves, and the report that was accepted. -/
structure PollAttempt where
  transport : UsbHidTransport
  result : PollAttemptResult
  sent : List UsbEvent := []

def dropKeyboardReport (sequence : ℕ) : UsbHidTransport :=
  { transport with pendingKeyboardReports := (transport.pendingKeyboardReports.popIfSequence sequence).1 }

def trySendKeyboardReport (accepts : Bool) : PollAttempt :=
  match transport.pendingKeyboardReports.front with
  | none => ⟨transport, .empty, []⟩
  | some report =>
    if report.reportId ≠ kReportIdKeyboard ∨ report.len ≠ kKeyboardSnapshotPayloadSize ∨ report.usbEpoch = 0 ∨
        transport.bus.lockCurrentEpoch report.usbEpoch = false then
      ⟨transport.dropKeyboardReport report.sequence, .dropped, []⟩
    else if !accepts then ⟨transport, .retryLater, []⟩
    else ⟨transport.dropKeyboardReport report.sequence, .accepted, [.sent report.usbEpoch (.keyboard report.data)]⟩

def trySendMouseWheelReport (accepts : Bool) : PollAttempt :=
  match transport.pendingMouseWheelReports.front with
  | none => ⟨transport, .empty, []⟩
  | some report =>
    let vertical := clampBetween (-127) 127 report.vertical
    let horizontal := clampBetween (-127) 127 report.horizontal
    if (vertical = 0 ∧ horizontal = 0) ∨ report.usbEpoch = 0 ∨
      transport.bus.lockCurrentEpoch report.usbEpoch = false then
      ⟨{ transport with
          pendingMouseWheelReports := (transport.pendingMouseWheelReports.popIfSequence report.sequence).1 },
            .dropped, []⟩
    else if !accepts then ⟨transport, .retryLater, []⟩
    else
      ⟨{ transport with
          pendingMouseWheelReports :=
            (transport.pendingMouseWheelReports.consumeIfSequence report.sequence vertical horizontal).1 },
        .accepted, [.sent report.usbEpoch (.mouseWheel vertical horizontal)]⟩

def dropAppCommandReport (sequence : ℕ) : UsbHidTransport :=
  { transport with pendingAppCommandReports := (transport.pendingAppCommandReports.popIfSequence sequence).1 }

def trySendAppCommandReport (accepts : Bool) : PollAttempt :=
  match transport.pendingAppCommandReports.front with
  | none => ⟨transport, .empty, []⟩
  | some report =>
    if report.reportId ≠ kReportIdAppCommand ∨ report.len ≠ kAppCommandReportPayloadLen ∨ report.usbEpoch = 0 ∨
        transport.bus.lockCurrentEpoch report.usbEpoch = false then
      ⟨transport.dropAppCommandReport report.sequence, .dropped, []⟩
    else if !accepts then ⟨transport, .retryLater, []⟩
    else ⟨transport.dropAppCommandReport report.sequence, .accepted, [.sent report.usbEpoch (.appCommand report.data)]⟩

def trySendStatusResponse (accepts : Bool) : PollAttempt :=
  if !transport.statusResponse.pending then ⟨transport, .empty, []⟩
  else
    match transport.statusResponse.encodeNext with
    | none => ⟨{ transport with statusResponse := {}, statusResponseEpoch := 0 }, .dropped, []⟩
    | some report =>
      if transport.statusResponseEpoch = 0 ∨ transport.bus.lockCurrentEpoch transport.statusResponseEpoch = false then
        ⟨{ transport with statusResponse := {}, statusResponseEpoch := 0 }, .dropped, []⟩
      else if !accepts then ⟨transport, .retryLater, []⟩
      else
        let marked := transport.statusResponse.markNextSent
        ⟨{ transport with
            statusResponse := marked.1
            statusResponseEpoch := if marked.2 then 0 else transport.statusResponseEpoch },
          .accepted, [.sent transport.statusResponseEpoch (.statusResponse report)]⟩

def trySendSpeakerAssetsResponse (accepts retires : Bool) : PollAttempt :=
  let response := transport.speakerAssetsResponse
  if !response.active then ⟨transport, .empty, []⟩
  else if response.runtimeReplySequence = 0 ∨ response.usbEpoch = 0 ∨
      transport.bus.lockCurrentEpoch response.usbEpoch = false then
    ⟨{ transport with speakerAssetsResponse := {} }, .dropped, []⟩
  else if !accepts then ⟨transport, .retryLater, []⟩
  else
    ⟨{ transport with
        speakerAssetsResponse := {}
        speakerAssetsSent :=
          if retires then transport.speakerAssetsSent else ⟨response.runtimeReplySequence, response.usbEpoch, true⟩ },
      .accepted, [.sent response.usbEpoch (.speakerAssets response.runtimeReplySequence response.frame)]⟩

def trySend (answers : UsbAnswers) : UsbHidEndpointReportKind → PollAttempt
  | .keyboard => transport.trySendKeyboardReport answers.accepts
  | .mouseWheel => transport.trySendMouseWheelReport answers.accepts
  | .appCommand => transport.trySendAppCommandReport answers.accepts
  | .statusResponse => transport.trySendStatusResponse answers.accepts
  | .speakerAssets => transport.trySendSpeakerAssetsResponse answers.accepts answers.retires

def pending : UsbHidEndpointPending where
  keyboard := !transport.pendingKeyboardReports.contents.isEmpty
  mouseWheel := !transport.pendingMouseWheelReports.contents.isEmpty
  appCommand := !transport.pendingAppCommandReports.contents.isEmpty
  statusResponse := transport.statusResponse.pending
  speakerAssets := transport.speakerAssetsResponse.active

end UsbHidTransport

/-! ### The owner task between its sections -/

/-- What the owner task does next. -/
inductive UsbSection
  | idle
  | letIn (call : UsbCall) (expectedEpoch : ℕ)
  | pollReset
  | pollMounted
  | pump
  | attempt (remaining : ℕ)
deriving DecidableEq

structure UsbOwner where
  transport : UsbHidTransport := {}
  next : UsbSection := .idle

namespace UsbHidTransport

variable (transport : UsbHidTransport)

/-- A request that is let in, and taken or not. -/
def letIn (call : UsbCall) (expectedEpoch : ℕ) (answers : UsbAnswers) : UsbOwner × List UsbEvent :=
  if !transport.bus.lockCurrentEpoch expectedEpoch then (⟨transport, .idle⟩, [])
  else
    let taken := call.take transport answers.nowMs expectedEpoch
    if taken.2 then (⟨taken.1, if call.polls then .pollReset else .idle⟩, [.taken expectedEpoch call])
    else (⟨taken.1, .idle⟩, [])

/-- One of the five attempts of a poll. -/
def attempt (answers : UsbAnswers) (remaining : ℕ) : UsbOwner × List UsbEvent :=
  match transport.endpointArbiter.select transport.pending with
  | none => (⟨transport, .idle⟩, [])
  | some kind =>
    let attempted := transport.trySend answers kind
    match attempted.result with
    | .accepted => (⟨{ attempted.transport with endpointArbiter := .markAccepted kind }, .idle⟩, attempted.sent)
    | .retryLater => (⟨attempted.transport, .idle⟩, attempted.sent)
    | _ => (⟨attempted.transport, if remaining = 0 then .idle else .attempt (remaining - 1)⟩, attempted.sent)

/-- A section that is due. -/
def runSection (answers : UsbAnswers) : UsbSection → UsbOwner × List UsbEvent
  | .idle => (⟨transport, .idle⟩, [])
  | .letIn call expectedEpoch => transport.letIn call expectedEpoch answers
  | .pollReset => (⟨transport.applyPendingLifetimeReset, .pollMounted⟩, [])
  | .pollMounted =>
    if transport.bus.connectionEpoch = 0 then (⟨transport.clearPendingReportsOnUnmount, .idle⟩, [])
    else (⟨transport, .pump⟩, [])
  | .pump =>
    (⟨transport.pumpSyntheticKeyboardReports answers.nowMs,
      if answers.ready then .attempt (kReportKindCount - 1) else .idle⟩, [])
  | .attempt remaining => transport.attempt answers remaining

end UsbHidTransport

/-- One step: the endpoint changes, a request or a poll begins, or the section that is due is run. The endpoint
    changes as `changes` has it; a request comes with an epoch that was read before. -/
inductive UsbStep (changes : UsbBus → UsbChange → Prop) : UsbOwner → List UsbEvent → UsbOwner → Prop
  | change (owner : UsbOwner) (change : UsbChange) : changes owner.transport.bus change →
    UsbStep changes owner [] { owner with transport := owner.transport.change change }
  | request (owner : UsbOwner) (call : UsbCall) (expectedEpoch : ℕ) : owner.next = .idle →
    call.begins expectedEpoch = true → expectedEpoch ≤ owner.transport.bus.lifetime.epoch →
    UsbStep changes owner [] ⟨owner.transport.applyPendingLifetimeReset, .letIn call expectedEpoch⟩
  | poll (owner : UsbOwner) : owner.next = .idle → UsbStep changes owner [] ⟨owner.transport, .pollReset⟩
  | run (owner : UsbOwner) (answers : UsbAnswers) :
    UsbStep changes owner (owner.transport.runSection answers owner.next).2
      (owner.transport.runSection answers owner.next).1

/-- What happened from one state to another, in order, with `holds` in every state. -/
inductive UsbRun (changes : UsbBus → UsbChange → Prop) (holds : UsbOwner → Prop) :
    UsbOwner → List UsbEvent → UsbOwner → Prop
  | refl (owner : UsbOwner) : holds owner → UsbRun changes holds owner [] owner
  | step {first next last : UsbOwner} {events rest : List UsbEvent} : UsbRun changes holds first events next →
    UsbStep changes next rest last → holds last → UsbRun changes holds first (events ++ rest) last

end CodexKeyboard.Usb
