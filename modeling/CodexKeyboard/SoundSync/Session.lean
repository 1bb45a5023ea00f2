import CodexKeyboard.SoundSync.Bundle

/-! The sound session of `speaker_assets_session.cpp`: frames in, a reply or one store action out.

    A flag of the source that says whether another field counts is an `Option` here: `route` is there
    while `route_bound_`, `progress` while `progress_valid_`, `pending` while an action is pending. -/

namespace CodexKeyboard.SoundSync

open Schemes.Bytes

def speakerAssetsReplayEntries : ℕ := 8
def speakerAssetsProgressBitmapBytes : ℕ := soundPayloadBlockCount / 8

/-- The hash functions of `sound_asset_crypto.h`. -/
structure SoundCrypto where
  crc32 : List UInt8 → UInt32
  sha256 : List UInt8 → SoundSha256Digest

inductive SpeakerAssetsActionKind
  | begin
  | discardInvalidStaging
  | queryCurrentActive
  | resumeQuery
  | writeManifest
  | writePayloadBlock
  | commit
  | abort
deriving DecidableEq

inductive SpeakerAssetsResumeQueryMode
  | resumeOrRebind
  | currentProgress
deriving DecidableEq

inductive SpeakerAssetsSessionPhase
  | idle
  | beginAssembly
  | ready
  | unitAssembly
  | actionPending
deriving DecidableEq

inductive SpeakerAssetsSessionResult
  | ok
  | invalidArgument
  | noPendingAction
  | staleCompletion
deriving DecidableEq

inductive SpeakerAssetsTransactionOutcome
  | active
  | committed
  | unknown
deriving DecidableEq

def SpeakerAssetsTransactionOutcome.code : SpeakerAssetsTransactionOutcome → UInt8
  | .active => 1
  | .committed => 2
  | .unknown => 3

structure SpeakerAssetsActionView where
  token : UInt32
  kind : SpeakerAssetsActionKind
  route : SpeakerAssetsRouteToken
  requestId : UInt32
  sessionCookie : UInt32
  plan : Option SoundBundlePlan := none
  expectedIdentity : SoundUpdateIdentity := {}
  queryMode : SpeakerAssetsResumeQueryMode := .currentProgress
  bytes : List UInt8 := []
  blockIndex : UInt16 := 0
deriving DecidableEq

structure SpeakerAssetsActionCompletion where
  token : UInt32 := 0
  kind : SpeakerAssetsActionKind := .begin
  result : SoundStoreResult := .invalidArgument
  identity : Option SoundUpdateIdentity := none
  progress : Option SoundUpdateProgress := none
  outcome : Option SpeakerAssetsTransactionOutcome := none
  outcomeManifestBytes : UInt32 := 0
  outcomePayloadBytes : UInt32 := 0
  currentActive : Option SoundBankSnapshot := none
deriving DecidableEq

inductive SpeakerAssetsEmission
  | none
  | reply (frame : SpeakerAssetsFrame)
  | action (action : SpeakerAssetsActionView)
deriving DecidableEq

/-- A write borrows the block assembler's bytes until it completes. -/
def SpeakerAssetsActionKind.isWrite (kind : SpeakerAssetsActionKind) : Bool :=
  kind == .writeManifest || kind == .writePayloadBlock

structure PendingAction where
  orphaned : Bool := false
  kind : SpeakerAssetsActionKind
  route : SpeakerAssetsRouteToken
  token : UInt32
  requestId : UInt32
  requestCookie : UInt32
  requestOffset : UInt32
  opcode : UInt8
  region : SpeakerAssetsRegion
  unitIndex : UInt16
  fingerprint : SoundSha256Digest
  expectedIdentity : SoundUpdateIdentity := {}
deriving DecidableEq

/-- The frame a reply to the finished action answers. -/
def PendingAction.request (finished : PendingAction) : SpeakerAssetsFrame where
  opcode := finished.opcode
  requestId := finished.requestId
  sessionCookie := finished.requestCookie
  objectOffset := finished.requestOffset

structure ReplayEntry where
  route : SpeakerAssetsRouteToken
  requestCookie : UInt32
  requestId : UInt32
  opcode : UInt8
  region : SpeakerAssetsRegion
  unitIndex : UInt16
  fingerprint : SoundSha256Digest
  reply : SpeakerAssetsFrame
deriving DecidableEq

inductive ReplayLookup
  | miss
  | exact (reply : SpeakerAssetsFrame)
  | conflict
deriving DecidableEq

structure SpeakerAssetsSession where
  phase : SpeakerAssetsSessionPhase := .idle
  route : Option SpeakerAssetsRouteToken := none
  sessionCookie : UInt32 := 0
  nextCookie : UInt32 := 1
  nextActionToken : UInt32 := 1
  progress : Option SoundUpdateProgress := none
  partialActivityCounter : UInt32 := 0
  decodedPlan : SoundBundlePlan := {}
  planAssembler : SpeakerAssetsPlanAssembler := {}
  blockAssembler : SpeakerAssetsBlockAssembler := none
  beginSawFirst : Bool := false
  beginSawLast : Bool := false
  beginReplayFromReady : Bool := false
  planActionKind : SpeakerAssetsActionKind := .begin
  unitRequestId : UInt32 := 0
  unitBaseOffset : UInt32 := 0
  unitSawFirst : Bool := false
  unitSawLast : Bool := false
  pending : Option PendingAction := none
  replay : List (Option ReplayEntry) := List.replicate speakerAssetsReplayEntries none
  nextReplaySlot : ℕ := 0
deriving DecidableEq

/-- The constructor: a zero seed counts as one. -/
def SpeakerAssetsSession.init (cookieSeed actionTokenSeed : UInt32) : SpeakerAssetsSession where
  nextCookie := if cookieSeed = 0 then 1 else cookieSeed
  nextActionToken := if actionTokenSeed = 0 then 1 else actionTokenSeed

/-! ### What counts as well formed -/

def singleFrameRequestFlags : UInt8 := flagAckRequested ||| flagFirstFragment ||| flagLastFragment

def fragmentAckBitmapMaxBytes : ℕ := speakerAssetsUsbFrameBodyBytes - 4

/-- `transaction_id_is_valid` and `digest_is_valid`. -/
def bytesAreValid (bytes : List UInt8) : Bool := bytes.any (· != 0)

def payloadBlockLength (payloadBytes : UInt32) (blockIndex : ℕ) : ℕ :=
  min soundPayloadBlockSize (payloadBytes.toNat - blockIndex * soundPayloadBlockSize)

/-- The bit of a payload block in a progress bitmap. -/
def bitmapBit (bitmap : List UInt8) (index : ℕ) : Bool :=
  (bitmap.getD (index / 8) 0).toNat.testBit (index % 8)

def bitmapTailIsZero (progress : SoundUpdateProgress) : Bool :=
  (List.range soundPayloadBlockCount).all fun bit =>
    decide (bit < progress.payloadBlockCount.toNat) || !bitmapBit progress.payloadCompleteBitmap bit

def progressIsWellFormed (progress : SoundUpdateProgress) : Bool :=
  progress.identity.generation != 0 && bytesAreValid progress.identity.transactionId &&
    decide (32 ≤ progress.manifestBytes.toNat) &&
    decide (progress.manifestBytes.toNat ≤ soundSectorSize) &&
    decide (progress.payloadBytes.toNat ≤ soundPayloadMaxSize) &&
    progress.payloadBlockCount.toNat == payloadBlockCountOf progress.payloadBytes &&
    bytesAreValid progress.bundleSha256 && bitmapTailIsZero progress

def activeSnapshotCompletionIsWellFormed (snapshot : SoundBankSnapshot) : Bool :=
  if !snapshot.valid then
    snapshot.generation == 0 && snapshot.baseGeneration == 0 && !bytesAreValid snapshot.transactionId &&
      snapshot.manifestBytes == 0 && snapshot.payloadBytes == 0 &&
      !bytesAreValid snapshot.manifestSha256 && !bytesAreValid snapshot.bundleSha256
  else
    snapshot.generation != 0 && snapshot.baseGeneration == snapshot.generation - 1 &&
      bytesAreValid snapshot.transactionId && decide (32 ≤ snapshot.manifestBytes.toNat) &&
      decide (snapshot.manifestBytes.toNat ≤ soundSectorSize) &&
      decide (snapshot.payloadBytes.toNat ≤ soundPayloadMaxSize) &&
      bytesAreValid snapshot.manifestSha256 && bytesAreValid snapshot.bundleSha256

def progressMatchesPlan (progress : SoundUpdateProgress) (plan : SoundBundlePlan) : Bool :=
  progressIsWellFormed progress && progress.manifestBytes == plan.manifestBytes &&
    progress.payloadBytes == plan.payloadBytes && progress.bundleSha256 == plan.bundleSha256

def progressMatchesSession (candidate current : SoundUpdateProgress) : Bool :=
  progressIsWellFormed candidate && candidate.identity == current.identity &&
    candidate.manifestBytes == current.manifestBytes &&
    candidate.payloadBytes == current.payloadBytes &&
    candidate.payloadBlockCount == current.payloadBlockCount &&
    candidate.bundleSha256 == current.bundleSha256

def progressDoesNotRegress (candidate current : SoundUpdateProgress) : Bool :=
  !(current.manifestComplete && !candidate.manifestComplete) &&
    (List.range speakerAssetsProgressBitmapBytes).all fun index =>
      candidate.payloadCompleteBitmap.getD index 0 &&& current.payloadCompleteBitmap.getD index 0 ==
        current.payloadCompleteBitmap.getD index 0

def payloadBlockIsComplete (progress : SoundUpdateProgress) (blockIndex : UInt16) : Bool :=
  decide (blockIndex < progress.payloadBlockCount) &&
    bitmapBit progress.payloadCompleteBitmap blockIndex.toNat

def frameFingerprint (crypto : SoundCrypto) (frame : SpeakerAssetsFrame) : SoundSha256Digest :=
  match encodeSpeakerAssetsWifiFrame crypto.crc32 frame with
  | (.ok, encoded) => crypto.sha256 encoded
  | _ => zeroDigest

def planFingerprint (crypto : SoundCrypto) (plan : SoundBundlePlan) : SoundSha256Digest :=
  match encodeSoundBundlePlanWire crypto.crc32 plan with
  | (.ok, encoded) => crypto.sha256 encoded
  | _ => zeroDigest

/-- Over `EIA-UNIT`, nine bytes that say which unit it is, and the unit. -/
def unitFingerprint (crypto : SoundCrypto) (region : SpeakerAssetsRegion) (unitIndex : UInt16)
    (bytes : List UInt8) : SoundSha256Digest :=
  if bytes = [] then zeroDigest
  else
    crypto.sha256 ([0x45, 0x49, 0x41, 0x2D, 0x55, 0x4E, 0x49, 0x54] ++
      (region.code :: (leBytes 2 unitIndex.toNat ++ leBytes 4 bytes.length ++ [0, 0])) ++ bytes)

def speakerAssetsStatusFromStoreResult : SoundStoreResult → SpeakerAssetsStatus
  | .ok => .ok
  | .invalidArgument => .badRequest
  | .unavailable | .ioError => .storageUnavailable
  | .invalidBank => .integrityError
  | .invalidStaging => .recoveryRequired
  | .invalidManifest | .crcMismatch | .hashMismatch => .integrityError
  | .incomplete => .incomplete
  | .busy => .busy
  | .bankPinned => .bankPinned
  | .staleBase => .staleBase
  | .generationExhausted => .generationExhausted
  | .transactionMismatch => .transactionMismatch
  | .splitBrain => .splitBrain
  | .factoryBlank => .storageUnavailable

/-! ### Replies -/

def statusReply (request : SpeakerAssetsFrame) (status : SpeakerAssetsStatus) (cookie : UInt32) :
    SpeakerAssetsFrame where
  opcode := request.opcode
  flags := if status = .ok then flagResponse else flagResponse ||| flagError
  requestId := request.requestId
  sessionCookie := cookie
  objectOffset := request.objectOffset
  body := [status.code]

/-- `emit_fragment_reply`; a bitmap that is too long is left out. -/
def fragmentReply (request : SpeakerAssetsFrame) (status : SpeakerAssetsStatus) (cookie : UInt32)
    (firstMissing : UInt32) (bitmapByteOffset : ℕ) (bitmap : List UInt8) : SpeakerAssetsFrame :=
  let reply := { statusReply request status cookie with objectOffset := firstMissing }
  if fragmentAckBitmapMaxBytes < bitmap.length then reply
  else
    { reply with
      body := status.code :: (leBytes 2 bitmapByteOffset ++ UInt8.ofNat bitmap.length :: bitmap) }

def capabilitiesReply (request : SpeakerAssetsFrame) : SpeakerAssetsFrame :=
  { statusReply request .ok 0 with
    body := [SpeakerAssetsStatus.ok.code, speakerAssetsProtocolVersion, speakerAssetsCapabilities,
        UInt8.ofNat speakerAssetsUsbFrameBodyBytes, UInt8.ofNat speakerAssetsWifiFrameBodyBytes] ++
      leBytes 2 speakerAssetsPlanWireBytes ++ leBytes 2 soundPayloadBlockSize ++
      [UInt8.ofNat speakerAssetsProgressBitmapBytes, UInt8.ofNat speakerAssetsReplayEntries] }

/-- The bytes `std::copy` writes into a field of the given width. -/
def fieldBytes (width : ℕ) (bytes : List UInt8) : List UInt8 :=
  bytes.take width ++ List.replicate (width - bytes.length) 0

def currentActiveReply (request : SpeakerAssetsFrame) (active : SoundBankSnapshot) :
    SpeakerAssetsFrame :=
  let generation : ℕ := if active.valid then active.generation.toNat else 0
  { statusReply request .ok 0 with
    objectOffset := UInt32.ofNat generation
    body := [SpeakerAssetsStatus.ok.code, if active.valid then active.bank.code else 0xFF] ++
      leBytes 4 (generation / 2 ^ 32) ++
      fieldBytes 32 (if active.valid then active.bundleSha256 else []) }

def identityReply (request : SpeakerAssetsFrame) (progress : SoundUpdateProgress) (cookie : UInt32) :
    SpeakerAssetsFrame :=
  { statusReply request .ok cookie with
    objectOffset := 0
    body := [SpeakerAssetsStatus.ok.code, progress.identity.targetBank.code] ++
      leBytes 2 progress.payloadBlockCount.toNat ++ leBytes 8 progress.identity.generation.toNat ++
      leBytes 4 progress.manifestBytes.toNat ++ leBytes 4 progress.payloadBytes.toNat ++
      fieldBytes 16 progress.identity.transactionId }

def progressReply (request : SpeakerAssetsFrame) (progress : SoundUpdateProgress) (cookie : UInt32) :
    SpeakerAssetsFrame :=
  { statusReply request .ok cookie with
    objectOffset := 0
    body := [SpeakerAssetsStatus.ok.code, if progress.manifestComplete then 1 else 0,
        progress.identity.targetBank.code, UInt8.ofNat speakerAssetsProgressBitmapBytes] ++
      leBytes 8 progress.identity.generation.toNat ++ leBytes 4 progress.manifestBytes.toNat ++
      leBytes 4 progress.payloadBytes.toNat ++ leBytes 2 progress.payloadBlockCount.toNat ++
      fieldBytes 16 progress.payloadCompleteBitmap }

def outcomeReply (request : SpeakerAssetsFrame) (outcome : SpeakerAssetsTransactionOutcome)
    (identity : SoundUpdateIdentity) (manifestBytes payloadBytes : UInt32) : SpeakerAssetsFrame :=
  { statusReply request .ok 0 with
    objectOffset := 0
    body := [SpeakerAssetsStatus.ok.code, outcome.code,
        if outcome = .unknown then 0xFF else identity.targetBank.code, 0] ++
      leBytes 8 identity.generation.toNat ++ fieldBytes 16 identity.transactionId ++
      leBytes 4 manifestBytes.toNat ++ leBytes 4 payloadBytes.toNat }

namespace SpeakerAssetsSession

/-! ### Parts of the state -/

/-- The activity counter behind a fragment; `note_partial_activity` skips 0. -/
def activityAfter (s : SpeakerAssetsSession) (madeProgress : Bool) : UInt32 :=
  if !madeProgress then s.partialActivityCounter
  else if s.partialActivityCounter + 1 = 0 then 1
  else s.partialActivityCounter + 1

def clearPartialAssembly (s : SpeakerAssetsSession) : SpeakerAssetsSession :=
  { s with
    planAssembler := {}
    blockAssembler := none
    beginSawFirst := false
    beginSawLast := false
    beginReplayFromReady := false
    planActionKind := .begin
    unitRequestId := 0
    unitBaseOffset := 0
    unitSawFirst := false
    unitSawLast := false }

def clearBinding (s : SpeakerAssetsSession) : SpeakerAssetsSession :=
  { s with route := none, sessionCookie := 0, progress := none }

def restoreAfterBeginAssembly (s : SpeakerAssetsSession) : SpeakerAssetsSession :=
  { s with
    planAssembler := {}
    beginSawFirst := false
    beginSawLast := false
    beginReplayFromReady := false
    planActionKind := .begin
    phase := if s.beginReplayFromReady && s.route.isSome then .ready else .idle }

/-- `next_cookie` and `next_action_token`: the value handed out, never 0, and the next one. -/
def nextNonZero (value : UInt32) : UInt32 × UInt32 :=
  let value := if value = 0 then 1 else value
  (value, if value + 1 = 0 then 1 else value + 1)

def lookupReplay (s : SpeakerAssetsSession) (route : SpeakerAssetsRouteToken)
    (requestCookie requestId : UInt32) (opcode : UInt8) (region : SpeakerAssetsRegion)
    (unitIndex : UInt16) (fingerprint : SoundSha256Digest) : ReplayLookup :=
  let same := s.replay.reduceOption.filter fun entry =>
    entry.route = route ∧ entry.requestCookie = requestCookie ∧ entry.requestId = requestId
  match same.find? fun entry =>
      entry.opcode = opcode ∧ entry.region = region ∧ entry.unitIndex = unitIndex ∧
        entry.fingerprint = fingerprint with
  | some entry => .exact entry.reply
  | none => if same = [] then .miss else .conflict

def clearReplayForRoute (s : SpeakerAssetsSession) (route : SpeakerAssetsRouteToken) :
    SpeakerAssetsSession :=
  { s with replay := s.replay.map fun entry => entry.filter (·.route ≠ route) }

def rememberReplay (s : SpeakerAssetsSession) (finished : PendingAction) (reply : SpeakerAssetsFrame) :
    SpeakerAssetsSession :=
  { s with
    replay := s.replay.set s.nextReplaySlot (some
      { route := finished.route
        requestCookie := finished.requestCookie
        requestId := finished.requestId
        opcode := finished.opcode
        region := finished.region
        unitIndex := finished.unitIndex
        fingerprint := finished.fingerprint
        reply := reply })
    nextReplaySlot := (s.nextReplaySlot + 1) % speakerAssetsReplayEntries }

/-- `begin_pending_action` with the rest of the action its caller fills in. -/
def beginPendingAction (s : SpeakerAssetsSession) (kind : SpeakerAssetsActionKind)
    (route : SpeakerAssetsRouteToken) (request : SpeakerAssetsFrame) (region : SpeakerAssetsRegion)
    (unitIndex : UInt16) (fingerprint : SoundSha256Digest) (expectedIdentity : SoundUpdateIdentity) :
    SpeakerAssetsActionView × SpeakerAssetsSession :=
  let (token, next) := nextNonZero s.nextActionToken
  ({ token := token
     kind := kind
     route := route
     requestId := request.requestId
     sessionCookie := request.sessionCookie
     expectedIdentity := expectedIdentity },
   { s with
     nextActionToken := next
     phase := .actionPending
     pending := some
       { kind := kind
         route := route
         token := token
         requestId := request.requestId
         requestCookie := request.sessionCookie
         requestOffset := request.objectOffset
         opcode := request.opcode
         region := region
         unitIndex := unitIndex
         fingerprint := fingerprint
         expectedIdentity := expectedIdentity } })

/-! ### Requests -/

variable (crypto : SoundCrypto)

/-- The session is unchanged and answers with a status. -/
def refuse (s : SpeakerAssetsSession) (frame : SpeakerAssetsFrame) (status : SpeakerAssetsStatus)
    (cookie : UInt32) : SpeakerAssetsEmission × SpeakerAssetsSession :=
  (.reply (statusReply frame status cookie), s)

def consumeCapabilities (s : SpeakerAssetsSession) (frame : SpeakerAssetsFrame) :
    SpeakerAssetsEmission × SpeakerAssetsSession :=
  if frame.flags ≠ singleFrameRequestFlags ∨ frame.sessionCookie ≠ 0 ∨ frame.objectOffset ≠ 0 ∨
      frame.body ≠ [] then s.refuse frame .badRequest 0
  else (.reply (capabilitiesReply frame), s)

def consumeCurrentActive (s : SpeakerAssetsSession) (route : SpeakerAssetsRouteToken)
    (frame : SpeakerAssetsFrame) : SpeakerAssetsEmission × SpeakerAssetsSession :=
  if frame.flags ≠ singleFrameRequestFlags ∨ frame.sessionCookie ≠ 0 ∨ frame.objectOffset ≠ 0 ∨
      frame.body ≠ [] then s.refuse frame .badRequest 0
  else
    let fingerprint := frameFingerprint crypto frame
    match s.lookupReplay route 0 frame.requestId frame.opcode .manifest 0 fingerprint with
    | .exact replay => (.reply replay, s)
    | .conflict => s.refuse frame .integrityError 0
    | .miss =>
      if s.phase ≠ .idle ∨ s.route.isSome ∨ s.planAssembler.bound.isSome then s.refuse frame .busy 0
      else
        let (action, s) := s.beginPendingAction .queryCurrentActive route frame .manifest 0 fingerprint {}
        (.action action, s)

/-- The part of `consume_plan_action` that enters the assembly: the status of a refusal, if any. -/
def enterPlanAssembly (s : SpeakerAssetsSession) (route : SpeakerAssetsRouteToken)
    (frame : SpeakerAssetsFrame) (kind : SpeakerAssetsActionKind) (hasFirst : Bool) :
    Option SpeakerAssetsStatus × SpeakerAssetsSession :=
  match s.phase with
  | .idle =>
    if !hasFirst then (some .badRequest, s)
    else
      let (result, assembler) := s.planAssembler.begin route frame.requestId
      if result ≠ .ok then (some .busy, { s with planAssembler := assembler })
      else
        (none, { s with
          planAssembler := assembler
          phase := .beginAssembly
          beginReplayFromReady := false
          planActionKind := kind })
  | .ready =>
    if kind ≠ .begin then (some .busy, s)
    else if s.route ≠ some route ∨ hasFirst = false then (some .busy, s)
    else
      let (result, assembler) := SpeakerAssetsPlanAssembler.begin {} route frame.requestId
      if result ≠ .ok then (some .busy, { s with planAssembler := assembler })
      else
        (none, { s with
          planAssembler := assembler
          phase := .beginAssembly
          beginReplayFromReady := true
          planActionKind := kind })
  | .beginAssembly => if s.planActionKind ≠ kind then (some .busy, s) else (none, s)
  | .unitAssembly | .actionPending => (some .busy, s)

/-- The rest of `consume_plan_action` once every byte and both boundary fragments were received. -/
def finishPlanAssembly (s : SpeakerAssetsSession) (route : SpeakerAssetsRouteToken)
    (frame : SpeakerAssetsFrame) (kind : SpeakerAssetsActionKind) :
    SpeakerAssetsEmission × SpeakerAssetsSession :=
  let (result, plan) := s.planAssembler.decode crypto.crc32
  if result ≠ .ok then
    (.reply (statusReply frame .integrityError 0), s.restoreAfterBeginAssembly)
  else
    let s := { s with decodedPlan := plan }
    let fingerprint := planFingerprint crypto plan
    match s.lookupReplay route 0 frame.requestId frame.opcode .manifest 0 fingerprint with
    | .exact replay => (.reply replay, s.restoreAfterBeginAssembly)
    | .conflict => (.reply (statusReply frame .integrityError 0), s.restoreAfterBeginAssembly)
    | .miss =>
      if s.beginReplayFromReady then
        (.reply (statusReply frame .integrityError 0), s.restoreAfterBeginAssembly)
      else
        let (action, s) := s.beginPendingAction kind route frame .manifest 0 fingerprint {}
        (.action { action with plan := some plan },
          { s with
            planAssembler := {}
            beginSawFirst := false
            beginSawLast := false
            planActionKind := .begin })

/-- The part of `consume_plan_action` that takes the fragment into the entered assembly. -/
def acceptPlanFragment (s : SpeakerAssetsSession) (route : SpeakerAssetsRouteToken)
    (frame : SpeakerAssetsFrame) (kind : SpeakerAssetsActionKind) (hasFirst hasLast : Bool) :
    SpeakerAssetsEmission × SpeakerAssetsSession :=
  let (accepted, assembler) :=
    s.planAssembler.acceptFragment route frame.requestId frame.objectOffset.toNat frame.body
  let before := s.planAssembler.buffer.receivedBytes
  let s := { s with planAssembler := assembler }
  if accepted ≠ .ok then
    s.refuse frame (if accepted = .conflict then .integrityError else .badRequest) 0
  else
    let madeProgress := decide (before < assembler.buffer.receivedBytes) ||
      (hasFirst && !s.beginSawFirst) || (hasLast && !s.beginSawLast)
    let s := { s with
      partialActivityCounter := s.activityAfter madeProgress
      beginSawFirst := s.beginSawFirst || hasFirst
      beginSawLast := s.beginSawLast || hasLast }
    if !assembler.complete || !s.beginSawFirst || !s.beginSawLast then
      let firstMissing := assembler.buffer.firstMissingOffset
      let bitmapOffset := firstMissing / 8
      let bitmapBytes :=
        min fragmentAckBitmapMaxBytes (speakerAssetsPlanWireBytes / 8 - bitmapOffset)
      match assembler.buffer.copyReceivedBitmap bitmapOffset bitmapBytes with
      | none => s.refuse frame .internalError 0
      | some bitmap =>
        (.reply (fragmentReply frame .ok 0 (UInt32.ofNat firstMissing) bitmapOffset bitmap), s)
    else s.finishPlanAssembly crypto route frame kind

def consumePlanAction (s : SpeakerAssetsSession) (route : SpeakerAssetsRouteToken)
    (frame : SpeakerAssetsFrame) (kind : SpeakerAssetsActionKind) :
    SpeakerAssetsEmission × SpeakerAssetsSession :=
  let endOffset := frame.objectOffset.toNat + frame.body.length
  let hasFirst := hasFlag frame.flags flagFirstFragment
  let hasLast := hasFlag frame.flags flagLastFragment
  let boundaryFlagsValid :=
    hasFirst == (frame.objectOffset == 0) && hasLast == (endOffset == speakerAssetsPlanWireBytes)
  if !onlyFlags frame.flags singleFrameRequestFlags || !hasFlag frame.flags flagAckRequested ||
      frame.sessionCookie != 0 || frame.body.isEmpty ||
      decide (speakerAssetsPlanWireBytes ≤ frame.objectOffset.toNat) ||
      decide (speakerAssetsPlanWireBytes < endOffset) || !boundaryFlagsValid then
    s.refuse frame .badRequest 0
  else
    match s.enterPlanAssembly route frame kind hasFirst with
    | (some status, s) => s.refuse frame status 0
    | (none, s) => s.acceptPlanFragment crypto route frame kind hasFirst hasLast

def consumeBegin (s : SpeakerAssetsSession) (route : SpeakerAssetsRouteToken)
    (frame : SpeakerAssetsFrame) : SpeakerAssetsEmission × SpeakerAssetsSession :=
  s.consumePlanAction crypto route frame .begin

def consumeRecoverInvalidStaging (s : SpeakerAssetsSession) (route : SpeakerAssetsRouteToken)
    (frame : SpeakerAssetsFrame) : SpeakerAssetsEmission × SpeakerAssetsSession :=
  s.consumePlanAction crypto route frame .discardInvalidStaging

def consumeResume (s : SpeakerAssetsSession) (route : SpeakerAssetsRouteToken)
    (frame : SpeakerAssetsFrame) : SpeakerAssetsEmission × SpeakerAssetsSession :=
  if frame.flags ≠ singleFrameRequestFlags ∨ frame.sessionCookie ≠ 0 ∨ frame.objectOffset ≠ 0 ∨
      frame.body.length ≠ soundTransactionIdBytes then s.refuse frame .badRequest 0
  else if !bytesAreValid frame.body then s.refuse frame .badRequest 0
  else
    let fingerprint := frameFingerprint crypto frame
    match s.lookupReplay route 0 frame.requestId frame.opcode .manifest 0 fingerprint with
    | .exact replay => (.reply replay, s)
    | .conflict => s.refuse frame .integrityError 0
    | .miss =>
      if s.phase ≠ .idle then s.refuse frame .busy 0
      else
        let (action, s) := s.beginPendingAction .resumeQuery route frame .manifest 0 fingerprint
          { transactionId := frame.body }
        (.action { action with queryMode := .resumeOrRebind }, s)

/-- What `consume_query` and `consume_terminal_action` have in common. -/
def consumeBound (s : SpeakerAssetsSession) (route : SpeakerAssetsRouteToken)
    (frame : SpeakerAssetsFrame) (kind : SpeakerAssetsActionKind) :
    SpeakerAssetsEmission × SpeakerAssetsSession :=
  if frame.flags ≠ singleFrameRequestFlags ∨ frame.objectOffset ≠ 0 ∨ frame.body ≠ [] then
    s.refuse frame .badRequest frame.sessionCookie
  else
    let fingerprint := frameFingerprint crypto frame
    match s.lookupReplay route frame.sessionCookie frame.requestId frame.opcode .manifest 0
        fingerprint with
    | .exact replay => (.reply replay, s)
    | .conflict => s.refuse frame .integrityError frame.sessionCookie
    | .miss =>
      if s.phase ≠ .ready ∨ s.route ≠ some route ∨ frame.sessionCookie ≠ s.sessionCookie then
        s.refuse frame .transactionMismatch frame.sessionCookie
      else
        let (action, s) := s.beginPendingAction kind route frame .manifest 0 fingerprint
          ((s.progress.getD {}).identity)
        (.action action, s)

/-- Its action asks for the current progress, which is the default of the query mode. -/
def consumeQuery (s : SpeakerAssetsSession) (route : SpeakerAssetsRouteToken)
    (frame : SpeakerAssetsFrame) : SpeakerAssetsEmission × SpeakerAssetsSession :=
  s.consumeBound crypto route frame .resumeQuery

def consumeTerminalAction (s : SpeakerAssetsSession) (route : SpeakerAssetsRouteToken)
    (frame : SpeakerAssetsFrame) (kind : SpeakerAssetsActionKind) :
    SpeakerAssetsEmission × SpeakerAssetsSession :=
  s.consumeBound crypto route frame kind

/-- The rest of `consume_data` once every byte and both boundary fragments of the unit were received. -/
def finishUnitAssembly (s : SpeakerAssetsSession) (route : SpeakerAssetsRouteToken)
    (frame : SpeakerAssetsFrame) (region : SpeakerAssetsRegion) (unitIndex : UInt16) :
    SpeakerAssetsEmission × SpeakerAssetsSession :=
  let bytes := s.blockAssembler.buffer.bytes
  let fingerprint := unitFingerprint crypto region unitIndex bytes
  match s.lookupReplay route s.sessionCookie frame.requestId frame.opcode region unitIndex
      fingerprint with
  | .exact replay => (.reply replay, { s with blockAssembler := none, phase := .ready })
  | .conflict =>
    (.reply (statusReply frame .integrityError s.sessionCookie),
      { s with blockAssembler := none, phase := .ready })
  | .miss =>
    let (action, s) := s.beginPendingAction
      (if region = .manifest then .writeManifest else .writePayloadBlock) route frame region unitIndex
      fingerprint ((s.progress.getD {}).identity)
    (.action { action with bytes := bytes, blockIndex := unitIndex }, s)

/-- The part of `consume_data` that opens the assembly of a unit, or goes on with it: the status of a
    refusal, if any. -/
def enterUnitAssembly (s : SpeakerAssetsSession) (frame : SpeakerAssetsFrame)
    (region : SpeakerAssetsRegion) (unitIndex : UInt16) (unitBase : UInt32) (expectedBytes : ℕ)
    (hasFirst : Bool) : Option SpeakerAssetsStatus × SpeakerAssetsSession :=
  if s.phase = .ready then
    if !hasFirst then (some .badRequest, s)
    else
      let (result, assembler) := s.blockAssembler.begin region unitIndex expectedBytes
      if result ≠ .ok then (some .badRequest, { s with blockAssembler := assembler })
      else
        (none, { s with
          blockAssembler := assembler
          phase := .unitAssembly
          unitRequestId := frame.requestId
          unitBaseOffset := unitBase
          unitSawFirst := false
          unitSawLast := false })
  else if s.unitRequestId ≠ frame.requestId ∨
      (s.blockAssembler.map (·.region)).getD .manifest ≠ region ∨
      (s.blockAssembler.map (·.unitIndex)).getD 0 ≠ unitIndex then (some .busy, s)
  else (none, s)

/-- The part of `consume_data` that takes the fragment into the entered assembly. -/
def acceptUnitFragment (s : SpeakerAssetsSession) (route : SpeakerAssetsRouteToken)
    (frame : SpeakerAssetsFrame) (region : SpeakerAssetsRegion) (unitIndex : UInt16) (unitOffset : ℕ)
    (hasFirst hasLast : Bool) : SpeakerAssetsEmission × SpeakerAssetsSession :=
  let (accepted, assembler) :=
    s.blockAssembler.acceptFragment region unitIndex unitOffset frame.body
  let before := s.blockAssembler.buffer.receivedBytes
  let s := { s with blockAssembler := assembler }
  if accepted ≠ .ok then
    s.refuse frame (if accepted = .conflict then .integrityError else .badRequest) s.sessionCookie
  else
    let madeProgress := decide (before < assembler.buffer.receivedBytes) ||
      (hasFirst && !s.unitSawFirst) || (hasLast && !s.unitSawLast)
    let s := { s with
      partialActivityCounter := s.activityAfter madeProgress
      unitSawFirst := s.unitSawFirst || hasFirst
      unitSawLast := s.unitSawLast || hasLast }
    if !assembler.complete || !s.unitSawFirst || !s.unitSawLast then
      let firstMissing := assembler.buffer.firstMissingOffset
      let bitmapOffset := firstMissing / 8
      let bitmapBytes :=
        min fragmentAckBitmapMaxBytes ((assembler.buffer.length + 7) / 8 - bitmapOffset)
      match assembler.buffer.copyReceivedBitmap bitmapOffset bitmapBytes with
      | none => s.refuse frame .internalError s.sessionCookie
      | some bitmap =>
        (.reply (fragmentReply frame .ok s.sessionCookie
          (s.unitBaseOffset + UInt32.ofNat firstMissing) bitmapOffset bitmap), s)
    else s.finishUnitAssembly crypto route frame region unitIndex

/-- The part of `consume_data` behind its checks of the frame: the unit it is about, of `expectedBytes`
    bytes from `unitBase` on, and where in it the fragment lies. A unit has at most a sector, so the
    casts to 16 bits change nothing. -/
def consumeUnitFragment (s : SpeakerAssetsSession) (route : SpeakerAssetsRouteToken)
    (frame : SpeakerAssetsFrame) (region : SpeakerAssetsRegion) (unitIndex : UInt16) (unitBase : UInt32)
    (expectedBytes unitOffset : ℕ) : SpeakerAssetsEmission × SpeakerAssetsSession :=
  let unitEnd := unitOffset + frame.body.length
  let hasFirst := hasFlag frame.flags flagFirstFragment
  let hasLast := hasFlag frame.flags flagLastFragment
  if expectedBytes = 0 ∨ expectedBytes < unitEnd ∨ hasFirst ≠ (unitOffset == 0) ∨
      hasLast ≠ (unitEnd == expectedBytes) then s.refuse frame .badRequest s.sessionCookie
  else
    match s.enterUnitAssembly frame region unitIndex unitBase expectedBytes hasFirst with
    | (some status, s) => s.refuse frame status s.sessionCookie
    | (none, s) => s.acceptUnitFragment crypto route frame region unitIndex unitOffset hasFirst hasLast

def consumeData (s : SpeakerAssetsSession) (route : SpeakerAssetsRouteToken)
    (frame : SpeakerAssetsFrame) : SpeakerAssetsEmission × SpeakerAssetsSession :=
  let bound := decide (s.route = some route) && frame.sessionCookie == s.sessionCookie
  match s.progress with
  | none =>
    s.refuse frame (if bound then .badRequest else .transactionMismatch) frame.sessionCookie
  | some progress =>
    if !onlyFlags frame.flags (singleFrameRequestFlags ||| flagPayloadRegion) ||
        !hasFlag frame.flags flagAckRequested || frame.body.isEmpty || !bound ||
        !(s.phase == .ready || s.phase == .unitAssembly) then
      s.refuse frame (if bound then .badRequest else .transactionMismatch) frame.sessionCookie
    else if hasFlag frame.flags flagPayloadRegion then
      if progress.payloadBytes ≤ frame.objectOffset then s.refuse frame .badRequest s.sessionCookie
      else
        let unitIndex := frame.objectOffset.toNat / soundPayloadBlockSize
        s.consumeUnitFragment crypto route frame .payload (UInt16.ofNat unitIndex)
          (UInt32.ofNat (unitIndex * soundPayloadBlockSize))
          (payloadBlockLength progress.payloadBytes unitIndex)
          (frame.objectOffset.toNat - unitIndex * soundPayloadBlockSize)
    else if progress.manifestBytes ≤ frame.objectOffset then
      s.refuse frame .badRequest s.sessionCookie
    else
      s.consumeUnitFragment crypto route frame .manifest 0 0 progress.manifestBytes.toNat
        frame.objectOffset.toNat

def consume (s : SpeakerAssetsSession) (route : SpeakerAssetsRouteToken) (frame : SpeakerAssetsFrame) :
    SpeakerAssetsSessionResult × SpeakerAssetsEmission × SpeakerAssetsSession :=
  if !route.shapeIsValid || frame.requestId == 0 ||
      decide (speakerAssetsWifiFrameBodyBytes < frame.body.length) then (.invalidArgument, .none, s)
  else if !onlyFlags frame.flags knownFlags || hasFlag frame.flags (flagResponse ||| flagError) then
    (.ok, s.refuse frame .badRequest frame.sessionCookie)
  else if SpeakerAssetsOpcode.ofCode frame.opcode = some .capabilities then
    (.ok, s.consumeCapabilities frame)
  else if s.phase = .actionPending then (.ok, s.refuse frame .busy frame.sessionCookie)
  else
    (.ok, match SpeakerAssetsOpcode.ofCode frame.opcode with
      | some .begin => s.consumeBegin crypto route frame
      | some .resume => s.consumeResume crypto route frame
      | some .data => s.consumeData crypto route frame
      | some .query => s.consumeQuery crypto route frame
      | some .commit => s.consumeTerminalAction crypto route frame .commit
      | some .abort => s.consumeTerminalAction crypto route frame .abort
      | some .recoverInvalidStaging => s.consumeRecoverInvalidStaging crypto route frame
      | some .currentActive => s.consumeCurrentActive crypto route frame
      | some .capabilities | none => s.refuse frame .badRequest frame.sessionCookie)

/-! ### Completions -/

/-- What a successful completion has to carry. -/
def completionContractValid (s : SpeakerAssetsSession) (finished : PendingAction)
    (completion : SpeakerAssetsActionCompletion) : Bool :=
  match finished.kind with
  | .begin =>
    match completion.identity, completion.progress with
    | some identity, some progress =>
      identity == progress.identity && progressMatchesPlan progress s.decodedPlan
    | _, _ => false
  | .queryCurrentActive =>
    completion.currentActive.any activeSnapshotCompletionIsWellFormed && completion.identity.isNone &&
      completion.progress.isNone && completion.outcome.isNone
  | .resumeQuery =>
    match completion.outcome, completion.identity with
    | some outcome, some identity =>
      identity.transactionId == finished.expectedIdentity.transactionId &&
        match outcome with
        | .active =>
          match completion.progress with
          | some progress =>
            identity == progress.identity &&
              if finished.requestCookie = 0 then progressIsWellFormed progress
              else s.progress.any fun current =>
                progressMatchesSession progress current && progressDoesNotRegress progress current
          | none => false
        | .committed =>
          finished.requestCookie == 0 && completion.progress.isNone && identity.generation != 0 &&
            decide (32 ≤ completion.outcomeManifestBytes.toNat) &&
            decide (completion.outcomeManifestBytes.toNat ≤ soundSectorSize) &&
            decide (completion.outcomePayloadBytes.toNat ≤ soundPayloadMaxSize)
        | .unknown =>
          finished.requestCookie == 0 && completion.progress.isNone && identity.generation == 0 &&
            completion.outcomeManifestBytes == 0 && completion.outcomePayloadBytes == 0
    | _, _ => false
  | .writeManifest | .writePayloadBlock =>
    match completion.progress, s.progress with
    | some progress, some current =>
      progressMatchesSession progress current && progressDoesNotRegress progress current &&
        if finished.kind = .writeManifest then progress.manifestComplete
        else payloadBlockIsComplete progress finished.unitIndex
    | _, _ => false
  | .discardInvalidStaging | .commit | .abort => true

/-- A store result other than `Ok`. -/
def completeFailed (s : SpeakerAssetsSession) (finished : PendingAction) (result : SoundStoreResult) :
    SpeakerAssetsEmission × SpeakerAssetsSession :=
  (.reply (statusReply finished.request (speakerAssetsStatusFromStoreResult result)
      finished.requestCookie),
    match finished.kind with
    | .begin | .discardInvalidStaging | .queryCurrentActive =>
      { s.clearBinding with phase := .idle, pending := none }
    | .resumeQuery =>
      if finished.requestCookie ≠ 0 then { s with phase := .ready, pending := none }
      else { s.clearBinding with phase := .idle, pending := none }
    | .writeManifest | .writePayloadBlock =>
      { s with phase := .ready, blockAssembler := none, pending := none }
    | .commit | .abort => { s with phase := .ready, pending := none })

/-- A final reply; the session is free again. -/
def completeFinal (s : SpeakerAssetsSession) (finished : PendingAction) (reply : SpeakerAssetsFrame) :
    SpeakerAssetsEmission × SpeakerAssetsSession :=
  (.reply reply, { (s.rememberReplay finished reply).clearPartialAssembly.clearBinding with
    phase := .idle
    pending := none })

/-- The route is bound under a new cookie. -/
def completeBound (s : SpeakerAssetsSession) (finished : PendingAction)
    (progress : SoundUpdateProgress) : SpeakerAssetsEmission × SpeakerAssetsSession :=
  let (cookie, next) := nextNonZero s.nextCookie
  let reply := identityReply finished.request progress cookie
  (.reply reply, { s.rememberReplay finished reply with
    progress := some progress
    route := some finished.route
    sessionCookie := cookie
    nextCookie := next
    phase := .ready
    pending := none })

/-- The bound session's progress moved on. -/
def completeProgress (s : SpeakerAssetsSession) (finished : PendingAction)
    (progress : SoundUpdateProgress) : SpeakerAssetsEmission × SpeakerAssetsSession :=
  let reply := progressReply finished.request progress s.sessionCookie
  (.reply reply, { s.rememberReplay finished reply with
    progress := some progress
    phase := .ready
    pending := none })

/-- A completion that meets its contract. -/
def completeOk (s : SpeakerAssetsSession) (finished : PendingAction)
    (completion : SpeakerAssetsActionCompletion) : SpeakerAssetsEmission × SpeakerAssetsSession :=
  let progress := completion.progress.getD {}
  match finished.kind with
  | .begin => s.completeBound finished progress
  | .discardInvalidStaging => s.completeFinal finished (statusReply finished.request .ok 0)
  | .queryCurrentActive =>
    s.completeFinal finished (currentActiveReply finished.request (completion.currentActive.getD {}))
  | .resumeQuery =>
    match completion.outcome.getD .active with
    | .active =>
      if finished.requestCookie = 0 then s.completeBound finished progress
      else s.completeProgress finished progress
    | outcome =>
      s.completeFinal finished (outcomeReply finished.request outcome (completion.identity.getD {})
        completion.outcomeManifestBytes completion.outcomePayloadBytes)
  | .writeManifest | .writePayloadBlock =>
    let (emission, s) := s.completeProgress finished progress
    (emission, { s with blockAssembler := none })
  | .commit | .abort => s.completeFinal finished (statusReply finished.request .ok s.sessionCookie)

def complete (s : SpeakerAssetsSession) (completion : SpeakerAssetsActionCompletion) :
    SpeakerAssetsSessionResult × SpeakerAssetsEmission × SpeakerAssetsSession :=
  match s.pending with
  | none => (.noPendingAction, .none, s)
  | some finished =>
    if completion.token ≠ finished.token ∨ completion.kind ≠ finished.kind then
      (.staleCompletion, .none, s)
    else if finished.orphaned then
      (.ok, .none, { s.clearPartialAssembly.clearBinding with phase := .idle, pending := none })
    else if completion.result ≠ .ok then (.ok, s.completeFailed finished completion.result)
    else if !s.completionContractValid finished completion then
      (.ok, .reply (statusReply finished.request .internalError finished.requestCookie),
        { s.clearPartialAssembly.clearBinding with phase := .idle, pending := none })
    else (.ok, s.completeOk finished completion)

/-! ### Routes and timeouts -/

def routeClosed (s : SpeakerAssetsSession) (route : SpeakerAssetsRouteToken) : SpeakerAssetsSession :=
  let s := s.clearReplayForRoute route
  match s.pending with
  | some pending =>
    if pending.route = route then
      let s := { s with pending := some { pending with orphaned := true } }
      (if pending.kind.isWrite then s
        else { s with planAssembler := {}, beginSawFirst := false, beginSawLast := false }).clearBinding
    else if s.route = some route ∨ s.planAssembler.bound.map (·.1) = some route then
      { s.clearPartialAssembly.clearBinding with phase := .idle }
    else s
  | none =>
    if s.route = some route ∨ s.planAssembler.bound.map (·.1) = some route then
      { s.clearPartialAssembly.clearBinding with phase := .idle }
    else s

def allRoutesClosed (s : SpeakerAssetsSession) : SpeakerAssetsSession :=
  let s := { s with
    replay := List.replicate speakerAssetsReplayEntries none
    nextReplaySlot := 0 }
  match s.pending with
  | some pending =>
    let s := { s with pending := some { pending with orphaned := true } }
    (if pending.kind.isWrite then s else s.clearPartialAssembly).clearBinding
  | none => { s.clearPartialAssembly.clearBinding with phase := .idle }

def expirePartial (s : SpeakerAssetsSession) (route : SpeakerAssetsRouteToken) :
    Bool × SpeakerAssetsSession :=
  if s.phase = .beginAssembly ∧ s.planAssembler.bound.map (·.1) = some route then
    (true, s.restoreAfterBeginAssembly)
  else if s.phase = .unitAssembly ∧ s.route = some route then
    (true, { s with
      blockAssembler := none
      unitRequestId := 0
      unitBaseOffset := 0
      unitSawFirst := false
      unitSawLast := false
      phase := .ready })
  else (false, s)

end SpeakerAssetsSession

end CodexKeyboard.SoundSync
