import CodexKeyboard.SoundSync.Frame

/-! The mailbox between the transport callbacks and the supervisor, from `speaker_assets_runtime.cpp`.

    Its rings are lists, oldest record first. Every method runs inside the platform's short critical
    section, so one call is one step. `clear`, which is for initialization only, is left out. -/

namespace CodexKeyboard.SoundSync

def speakerAssetsRuntimeIngressCapacity : ℕ := 20
def speakerAssetsRuntimeMailboxCloseCapacity : ℕ := 8

inductive SpeakerAssetsRuntimeEnqueueResult
  | accepted
  | coalesced
  | full
  | invalidArgument
deriving DecidableEq

inductive SpeakerAssetsRuntimeMailboxKind
  | routeOpened
  | routeClosed
  | allRoutesClosed
  | usbFrame
  | wifiFrame
deriving DecidableEq

/-- An admission of one logical request. -/
structure SpeakerAssetsLogicalRequestLease where
  route : SpeakerAssetsRouteToken := {}
  admissionId : UInt64 := 0
deriving DecidableEq

structure SpeakerAssetsRuntimeMailboxRecord where
  kind : SpeakerAssetsRuntimeMailboxKind := .usbFrame
  route : SpeakerAssetsRouteToken := {}
  admissionId : UInt64 := 0
  receivedMs : UInt32 := 0
  bytes : List UInt8 := []
  cancelled : Bool := false
deriving DecidableEq

/-- `reserved` is there while `logical_request_reserved_`, `revokeAll` (the overflow route) while
    `revoke_all_pending_`. -/
structure SpeakerAssetsRuntimeMailbox where
  data : List SpeakerAssetsRuntimeMailboxRecord := []
  closes : List SpeakerAssetsRouteToken := []
  reserved : Option SpeakerAssetsLogicalRequestLease := none
  nextAdmissionId : UInt64 := 1
  logicalFrameRequestQueued : Bool := false
  revokeAll : Option SpeakerAssetsRouteToken := none
  resourceSyncFailClosed : Bool := false
deriving DecidableEq

namespace SpeakerAssetsRuntimeMailbox

def closePending (m : SpeakerAssetsRuntimeMailbox) (route : SpeakerAssetsRouteToken) : Bool :=
  m.revokeAll == some route || m.closes.contains route ||
    m.data.any fun record => record.kind == .routeClosed && record.route == route

def clearLogicalRequestReservation (m : SpeakerAssetsRuntimeMailbox) : SpeakerAssetsRuntimeMailbox :=
  { m with reserved := none, logicalFrameRequestQueued := false }

def purgePendingRoute (m : SpeakerAssetsRuntimeMailbox) (route : SpeakerAssetsRouteToken) :
    SpeakerAssetsRuntimeMailbox :=
  { m with data := m.data.filter (·.route ≠ route) }

def purgePendingAdmission (m : SpeakerAssetsRuntimeMailbox) (admissionId : UInt64) :
    SpeakerAssetsRuntimeMailbox :=
  if admissionId = 0 then m else { m with data := m.data.filter (·.admissionId ≠ admissionId) }

def revokeLogicalRequestForRoute (m : SpeakerAssetsRuntimeMailbox) (route : SpeakerAssetsRouteToken) :
    SpeakerAssetsRuntimeMailbox :=
  match m.reserved with
  | some lease =>
    if lease.route = route then
      (m.purgePendingAdmission lease.admissionId).clearLogicalRequestReservation
    else m
  | none => m

def retainFailClosedTombstone (m : SpeakerAssetsRuntimeMailbox) (route : SpeakerAssetsRouteToken) :
    SpeakerAssetsRuntimeEnqueueResult × SpeakerAssetsRuntimeMailbox :=
  if m.closePending route then (.coalesced, m)
  else if speakerAssetsRuntimeIngressCapacity ≤ m.data.length then
    (.accepted, { m with resourceSyncFailClosed := true })
  else (.accepted, { m with data := m.data ++ [{ kind := .routeClosed, route := route }] })

/-- Opens become exact tombstones, closes stay, payload goes. -/
def failClosePendingData (m : SpeakerAssetsRuntimeMailbox) : SpeakerAssetsRuntimeMailbox :=
  { m with data := m.data.filterMap fun record =>
      if record.kind = .routeOpened then
        some { record with kind := .routeClosed, receivedMs := 0, bytes := [], cancelled := false }
      else if record.kind = .routeClosed then some record
      else none }

/-- The part of `enqueue_data` behind its check of the arguments. -/
def enqueueRecord (m : SpeakerAssetsRuntimeMailbox) (record : SpeakerAssetsRuntimeMailboxRecord) :
    SpeakerAssetsRuntimeEnqueueResult × SpeakerAssetsRuntimeMailbox :=
  if speakerAssetsRuntimeIngressCapacity ≤ m.data.length then (.full, m)
  else (.accepted, { m with data := m.data ++ [record] })

def enqueueRouteOpened (m : SpeakerAssetsRuntimeMailbox) (route : SpeakerAssetsRouteToken) :
    SpeakerAssetsRuntimeEnqueueResult × SpeakerAssetsRuntimeMailbox :=
  if !route.shapeIsValid then (.invalidArgument, m)
  else if m.resourceSyncFailClosed || m.closePending route then (.coalesced, m)
  else if m.revokeAll.isSome then m.retainFailClosedTombstone route
  else m.enqueueRecord { kind := .routeOpened, route := route }

def enqueueRouteClosed (m : SpeakerAssetsRuntimeMailbox) (route : SpeakerAssetsRouteToken) :
    SpeakerAssetsRuntimeEnqueueResult × SpeakerAssetsRuntimeMailbox :=
  if !route.shapeIsValid then (.invalidArgument, m)
  else
    let m := (m.purgePendingRoute route).revokeLogicalRequestForRoute route
    if m.resourceSyncFailClosed then (.coalesced, m)
    else if m.revokeAll.isSome then m.retainFailClosedTombstone route
    else if m.closePending route then (.coalesced, m)
    else if speakerAssetsRuntimeMailboxCloseCapacity ≤ m.closes.length then
      (.accepted, { m with revokeAll := some route }.failClosePendingData.clearLogicalRequestReservation)
    else (.accepted, { m with closes := m.closes ++ [route] })

/-- The second result says whether the reservation is new. -/
def reserveLogicalFrameRequest (m : SpeakerAssetsRuntimeMailbox) (route : SpeakerAssetsRouteToken) :
    SpeakerAssetsRuntimeEnqueueResult × Bool × SpeakerAssetsRuntimeMailbox :=
  match m.reserved with
  | none =>
    if m.nextAdmissionId = 0 then (.full, false, { m with resourceSyncFailClosed := true })
    else
      (.accepted, true, { m with
        reserved := some ⟨route, m.nextAdmissionId⟩
        nextAdmissionId := m.nextAdmissionId + 1
        logicalFrameRequestQueued := false })
  | some lease =>
    if lease.route ≠ route ∨ m.logicalFrameRequestQueued = true then (.full, false, m)
    else (.accepted, false, m)

/-- What `enqueue_usb_frame` and `enqueue_wifi_frame` have in common. -/
def enqueueFrame (m : SpeakerAssetsRuntimeMailbox) (kind : SpeakerAssetsRuntimeMailboxKind)
    (route : SpeakerAssetsRouteToken) (bytes : List UInt8) (receivedMs : UInt32) :
    SpeakerAssetsRuntimeEnqueueResult × SpeakerAssetsRuntimeMailbox :=
  if m.revokeAll.isSome || m.resourceSyncFailClosed || m.closePending route then (.full, m)
  else
    match m.reserveLogicalFrameRequest route with
    | (.accepted, newlyReserved, m) =>
      let record : SpeakerAssetsRuntimeMailboxRecord :=
        { kind := kind
          route := route
          admissionId := (m.reserved.map (·.admissionId)).getD 0
          receivedMs := receivedMs
          bytes := bytes }
      match if route.shapeIsValid then m.enqueueRecord record else (.invalidArgument, m) with
      | (.accepted, m) => (.accepted, { m with logicalFrameRequestQueued := true })
      | (result, m) => (result, if newlyReserved then m.clearLogicalRequestReservation else m)
    | (result, _, m) => (result, m)

def enqueueUsbFrame (m : SpeakerAssetsRuntimeMailbox) (route : SpeakerAssetsRouteToken)
    (bytes : List UInt8) (receivedMs : UInt32) :
    SpeakerAssetsRuntimeEnqueueResult × SpeakerAssetsRuntimeMailbox :=
  if route.transport ≠ .usb ∨ bytes.length ≠ speakerAssetsUsbFrameBytes then (.invalidArgument, m)
  else m.enqueueFrame .usbFrame route bytes receivedMs

def enqueueWifiFrame (m : SpeakerAssetsRuntimeMailbox) (route : SpeakerAssetsRouteToken)
    (bytes : List UInt8) (receivedMs : UInt32) :
    SpeakerAssetsRuntimeEnqueueResult × SpeakerAssetsRuntimeMailbox :=
  if route.transport ≠ .wifi ∨ bytes.length < speakerAssetsFrameHeaderBytes ∨
      speakerAssetsWifiFrameMaxBytes < bytes.length then (.invalidArgument, m)
  else m.enqueueFrame .wifiFrame route bytes receivedMs

def takeNext (m : SpeakerAssetsRuntimeMailbox) :
    Option SpeakerAssetsRuntimeMailboxRecord × SpeakerAssetsRuntimeMailbox :=
  match m.revokeAll with
  | some route => (some { kind := .allRoutesClosed, route := route }, { m with revokeAll := none })
  | none =>
    match m.closes with
    | route :: closes => (some { kind := .routeClosed, route := route }, { m with closes := closes })
    | [] =>
      match m.data.dropWhile (·.cancelled) with
      | record :: data => (some record, { m with data := data })
      | [] => (none, { m with data := [] })

def releaseLogicalRequest (m : SpeakerAssetsRuntimeMailbox) (lease : SpeakerAssetsLogicalRequestLease) :
    Bool × SpeakerAssetsRuntimeMailbox :=
  if m.reserved = some lease ∧ lease.admissionId ≠ 0 then
    (true, (m.purgePendingAdmission lease.admissionId).clearLogicalRequestReservation)
  else (false, m)

end SpeakerAssetsRuntimeMailbox

end CodexKeyboard.SoundSync
