import CodexKeyboard.SoundSync.Frame

/-! The Wi-Fi response slot of `speaker_assets_wifi.cpp`, with the two tasks that share it.

    The carrier task serves one connection after the other (`service_connection`); the supervisor
    retires the reply a connection has taken and offers the next one. Each section under the carrier's
    mutex is one step. The runtime core is seen from outside: it answers a request it was given at most
    once, by a reply at the tail of its ring, and may drop requests and replies at any time. -/

namespace CodexKeyboard.SoundSync

/-! ### The slot -/

/-- A reply on its way to the connection. `request` is a ghost: the request the core answered. -/
structure PendingResponse where
  route : SpeakerAssetsRouteToken
  runtimeReplySequence : UInt32
  payload : List UInt8
  request : ℕ
deriving DecidableEq

structure AcceptedResponse where
  route : SpeakerAssetsRouteToken
  runtimeReplySequence : UInt32
deriving DecidableEq

/-- The fields under the mutex. `activeRoute` is `state_.route` while `state_.route_active`; the two
    responses are there while their ready flags are set. -/
structure WifiSlot where
  activeRoute : Option SpeakerAssetsRouteToken := none
  pendingResponse : Option PendingResponse := none
  responseInFlight : Bool := false
  acceptedResponse : Option AcceptedResponse := none
deriving DecidableEq

namespace WifiSlot

def responsePending (slot : WifiSlot) : Bool :=
  slot.pendingResponse.isSome || slot.responseInFlight || slot.acceptedResponse.isSome

/-- The arguments `queue_response` takes at all. -/
def Queueable (response : PendingResponse) : Prop :=
  response.route.wifiValid ∧ response.runtimeReplySequence ≠ 0 ∧
    speakerAssetsFrameHeaderBytes ≤ response.payload.length ∧
    response.payload.length ≤ speakerAssetsWifiFrameMaxBytes

instance (response : PendingResponse) : Decidable (Queueable response) :=
  inferInstanceAs (Decidable (_ ∧ _ ∧ _ ∧ _))

def queueResponse (slot : WifiSlot) (response : PendingResponse) : Bool × WifiSlot :=
  if Queueable response ∧ slot.activeRoute = some response.route ∧ slot.responsePending = false then
    (true, { slot with pendingResponse := some response })
  else (false, slot)

def takeResponseAccepted (slot : WifiSlot) : Option AcceptedResponse × WifiSlot :=
  (slot.acceptedResponse, { slot with acceptedResponse := none })

def takePendingResponse (slot : WifiSlot) (route : SpeakerAssetsRouteToken) :
    Option PendingResponse × WifiSlot :=
  match slot.pendingResponse with
  | some response =>
    if response.route = route then
      (some response, { slot with pendingResponse := none, responseInFlight := true })
    else (none, slot)
  | none => (none, slot)

def publishAcceptedResponse (slot : WifiSlot) (route : SpeakerAssetsRouteToken) (sequence : UInt32) :
    Bool × WifiSlot :=
  if slot.acceptedResponse = none ∧ route.wifiValid ∧ sequence ≠ 0 then
    (true, { slot with acceptedResponse := some ⟨route, sequence⟩, responseInFlight := false })
  else (false, slot)

/-- The wait behind `publish_accepted_response`: the supervisor has not retired the reply yet. -/
def acceptedPending (slot : WifiSlot) (route : SpeakerAssetsRouteToken) : Bool :=
  slot.acceptedResponse.any (·.route = route)

def clearPendingResponse (slot : WifiSlot) (route : SpeakerAssetsRouteToken) : WifiSlot :=
  { slot with
    pendingResponse := if slot.pendingResponse.any (·.route = route) then none else slot.pendingResponse
    responseInFlight := if slot.activeRoute = some route then false else slot.responseInFlight }

def setActiveRoute (slot : WifiSlot) (route : SpeakerAssetsRouteToken) : WifiSlot :=
  { slot with activeRoute := some route }

def clearActiveRoute (slot : WifiSlot) (route : SpeakerAssetsRouteToken) : WifiSlot :=
  { slot with activeRoute := if slot.activeRoute = some route then none else slot.activeRoute }

end WifiSlot

/-! ### The core, seen from outside -/

/-- A reply of the core's ring. `encoded` is what `encode_speaker_assets_wifi_frame` makes of its
    frame; `request` is a ghost, the request it answers. -/
structure RuntimeReply where
  sequence : UInt32
  route : SpeakerAssetsRouteToken
  encoded : Option (List UInt8)
  request : ℕ

/-- The requests of each route not answered yet, and the replies, oldest first. -/
structure SyncCore where
  requests : List (SpeakerAssetsRouteToken × ℕ) := []
  replies : List RuntimeReply := []

namespace SyncCore

def frontReply (core : SyncCore) : Option RuntimeReply :=
  core.replies.head?

/-- Of any route but a malformed one; the carrier's routes are well formed. -/
def frontReplyForRoute (core : SyncCore) (route : SpeakerAssetsRouteToken) : Option RuntimeReply :=
  core.replies.find? (·.route = route)

def removeReplyIfSequence (core : SyncCore) (sequence : UInt32) : SyncCore :=
  if sequence = 0 then core
  else { core with replies := core.replies.eraseP (·.sequence = sequence) }

end SyncCore

/-! ### The two tasks -/

/-- Where the carrier task stands. Route `r` is its connection's, `q` the request read last. -/
inductive CarrierPoint
  | outside
  | opened (r : SpeakerAssetsRouteToken)
  | reading (r : SpeakerAssetsRouteToken)
  | waiting (r : SpeakerAssetsRouteToken) (q : ℕ)
  | writing (r : SpeakerAssetsRouteToken) (q : ℕ) (response : PendingResponse)
  | publishing (r : SpeakerAssetsRouteToken) (sequence : UInt32)
  | awaiting (r : SpeakerAssetsRouteToken)
  | clearing (r : SpeakerAssetsRouteToken)
  | deactivating (r : SpeakerAssetsRouteToken)
  | closing (r : SpeakerAssetsRouteToken)
deriving DecidableEq

inductive SupervisorPoint
  | polling
  | retiring (accepted : AcceptedResponse)
  | offering
deriving DecidableEq

/-- What happened on the connections, newest first. -/
inductive WireEvent
  | read (route : SpeakerAssetsRouteToken) (request : ℕ)
  | wrote (route : SpeakerAssetsRouteToken) (response : PendingResponse)

structure SyncWorld where
  slot : WifiSlot := {}
  carrier : CarrierPoint := .outside
  supervisor : SupervisorPoint := .polling
  core : SyncCore := {}
  /-- The routes of all connections so far. -/
  routes : List SpeakerAssetsRouteToken := []
  /-- The requests so far are those below. -/
  nextRequest : ℕ := 0
  wire : List WireEvent := []

/-- The rest of `retire_accepted_wifi_reply` once a response was taken from the slot. -/
def retireAcceptedWifiReply (core : SyncCore) (accepted : AcceptedResponse) : SyncCore :=
  match core.frontReplyForRoute accepted.route with
  | none => core
  | some reply =>
    if reply.sequence = accepted.runtimeReplySequence then
      core.removeReplyIfSequence accepted.runtimeReplySequence
    else core

/-- The rest of `offer_wifi_reply` once `response_pending` was false. -/
def offerWifiReply (core : SyncCore) (slot : WifiSlot) : WifiSlot :=
  match core.frontReply with
  | none => slot
  | some reply =>
    if reply.route.transport = .wifi then
      match reply.encoded with
      | some payload =>
        (slot.queueResponse ⟨reply.route, reply.sequence, payload, reply.request⟩).2
      | none => slot
    else slot

/-- `service_connection`. Reads, writes and every check of the lifecycle or the socket may fail. -/
inductive CarrierStep : SyncWorld → SyncWorld → Prop
  | connect {s r} : s.carrier = .outside → r.wifiValid → r ∉ s.routes →
    CarrierStep s { s with carrier := .opened r, routes := r :: s.routes }
  | readyFailed {s r} : s.carrier = .opened r → CarrierStep s { s with carrier := .closing r }
  | activate {s r} : s.carrier = .opened r →
    CarrierStep s { s with carrier := .reading r, slot := s.slot.setActiveRoute r }
  | readFailed {s r} : s.carrier = .reading r → CarrierStep s { s with carrier := .clearing r }
  | readRefused {s r} : s.carrier = .reading r →
    CarrierStep s { s with
      carrier := .clearing r
      nextRequest := s.nextRequest + 1
      wire := .read r s.nextRequest :: s.wire }
  | readAccepted {s r} : s.carrier = .reading r →
    CarrierStep s { s with
      carrier := .waiting r s.nextRequest
      core := { s.core with requests := s.core.requests ++ [(r, s.nextRequest)] }
      nextRequest := s.nextRequest + 1
      wire := .read r s.nextRequest :: s.wire }
  | waitEnded {s r q} : s.carrier = .waiting r q → CarrierStep s { s with carrier := .clearing r }
  | take {s r q response} : s.carrier = .waiting r q →
    (s.slot.takePendingResponse r).1 = some response →
    CarrierStep s { s with
      carrier := .writing r q response
      slot := (s.slot.takePendingResponse r).2 }
  | encodeFailed {s r q response} : s.carrier = .writing r q response →
    CarrierStep s { s with carrier := .clearing r }
  -- A failed write may have sent the response all the same.
  | writeFailed {s r q response} : s.carrier = .writing r q response →
    CarrierStep s { s with carrier := .clearing r, wire := .wrote r response :: s.wire }
  | write {s r q response} : s.carrier = .writing r q response →
    CarrierStep s { s with
      carrier := .publishing r response.runtimeReplySequence
      wire := .wrote r response :: s.wire }
  | publish {s r sequence} : s.carrier = .publishing r sequence →
    CarrierStep s { s with
      carrier := if (s.slot.publishAcceptedResponse r sequence).1 then .awaiting r else .clearing r
      slot := (s.slot.publishAcceptedResponse r sequence).2 }
  | retired {s r} : s.carrier = .awaiting r → s.slot.acceptedPending r = false →
    CarrierStep s { s with carrier := .reading r }
  | awaitEnded {s r} : s.carrier = .awaiting r → CarrierStep s { s with carrier := .clearing r }
  | clearPending {s r} : s.carrier = .clearing r →
    CarrierStep s { s with carrier := .deactivating r, slot := s.slot.clearPendingResponse r }
  | clearActive {s r} : s.carrier = .deactivating r →
    CarrierStep s { s with carrier := .closing r, slot := s.slot.clearActiveRoute r }
  | closed {s r} : s.carrier = .closing r → CarrierStep s { s with carrier := .outside }

/-- The supervisor's `poll`, and between its two calls what the core does. -/
inductive SupervisorStep : SyncWorld → SyncWorld → Prop
  | takeAccepted {s accepted} : s.supervisor = .polling →
    s.slot.takeResponseAccepted.1 = some accepted →
    SupervisorStep s { s with
      supervisor := .retiring accepted
      slot := s.slot.takeResponseAccepted.2 }
  | retire {s accepted} : s.supervisor = .retiring accepted →
    SupervisorStep s { s with
      supervisor := .polling
      core := retireAcceptedWifiReply s.core accepted }
  | slotFree {s} : s.supervisor = .polling → s.slot.responsePending = false →
    SupervisorStep s { s with supervisor := .offering }
  | offer {s} : s.supervisor = .offering →
    SupervisorStep s { s with supervisor := .polling, slot := offerWifiReply s.core s.slot }
  | usbRequest {s r} : s.supervisor = .polling → r.transport = .usb →
    SupervisorStep s { s with
      core := { s.core with requests := s.core.requests ++ [(r, s.nextRequest)] }
      nextRequest := s.nextRequest + 1 }
  | answer {s r q} (sequence : UInt32) (encoded : Option (List UInt8)) :
    s.supervisor = .polling → (r, q) ∈ s.core.requests →
    SupervisorStep s { s with
      core := ⟨s.core.requests.erase (r, q), s.core.replies ++ [⟨sequence, r, encoded, q⟩]⟩ }
  | drop {s core} : s.supervisor = .polling → core.requests.Sublist s.core.requests →
    core.replies.Sublist s.core.replies → SupervisorStep s { s with core := core }

/-- One step of either task. -/
inductive SyncStep (s s' : SyncWorld) : Prop
  | carrier (h : CarrierStep s s')
  | supervisor (h : SupervisorStep s s')

inductive SyncReachable : SyncWorld → Prop
  | init : SyncReachable {}
  | step {s s'} : SyncReachable s → SyncStep s s' → SyncReachable s'

/-! ### What a run is measured by -/

/-- The request read last on the route. -/
def lastRead (route : SpeakerAssetsRouteToken) : List WireEvent → Option ℕ
  | [] => none
  | .read r q :: wire => if r = route then some q else lastRead route wire
  | .wrote _ _ :: wire => lastRead route wire

/-- Each response was written to its own route's connection and answers the request read last on it. -/
def Answered : List WireEvent → Prop
  | [] => True
  | .read _ _ :: wire => Answered wire
  | .wrote r response :: wire =>
    response.route = r ∧ lastRead r wire = some response.request ∧ Answered wire

/-- The replies written, each by the request it answers. -/
def writtenReplies : List WireEvent → List ℕ
  | [] => []
  | .read _ _ :: wire => writtenReplies wire
  | .wrote _ response :: wire => response.request :: writtenReplies wire

end CodexKeyboard.SoundSync
