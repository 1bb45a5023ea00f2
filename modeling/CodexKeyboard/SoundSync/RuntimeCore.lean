import CodexKeyboard.SoundSync.Session
import CodexKeyboard.SoundSync.Mailbox

/-! The runtime core of `speaker_assets_runtime.cpp`: lifecycle first, then the pending action, then one
    frame.

    A step returns what it did and the lease it gives back, if any. The executor's answer to a step is
    an argument of it; so is the clock. -/

namespace CodexKeyboard.SoundSync

def speakerAssetsRuntimeLifecycleCapacity : ℕ := 8
def speakerAssetsRuntimeReplyCapacity : ℕ := 4
def speakerAssetsRuntimeActiveRoutes : ℕ := 4
def speakerAssetsRuntimeClosedRouteFilterWords : ℕ := 64

inductive SpeakerAssetsRuntimeStepResult
  | idle
  | lifecycleApplied
  | routeCapacityExceeded
  | usbFrameConsumed
  | wifiFrameConsumed
  | replyQueued
  | actionQueued
  | actionExecutionPending
  | actionCompleted
  | pausedForInput
  | replyBackpressure
  | partialExpired
  | sessionLeaseExpired
  | invalidFrameDropped
  | staleRouteDropped
  | executorUnavailable
  | executorRejected
  | sessionRejected
deriving DecidableEq

inductive SpeakerAssetsActionExecutionResult
  | pending
  | completed (completion : SpeakerAssetsActionCompletion)
  | rejected
deriving DecidableEq

structure SpeakerAssetsRuntimeReply where
  sequence : UInt32
  route : SpeakerAssetsRouteToken
  lease : SpeakerAssetsLogicalRequestLease
  frame : SpeakerAssetsFrame
deriving DecidableEq

inductive IngressKind
  | usbFrame
  | wifiFrame
deriving DecidableEq

structure IngressRecord where
  kind : IngressKind
  route : SpeakerAssetsRouteToken
  admissionId : UInt64
  receivedMs : UInt32
  bytes : List UInt8
deriving DecidableEq

inductive LifecycleKind
  | opened
  | closed
deriving DecidableEq

structure LifecycleRecord where
  kind : LifecycleKind
  route : SpeakerAssetsRouteToken
deriving DecidableEq

def elapsedAtLeast (now past interval : UInt32) : Bool := decide (interval ≤ now - past)

/-! ### The closed route filter -/

def mixRouteHash (value : UInt32) : UInt32 :=
  let value := value ^^^ (value >>> 16)
  let value := value * 0x7FEB352D
  let value := value ^^^ (value >>> 15)
  let value := value * 0x846CA68B
  value ^^^ (value >>> 16)

def routeHash (route : SpeakerAssetsRouteToken) (salt : UInt32) : UInt32 :=
  let value := mixRouteHash (salt ^^^ 0x9E3779B9)
  let value := mixRouteHash (value ^^^ (route.transport.code * 0x85EBCA6B))
  let value := mixRouteHash (value ^^^ route.routeId)
  mixRouteHash (value ^^^ route.generation)

def routeFilterBit (route : SpeakerAssetsRouteToken) (salt : UInt32) : ℕ :=
  (routeHash route salt).toNat % (speakerAssetsRuntimeClosedRouteFilterWords * 64)

/-- The two bits of a route. -/
def routeFilterBits (route : SpeakerAssetsRouteToken) : List ℕ :=
  [routeFilterBit route 0xA53C9E17, routeFilterBit route 0x6D2B79F5]

/-- `closedRouteFilter` lists the bits that are set; `sessionPartial` and `sessionLease` are there while
    their active flags are set, with the time of the last activity. -/
structure SpeakerAssetsRuntimeCore where
  ingress : List IngressRecord := []
  lifecycle : List LifecycleRecord := []
  replies : List SpeakerAssetsRuntimeReply := []
  nextReplySequence : UInt32 := 1
  activeRoutes : List SpeakerAssetsRouteToken := []
  closedRouteFilter : List ℕ := []
  session : SpeakerAssetsSession := {}
  pendingAction : Option (SpeakerAssetsActionView × SpeakerAssetsLogicalRequestLease) := none
  sessionPartial : Option (SpeakerAssetsRouteToken × UInt32) := none
  partialTimeoutMs : UInt32 := 5000
  sessionLease : Option (SpeakerAssetsRouteToken × UInt32) := none
  sessionLeaseMs : UInt32 := 10000
deriving DecidableEq

/-- What a step did, the lease it gives back, and the state it leaves. -/
abbrev CoreOutcome :=
  SpeakerAssetsRuntimeStepResult × Option SpeakerAssetsLogicalRequestLease × SpeakerAssetsRuntimeCore

namespace SpeakerAssetsRuntimeCore

/-- The constructor: a zero seed or interval counts as the default. -/
def init (cookieSeed actionTokenSeed partialTimeoutMs sessionLeaseMs : UInt32) :
    SpeakerAssetsRuntimeCore where
  session := .init cookieSeed actionTokenSeed
  partialTimeoutMs := if partialTimeoutMs = 0 then 5000 else partialTimeoutMs
  sessionLeaseMs := if sessionLeaseMs = 0 then 10000 else sessionLeaseMs

/-! ### Imports -/

/-- A close dominates an open of the same route, in either order. -/
def enqueueLifecycle (c : SpeakerAssetsRuntimeCore) (kind : LifecycleKind)
    (route : SpeakerAssetsRouteToken) :
    SpeakerAssetsRuntimeEnqueueResult × SpeakerAssetsRuntimeCore :=
  if !route.shapeIsValid then (.invalidArgument, c)
  else
    match c.lifecycle.find? (·.route = route) with
    | some record =>
      if record.kind = .closed then (.coalesced, c)
      else if kind = .closed then
        (.accepted, { c with lifecycle := c.lifecycle.replaceF fun record =>
          if record.route = route then some { record with kind := .closed } else none })
      else (.coalesced, c)
    | none =>
      if speakerAssetsRuntimeLifecycleCapacity ≤ c.lifecycle.length then (.full, c)
      else if kind = .opened ∧ speakerAssetsRuntimeLifecycleCapacity -
          speakerAssetsRuntimeActiveRoutes ≤ c.lifecycle.length then (.full, c)
      else (.accepted, { c with lifecycle := c.lifecycle ++ [⟨kind, route⟩] })

def enqueueIngress (c : SpeakerAssetsRuntimeCore) (kind : IngressKind)
    (route : SpeakerAssetsRouteToken) (bytes : List UInt8) (receivedMs : UInt32) (admissionId : UInt64) :
    SpeakerAssetsRuntimeEnqueueResult × SpeakerAssetsRuntimeCore :=
  if !route.shapeIsValid || bytes.isEmpty ||
      decide (speakerAssetsWifiFrameMaxBytes < bytes.length) then (.invalidArgument, c)
  else if speakerAssetsRuntimeIngressCapacity ≤ c.ingress.length then (.full, c)
  else (.accepted, { c with ingress := c.ingress ++ [⟨kind, route, admissionId, receivedMs, bytes⟩] })

def rememberClosedRoute (c : SpeakerAssetsRuntimeCore) (route : SpeakerAssetsRouteToken) :
    SpeakerAssetsRuntimeCore :=
  { c with closedRouteFilter := routeFilterBits route ++ c.closedRouteFilter }

def routeGenerationIsClosed (c : SpeakerAssetsRuntimeCore) (route : SpeakerAssetsRouteToken) : Bool :=
  (routeFilterBits route).all c.closedRouteFilter.contains

/-- Every route the core knows of anywhere. -/
def knownRoutes (c : SpeakerAssetsRuntimeCore) : List SpeakerAssetsRouteToken :=
  c.lifecycle.map (·.route) ++ c.ingress.map (·.route) ++ c.replies.map (·.route) ++ c.activeRoutes ++
    c.session.route.toList ++
    (c.pendingAction.map (·.1.route)).toList.filter (·.shapeIsValid) ++
    (c.sessionPartial.map (·.1)).toList.filter (·.shapeIsValid)

def revokeAllRoutes (c : SpeakerAssetsRuntimeCore) (overflowRoute : SpeakerAssetsRouteToken) :
    SpeakerAssetsRuntimeCore :=
  let closed := (if overflowRoute.shapeIsValid then [overflowRoute] else []) ++ c.knownRoutes
  { closed.foldl rememberClosedRoute c with
    session := c.session.allRoutesClosed
    lifecycle := []
    ingress := []
    replies := []
    activeRoutes := []
    sessionPartial := none
    sessionLease := none }

def importMailboxRecord (c : SpeakerAssetsRuntimeCore) (record : SpeakerAssetsRuntimeMailboxRecord) :
    SpeakerAssetsRuntimeEnqueueResult × SpeakerAssetsRuntimeCore :=
  if record.cancelled then (.invalidArgument, c)
  else
    match record.kind with
    | .routeOpened => c.enqueueLifecycle .opened record.route
    | .routeClosed => c.enqueueLifecycle .closed record.route
    | .allRoutesClosed => (.accepted, c.revokeAllRoutes record.route)
    | .usbFrame =>
      if record.admissionId = 0 ∨ record.route.transport ≠ .usb ∨
          record.bytes.length ≠ speakerAssetsUsbFrameBytes then (.invalidArgument, c)
      else c.enqueueIngress .usbFrame record.route record.bytes record.receivedMs record.admissionId
    | .wifiFrame =>
      if record.admissionId = 0 ∨ record.route.transport ≠ .wifi ∨
          record.bytes.length < speakerAssetsFrameHeaderBytes ∨
          speakerAssetsWifiFrameMaxBytes < record.bytes.length then (.invalidArgument, c)
      else c.enqueueIngress .wifiFrame record.route record.bytes record.receivedMs record.admissionId

/-! ### Lifecycle -/

def routeIsActive (c : SpeakerAssetsRuntimeCore) (route : SpeakerAssetsRouteToken) : Bool :=
  c.activeRoutes.contains route

def activateRoute (c : SpeakerAssetsRuntimeCore) (route : SpeakerAssetsRouteToken) :
    Bool × SpeakerAssetsRuntimeCore :=
  if c.routeGenerationIsClosed route then (false, c)
  else if c.routeIsActive route then (true, c)
  else if speakerAssetsRuntimeActiveRoutes ≤ c.activeRoutes.length then (false, c)
  else (true, { c with activeRoutes := c.activeRoutes ++ [route] })

def purgeIngressForAdmission (c : SpeakerAssetsRuntimeCore) (admissionId : UInt64) :
    SpeakerAssetsRuntimeCore :=
  if admissionId = 0 then c
  else { c with ingress := c.ingress.filter (·.admissionId ≠ admissionId) }

def closeRoute (c : SpeakerAssetsRuntimeCore) (route : SpeakerAssetsRouteToken) :
    SpeakerAssetsRuntimeCore :=
  let c := c.rememberClosedRoute route
  { c with
    activeRoutes := c.activeRoutes.filter (· ≠ route)
    session := c.session.routeClosed route
    sessionLease := c.sessionLease.filter (·.1 ≠ route)
    sessionPartial := c.sessionPartial.filter (·.1 ≠ route)
    ingress := c.ingress.filter (·.route ≠ route)
    replies := c.replies.filter (·.route ≠ route) }

/-- The step on the lifecycle record at the head. -/
def processLifecycle (c : SpeakerAssetsRuntimeCore) (record : LifecycleRecord) : CoreOutcome :=
  match record.kind with
  | .opened =>
    let (activated, c) := c.activateRoute record.route
    (if activated then .lifecycleApplied else .routeCapacityExceeded, none, c)
  | .closed => (.lifecycleApplied, none, c.closeRoute record.route)

/-! ### Replies and leases -/

def pushReply (c : SpeakerAssetsRuntimeCore) (route : SpeakerAssetsRouteToken)
    (frame : SpeakerAssetsFrame) (admissionId : UInt64) : Bool × SpeakerAssetsRuntimeCore :=
  if speakerAssetsRuntimeReplyCapacity ≤ c.replies.length then (false, c)
  else
    (true, { c with
      replies := c.replies ++ [⟨c.nextReplySequence, route, ⟨route, admissionId⟩, frame⟩]
      nextReplySequence := if c.nextReplySequence + 1 = 0 then 1 else c.nextReplySequence + 1 })

/-- The lease is given back by this step, unless the frame came in without one. -/
def retireAdmissionWithoutReply (c : SpeakerAssetsRuntimeCore) (route : SpeakerAssetsRouteToken)
    (admissionId : UInt64) : Option SpeakerAssetsLogicalRequestLease × SpeakerAssetsRuntimeCore :=
  if admissionId = 0 then (none, c)
  else (some ⟨route, admissionId⟩, c.purgeIngressForAdmission admissionId)

def refreshSessionLease (c : SpeakerAssetsRuntimeCore) (consumedRoute : SpeakerAssetsRouteToken)
    (sessionCookie activityMs : UInt32) : SpeakerAssetsRuntimeCore :=
  if sessionCookie = 0 ∨ c.session.route ≠ some consumedRoute ∨
      sessionCookie ≠ c.session.sessionCookie then c
  else { c with sessionLease := some (consumedRoute, activityMs) }

def updateSessionPartialActivity (c : SpeakerAssetsRuntimeCore)
    (consumedRoute : SpeakerAssetsRouteToken) (receivedMs : UInt32) (acceptedPartialActivity : Bool) :
    SpeakerAssetsRuntimeCore :=
  if c.session.phase = .beginAssembly then
    if acceptedPartialActivity && c.sessionPartial.all (·.1 = consumedRoute) then
      { c with sessionPartial := some (consumedRoute, receivedMs) }
    else c
  else if c.session.phase ≠ .unitAssembly then { c with sessionPartial := none }
  else if c.session.route ≠ some consumedRoute ∨ acceptedPartialActivity = false then c
  else { c with sessionPartial := some (consumedRoute, receivedMs) }

def expireSessionPartialAfterLogicalFrame (c : SpeakerAssetsRuntimeCore) (nowMs : UInt32) :
    Bool × SpeakerAssetsRuntimeCore :=
  match c.sessionPartial with
  | some (route, last) =>
    if elapsedAtLeast nowMs last c.partialTimeoutMs then
      ((c.session.expirePartial route).1,
        { c with session := (c.session.expirePartial route).2, sessionPartial := none })
    else (false, c)
  | none => (false, c)

def routeHasIngress (c : SpeakerAssetsRuntimeCore) (route : SpeakerAssetsRouteToken) : Bool :=
  c.ingress.any (·.route = route)

def expirePartials (c : SpeakerAssetsRuntimeCore) (nowMs : UInt32) :
    SpeakerAssetsRuntimeStepResult × SpeakerAssetsRuntimeCore :=
  match c.sessionPartial with
  | some (route, last) =>
    if !c.routeHasIngress route && elapsedAtLeast nowMs last c.partialTimeoutMs then
      (.partialExpired, { c with
        session := (c.session.expirePartial route).2
        sessionPartial := none })
    else (.idle, c)
  | none => (.idle, c)

def expireSessionLease (c : SpeakerAssetsRuntimeCore) (nowMs : UInt32) :
    SpeakerAssetsRuntimeStepResult × SpeakerAssetsRuntimeCore :=
  match c.sessionLease with
  | none => (.idle, c)
  | some (route, last) =>
    if c.session.route ≠ some route then (.idle, { c with sessionLease := none })
    else if c.pendingAction.isSome || c.session.pending.isSome then (.idle, c)
    else if c.routeHasIngress route || !elapsedAtLeast nowMs last c.sessionLeaseMs then (.idle, c)
    else
      (.sessionLeaseExpired, { c with
        session := c.session.routeClosed route
        sessionPartial := c.sessionPartial.filter (·.1 ≠ route)
        sessionLease := none })

/-! ### Frames and actions -/

variable (crypto : SoundCrypto)

def isKnownMutatingOrQueryOpcode (opcode : UInt8) : Bool := decide (0x02 ≤ opcode) && decide (opcode ≤ 0x09)

/-- The reply to a frame that may not be worked on now. -/
def pausedReply (frame : SpeakerAssetsFrame) : SpeakerAssetsFrame where
  opcode := frame.opcode
  flags := flagResponse ||| flagError
  requestId := frame.requestId
  sessionCookie := frame.sessionCookie
  objectOffset := frame.objectOffset
  body := [SpeakerAssetsStatus.pausedForInput.code]

/-- The end of `consume_logical_frame`: what becomes of the emission. -/
def emitLogicalFrame (c : SpeakerAssetsRuntimeCore) (route : SpeakerAssetsRouteToken)
    (noEmissionResult : SpeakerAssetsRuntimeStepResult) (admissionId : UInt64) (partialExpired : Bool) :
    SpeakerAssetsEmission → CoreOutcome
  | .none =>
    let (release, c) := c.retireAdmissionWithoutReply route admissionId
    (if partialExpired then .partialExpired else noEmissionResult, release, c)
  | .reply frame =>
    match c.pushReply route frame admissionId with
    | (false, c) => (.replyBackpressure, none, c)
    | (true, c) => (if partialExpired then .partialExpired else .replyQueued, none, c)
  | .action action =>
    (.actionQueued, none, { c with pendingAction := some (action, ⟨route, admissionId⟩) })

def rejectLogicalFrame (c : SpeakerAssetsRuntimeCore) (route : SpeakerAssetsRouteToken)
    (admissionId : UInt64) (result : SpeakerAssetsRuntimeStepResult) : CoreOutcome :=
  let (release, c) := c.retireAdmissionWithoutReply route admissionId
  (result, release, c)

/-- The session consumes the frame, and again the same frame if its partial expires meanwhile. -/
def consumeBySession (c : SpeakerAssetsRuntimeCore) (route : SpeakerAssetsRouteToken)
    (frame : SpeakerAssetsFrame) (activityMs : UInt32)
    (noEmissionResult : SpeakerAssetsRuntimeStepResult) (admissionId : UInt64) : CoreOutcome :=
  match c.session.consume crypto route frame with
  | (.ok, emission, session) =>
    let accepted := session.partialActivityCounter != c.session.partialActivityCounter
    let c := { c with session := session }
    let c := if session.route.isNone then { c with sessionLease := none } else c
    let c := c.updateSessionPartialActivity route activityMs accepted
    if accepted then c.emitLogicalFrame route noEmissionResult admissionId false emission
    else
      match c.expireSessionPartialAfterLogicalFrame activityMs with
      | (false, c) => c.emitLogicalFrame route noEmissionResult admissionId false emission
      | (true, c) =>
        match c.session.consume crypto route frame with
        | (.ok, emission, session) =>
          let accepted := session.partialActivityCounter != c.session.partialActivityCounter
          let c := { c with session := session }.updateSessionPartialActivity route activityMs accepted
          c.emitLogicalFrame route noEmissionResult admissionId true emission
        | (_, _, session) =>
          { c with session := session }.rejectLogicalFrame route admissionId .sessionRejected
  | (_, _, session) =>
    { c with session := session }.rejectLogicalFrame route admissionId .sessionRejected

def consumeLogicalFrame (c : SpeakerAssetsRuntimeCore) (route : SpeakerAssetsRouteToken)
    (frame : SpeakerAssetsFrame) (activityMs : UInt32)
    (noEmissionResult : SpeakerAssetsRuntimeStepResult) (resourceStepsAllowed : Bool)
    (admissionId : UInt64) : CoreOutcome :=
  let c := c.refreshSessionLease route frame.sessionCookie activityMs
  if !resourceStepsAllowed && isKnownMutatingOrQueryOpcode frame.opcode then
    let c := { c with
      sessionPartial := c.sessionPartial.map fun (owner, last) =>
        (owner, if owner = route then activityMs else last) }
    match c.pushReply route (pausedReply frame) admissionId with
    | (false, c) => (.replyBackpressure, none, c)
    | (true, c) =>
      let (expired, c) := c.expireSessionPartialAfterLogicalFrame activityMs
      (if expired then .partialExpired else .replyQueued, none, c)
  else c.consumeBySession crypto route frame activityMs noEmissionResult admissionId

def processIngress (c : SpeakerAssetsRuntimeCore) (record : IngressRecord) (resourceStepsAllowed : Bool)
    (nowMs : UInt32) : CoreOutcome :=
  if !c.routeIsActive record.route then
    c.rejectLogicalFrame record.route record.admissionId .staleRouteDropped
  else
    match record.kind with
    | .usbFrame =>
      match decodeSpeakerAssetsUsbFrame crypto.crc32 record.bytes with
      | (.ok, frame) => c.consumeLogicalFrame crypto record.route frame nowMs .usbFrameConsumed
          resourceStepsAllowed record.admissionId
      | _ => c.rejectLogicalFrame record.route record.admissionId .invalidFrameDropped
    | .wifiFrame =>
      match decodeSpeakerAssetsWifiFrame crypto.crc32 record.bytes with
      | (.ok, frame) => c.consumeLogicalFrame crypto record.route frame nowMs .wifiFrameConsumed
          resourceStepsAllowed record.admissionId
      | _ => c.rejectLogicalFrame record.route record.admissionId .invalidFrameDropped

/-- `process_pending_action` once the executor has an answer. -/
def completePendingAction (c : SpeakerAssetsRuntimeCore) (nowMs : UInt32)
    (action : SpeakerAssetsActionView) (lease : SpeakerAssetsLogicalRequestLease)
    (completion : SpeakerAssetsActionCompletion) (executorRejected : Bool) : CoreOutcome :=
  match c.session.complete completion with
  | (.ok, emission, session) =>
    let c := { c with session := session, pendingAction := none, sessionPartial := none }
    let c :=
      if session.route = some action.route then
        c.refreshSessionLease action.route session.sessionCookie nowMs
      else if session.route.isNone then { c with sessionLease := none }
      else c
    let result : SpeakerAssetsRuntimeStepResult :=
      if executorRejected then .executorRejected else .actionCompleted
    match emission with
    | .reply frame =>
      match c.pushReply action.route frame lease.admissionId with
      | (false, c) => (.replyBackpressure, none, c)
      | (true, c) => (result, none, c)
    | .action _ => c.rejectLogicalFrame lease.route lease.admissionId .sessionRejected
    | .none => c.rejectLogicalFrame lease.route lease.admissionId result
  | (_, _, session) => (.sessionRejected, none, { c with session := session })

/-- `execution` is the answer of `executor->step` to the pending action, `none` without an executor. -/
def processPendingAction (c : SpeakerAssetsRuntimeCore) (nowMs : UInt32) (resourceStepsAllowed : Bool)
    (action : SpeakerAssetsActionView) (lease : SpeakerAssetsLogicalRequestLease)
    (execution : Option SpeakerAssetsActionExecutionResult) : CoreOutcome :=
  if !resourceStepsAllowed then (.pausedForInput, none, c)
  else if speakerAssetsRuntimeReplyCapacity ≤ c.replies.length then (.replyBackpressure, none, c)
  else
    match execution with
    | none => (.executorUnavailable, none, c)
    | some .pending => (.actionExecutionPending, none, c)
    | some (.completed completion) => c.completePendingAction nowMs action lease completion false
    | some .rejected =>
      c.completePendingAction nowMs action lease
        { token := action.token, kind := action.kind, result := .unavailable } true

/-- The part of `step_once` behind the session lease. -/
def stepIngress (c : SpeakerAssetsRuntimeCore) (nowMs : UInt32) (resourceStepsAllowed : Bool) :
    CoreOutcome :=
  if speakerAssetsRuntimeReplyCapacity ≤ c.replies.length then (.replyBackpressure, none, c)
  else
    match c.ingress with
    | [] => (.idle, none, c)
    | record :: ingress =>
      let (result, release, c) :=
        { c with ingress := ingress }.processIngress crypto record resourceStepsAllowed nowMs
      if result = .invalidFrameDropped ∨ result = .staleRouteDropped ∨ result = .sessionRejected then
        let (expired, c) := c.expireSessionPartialAfterLogicalFrame nowMs
        (if expired then .partialExpired else result, release, c)
      else (result, release, c)

def step (c : SpeakerAssetsRuntimeCore) (nowMs : UInt32) (resourceStepsAllowed : Bool)
    (execution : Option SpeakerAssetsActionExecutionResult) : CoreOutcome :=
  match c.lifecycle with
  | record :: lifecycle => { c with lifecycle := lifecycle }.processLifecycle record
  | [] =>
    match c.expirePartials nowMs with
    | (.partialExpired, c) => (.partialExpired, none, c)
    | (_, c) =>
      match c.pendingAction with
      | some (action, lease) => c.processPendingAction nowMs resourceStepsAllowed action lease execution
      | none =>
        match c.expireSessionLease nowMs with
        | (.sessionLeaseExpired, c) => (.sessionLeaseExpired, none, c)
        | (_, c) => c.stepIngress crypto nowMs resourceStepsAllowed

/-! ### The replies -/

def frontReply (c : SpeakerAssetsRuntimeCore) : Option SpeakerAssetsRuntimeReply := c.replies.head?

def frontReplyForRoute (c : SpeakerAssetsRuntimeCore) (route : SpeakerAssetsRouteToken) :
    Option SpeakerAssetsRuntimeReply :=
  if route.shapeIsValid then c.replies.find? (·.route = route) else none

def removeReplyIfSequence (c : SpeakerAssetsRuntimeCore) (sequence : UInt32) :
    Bool × SpeakerAssetsRuntimeCore :=
  if sequence = 0 then (false, c)
  else
    (c.replies.any (·.sequence = sequence),
      { c with replies := c.replies.eraseP (·.sequence = sequence) })

end SpeakerAssetsRuntimeCore

end CodexKeyboard.SoundSync
