import CodexKeyboard.SoundSync.SessionFacts
import CodexKeyboard.SoundSync.RuntimeCore

/-! Transport callbacks and the supervisor's poll over one mailbox and one runtime core.

    A callback is one mailbox call, in its critical section. What a poll does to the two is cut into its
    own steps, which any callbacks may come between: one record is taken and imported, the core makes a
    step, a lease is given back, a reply is offered, an accepted reply is retired. The supervisor gives a
    lease back before it does anything else, and makes no core step while a boot read is in progress.
    The clock, the priority, the executor's answers and what the transports accept are the events' own. -/

namespace CodexKeyboard.SoundSync

/-- What the transports and the supervisor do, one atomic step each. -/
inductive RuntimeEvent
  | routeOpened (route : SpeakerAssetsRouteToken)
  | routeClosed (route : SpeakerAssetsRouteToken)
  | usbFrame (route : SpeakerAssetsRouteToken) (bytes : List UInt8) (receivedMs : UInt32)
  | wifiFrame (route : SpeakerAssetsRouteToken) (bytes : List UInt8) (receivedMs : UInt32)
  | bootRead (inProgress : Bool)
  | importRecord
  | coreStep (nowMs : UInt32) (resourceStepsAllowed : Bool)
      (execution : Option SpeakerAssetsActionExecutionResult)
  | releaseLease
  | usbReplyOffered (usbGeneration : UInt32)
  | usbReplyForgotten
  | usbReplyAccepted (endpointEpoch sequence : UInt32)
  | wifiReplyAccepted (route : SpeakerAssetsRouteToken) (sequence : UInt32)
deriving DecidableEq

/-- `queuedReply` is the reply in the USB endpoint's hands (`queued_reply_sequence_` and its lease),
    `returned` the lease the supervisor is about to give back. -/
structure RuntimeWorld where
  mailbox : SpeakerAssetsRuntimeMailbox := {}
  core : SpeakerAssetsRuntimeCore := {}
  bootRead : Bool := false
  queuedReply : Option (UInt32 × SpeakerAssetsLogicalRequestLease) := none
  returned : Option SpeakerAssetsLogicalRequestLease := none
deriving DecidableEq

namespace RuntimeWorld

variable (crypto : SoundCrypto)

/-- The record an import takes, if any. -/
def nextRecord (w : RuntimeWorld) : Option SpeakerAssetsRuntimeMailboxRecord := w.mailbox.takeNext.1

/-- `import_one_mailbox_record`; the result of the import is not looked at. -/
def importOneMailboxRecord (w : RuntimeWorld) : RuntimeWorld :=
  match w.mailbox.takeNext with
  | (none, mailbox) => { w with mailbox := mailbox }
  | (some record, mailbox) =>
    { w with mailbox := mailbox, core := (w.core.importMailboxRecord record).2 }

/-- One step of `run_core_steps`. -/
def coreStep (w : RuntimeWorld) (nowMs : UInt32) (resourceStepsAllowed : Bool)
    (execution : Option SpeakerAssetsActionExecutionResult) : RuntimeWorld :=
  let (_, release, core) := w.core.step crypto nowMs resourceStepsAllowed execution
  { w with core := core, returned := release }

/-- `release_mailbox_lease`. -/
def releaseLease (w : RuntimeWorld) : RuntimeWorld :=
  match w.returned with
  | none => w
  | some lease =>
    { w with mailbox := (w.mailbox.releaseLogicalRequest lease).2, returned := none }

/-- A reply is removed and its lease is about to be given back. -/
def retireReply (w : RuntimeWorld) (sequence : UInt32) (lease : SpeakerAssetsLogicalRequestLease) :
    RuntimeWorld :=
  { w with core := (w.core.removeReplyIfSequence sequence).2, returned := some lease }

/-- `offer_usb_reply` of the current USB route, once the endpoint takes the encoded frame. -/
def offerUsbReply (w : RuntimeWorld) (usbGeneration : UInt32) : RuntimeWorld :=
  if w.queuedReply.isSome ∨ usbGeneration = 0 then w
  else
    match w.core.frontReplyForRoute { generation := usbGeneration } with
    | none => w
    | some reply => { w with queuedReply := some (reply.sequence, reply.lease) }

/-- The reply an accepted USB response answers for: its lease, if the acceptance is not a stale one. -/
def usbAccepted (w : RuntimeWorld) (endpointEpoch sequence : UInt32) :
    Option SpeakerAssetsLogicalRequestLease :=
  match w.queuedReply with
  | none => none
  | some (queued, lease) =>
    if endpointEpoch = 0 ∨ sequence = 0 ∨ queued ≠ sequence ∨ lease.admissionId = 0 ∨
        lease.route.transport ≠ .usb ∨ lease.route.generation ≠ endpointEpoch then none
    else some lease

/-- The lease of the reply an accepted Wi-Fi response answers for. -/
def wifiAccepted (w : RuntimeWorld) (route : SpeakerAssetsRouteToken) (sequence : UInt32) :
    Option SpeakerAssetsLogicalRequestLease :=
  match w.core.frontReplyForRoute route with
  | none => none
  | some reply =>
    if reply.sequence ≠ sequence ∨ reply.lease.route ≠ route then none else some reply.lease

def apply (w : RuntimeWorld) : RuntimeEvent → RuntimeWorld
  | .routeOpened route => { w with mailbox := (w.mailbox.enqueueRouteOpened route).2 }
  | .routeClosed route => { w with mailbox := (w.mailbox.enqueueRouteClosed route).2 }
  | .usbFrame route bytes receivedMs =>
    { w with mailbox := (w.mailbox.enqueueUsbFrame route bytes receivedMs).2 }
  | .wifiFrame route bytes receivedMs =>
    { w with mailbox := (w.mailbox.enqueueWifiFrame route bytes receivedMs).2 }
  | .bootRead inProgress => { w with bootRead := inProgress }
  | .importRecord => if w.returned.isSome then w else w.importOneMailboxRecord
  | .coreStep nowMs resourceStepsAllowed execution =>
    if w.bootRead || w.returned.isSome then w
    else w.coreStep crypto nowMs resourceStepsAllowed execution
  | .releaseLease => w.releaseLease
  | .usbReplyOffered usbGeneration => if w.returned.isSome then w else w.offerUsbReply usbGeneration
  | .usbReplyForgotten => if w.returned.isSome then w else { w with queuedReply := none }
  | .usbReplyAccepted endpointEpoch sequence =>
    match w.returned, w.usbAccepted endpointEpoch sequence with
    | none, some lease => { w.retireReply sequence lease with queuedReply := none }
    | _, _ => w
  | .wifiReplyAccepted route sequence =>
    match w.returned, w.wifiAccepted route sequence with
    | none, some lease => w.retireReply sequence lease
    | _, _ => w

/-- Every state of a run, in order, with the event that comes next in it. -/
def trace (w : RuntimeWorld) : List RuntimeEvent → List (RuntimeWorld × RuntimeEvent)
  | [] => []
  | event :: events => (w, event) :: (w.apply crypto event).trace events

def run (w : RuntimeWorld) (events : List RuntimeEvent) : RuntimeWorld := events.foldl (apply crypto) w

/-- The state at power-on. -/
def init (cookieSeed actionTokenSeed partialTimeoutMs sessionLeaseMs : UInt32) : RuntimeWorld where
  core := .init cookieSeed actionTokenSeed partialTimeoutMs sessionLeaseMs

end RuntimeWorld

end CodexKeyboard.SoundSync
