import CodexKeyboard.SoundSync.SessionFacts
import CodexKeyboard.SoundSync.RuntimeCore

/-! What routes and leases see of the runtime core, and everything one core step can do to it.

    The view forgets the session but for its bound route and its pending action, and the two clocks. A
    step applies one lifecycle record, or takes one frame from the ingress and drops it, answers it or
    makes it the pending action, or settles the pending action; otherwise it leaves the view as it is,
    but for a binding that runs out. -/

namespace CodexKeyboard.SoundSync

open SpeakerAssetsSession (Consumed Settled Answerable Kept orphan)

structure CoreView where
  ingress : List IngressRecord
  lifecycle : List LifecycleRecord
  replies : List SpeakerAssetsRuntimeReply
  nextReplySequence : UInt32
  activeRoutes : List SpeakerAssetsRouteToken
  closedRouteFilter : List ℕ
  pendingAction : Option (SpeakerAssetsActionView × SpeakerAssetsLogicalRequestLease)
  boundRoute : Option SpeakerAssetsRouteToken
  pending : Option PendingAction

def SpeakerAssetsRuntimeCore.view (c : SpeakerAssetsRuntimeCore) : CoreView where
  ingress := c.ingress
  lifecycle := c.lifecycle
  replies := c.replies
  nextReplySequence := c.nextReplySequence
  activeRoutes := c.activeRoutes
  closedRouteFilter := c.closedRouteFilter
  pendingAction := c.pendingAction
  boundRoute := c.session.route
  pending := c.session.pending

/-- The lease of an admission; a frame without one has none. -/
def leaseOf (route : SpeakerAssetsRouteToken) (admissionId : UInt64) :
    Option SpeakerAssetsLogicalRequestLease :=
  if admissionId = 0 then none else some ⟨route, admissionId⟩

namespace CoreView

/-- A reply joins the ring. -/
def push (v : CoreView) (route : SpeakerAssetsRouteToken) (frame : SpeakerAssetsFrame)
    (admissionId : UInt64) : CoreView :=
  { v with
    replies := v.replies ++ [⟨v.nextReplySequence, route, ⟨route, admissionId⟩, frame⟩]
    nextReplySequence := if v.nextReplySequence + 1 = 0 then 1 else v.nextReplySequence + 1 }

/-- Nothing in the ingress is of the admission any more. -/
def retire (v : CoreView) (admissionId : UInt64) : CoreView :=
  { v with
    ingress := if admissionId = 0 then v.ingress
      else v.ingress.filter (·.admissionId ≠ admissionId) }

/-- A route closes; the session may have been bound to it. -/
def close (v : CoreView) (route : SpeakerAssetsRouteToken) (bound : Option SpeakerAssetsRouteToken) :
    CoreView :=
  { v with
    closedRouteFilter := routeFilterBits route ++ v.closedRouteFilter
    activeRoutes := v.activeRoutes.filter (· ≠ route)
    ingress := v.ingress.filter (·.route ≠ route)
    replies := v.replies.filter (·.route ≠ route)
    boundRoute := bound
    pending := v.pending.map (orphan route) }

/-- The session works on the core's pending action, for the route that asked. -/
def Linked (v : CoreView) : Prop :=
  match v.pendingAction, v.pending with
  | none, none => True
  | some (action, lease), some p =>
    p.route = action.route ∧ lease.route = action.route ∧ p.token = action.token ∧ p.kind = action.kind
  | _, _ => False

variable {v v' : CoreView} {route : SpeakerAssetsRouteToken} {admissionId : UInt64}

/-- What becomes of a frame the core works on; it has left the ingress. -/
inductive FrameStep (v : CoreView) (route : SpeakerAssetsRouteToken) (admissionId : UInt64) :
    SpeakerAssetsRuntimeStepResult × Option SpeakerAssetsLogicalRequestLease × CoreView → Prop
  | dropped {result} : result ≠ .replyBackpressure →
    FrameStep v route admissionId (result, leaseOf route admissionId, v.retire admissionId)
  | replied {result frame} : result ≠ .replyBackpressure → Sendable frame →
    FrameStep v route admissionId (result, none, v.push route frame admissionId)
  | pended {result action p} : result ≠ .replyBackpressure → p.route = route → p.orphaned = false →
    action.route = route → p.token = action.token → p.kind = action.kind →
    FrameStep v route admissionId
      (result, none, { v with pendingAction := some (action, ⟨route, admissionId⟩), pending := some p })

/-- Everything one core step can do, with its result and the lease it gives back. -/
inductive Step (v : CoreView) :
    SpeakerAssetsRuntimeStepResult × Option SpeakerAssetsLogicalRequestLease × CoreView → Prop
  | opened {route lifecycle result} : v.lifecycle = ⟨.opened, route⟩ :: lifecycle →
    result ≠ .replyBackpressure →
    ¬ (∀ bit ∈ routeFilterBits route, bit ∈ v.closedRouteFilter) →
    Step v (result, none,
      { v with lifecycle := lifecycle, activeRoutes := v.activeRoutes ++ [route] })
  | openedInVain {route lifecycle result} : v.lifecycle = ⟨.opened, route⟩ :: lifecycle →
    result ≠ .replyBackpressure → Step v (result, none, { v with lifecycle := lifecycle })
  | closed {route lifecycle bound result} : v.lifecycle = ⟨.closed, route⟩ :: lifecycle →
    result ≠ .replyBackpressure → bound ≠ some route → (bound = v.boundRoute ∨ bound = none) →
    Step v (result, none, { v with lifecycle := lifecycle }.close route bound)
  | idle {result bound} : v.lifecycle = [] → (bound = v.boundRoute ∨ bound = none) →
    (result = .replyBackpressure → bound = v.boundRoute) →
    Step v (result, none, { v with boundRoute := bound })
  | stale {record ingress result} : v.lifecycle = [] → v.pendingAction = none →
    v.ingress = record :: ingress → v.replies.length < speakerAssetsRuntimeReplyCapacity →
    record.route ∉ v.activeRoutes → result ≠ .replyBackpressure →
    Step v (result, leaseOf record.route record.admissionId,
      { v with ingress := ingress }.retire record.admissionId)
  | frame {record ingress out} : v.lifecycle = [] → v.pendingAction = none →
    v.ingress = record :: ingress → v.replies.length < speakerAssetsRuntimeReplyCapacity →
    record.route ∈ v.activeRoutes →
    FrameStep { v with ingress := ingress } record.route record.admissionId out → Step v out
  | answered {action lease p frame bound result} : v.lifecycle = [] →
    v.pendingAction = some (action, lease) → v.pending = some p → p.orphaned = false →
    v.replies.length < speakerAssetsRuntimeReplyCapacity → result ≠ .replyBackpressure →
    (bound = v.boundRoute ∨ bound = some action.route ∨ bound = none) → Sendable frame →
    Step v (result, none,
      { v with pendingAction := none, pending := none, boundRoute := bound }.push action.route frame
        lease.admissionId)
  | abandoned {action lease p result} : v.lifecycle = [] → v.pendingAction = some (action, lease) →
    v.pending = some p → p.orphaned = true → result ≠ .replyBackpressure →
    Step v (result, leaseOf lease.route lease.admissionId,
      { v with pendingAction := none, pending := none, boundRoute := none }.retire lease.admissionId)

/-- The result is only a label, but for backpressure. -/
theorem FrameStep.relabel {result result' : SpeakerAssetsRuntimeStepResult}
    {release : Option SpeakerAssetsLogicalRequestLease}
    (h : FrameStep v route admissionId (result, release, v')) (hresult : result' ≠ .replyBackpressure) :
    FrameStep v route admissionId (result', release, v') := by
  cases h with
  | dropped _ => exact .dropped hresult
  | replied _ hsend => exact .replied hresult hsend
  | pended _ hroute horphaned haroute htoken hkind =>
    exact .pended hresult hroute horphaned haroute htoken hkind

theorem Step.relabel {result result' : SpeakerAssetsRuntimeStepResult}
    {release : Option SpeakerAssetsLogicalRequestLease} (h : v.Step (result, release, v'))
    (hresult : result' ≠ .replyBackpressure) : v.Step (result', release, v') := by
  cases h with
  | opened hl _ hopen => exact .opened hl hresult hopen
  | openedInVain hl _ => exact .openedInVain hl hresult
  | closed hl _ hbound hbound' => exact .closed hl hresult hbound hbound'
  | idle hl hbound _ => exact .idle hl hbound fun h => absurd h hresult
  | stale hl hp hi hlt hactive _ => exact .stale hl hp hi hlt hactive hresult
  | frame hl hp hi hlt hactive hframe => exact .frame hl hp hi hlt hactive (hframe.relabel hresult)
  | answered hl ha hp horphaned hlt _ hbound hsend =>
    exact .answered hl ha hp horphaned hlt hresult hbound hsend
  | abandoned hl ha hp horphaned _ => exact .abandoned hl ha hp horphaned hresult

end CoreView

namespace SpeakerAssetsRuntimeCore

open CoreView (FrameStep)

variable {c : SpeakerAssetsRuntimeCore} {s : SpeakerAssetsSession} {v : CoreView}
  {route : SpeakerAssetsRouteToken} {admissionId : UInt64} {frame : SpeakerAssetsFrame}
  {crypto : SoundCrypto} {nowMs : UInt32} {result : SpeakerAssetsRuntimeStepResult}

/-! ### The helpers -/

theorem pushReply_ok (h : c.replies.length < speakerAssetsRuntimeReplyCapacity) :
    ∃ c', c.pushReply route frame admissionId = (true, c') ∧
      c'.view = c.view.push route frame admissionId ∧ c'.session = c.session := by
  unfold pushReply
  rw [if_neg (by omega)]
  exact ⟨_, rfl, rfl, rfl⟩

theorem retireAdmission_eq : ∃ c', c.retireAdmissionWithoutReply route admissionId =
      (leaseOf route admissionId, c') ∧
    c'.view = c.view.retire admissionId ∧ c'.session = c.session := by
  unfold retireAdmissionWithoutReply leaseOf CoreView.retire
  split_ifs with h
  · exact ⟨c, rfl, rfl, rfl⟩
  · refine ⟨_, rfl, ?_, ?_⟩ <;> simp [purgeIngressForAdmission, h, view]

@[simp] theorem view_refreshSessionLease (cookie activityMs : UInt32) :
    (c.refreshSessionLease route cookie activityMs).view = c.view := by
  unfold refreshSessionLease
  split_ifs <;> rfl

@[simp] theorem session_refreshSessionLease (cookie activityMs : UInt32) :
    (c.refreshSessionLease route cookie activityMs).session = c.session := by
  unfold refreshSessionLease
  split_ifs <;> rfl

@[simp] theorem view_updatePartial (receivedMs : UInt32) (accepted : Bool) :
    (c.updateSessionPartialActivity route receivedMs accepted).view = c.view := by
  unfold updateSessionPartialActivity
  split_ifs <;> rfl

@[simp] theorem session_updatePartial (receivedMs : UInt32) (accepted : Bool) :
    (c.updateSessionPartialActivity route receivedMs accepted).session = c.session := by
  unfold updateSessionPartialActivity
  split_ifs <;> rfl

/-- A partial expires only while one is assembled. -/
theorem expirePartial_spec :
    (c.expireSessionPartialAfterLogicalFrame nowMs).2.view = c.view ∧
      Kept c.session (c.expireSessionPartialAfterLogicalFrame nowMs).2.session ∧
      ((c.expireSessionPartialAfterLogicalFrame nowMs).1 = false →
        (c.expireSessionPartialAfterLogicalFrame nowMs).2.session = c.session) ∧
      ((c.expireSessionPartialAfterLogicalFrame nowMs).1 = true →
        c.session.phase ≠ .actionPending) := by
  unfold expireSessionPartialAfterLogicalFrame
  split
  · rename_i owner last hp
    split_ifs
    · have hkept : Kept c.session (c.session.expirePartial owner).2 :=
        SpeakerAssetsSession.kept_expirePartial owner
      refine ⟨by simp only [view, hkept.route, hkept.pending], hkept, ?_, ?_⟩
      · dsimp only [SpeakerAssetsSession.expirePartial]
        split_ifs <;> simp
      · dsimp only [SpeakerAssetsSession.expirePartial]
        split_ifs with hbegin hunit
        · exact fun _ => by simp [hbegin.1]
        · exact fun _ => by simp [hunit.1]
        · exact nofun
    · exact ⟨rfl, .rfl, fun _ => rfl, nofun⟩
  · exact ⟨rfl, .rfl, fun _ => rfl, nofun⟩

/-! ### One frame -/

/-- The outcome of working on a frame from the session `s`, in the view `v`. -/
structure FrameOut (v : CoreView) (s : SpeakerAssetsSession) (route : SpeakerAssetsRouteToken)
    (admissionId : UInt64) (out : CoreOutcome) : Prop where
  step : FrameStep v route admissionId (out.1, out.2.1, out.2.2.view)
  answerable : Answerable s → Answerable out.2.2.session

theorem FrameOut.of_view {d : SpeakerAssetsRuntimeCore} {out : CoreOutcome} (hview : d.view = c.view)
    (hkept : Kept c.session d.session) (h : FrameOut d.view d.session route admissionId out) :
    FrameOut c.view c.session route admissionId out :=
  ⟨hview ▸ h.step, fun ha => h.answerable (ha.kept hkept)⟩

theorem room_of_view {d : SpeakerAssetsRuntimeCore} (h : d.view = c.view)
    (hlt : c.replies.length < speakerAssetsRuntimeReplyCapacity) :
    d.replies.length < speakerAssetsRuntimeReplyCapacity := by
  have : d.replies = c.replies := congrArg CoreView.replies h
  rw [this]
  exact hlt

theorem frameOut_reject (hresult : result ≠ .replyBackpressure) (hkept : Kept s c.session)
    (hv : c.view = v) :
    FrameOut v s route admissionId (c.rejectLogicalFrame route admissionId result) := by
  obtain ⟨c', heq, hview, hsession⟩ :
      ∃ c', c.retireAdmissionWithoutReply route admissionId = (leaseOf route admissionId, c') ∧
        c'.view = c.view.retire admissionId ∧ c'.session = c.session := retireAdmission_eq
  unfold rejectLogicalFrame
  rw [heq]
  dsimp only
  refine ⟨?_, fun h => ?_⟩
  · dsimp only
    rw [hview, hv]
    exact .dropped hresult
  · rw [hsession]
    exact h.kept hkept

/-- `d` is the core `c` once its session consumed the frame. -/
structure Behind (c d : SpeakerAssetsRuntimeCore) : Prop where
  view : d.view = { c.view with boundRoute := d.session.route, pending := d.session.pending }

theorem Behind.kept {d : SpeakerAssetsRuntimeCore} (h : Behind c d) (hkept : Kept c.session d.session) :
    d.view = c.view := by
  rw [h.view, hkept.route, hkept.pending]
  rfl

theorem Behind.room {d : SpeakerAssetsRuntimeCore} (h : Behind c d)
    (hlt : c.replies.length < speakerAssetsRuntimeReplyCapacity) :
    d.replies.length < speakerAssetsRuntimeReplyCapacity := by
  have : d.replies = c.replies := congrArg CoreView.replies h.view
  rw [this]
  exact hlt

theorem frameOut_emit {d : SpeakerAssetsRuntimeCore} {e : SpeakerAssetsEmission}
    (hc : Consumed c.session route frame (e, d.session)) (hd : Behind c d) (hid : frame.requestId ≠ 0)
    (ha : Answerable c.session) (hlt : c.replies.length < speakerAssetsRuntimeReplyCapacity)
    (noEmission : SpeakerAssetsRuntimeStepResult) (expired : Bool) :
    FrameOut c.view c.session route admissionId
      (d.emitLogicalFrame route noEmission admissionId expired e) := by
  have hanswerable := ha.consumed hid hc
  cases hc with
  | @reply reply _ hkept hsend =>
    obtain ⟨c', heq, hview, hsession⟩ :
        ∃ c', d.pushReply route reply admissionId = (true, c') ∧
          c'.view = d.view.push route reply admissionId ∧ c'.session = d.session :=
      pushReply_ok (hd.room hlt)
    simp only [emitLogicalFrame, heq]
    refine ⟨?_, fun _ => hsession ▸ hanswerable⟩
    dsimp only
    rw [hview, hd.kept hkept]
    refine .replied ?_ (hsend ha)
    split_ifs <;> decide
  | @action action p _ hroute hreplay hp hphase hproute horphaned hreq haroute htoken hkind =>
    refine ⟨?_, fun _ => hanswerable⟩
    have hview : ({ d with pendingAction := some (action, ⟨route, admissionId⟩) }
        : SpeakerAssetsRuntimeCore).view =
        { c.view with pendingAction := some (action, ⟨route, admissionId⟩), pending := some p } := by
      have hbound : d.session.route = c.view.boundRoute := hroute
      have : d.view = { c.view with boundRoute := c.view.boundRoute, pending := some p } := by
        rw [hd.view, hbound, hp]
      exact congrArg (fun v : CoreView =>
        { v with pendingAction := some (action, ⟨route, admissionId⟩) }) this
    show FrameStep c.view route admissionId (_, _, _)
    dsimp only [emitLogicalFrame]
    rw [hview]
    exact .pended (by decide) hproute horphaned haroute htoken.symm hkind.symm

theorem frameOut_consume (hid : frame.requestId ≠ 0) (ha : Answerable c.session)
    (hlt : c.replies.length < speakerAssetsRuntimeReplyCapacity) (activityMs : UInt32)
    (noEmission : SpeakerAssetsRuntimeStepResult) :
    FrameOut c.view c.session route admissionId
      (c.consumeBySession crypto route frame activityMs noEmission admissionId) := by
  unfold consumeBySession
  rcases SpeakerAssetsSession.consume_spec c.session crypto route frame with hbad | ⟨hok, hc⟩
  · rw [hbad]
    exact frameOut_reject (by decide) .rfl rfl
  rcases hconsume : c.session.consume crypto route frame with ⟨_, e, t⟩
  rw [hconsume] at hok hc
  obtain rfl := hok
  dsimp only at hc ⊢
  generalize hu : updateSessionPartialActivity _ route activityMs _ = u
  have hsession : u.session = t := by
    rw [← hu, session_updatePartial]
    split_ifs <;> rfl
  have hbehind : Behind c u := by
    refine ⟨?_⟩
    rw [hsession, ← hu, view_updatePartial]
    split_ifs <;> rfl
  rw [← hsession] at hc
  split
  · exact frameOut_emit hc hbehind hid ha hlt noEmission false
  · obtain ⟨hview, hkept, hsame, hphase⟩ := @expirePartial_spec u activityMs
    split
    · rename_i c' hexpired
      rw [hexpired] at hview hsame
      have hsame : c'.session = u.session := hsame rfl
      have hbehind' : Behind c c' := ⟨by rw [show c'.view = u.view from hview, hsame, hbehind.view]⟩
      exact frameOut_emit (hsame ▸ hc) hbehind' hid ha hlt noEmission false
    · rename_i c' hexpired
      rw [hexpired] at hview hkept hphase
      -- the first emission is given up: a partial was being assembled, so it was no action
      have hfirst : Kept c.session u.session := by
        cases hc with
        | reply h _ => exact h
        | action _ _ _ hpending => exact absurd hpending (hphase rfl)
      have hview' : c'.view = c.view := hview.trans (hbehind.kept hfirst)
      have hkept' : Kept c.session c'.session := hfirst.trans hkept
      refine .of_view hview' hkept' ?_
      rcases SpeakerAssetsSession.consume_spec c'.session crypto route frame with hbad | ⟨hok, hc'⟩
      · rw [hbad]
        exact frameOut_reject (by decide) .rfl rfl
      rcases hconsume' : c'.session.consume crypto route frame with ⟨_, e', t'⟩
      rw [hconsume'] at hok hc'
      obtain rfl := hok
      dsimp only at hc' ⊢
      generalize hw : updateSessionPartialActivity _ route activityMs _ = w
      have hsession' : w.session = t' := by rw [← hw, session_updatePartial]
      rw [← hsession'] at hc'
      refine frameOut_emit hc' ⟨?_⟩ hid (ha.kept hkept')
        (room_of_view hview' hlt) noEmission true
      rw [hsession', ← hw, view_updatePartial]
      rfl

theorem frameOut_logical (hid : frame.requestId ≠ 0) (ha : Answerable c.session)
    (hlt : c.replies.length < speakerAssetsRuntimeReplyCapacity) (activityMs : UInt32)
    (noEmission : SpeakerAssetsRuntimeStepResult) (allowed : Bool) :
    FrameOut c.view c.session route admissionId
      (c.consumeLogicalFrame crypto route frame activityMs noEmission allowed admissionId) := by
  unfold consumeLogicalFrame
  have hview : (c.refreshSessionLease route frame.sessionCookie activityMs).view = c.view :=
    view_refreshSessionLease _ _
  have hsession : (c.refreshSessionLease route frame.sessionCookie activityMs).session = c.session :=
    session_refreshSessionLease _ _
  generalize c.refreshSessionLease route frame.sessionCookie activityMs = d at hview hsession
  have hkept : Kept c.session d.session := hsession ▸ .rfl
  refine .of_view hview hkept ?_
  have hlt := room_of_view hview hlt
  have ha := ha.kept hkept
  dsimp only
  split
  · have hpaused : Sendable (pausedReply frame) :=
      ⟨hid, (by decide : flagsAreValid (flagResponse ||| flagError) = true),
        (by decide : 1 ≤ speakerAssetsUsbFrameBodyBytes)⟩
    obtain ⟨c', heq, hpush, hsession⟩ :
        ∃ c', ({ d with sessionPartial := d.sessionPartial.map fun (owner, last) =>
            (owner, if owner = route then activityMs else last) } : SpeakerAssetsRuntimeCore).pushReply
            route (pausedReply frame) admissionId = (true, c') ∧
          c'.view = d.view.push route (pausedReply frame) admissionId ∧ c'.session = d.session :=
      pushReply_ok hlt
    rw [heq]
    obtain ⟨hview, hkept, -⟩ := @expirePartial_spec c' activityMs
    refine ⟨?_, fun ha => (hsession ▸ ha : Answerable c'.session).kept hkept⟩
    dsimp only
    rw [hview, hpush]
    refine .replied ?_ hpaused
    split_ifs <;> decide
  · exact frameOut_consume hid ha hlt activityMs noEmission

/-- A frame of a route that is not active is given up at once. -/
theorem processIngress_stale {record : IngressRecord} (hactive : record.route ∉ c.activeRoutes)
    (allowed : Bool) (nowMs : UInt32) :
    c.processIngress crypto record allowed nowMs =
      c.rejectLogicalFrame record.route record.admissionId .staleRouteDropped := by
  have hactive' : c.routeIsActive record.route = false := by simpa [routeIsActive] using hactive
  unfold processIngress
  rw [hactive']
  rfl

theorem frameOut_ingress {record : IngressRecord} (ha : Answerable c.session)
    (hlt : c.replies.length < speakerAssetsRuntimeReplyCapacity) (hactive : record.route ∈ c.activeRoutes)
    (allowed : Bool) (nowMs : UInt32) :
    FrameOut c.view c.session record.route record.admissionId
      (c.processIngress crypto record allowed nowMs) := by
  have hactive' : c.routeIsActive record.route = true := by simpa [routeIsActive] using hactive
  unfold processIngress
  simp only [hactive', Bool.not_true, Bool.false_eq_true, if_false]
  split
  · split
    · rename_i frame hframe
      have hid : frame.requestId ≠ 0 := by
        unfold decodeSpeakerAssetsUsbFrame at hframe
        split_ifs at hframe
        · cases hframe
        · have := (decodeFramePrefix_ok crypto.crc32 (congrArg Prod.fst hframe)).1
          rwa [hframe] at this
      exact frameOut_logical hid ha hlt nowMs .usbFrameConsumed allowed
    · exact frameOut_reject (by decide) .rfl rfl
  · split
    · rename_i frame hframe
      have hid : frame.requestId ≠ 0 := by
        unfold decodeSpeakerAssetsWifiFrame at hframe
        split_ifs at hframe
        · cases hframe
        · have := (decodeFramePrefix_ok crypto.crc32 (congrArg Prod.fst hframe)).1
          rwa [hframe] at this
      exact frameOut_logical hid ha hlt nowMs .wifiFrameConsumed allowed
    · exact frameOut_reject (by decide) .rfl rfl

/-! ### One step -/

/-- The outcome of one step of the core. -/
structure StepOut (c : SpeakerAssetsRuntimeCore) (out : CoreOutcome) : Prop where
  step : c.view.Step (out.1, out.2.1, out.2.2.view)
  answerable : Answerable out.2.2.session

theorem stepOut_lifecycle {record : LifecycleRecord} {lifecycle : List LifecycleRecord}
    (ha : Answerable c.session) (hl : c.lifecycle = record :: lifecycle) :
    StepOut c ({ c with lifecycle := lifecycle }.processLifecycle record) := by
  obtain ⟨kind, route⟩ := record
  have hl' : c.view.lifecycle = ⟨kind, route⟩ :: lifecycle := hl
  cases kind with
  | opened =>
    unfold processLifecycle activateRoute
    dsimp only
    split
    · exact ⟨.openedInVain hl' (by simp), ha⟩
    · rename_i hclosed
      split
      · exact ⟨.openedInVain hl' (by simp), ha⟩
      · split
        · exact ⟨.openedInVain hl' (by simp), ha⟩
        · refine ⟨.opened hl' (by simp) ?_, ha⟩
          simpa [routeGenerationIsClosed, view] using hclosed
  | closed =>
    have hroute := SpeakerAssetsSession.routeClosed_route c.session route
    refine ⟨?_, ha.routeClosed route⟩
    have hview : ({ c with lifecycle := lifecycle }.closeRoute route).view =
        ({ c.view with lifecycle := lifecycle } : CoreView).close route
          (c.session.routeClosed route).route := by
      have hpending : (c.session.routeClosed route).pending = c.session.pending.map (orphan route) :=
        SpeakerAssetsSession.routeClosed_pending c.session route
      simp only [view, CoreView.close, closeRoute, rememberClosedRoute, hpending]
    show c.view.Step (.lifecycleApplied, none, ({ c with lifecycle := lifecycle }.closeRoute route).view)
    rw [hview]
    exact .closed hl' (by decide) hroute.1 hroute.2

theorem stepOut_idle (hl : c.lifecycle = []) (ha : Answerable c.session) {d : SpeakerAssetsRuntimeCore}
    (hview : d.view = c.view) (hkept : Kept c.session d.session) :
    StepOut c (result, none, d) := by
  refine ⟨?_, ha.kept hkept⟩
  dsimp only
  rw [hview]
  exact .idle hl (Or.inl rfl) fun _ => rfl

/-- The completion of the pending action, or of none at all. -/
theorem stepOut_complete {action : SpeakerAssetsActionView} {lease : SpeakerAssetsLogicalRequestLease}
    (hl : c.lifecycle = []) (hlinked : c.view.Linked) (ha : Answerable c.session)
    (hpending : c.pendingAction = some (action, lease))
    (hlt : c.replies.length < speakerAssetsRuntimeReplyCapacity) (nowMs : UInt32)
    (completion : SpeakerAssetsActionCompletion) (rejected : Bool) :
    StepOut c (c.completePendingAction nowMs action lease completion rejected) := by
  unfold completePendingAction
  rcases SpeakerAssetsSession.complete_spec c.session completion with
    ⟨hnone, -⟩ | ⟨hstale, -⟩ | ⟨p, hp, -, -, hok, hsettled⟩
  · rw [hnone]
    exact stepOut_idle hl ha rfl .rfl
  · rw [hstale]
    exact stepOut_idle hl ha rfl .rfl
  have hroute : p.route = action.route := by
    unfold CoreView.Linked at hlinked
    simp only [view, hpending, hp] at hlinked
    exact hlinked.1
  rcases hcomplete : c.session.complete completion with ⟨_, e, t⟩
  rw [hcomplete] at hok hsettled
  obtain rfl := hok
  have hanswerable := ha.settled hp hsettled
  dsimp only at hsettled ⊢
  -- the core behind the completion, whichever lease it refreshed
  generalize hd : ite (t.route = some action.route) _ _ = d
  have hbehind : d.session = t ∧ d.view =
      { c.view with pendingAction := none, boundRoute := t.route, pending := t.pending } := by
    rw [← hd]
    split_ifs
    · exact ⟨session_refreshSessionLease _ _, view_refreshSessionLease _ _⟩
    · exact ⟨rfl, rfl⟩
    · exact ⟨rfl, rfl⟩
  obtain ⟨hsession, hview⟩ := hbehind
  have hresult : ∀ b : Bool, (if b then .executorRejected else .actionCompleted :
      SpeakerAssetsRuntimeStepResult) ≠ .replyBackpressure := by decide
  cases hsettled with
  | orphaned horphaned hnoRoute hnone hreplay =>
    obtain ⟨c', heq, hview', hsession'⟩ :
        ∃ c', d.retireAdmissionWithoutReply lease.route lease.admissionId =
            (leaseOf lease.route lease.admissionId, c') ∧
          c'.view = d.view.retire lease.admissionId ∧ c'.session = d.session := retireAdmission_eq
    simp only [rejectLogicalFrame, heq]
    refine ⟨?_, hsession'.trans hsession ▸ hanswerable⟩
    dsimp only
    rw [hview', hview, hnoRoute, hnone]
    exact .abandoned hl hpending hp horphaned (hresult rejected)
  | @reply reply _ horphaned hsend hbound hnone hreplay =>
    obtain ⟨c', heq, hview', hsession'⟩ :
        ∃ c', d.pushReply action.route reply lease.admissionId = (true, c') ∧
          c'.view = d.view.push action.route reply lease.admissionId ∧ c'.session = d.session :=
      pushReply_ok (by
        have : d.replies = c.replies := congrArg CoreView.replies hview
        rw [this]
        exact hlt)
    simp only [heq]
    refine ⟨?_, hsession'.trans hsession ▸ hanswerable⟩
    dsimp only
    rw [hview', hview, hnone]
    exact .answered hl hpending hp horphaned hlt (hresult rejected) (hroute ▸ hbound)
      (hsend (ha.pending p hp))

theorem stepOut_pending {action : SpeakerAssetsActionView} {lease : SpeakerAssetsLogicalRequestLease}
    (hl : c.lifecycle = []) (hlinked : c.view.Linked) (ha : Answerable c.session)
    (hpending : c.pendingAction = some (action, lease)) (nowMs : UInt32) (allowed : Bool)
    (execution : Option SpeakerAssetsActionExecutionResult) :
    StepOut c (c.processPendingAction nowMs allowed action lease execution) := by
  unfold processPendingAction
  split
  · exact stepOut_idle hl ha rfl .rfl
  · split
    · exact stepOut_idle hl ha rfl .rfl
    · rename_i hlt
      have hlt : c.replies.length < speakerAssetsRuntimeReplyCapacity := by omega
      split
      · exact stepOut_idle hl ha rfl .rfl
      · exact stepOut_idle hl ha rfl .rfl
      · exact stepOut_complete hl hlinked ha hpending hlt nowMs _ false
      · exact stepOut_complete hl hlinked ha hpending hlt nowMs _ true

theorem stepOut_ingress (hl : c.lifecycle = []) (ha : Answerable c.session)
    (hpending : c.pendingAction = none) (nowMs : UInt32) (allowed : Bool) :
    StepOut c (c.stepIngress crypto nowMs allowed) := by
  unfold stepIngress
  split
  · exact stepOut_idle hl ha rfl .rfl
  rename_i hlt
  have hlt : c.replies.length < speakerAssetsRuntimeReplyCapacity := by omega
  split
  · exact stepOut_idle hl ha rfl .rfl
  rename_i record ingress hingress
  have hout : StepOut c ({ c with ingress := ingress }.processIngress crypto record allowed nowMs) := by
    by_cases hactive : record.route ∈ c.activeRoutes
    · have h := @frameOut_ingress { c with ingress := ingress } crypto _ ha hlt hactive
        allowed nowMs
      exact ⟨.frame hl hpending hingress hlt hactive h.step, h.answerable ha⟩
    · rw [processIngress_stale (c := { c with ingress := ingress }) hactive]
      obtain ⟨c', heq, hview, hsession⟩ :
          ∃ c', ({ c with ingress := ingress } : SpeakerAssetsRuntimeCore).retireAdmissionWithoutReply
              record.route record.admissionId = (leaseOf record.route record.admissionId, c') ∧
            c'.view = ({ c.view with ingress := ingress } : CoreView).retire record.admissionId ∧
            c'.session = c.session := retireAdmission_eq
      simp only [rejectLogicalFrame, heq]
      refine ⟨?_, hsession ▸ ha⟩
      dsimp only
      rw [hview]
      exact .stale hl hpending hingress hlt hactive (by decide)
  generalize ({ c with ingress := ingress } : SpeakerAssetsRuntimeCore).processIngress crypto record
    allowed nowMs = out at hout
  obtain ⟨result, release, d⟩ := out
  obtain ⟨hview, hkept, -⟩ := @expirePartial_spec d nowMs
  dsimp only
  split
  · rename_i hdropped
    refine ⟨?_, hout.answerable.kept hkept⟩
    dsimp only
    rw [hview]
    refine hout.step.relabel ?_
    split_ifs
    · decide
    · rcases hdropped with rfl | rfl | rfl <;> decide
  · exact hout

theorem expirePartials_spec :
    (c.expirePartials nowMs).2.view = c.view ∧ Kept c.session (c.expirePartials nowMs).2.session ∧
      ((c.expirePartials nowMs).1 ≠ .partialExpired → (c.expirePartials nowMs).2 = c) := by
  unfold expirePartials
  split
  · rename_i owner last hp
    split_ifs
    · have hkept : Kept c.session (c.session.expirePartial owner).2 :=
        SpeakerAssetsSession.kept_expirePartial owner
      exact ⟨by simp only [view, hkept.route, hkept.pending], hkept, fun h => absurd rfl h⟩
    · exact ⟨rfl, .rfl, fun _ => rfl⟩
  · exact ⟨rfl, .rfl, fun _ => rfl⟩

/-- A binding that runs out leaves no action behind. -/
theorem expireSessionLease_spec (ha : Answerable c.session) :
    ((c.expireSessionLease nowMs).1 = .sessionLeaseExpired ∧
        ∃ bound, (bound = c.session.route ∨ bound = none) ∧
          (c.expireSessionLease nowMs).2.view = { c.view with boundRoute := bound } ∧
          Answerable (c.expireSessionLease nowMs).2.session) ∨
      ((c.expireSessionLease nowMs).1 ≠ .sessionLeaseExpired ∧
        (c.expireSessionLease nowMs).2.view = c.view ∧
        (c.expireSessionLease nowMs).2.session = c.session) := by
  unfold expireSessionLease
  split
  · exact Or.inr ⟨nofun, rfl, rfl⟩
  · rename_i owner last hp
    split
    · exact Or.inr ⟨nofun, rfl, rfl⟩
    · split
      · exact Or.inr ⟨nofun, rfl, rfl⟩
      · rename_i hidle
        split
        · exact Or.inr ⟨nofun, rfl, rfl⟩
        · refine Or.inl ⟨rfl, _, (SpeakerAssetsSession.routeClosed_route c.session owner).2, ?_,
            ha.routeClosed owner⟩
          have hnone : c.session.pending = none := by
            simp only [Bool.or_eq_true, not_or, Bool.not_eq_true, Option.isSome_eq_false_iff,
              Option.isNone_iff_eq_none] at hidle
            exact hidle.2
          have hpending : (c.session.routeClosed owner).pending = c.session.pending := by
            rw [SpeakerAssetsSession.routeClosed_pending, hnone]
            rfl
          simp only [view, hpending]

/-- One step of the core is a step of its view, and every reply stays one that can be sent. -/
theorem step_spec (hlinked : c.view.Linked) (ha : Answerable c.session) (nowMs : UInt32)
    (allowed : Bool) (execution : Option SpeakerAssetsActionExecutionResult) :
    StepOut c (c.step crypto nowMs allowed execution) := by
  unfold step
  split
  · rename_i record lifecycle hl
    exact stepOut_lifecycle ha hl
  rename_i hl
  obtain ⟨hview, hkept, hsame⟩ := @expirePartials_spec c nowMs
  split
  · rename_i c' hexpired
    rw [hexpired] at hview hkept
    exact stepOut_idle hl ha hview hkept
  rename_i _ c' hne hexpired
  rw [hexpired] at hsame
  obtain rfl : c' = c := hsame fun h => hne (h ▸ rfl)
  split
  · rename_i action lease hpending
    exact stepOut_pending hl hlinked ha hpending nowMs allowed execution
  rename_i hpending
  rcases @expireSessionLease_spec _ nowMs ha with
    ⟨hres, bound, hbound, hview', ha'⟩ | ⟨hres, hview', hsession⟩
  · split
    · rename_i d hd
      rw [hd] at hview' ha'
      refine ⟨?_, ha'⟩
      dsimp only at hview' ⊢
      rw [hview']
      exact .idle hl hbound nofun
    · rename_i hne' hd
      exact absurd ((congrArg Prod.fst hd).symm.trans hres) hne'
  · split
    · rename_i d hd
      exact absurd (congrArg Prod.fst hd) hres
    · rename_i d hne' hd
      rw [hd] at hview' hsession
      have hl' : d.lifecycle = [] := (congrArg CoreView.lifecycle hview').trans hl
      have hp' : d.pendingAction = none := (congrArg CoreView.pendingAction hview').trans hpending
      have hout := @stepOut_ingress _ crypto hl' (hsession ▸ ha) hp' nowMs allowed
      exact ⟨(hview' : d.view = c'.view) ▸ hout.step, hout.answerable⟩

end SpeakerAssetsRuntimeCore

end CodexKeyboard.SoundSync
