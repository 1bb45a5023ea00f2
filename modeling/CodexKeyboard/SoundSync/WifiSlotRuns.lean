import CodexKeyboard.SoundSync.WifiSlot
import Mathlib.Data.List.Nodup

/-! What the two tasks keep of the response slot.

    The reply a connection is served stays at the head of the core's ring from the moment it is queued
    until the supervisor retires it, so the slot never holds another one for that connection; and every
    other reply of the connection's route answers the request it waits for. -/

namespace CodexKeyboard.SoundSync

variable {s s' : SyncWorld} {r : SpeakerAssetsRouteToken} {q : ℕ}

namespace CarrierPoint

/-- The route `state_` holds. -/
def active : CarrierPoint → Option SpeakerAssetsRouteToken
  | .reading r | .waiting r _ | .writing r _ _ | .publishing r _ | .awaiting r | .clearing r
  | .deactivating r => some r
  | .outside | .opened _ | .closing _ => none

/-- The route a response may be queued for without being left behind. -/
def serving : CarrierPoint → Option SpeakerAssetsRouteToken
  | .reading r | .waiting r _ | .writing r _ _ | .publishing r _ | .awaiting r | .clearing r => some r
  | .outside | .opened _ | .deactivating _ | .closing _ => none

/-- The route of the request loop. -/
def looping : CarrierPoint → Option SpeakerAssetsRouteToken
  | .opened r | .reading r | .waiting r _ | .writing r _ _ | .publishing r _ | .awaiting r => some r
  | .outside | .clearing _ | .deactivating _ | .closing _ => none

/-- The sequence of the reply the carrier has taken and not published yet. -/
def inHand : CarrierPoint → Option UInt32
  | .writing _ _ response => some response.runtimeReplySequence
  | .publishing _ sequence => some sequence
  | _ => none

end CarrierPoint

/-- The reply was written and published; it is retired before any other is offered. -/
def Spent (s : SyncWorld) (x : RuntimeReply) : Prop :=
  s.core.replies.head? = some x ∧
    (s.slot.acceptedResponse = some ⟨x.route, x.sequence⟩ ∨
      s.supervisor = .retiring ⟨x.route, x.sequence⟩)

/-- The flags follow the carrier task. -/
structure FlagsInv (s : SyncWorld) : Prop where
  active : s.slot.activeRoute = s.carrier.active
  pending : ∀ p, s.slot.pendingResponse = some p → s.carrier.serving = some p.route
  inFlight : s.slot.responseInFlight = true → s.carrier.serving ≠ none
  inHand : s.carrier.inHand ≠ none → s.slot.responseInFlight = true
  published : ∀ a, s.slot.acceptedResponse = some a ∨ s.supervisor = .retiring a →
    a.runtimeReplySequence ≠ 0

/-- Every request was given to the core once and is answered at most once. -/
structure CoreInv (s : SyncWorld) : Prop where
  ids : (s.core.requests.map (·.2) ++ s.core.replies.map (·.request)).Nodup
  old : ∀ q ∈ s.core.requests.map (·.2) ++ s.core.replies.map (·.request), q < s.nextRequest
  requestRoutes : ∀ x ∈ s.core.requests, x.1.transport = .usb ∨ x.1 ∈ s.routes
  replyRoutes : ∀ x ∈ s.core.replies, x.route.transport = .usb ∨ x.route ∈ s.routes
  mine : ∀ r, s.carrier.looping = some r → r ∈ s.routes ∧ r.wifiValid

/-- What the connection's own requests and replies are. -/
structure OwnInv (s : SyncWorld) : Prop where
  requests : ∀ r, s.carrier.looping = some r → ∀ q, (r, q) ∈ s.core.requests →
    s.carrier = .waiting r q ∧ s.slot.pendingResponse = none
  replies : ∀ r, s.carrier.looping = some r → ∀ x ∈ s.core.replies, x.route = r →
    Spent s x ∨ s.carrier = .waiting r x.request ∨
      (s.core.replies.head? = some x ∧ s.carrier.inHand = some x.sequence)
  pending : ∀ p, s.slot.pendingResponse = some p → s.carrier.looping ≠ none →
    s.carrier = .waiting p.route p.request ∧
      ∀ x ∈ s.core.replies, x.route = p.route →
        s.core.replies.head? = some x ∧ x.sequence = p.runtimeReplySequence

/-- What was written, and what the carrier is about to write. -/
structure WireInv (s : SyncWorld) : Prop where
  answered : Answered s.wire
  once : (writtenReplies s.wire).Nodup
  old : ∀ q ∈ writtenReplies s.wire, q < s.nextRequest
  waiting : ∀ r q, s.carrier = .waiting r q →
    lastRead r s.wire = some q ∧ q ∉ writtenReplies s.wire ∧ q < s.nextRequest
  writing : ∀ r q p, s.carrier = .writing r q p →
    p.route = r ∧ p.request = q ∧ lastRead r s.wire = some q ∧ q ∉ writtenReplies s.wire ∧
      q < s.nextRequest

structure SyncInv (s : SyncWorld) : Prop where
  flags : FlagsInv s
  core : CoreInv s
  own : OwnInv s
  wire : WireInv s

theorem syncInv_init : SyncInv {} := by
  refine ⟨⟨rfl, ?_, ?_, ?_, ?_⟩, ⟨by simp, by simp, by simp, by simp, ?_⟩, ⟨?_, ?_, ?_⟩,
    ⟨trivial, by simp [writtenReplies], by simp [writtenReplies], ?_, ?_⟩⟩ <;>
  simp [CarrierPoint.inHand, CarrierPoint.looping]

/-! ### The carrier -/

theorem takePendingResponse_some {slot : WifiSlot} {p : PendingResponse}
    (h : (slot.takePendingResponse r).1 = some p) :
    slot.pendingResponse = some p ∧ p.route = r ∧
      (slot.takePendingResponse r).2 =
        { slot with pendingResponse := none, responseInFlight := true } := by
  unfold WifiSlot.takePendingResponse at h ⊢
  split at h
  · rename_i response hp
    split_ifs at h with hr
    cases h
    exact ⟨hp, hr, by simp [hr]⟩
  · cases h

theorem publishAcceptedResponse_cases (slot : WifiSlot) (r : SpeakerAssetsRouteToken)
    (sequence : UInt32) :
    (slot.acceptedResponse = none ∧ sequence ≠ 0 ∧ slot.publishAcceptedResponse r sequence = (true, { slot with
      acceptedResponse := some ⟨r, sequence⟩, responseInFlight := false })) ∨
    slot.publishAcceptedResponse r sequence = (false, slot) := by
  unfold WifiSlot.publishAcceptedResponse
  split_ifs with hok
  · exact Or.inl ⟨hok.1, hok.2.2, rfl⟩
  · exact Or.inr rfl

theorem flagsInv_carrier (h : FlagsInv s) (hs : CarrierStep s s') : FlagsInv s' := by
  obtain ⟨hactive, hpending, hinFlight, hinHand, hpublished⟩ := h
  cases hs with
  | take hc ht =>
    obtain ⟨hp, -, hslot⟩ := takePendingResponse_some ht
    rw [hslot]
    rw [hc] at hactive
    exact ⟨hactive, by simp, by simp [CarrierPoint.serving], by simp, hpublished⟩
  | @publish r sequence hc =>
    rw [hc] at hactive hpending hinFlight hinHand
    rcases publishAcceptedResponse_cases s.slot r sequence with ⟨-, hseq, hok⟩ | hno
    · rw [hok]
      refine ⟨hactive, hpending, by simp, by simp [CarrierPoint.inHand], ?_⟩
      rintro a (ha | ha)
      · cases ha
        exact hseq
      · exact hpublished a (Or.inr ha)
    · rw [hno]
      exact ⟨hactive, hpending, hinFlight, by simp [CarrierPoint.inHand], hpublished⟩
  | clearPending hc =>
    rw [hc] at hactive hpending
    refine ⟨hactive, ?_, ?_, by simp [CarrierPoint.inHand], hpublished⟩
    · intro p hp
      simp only [WifiSlot.clearPendingResponse] at hp
      split_ifs at hp with hany
      have hr := hpending p hp
      simp only [CarrierPoint.serving, Option.some.injEq] at hr
      simp [hp, hr] at hany
    · simp [WifiSlot.clearPendingResponse, hactive, CarrierPoint.active]
  | _ =>
    refine ⟨?_, ?_, ?_, ?_, hpublished⟩ <;>
    simp_all [CarrierPoint.active, CarrierPoint.serving, CarrierPoint.inHand,
      WifiSlot.setActiveRoute, WifiSlot.clearActiveRoute]

/-- A request the core did not have joins those it has. -/
theorem coreInv_ask (h : CoreInv s) (r : SpeakerAssetsRouteToken)
    (hr : r.transport = .usb ∨ r ∈ s.routes) {s' : SyncWorld}
    (hcore : s'.core = { s.core with requests := s.core.requests ++ [(r, s.nextRequest)] })
    (hnext : s'.nextRequest = s.nextRequest + 1) (hroutes : s'.routes = s.routes)
    (hcarrier : ∀ r, s'.carrier.looping = some r → s.carrier.looping = some r) : CoreInv s' := by
  obtain ⟨hids, hold, hrequests, hreplies, hmine⟩ := h
  have hperm : (s'.core.requests.map (·.2) ++ s'.core.replies.map (·.request)).Perm
      (s.nextRequest :: (s.core.requests.map (·.2) ++ s.core.replies.map (·.request))) := by
    rw [hcore]
    simp only [List.map_append, List.map_cons, List.map_nil, List.append_assoc, List.singleton_append]
    exact List.perm_middle
  refine ⟨?_, ?_, ?_, ?_, ?_⟩
  · rw [hperm.nodup_iff, List.nodup_cons]
    exact ⟨fun hin => lt_irrefl _ (hold _ hin), hids⟩
  · intro q hq
    rw [hnext]
    rcases List.mem_cons.1 (hperm.mem_iff.1 hq) with rfl | hq
    · exact Nat.lt_succ_self _
    · exact Nat.lt_succ_of_lt (hold q hq)
  · intro x hx
    rw [hcore] at hx
    rw [hroutes]
    rcases List.mem_append.1 hx with hx | hx
    · exact hrequests x hx
    · rw [List.mem_singleton.1 hx]
      exact hr
  · rw [hcore, hroutes]
    exact hreplies
  · rw [hroutes]
    exact fun r hr => hmine r (hcarrier r hr)

theorem coreInv_carrier (h : CoreInv s) (hs : CarrierStep s s') : CoreInv s' := by
  cases hs with
  | connect hc hv hfresh =>
    refine ⟨h.ids, h.old, fun x hx => ?_, fun x hx => ?_, ?_⟩
    · exact (h.requestRoutes x hx).imp_right (List.mem_cons_of_mem _)
    · exact (h.replyRoutes x hx).imp_right (List.mem_cons_of_mem _)
    · intro r hr
      cases hr
      exact ⟨List.mem_cons_self, hv⟩
  | @readAccepted r hc =>
    have hmine := h.mine r (by rw [hc]; rfl)
    refine coreInv_ask h r (Or.inr hmine.1) rfl rfl rfl fun r' hr' => ?_
    rw [hc]
    exact hr'
  | readRefused hc =>
    exact ⟨h.ids, fun q hq => Nat.lt_succ_of_lt (h.old q hq), h.requestRoutes, h.replyRoutes, by
      simp [CarrierPoint.looping]⟩
  | @publish r sequence hc =>
    refine ⟨h.ids, h.old, h.requestRoutes, h.replyRoutes, fun r' hr' => h.mine r' ?_⟩
    rw [hc]
    split_ifs at hr'
    · exact hr'
    · cases hr'
  | take hc _ | activate hc | write hc | retired hc _ =>
    refine ⟨h.ids, h.old, h.requestRoutes, h.replyRoutes, fun r' hr' => h.mine r' ?_⟩
    rw [hc]
    exact hr'
  | _ =>
    exact ⟨h.ids, h.old, h.requestRoutes, h.replyRoutes, by simp [CarrierPoint.looping]⟩

theorem ownInv_carrier (h : SyncInv s) (hs : CarrierStep s s') : OwnInv s' := by
  obtain ⟨hrequests, hreplies, hpending⟩ := h.own
  cases hs with
  | @connect r hc hv hfresh =>
    have hquiet : s.slot.pendingResponse = none := by
      by_contra hne
      obtain ⟨p, hp⟩ := Option.ne_none_iff_exists'.1 hne
      have := h.flags.pending p hp
      rw [hc] at this
      cases this
    have hwifi : ¬ (r.transport = .usb ∨ r ∈ s.routes) := by
      rintro (husb | hin)
      · rw [hv.1] at husb
        cases husb
      · exact hfresh hin
    refine ⟨?_, ?_, by simp [hquiet]⟩
    · rintro r hr q hq
      cases hr
      exact absurd (h.core.requestRoutes _ hq) hwifi
    · rintro r hr x hx rfl
      cases hr
      exact absurd (h.core.replyRoutes _ hx) hwifi
  | @activate r hc | @retired r hc _ =>
    rw [hc] at hrequests hreplies hpending
    refine ⟨fun r' hr' q hq => ?_, fun r' hr' x hx hxr => ?_, fun p hp _ => ?_⟩
    · cases (hrequests r' hr' q hq).1
    · rcases hreplies r' hr' x hx hxr with hspent | hwait | ⟨-, hhand⟩
      · exact Or.inl hspent
      · cases hwait
      · cases hhand
    · cases (hpending p hp (by simp [CarrierPoint.looping])).1
  | @readAccepted r hc =>
    rw [hc] at hrequests hreplies hpending
    have hquiet : s.slot.pendingResponse = none := by
      by_contra hne
      obtain ⟨p, hp⟩ := Option.ne_none_iff_exists'.1 hne
      cases (hpending p hp (by simp [CarrierPoint.looping])).1
    refine ⟨fun r' hr' q hq => ?_, fun r' hr' x hx hxr => ?_, by simp [hquiet]⟩
    · cases hr'
      rcases List.mem_append.1 hq with hq | hq
      · cases (hrequests r rfl q hq).1
      · cases List.mem_singleton.1 hq
        exact ⟨rfl, hquiet⟩
    · rcases hreplies r' hr' x hx hxr with hspent | hwait | ⟨-, hhand⟩
      · exact Or.inl hspent
      · cases hwait
      · cases hhand
  | @take r q p hc ht =>
    obtain ⟨hp, hpr, hslot⟩ := takePendingResponse_some ht
    have hqueued := (hpending p hp (by simp [hc, CarrierPoint.looping])).2
    rw [hc] at hrequests
    rw [hslot]
    refine ⟨fun r' hr' q' hq' => ?_, fun r' hr' x hx hxr => ?_, by simp⟩
    · rw [(hrequests r' hr' q' hq').2] at hp
      cases hp
    · cases hr'
      obtain ⟨hhead, hseq⟩ := hqueued x hx (hxr.trans hpr.symm)
      exact Or.inr (Or.inr ⟨hhead, by simp [CarrierPoint.inHand, hseq]⟩)
  | @write r q p hc =>
    rw [hc] at hrequests hreplies hpending
    refine ⟨fun r' hr' q hq => ?_, fun r' hr' x hx hxr => ?_, fun p hp _ => ?_⟩
    · cases (hrequests r' hr' q hq).1
    · rcases hreplies r' hr' x hx hxr with hspent | hwait | hhand
      · exact Or.inl hspent
      · cases hwait
      · exact Or.inr (Or.inr hhand)
    · cases (hpending p hp (by simp [CarrierPoint.looping])).1
  | @publish r sequence hc =>
    rw [hc] at hrequests hreplies hpending
    rcases publishAcceptedResponse_cases s.slot r sequence with ⟨hnone, -, hok⟩ | hno
    · rw [hok]
      refine ⟨fun r' hr' q hq => ?_, fun r' hr' x hx hxr => ?_, fun p hp _ => ?_⟩
      · cases (hrequests r' hr' q hq).1
      · left
        rcases hreplies r' hr' x hx hxr with ⟨hhead, hacc | hsup⟩ | hwait | ⟨hhead, hhand⟩
        · rw [hnone] at hacc
          cases hacc
        · exact ⟨hhead, Or.inr hsup⟩
        · cases hwait
        · cases hr'
          cases hhand
          exact ⟨hhead, Or.inl (by rw [hxr])⟩
      · cases (hpending p hp (by simp [CarrierPoint.looping])).1
    · rw [hno]
      exact ⟨nofun, nofun, fun p _ hl => absurd rfl hl⟩
  | _ => exact ⟨nofun, nofun, fun p _ hl => absurd rfl hl⟩

theorem wireInv_carrier (h : SyncInv s) (hs : CarrierStep s s') : WireInv s' := by
  obtain ⟨hanswered, honce, hold, hwaiting, hwriting⟩ := h.wire
  cases hs with
  | readRefused hc =>
    exact ⟨hanswered, honce, fun q hq => Nat.lt_succ_of_lt (hold q hq), by simp, by simp⟩
  | @readAccepted r hc =>
    refine ⟨hanswered, honce, fun q hq => Nat.lt_succ_of_lt (hold q hq), ?_, by simp⟩
    intro r' q' hc'
    cases hc'
    exact ⟨by simp [lastRead], fun hin => lt_irrefl _ (hold _ hin), Nat.lt_succ_self _⟩
  | @take r q p hc ht =>
    obtain ⟨hp, hpr, -⟩ := takePendingResponse_some ht
    have hask := (h.own.pending p hp (by simp [hc, CarrierPoint.looping])).1
    rw [hc] at hask
    obtain ⟨hlast, hnew, hlt⟩ := hwaiting r q hc
    refine ⟨hanswered, honce, hold, by simp, ?_⟩
    intro r' q' p' hc'
    cases hc'
    refine ⟨hpr, ?_, hlast, hnew, hlt⟩
    injection hask with _ hq
    exact hq.symm
  | @write r q p hc | @writeFailed r q p hc =>
    obtain ⟨hpr, rfl, hlast, hnew, hlt⟩ := hwriting r q p hc
    refine ⟨⟨hpr, hlast, hanswered⟩, List.nodup_cons.2 ⟨hnew, honce⟩, ?_, by simp, by simp⟩
    intro q hq
    rcases List.mem_cons.1 hq with rfl | hq
    · exact hlt
    · exact hold q hq
  | @publish r sequence hc =>
    refine ⟨hanswered, honce, hold, ?_, ?_⟩ <;>
    · intro r' q'
      split_ifs <;> simp
  | _ => exact ⟨hanswered, honce, hold, by simp, by simp⟩

theorem syncInv_carrier (h : SyncInv s) (hs : CarrierStep s s') : SyncInv s' :=
  ⟨flagsInv_carrier h.flags hs, coreInv_carrier h.core hs, ownInv_carrier h hs, wireInv_carrier h hs⟩

/-! ### The supervisor -/

/-- No reply of the closing connection is offered between its two clearings of the slot. -/
def Timely (s s' : SyncWorld) : Prop :=
  s.supervisor = .offering → s'.supervisor = .polling → ∀ r reply,
    s.carrier = .deactivating r → s.core.frontReply = some reply → reply.route ≠ r

/-- Removing others leaves the head where it was. -/
theorem head_of_sublist {α : Type} {l l' : List α} {x : α} (hsub : l'.Sublist l) (hnodup : l.Nodup)
    (hhead : l.head? = some x) (hx : x ∈ l') : l'.head? = some x := by
  cases hsub with
  | slnil => cases hhead
  | cons a hsub =>
    cases hhead
    exact absurd (hsub.subset hx) (List.nodup_cons.1 hnodup).1
  | cons_cons a hsub => exact hhead

theorem CoreInv.replies_nodup (h : CoreInv s) : s.core.replies.Nodup :=
  (List.nodup_append.1 h.ids).2.1.of_map _

theorem CoreInv.reply_unique (h : CoreInv s) {x y : RuntimeReply} (hx : x ∈ s.core.replies)
    (hy : y ∈ s.core.replies) (hxy : x.request = y.request) : x = y :=
  List.inj_on_of_nodup_map (List.nodup_append.1 h.ids).2.1 hx hy hxy

theorem CoreInv.not_asked (h : CoreInv s) {x : RuntimeReply} (hx : x ∈ s.core.replies) :
    (r, x.request) ∉ s.core.requests := fun hr =>
  (List.nodup_append.1 h.ids).2.2 _ (List.mem_map_of_mem hr) _ (List.mem_map_of_mem hx) rfl

theorem coreInv_drop (h : CoreInv s) {core : SyncCore}
    (hreq : core.requests.Sublist s.core.requests) (hrep : core.replies.Sublist s.core.replies)
    {supervisor : SupervisorPoint} : CoreInv { s with core := core, supervisor := supervisor } := by
  have hsub := (hreq.map (·.2)).append (hrep.map (·.request))
  exact ⟨h.ids.sublist hsub, fun q hq => h.old q (hsub.subset hq),
    fun x hx => h.requestRoutes x (hreq.subset hx), fun x hx => h.replyRoutes x (hrep.subset hx), h.mine⟩

theorem ownInv_drop (h : SyncInv s) {core : SyncCore}
    (hreq : core.requests.Sublist s.core.requests) (hrep : core.replies.Sublist s.core.replies)
    {supervisor : SupervisorPoint}
    (hsup : ∀ x ∈ core.replies, s.core.replies.head? = some x →
      s.supervisor = .retiring ⟨x.route, x.sequence⟩ → supervisor = .retiring ⟨x.route, x.sequence⟩) :
    OwnInv { s with core := core, supervisor := supervisor } := by
  have hhead : ∀ x ∈ core.replies, s.core.replies.head? = some x → core.replies.head? = some x :=
    fun x hx hx' => head_of_sublist hrep h.core.replies_nodup hx' hx
  refine ⟨fun r hr q hq => h.own.requests r hr q (hreq.subset hq), fun r hr x hx hxr => ?_,
    fun p hp hl => ⟨(h.own.pending p hp hl).1, fun x hx hxr => ?_⟩⟩
  · rcases h.own.replies r hr x (hrep.subset hx) hxr with ⟨hx', hacc | hret⟩ | hwait | ⟨hx', hhand⟩
    · exact Or.inl ⟨hhead x hx hx', Or.inl hacc⟩
    · exact Or.inl ⟨hhead x hx hx', Or.inr (hsup x hx hx' hret)⟩
    · exact Or.inr (Or.inl hwait)
    · exact Or.inr (Or.inr ⟨hhead x hx hx', hhand⟩)
  · have hqueued := (h.own.pending p hp hl).2 x (hrep.subset hx) hxr
    exact ⟨hhead x hx hqueued.1, hqueued.2⟩

theorem retireAcceptedWifiReply_sublist (core : SyncCore) (accepted : AcceptedResponse) :
    (retireAcceptedWifiReply core accepted).requests = core.requests ∧
      (retireAcceptedWifiReply core accepted).replies.Sublist core.replies := by
  unfold retireAcceptedWifiReply SyncCore.removeReplyIfSequence
  split
  · exact ⟨rfl, List.Sublist.refl _⟩
  · split_ifs
    · exact ⟨rfl, List.Sublist.refl _⟩
    · exact ⟨rfl, List.eraseP_sublist⟩
    · exact ⟨rfl, List.Sublist.refl _⟩

/-- The published reply at the head is gone once it is retired. -/
theorem retireAcceptedWifiReply_head {core : SyncCore} {x : RuntimeReply}
    (hnodup : core.replies.Nodup) (hhead : core.replies.head? = some x) (hseq : x.sequence ≠ 0) :
    x ∉ (retireAcceptedWifiReply core ⟨x.route, x.sequence⟩).replies := by
  obtain ⟨rest, hrest⟩ : ∃ rest, core.replies = x :: rest := by
    cases hr : core.replies with
    | nil => simp [hr] at hhead
    | cons y rest =>
      simp only [hr, List.head?_cons, Option.some.injEq] at hhead
      exact ⟨rest, by rw [hhead]⟩
  have hfront : core.frontReplyForRoute x.route = some x := by
    simp [SyncCore.frontReplyForRoute, hrest]
  simp only [retireAcceptedWifiReply, hfront, if_true, SyncCore.removeReplyIfSequence, if_neg hseq,
    hrest, decide_true, List.eraseP_cons_of_pos]
  exact (List.nodup_cons.1 (hrest ▸ hnodup)).1

theorem offerWifiReply_cases (core : SyncCore) (slot : WifiSlot) :
    offerWifiReply core slot = slot ∨ ∃ x payload, core.frontReply = some x ∧
      slot.activeRoute = some x.route ∧ slot.responsePending = false ∧
      offerWifiReply core slot =
        { slot with pendingResponse := some ⟨x.route, x.sequence, payload, x.request⟩ } := by
  unfold offerWifiReply WifiSlot.queueResponse
  split
  · exact Or.inl rfl
  · rename_i x hx
    split_ifs with hwifi
    · split
      · rename_i payload _
        split_ifs with hok
        · exact Or.inr ⟨x, payload, hx, hok.2.1, hok.2.2, rfl⟩
        · exact Or.inl rfl
      · exact Or.inl rfl
    · exact Or.inl rfl

theorem responsePending_false {slot : WifiSlot} (h : slot.responsePending = false) :
    slot.pendingResponse = none ∧ slot.responseInFlight = false ∧ slot.acceptedResponse = none := by
  simp only [WifiSlot.responsePending, Bool.or_eq_false_iff, Option.isSome_eq_false_iff,
    Option.isNone_iff_eq_none] at h
  exact ⟨h.1.1, h.1.2, h.2⟩

/-- Queued at the right time, a reply answers the request its connection waits for. -/
theorem syncInv_offer (h : SyncInv s) (hsup : s.supervisor = .offering)
    (htimely : ∀ r reply, s.carrier = .deactivating r → s.core.frontReply = some reply →
      reply.route ≠ r) :
    SyncInv { s with supervisor := .polling, slot := offerWifiReply s.core s.slot } := by
  have hret : ∀ a, s.supervisor ≠ .retiring a := fun a ha => by rw [hsup] at ha; cases ha
  rcases offerWifiReply_cases s.core s.slot with hsame | ⟨x, payload, hx, hactive, hfree, hqueue⟩
  · rw [hsame]
    refine ⟨{ h.flags with published := fun a ha => ?_ }, { h.core with },
      ownInv_drop h (List.Sublist.refl _) (List.Sublist.refl _) fun x _ _ hx => absurd hx (hret _),
      { h.wire with }⟩
    rcases ha with ha | ha
    · exact h.flags.published a (Or.inl ha)
    · cases ha
  rw [hqueue]
  obtain ⟨hnone, hflight, haccepted⟩ := responsePending_false hfree
  have hmem : x ∈ s.core.replies := List.mem_of_mem_head? hx
  have hserving : s.carrier.serving = some x.route := by
    have hroute := h.flags.active.symm.trans hactive
    cases hc : s.carrier with
    | deactivating r =>
      rw [hc] at hroute
      cases hroute
      exact absurd rfl (htimely _ x hc hx)
    | _ =>
      rw [hc] at hroute
      exact hroute
  -- A reply of the connection is neither the one just published nor the one in hand.
  have hanswer : ∀ r, s.carrier.looping = some r → ∀ y ∈ s.core.replies, y.route = r →
      s.carrier = .waiting r y.request := by
    intro r hr y hy hyr
    rcases h.own.replies r hr y hy hyr with ⟨-, hacc | hsup'⟩ | hwait | ⟨-, hhand⟩
    · rw [haccepted] at hacc
      cases hacc
    · exact absurd hsup' (hret _)
    · exact hwait
    · have := h.flags.inHand (by simp [hhand])
      rw [hflight] at this
      cases this
  have hloop : s.carrier.looping ≠ none → s.carrier.looping = some x.route := by
    intro hl
    cases hc : s.carrier with
    | opened r =>
      rw [hc] at hserving
      cases hserving
    | clearing r | deactivating r | closing r | outside =>
      rw [hc] at hl
      exact absurd rfl hl
    | _ =>
      rw [hc] at hserving
      exact hserving
  refine ⟨⟨h.flags.active, ?_, h.flags.inFlight, h.flags.inHand, ?_⟩, { h.core with },
    ⟨fun r hr q hq => ?_, fun r hr y hy hyr => ?_, fun p hp hl => ?_⟩, { h.wire with }⟩
  · rintro p hp
    cases hp
    exact hserving
  · rintro a (ha | ha)
    · exact h.flags.published a (Or.inl ha)
    · cases ha
  · have hroute : r = x.route := Option.some.inj (hr.symm.trans (hloop (by simp [hr])))
    have hwait := (h.own.requests r hr q hq).1.symm.trans (hanswer r hr x hmem hroute.symm)
    injection hwait with _ hreq
    rw [hreq] at hq
    exact absurd hq (h.core.not_asked hmem)
  · exact Or.inr (Or.inl (hanswer r hr y hy hyr))
  · cases hp
    refine ⟨hanswer _ (hloop hl) x hmem rfl, fun y hy hyr => ?_⟩
    have hwait := (hanswer _ (hloop hl) y hy hyr).symm.trans (hanswer _ (hloop hl) x hmem rfl)
    injection hwait with _ hreq
    rw [h.core.reply_unique hy hmem hreq]
    exact ⟨hx, rfl⟩

/-- Moving a request to the tail of the replies. -/
theorem syncInv_answer (h : SyncInv s) (sequence : UInt32)
    (encoded : Option (List UInt8)) (hq : (r, q) ∈ s.core.requests) :
    SyncInv { s with
      core := ⟨s.core.requests.erase (r, q), s.core.replies ++ [⟨sequence, r, encoded, q⟩]⟩ } := by
  have hhead : ∀ x, s.core.replies.head? = some x →
      (s.core.replies ++ [(⟨sequence, r, encoded, q⟩ : RuntimeReply)]).head? = some x := by
    intro x hx
    rw [List.head?_append, hx, Option.some_or]
  have hperm : ((s.core.requests.erase (r, q)).map (·.2) ++
      (s.core.replies ++ [(⟨sequence, r, encoded, q⟩ : RuntimeReply)]).map (·.request)).Perm
      (s.core.requests.map (·.2) ++ s.core.replies.map (·.request)) := by
    have herase := (List.perm_cons_erase hq).map (·.2)
    rw [List.map_append, ← List.append_assoc]
    exact List.perm_append_comm.trans ((herase.append_right _).symm)
  obtain ⟨hids, hold, hrequests, hreplies, hmine⟩ := h.core
  refine ⟨{ h.flags with }, ⟨hperm.nodup_iff.2 hids, fun q' hq' => hold q' (hperm.mem_iff.1 hq'),
    fun x hx => hrequests x (List.mem_of_mem_erase hx), fun x hx => ?_, hmine⟩,
    ⟨fun r' hr' q' hq' => h.own.requests r' hr' q' (List.mem_of_mem_erase hq'),
      fun r' hr' x hx hxr => ?_, fun p hp hl => ?_⟩, { h.wire with }⟩
  · rcases List.mem_append.1 hx with hx | hx
    · exact hreplies x hx
    · rw [List.mem_singleton.1 hx]
      exact hrequests _ hq
  · rcases List.mem_append.1 hx with hx | hx
    · rcases h.own.replies r' hr' x hx hxr with ⟨hx', hspent⟩ | hwait | ⟨hx', hhand⟩
      · exact Or.inl ⟨hhead x hx', hspent⟩
      · exact Or.inr (Or.inl hwait)
      · exact Or.inr (Or.inr ⟨hhead x hx', hhand⟩)
    · cases List.mem_singleton.1 hx
      cases hxr
      exact Or.inr (Or.inl (h.own.requests _ hr' q hq).1)
  · obtain ⟨hwait, hqueued⟩ := h.own.pending p hp hl
    refine ⟨hwait, fun x hx hxr => ?_⟩
    rcases List.mem_append.1 hx with hx | hx
    · exact ⟨hhead x (hqueued x hx hxr).1, (hqueued x hx hxr).2⟩
    · cases List.mem_singleton.1 hx
      cases hxr
      have hnone := (h.own.requests p.route (by rw [hwait]; rfl) q hq).2
      rw [hnone] at hp
      cases hp

theorem syncInv_supervisor (h : SyncInv s) (hs : SupervisorStep s s') (ht : Timely s s') :
    SyncInv s' := by
  cases hs with
  | @takeAccepted a hsup ha =>
    refine ⟨{ h.flags with published := ?_ }, { h.core with }, ⟨h.own.requests, ?_, h.own.pending⟩,
      { h.wire with }⟩
    · rintro b (hb | hb)
      · cases hb
      · cases hb
        exact h.flags.published a (Or.inl ha)
    · intro r hr x hx hxr
      rcases h.own.replies r hr x hx hxr with ⟨hhead, hacc | hret⟩ | hrest
      · refine Or.inl ⟨hhead, Or.inr ?_⟩
        rw [show s.slot.takeResponseAccepted.1 = s.slot.acceptedResponse from rfl, hacc] at ha
        cases ha
        rfl
      · rw [hsup] at hret
        cases hret
      · exact Or.inr hrest
  | @retire a hsup =>
    obtain ⟨hreq, hrep⟩ := retireAcceptedWifiReply_sublist s.core a
    refine ⟨{ h.flags with published := ?_ }, coreInv_drop h.core (hreq ▸ List.Sublist.refl _) hrep,
      ownInv_drop h (hreq ▸ List.Sublist.refl _) hrep ?_, { h.wire with }⟩
    · rintro b (hb | hb)
      · exact h.flags.published b (Or.inl hb)
      · cases hb
    · intro x hx hhead hret
      have hseq := h.flags.published _ (Or.inr hret)
      rw [hsup] at hret
      cases hret
      exact absurd hx (retireAcceptedWifiReply_head h.core.replies_nodup hhead hseq)
  | slotFree hsup hfree =>
    refine ⟨{ h.flags with published := ?_ }, { h.core with },
      ownInv_drop h (List.Sublist.refl _) (List.Sublist.refl _) ?_, { h.wire with }⟩
    · rintro b (hb | hb)
      · exact h.flags.published b (Or.inl hb)
      · cases hb
    · intro x _ _ hret
      rw [hsup] at hret
      cases hret
  | offer hsup => exact syncInv_offer h hsup (ht hsup rfl)
  | @usbRequest r hsup husb =>
    refine ⟨{ h.flags with }, coreInv_ask h.core r (Or.inl husb) rfl rfl rfl fun _ hr => hr,
      ⟨fun r' hr' q hq => ?_, h.own.replies, h.own.pending⟩, ⟨h.wire.answered, h.wire.once,
        fun q hq => Nat.lt_succ_of_lt (h.wire.old q hq), fun r q hc => ?_, fun r q p hc => ?_⟩⟩
    · rcases List.mem_append.1 hq with hq | hq
      · exact h.own.requests r' hr' q hq
      · cases List.mem_singleton.1 hq
        have hwifi := (h.core.mine r hr').2.1
        rw [husb] at hwifi
        cases hwifi
    · obtain ⟨hlast, hnew, hlt⟩ := h.wire.waiting r q hc
      exact ⟨hlast, hnew, Nat.lt_succ_of_lt hlt⟩
    · obtain ⟨hpr, hreq, hlast, hnew, hlt⟩ := h.wire.writing r q p hc
      exact ⟨hpr, hreq, hlast, hnew, Nat.lt_succ_of_lt hlt⟩
  | answer sequence encoded _ hq => exact syncInv_answer h sequence encoded hq
  | drop hsup hreq hrep =>
    exact ⟨{ h.flags with }, coreInv_drop h.core hreq hrep, ownInv_drop h hreq hrep fun _ _ _ hx => hx,
      { h.wire with }⟩

theorem syncInv_step (h : SyncInv s) (hs : SyncStep s s') (ht : Timely s s') : SyncInv s' := by
  rcases hs with hs | hs
  · exact syncInv_carrier h hs
  · exact syncInv_supervisor h hs ht

end CodexKeyboard.SoundSync
