import CodexKeyboard.SoundSync.CoreView
import CodexKeyboard.SoundSync.MailboxFacts
import CodexKeyboard.SoundSync.World

/-! A closed route stays closed.

    Once a close of a route was called, it is pending in the mailbox, or queued in the core, or the route
    is dead in the core; or the mailbox was shut for good behind a revoke-all. A step moves the close on
    from one of these places to the next, and the last two are never left. -/

namespace CodexKeyboard.SoundSync

open SpeakerAssetsSession (Answerable)

namespace CoreView

variable {v v' : CoreView} {route r : SpeakerAssetsRouteToken}
  {result : SpeakerAssetsRuntimeStepResult} {release : Option SpeakerAssetsLogicalRequestLease}

/-- Nothing in the core works for the route. -/
structure Silent (v : CoreView) (r : SpeakerAssetsRouteToken) : Prop where
  inactive : r ∉ v.activeRoutes
  unbound : v.boundRoute ≠ some r
  orphaned : ∀ p, v.pending = some p → p.route = r → p.orphaned = true
  unanswered : ∀ reply ∈ v.replies, reply.route ≠ r

/-- The filter holds the route's bits. -/
def Filtered (v : CoreView) (r : SpeakerAssetsRouteToken) : Prop :=
  ∀ bit ∈ routeFilterBits r, bit ∈ v.closedRouteFilter

/-- Replies and actions of other routes leave a silent route silent. -/
theorem Silent.frame {admissionId : UInt64} (h : Silent v r) (hroute : route ≠ r)
    (hstep : FrameStep v route admissionId (result, release, v')) : Silent v' r := by
  cases hstep with
  | dropped _ => exact ⟨h.inactive, h.unbound, h.orphaned, h.unanswered⟩
  | replied _ _ =>
    refine ⟨h.inactive, h.unbound, h.orphaned, fun reply hreply => ?_⟩
    rcases List.mem_append.1 hreply with hreply | hreply
    · exact h.unanswered reply hreply
    · obtain rfl := List.mem_singleton.1 hreply
      exact hroute
  | pended _ hproute _ _ _ _ =>
    refine ⟨h.inactive, h.unbound, fun p hp hpr => ?_, h.unanswered⟩
    obtain rfl := Option.some.inj hp
    exact absurd (hproute.symm.trans hpr) hroute

/-- A silent route that is not opened stays silent. -/
theorem Silent.step (h : Silent v r) (hlinked : v.Linked) (hstep : v.Step (result, release, v'))
    (hopen : ∀ l, v.lifecycle = ⟨.opened, r⟩ :: l → Filtered v r) : Silent v' r := by
  cases hstep with
  | @opened route lifecycle _ hl _ hclosed =>
    refine ⟨fun hmem => ?_, h.unbound, h.orphaned, h.unanswered⟩
    rcases List.mem_append.1 hmem with hmem | hmem
    · exact h.inactive hmem
    · obtain rfl := List.mem_singleton.1 hmem
      exact hclosed (hopen lifecycle hl)
  | openedInVain _ _ => exact ⟨h.inactive, h.unbound, h.orphaned, h.unanswered⟩
  | @closed route _ bound _ _ _ hbound hbound' =>
    refine ⟨?_, ?_, ?_, ?_⟩
    · intro (hmem : r ∈ v.activeRoutes.filter (· ≠ route))
      exact h.inactive (List.mem_of_mem_filter hmem)
    · show bound ≠ some r
      rcases hbound' with rfl | rfl
      · exact h.unbound
      · exact nofun
    · intro p (hp : v.pending.map (SpeakerAssetsSession.orphan route) = some p) hpr
      obtain ⟨p₀, hp₀, rfl⟩ := Option.map_eq_some_iff.1 hp
      unfold SpeakerAssetsSession.orphan at hpr ⊢
      split_ifs at hpr ⊢
      · rfl
      · exact h.orphaned p₀ hp₀ hpr
    · intro reply (hreply : reply ∈ v.replies.filter (·.route ≠ route))
      exact h.unanswered reply (List.mem_of_mem_filter hreply)
  | idle _ hbound _ =>
    refine ⟨h.inactive, ?_, h.orphaned, h.unanswered⟩
    rcases hbound with rfl | rfl
    · exact h.unbound
    · exact nofun
  | stale _ _ _ _ _ _ => exact ⟨h.inactive, h.unbound, h.orphaned, h.unanswered⟩
  | @frame record ingress _ _ _ _ _ hactive hframe =>
    have h' : Silent { v with ingress := ingress } r :=
      ⟨h.inactive, h.unbound, h.orphaned, h.unanswered⟩
    exact h'.frame (fun heq => h.inactive (heq ▸ hactive)) hframe
  | @answered action lease p _ bound _ _ ha hp horphaned _ _ hbound _ =>
    -- an action of the route itself would be orphaned
    have hroute : action.route ≠ r := by
      have hlinked := hlinked
      simp only [Linked, ha, hp] at hlinked
      intro heq
      have := h.orphaned p hp (hlinked.1.trans heq)
      simp [this] at horphaned
    refine ⟨h.inactive, ?_, fun p (hp : none = some p) => (by cases hp), fun reply hreply => ?_⟩
    · show bound ≠ some r
      rcases hbound with rfl | rfl | rfl
      · exact h.unbound
      · exact fun heq => hroute (Option.some.inj heq)
      · exact nofun
    · rcases List.mem_append.1 hreply with hreply | hreply
      · exact h.unanswered reply hreply
      · obtain rfl := List.mem_singleton.1 hreply
        exact hroute
  | abandoned _ _ _ _ _ =>
    exact ⟨h.inactive, fun (heq : none = some r) => (by cases heq),
      fun p (hp : none = some p) => (by cases hp), h.unanswered⟩

theorem FrameStep.filter {admissionId : UInt64}
    (hstep : FrameStep v route admissionId (result, release, v')) :
    v'.closedRouteFilter = v.closedRouteFilter ∧ v'.lifecycle = v.lifecycle := by
  cases hstep <;> exact ⟨rfl, rfl⟩

theorem Filtered.step (h : Filtered v r) (hstep : v.Step (result, release, v')) : Filtered v' r := by
  cases hstep with
  | closed _ _ _ _ => exact fun bit hbit => List.mem_append_right _ (h bit hbit)
  | frame _ _ _ _ _ hframe =>
    unfold Filtered
    rw [hframe.filter.1]
    exact h
  | _ => exact h

/-- What a step does to the lifecycle queue: it takes the record at its head, if there is one. -/
theorem Step.lifecycle (hstep : v.Step (result, release, v')) : v'.lifecycle = v.lifecycle.tail := by
  cases hstep with
  | opened hl _ _ => simp [hl]
  | openedInVain hl _ => simp [hl]
  | closed hl _ _ _ => simp [hl, close]
  | frame hl _ _ _ _ hframe => rw [hframe.filter.2]; simp [hl]
  | idle hl _ _ => simp [hl]
  | stale hl _ _ _ _ _ => simp [hl, retire]
  | answered hl _ _ _ _ _ _ _ => simp [hl, push]
  | abandoned hl _ _ _ _ => simp [hl, retire]

/-- A close that is applied silences its route for good. -/
theorem Step.closes (hstep : v.Step (result, release, v')) (hmem : ⟨.closed, r⟩ ∈ v.lifecycle) :
    ⟨.closed, r⟩ ∈ v'.lifecycle ∨ (Silent v' r ∧ Filtered v' r) := by
  rw [hstep.lifecycle]
  rcases hl : v.lifecycle with _ | ⟨record, lifecycle⟩
  · simp [hl] at hmem
  rcases List.mem_cons.1 (hl ▸ hmem) with rfl | hmem
  · right
    cases hstep with
    | @closed route lifecycle' bound _ hl' _ hbound hbound' =>
      obtain ⟨⟨-, rfl⟩, rfl⟩ : (LifecycleKind.closed = .closed ∧ r = route) ∧ lifecycle = lifecycle' := by
        simpa [hl] using hl'
      refine ⟨⟨?_, hbound, fun p hp hpr => ?_, ?_⟩, fun bit hbit => List.mem_append_left _ hbit⟩
      · simp [close]
      · obtain ⟨p₀, -, rfl⟩ := Option.map_eq_some_iff.1 hp
        unfold SpeakerAssetsSession.orphan at hpr ⊢
        split_ifs at hpr ⊢
        · rfl
        · exact absurd hpr ‹_›
      · intro reply hreply
        simpa using (List.mem_filter.1 hreply).2
    | opened hl' _ _ => simp [hl] at hl'
    | openedInVain hl' _ => simp [hl] at hl'
    | idle hl' _ _ => simp [hl] at hl'
    | stale hl' _ _ _ _ _ => simp [hl] at hl'
    | frame hl' _ _ _ _ _ => simp [hl] at hl'
    | answered hl' _ _ _ _ _ _ _ => simp [hl] at hl'
    | abandoned hl' _ _ _ _ => simp [hl] at hl'
  · exact Or.inl hmem

theorem Linked.step (hlinked : v.Linked) (hstep : v.Step (result, release, v')) : v'.Linked := by
  cases hstep with
  | @closed route _ _ _ _ _ _ _ =>
    revert hlinked
    unfold Linked
    simp only [close]
    rcases v.pendingAction with _ | ⟨action, lease⟩ <;> rcases v.pending with _ | p
    · exact id
    · exact id
    · exact id
    · simp only [Option.map_some, SpeakerAssetsSession.orphan]
      split_ifs <;> exact id
  | @frame record _ _ _ hp _ _ _ hframe =>
    cases hframe with
    | dropped _ => exact hlinked
    | replied _ _ => exact hlinked
    | pended _ hproute _ haroute htoken hkind =>
      exact ⟨hproute.trans haroute.symm, haroute.symm, htoken, hkind⟩
  | answered _ _ _ _ _ _ _ _ => trivial
  | abandoned _ _ _ _ _ => trivial
  | _ => exact hlinked

end CoreView

namespace SpeakerAssetsRuntimeCore

open CoreView (Silent Filtered)

variable {c : SpeakerAssetsRuntimeCore} {kind : LifecycleKind} {route q : SpeakerAssetsRouteToken}

/-- What an import does to the lifecycle queue. -/
structure Queued (c : SpeakerAssetsRuntimeCore) (kind : LifecycleKind) (route : SpeakerAssetsRouteToken)
    (result : SpeakerAssetsRuntimeEnqueueResult) (lifecycle : List LifecycleRecord) : Prop where
  closed : ∀ q, ⟨.closed, q⟩ ∈ c.lifecycle → ⟨.closed, q⟩ ∈ lifecycle
  records : ∀ record ∈ lifecycle, record ∈ c.lifecycle ∨
    (record = ⟨kind, route⟩ ∧ route.shapeIsValid = true)
  added : kind = .closed → route.shapeIsValid = true → result ≠ .full →
    ⟨.closed, route⟩ ∈ lifecycle

theorem mem_replaceF_closed {l : List LifecycleRecord} :
    (∀ q, ⟨.closed, q⟩ ∈ l → (⟨.closed, q⟩ : LifecycleRecord) ∈ l.replaceF fun record =>
      if record.route = route then some { record with kind := .closed } else none) ∧
    (∀ record ∈ l.replaceF (fun record : LifecycleRecord =>
      if record.route = route then some { record with kind := .closed } else none),
      record ∈ l ∨ record = ⟨.closed, route⟩) ∧
    (∀ record ∈ l, record.route = route → (⟨.closed, route⟩ : LifecycleRecord) ∈
      l.replaceF fun record => if record.route = route then some { record with kind := .closed } else none) := by
  induction l with
  | nil => simp
  | cons head l ih =>
    obtain ⟨ih₁, ih₂, ih₃⟩ := ih
    by_cases hroute : head.route = route
    · simp only [List.replaceF, hroute, if_true]
      refine ⟨fun q hq => ?_, fun record h => ?_, fun _ _ _ => by simp⟩
      · rcases List.mem_cons.1 hq with rfl | hq
        · simp [← hroute]
        · exact List.mem_cons_of_mem _ hq
      · rcases List.mem_cons.1 h with rfl | h
        · exact Or.inr rfl
        · exact Or.inl (List.mem_cons_of_mem _ h)
    · simp only [List.replaceF, hroute, if_false]
      refine ⟨fun q hq => ?_, fun record h => ?_, fun record h hr => ?_⟩
      · rcases List.mem_cons.1 hq with rfl | hq
        · simp
        · exact List.mem_cons_of_mem _ (ih₁ q hq)
      · rcases List.mem_cons.1 h with rfl | h
        · exact Or.inl (List.mem_cons_self ..)
        · exact (ih₂ record h).imp_left (List.mem_cons_of_mem _)
      · rcases List.mem_cons.1 h with rfl | h
        · exact absurd hr hroute
        · exact List.mem_cons_of_mem _ (ih₃ record h hr)

theorem enqueueLifecycle_spec (c : SpeakerAssetsRuntimeCore) (kind : LifecycleKind)
    (route : SpeakerAssetsRouteToken) :
    ∃ result lifecycle, c.enqueueLifecycle kind route = (result, { c with lifecycle := lifecycle }) ∧
      c.Queued kind route result lifecycle := by
  unfold enqueueLifecycle
  split
  · rename_i hshape
    refine ⟨_, c.lifecycle, rfl, fun _ h => h, fun _ h => Or.inl h, fun _ h => ?_⟩
    simp [h] at hshape
  rename_i hshape
  have hshape : route.shapeIsValid = true := by simpa using hshape
  split
  · rename_i record hfound
    have hroute : record.route = route := by simpa using List.find?_some hfound
    have hmem := List.mem_of_find?_eq_some hfound
    split
    · rename_i hclosed
      refine ⟨_, c.lifecycle, rfl, fun _ h => h, fun _ h => Or.inl h, fun _ _ _ => ?_⟩
      obtain ⟨_, _⟩ := record
      obtain rfl := hroute
      obtain rfl := hclosed
      exact hmem
    · split
      · rename_i hkind
        obtain ⟨h₁, h₂, h₃⟩ := @mem_replaceF_closed route c.lifecycle
        subst hkind
        exact ⟨_, _, rfl, h₁, fun record h => (h₂ record h).imp_right fun h => ⟨h, hshape⟩,
          fun _ _ _ => h₃ record hmem hroute⟩
      · rename_i hkind
        exact ⟨_, c.lifecycle, rfl, fun _ h => h, fun _ h => Or.inl h, fun h => absurd h hkind⟩
  · split
    · exact ⟨_, c.lifecycle, rfl, fun _ h => h, fun _ h => Or.inl h, fun _ _ h => absurd rfl h⟩
    · split
      · exact ⟨_, c.lifecycle, rfl, fun _ h => h, fun _ h => Or.inl h, fun _ _ h => absurd rfl h⟩
      · refine ⟨_, _, rfl, fun q h => List.mem_append_left _ h, fun record h => ?_, fun h _ _ => ?_⟩
        · rcases List.mem_append.1 h with h | h
          · exact Or.inl h
          · exact Or.inr ⟨List.mem_singleton.1 h, hshape⟩
        · rw [h]
          exact List.mem_append_right _ (List.mem_singleton_self _)

/-- A lifecycle record is refused only when its route is not queued and the queue is full for its kind. -/
theorem enqueueLifecycle_full_iff : (c.enqueueLifecycle kind route).1 = .full ↔
    route.shapeIsValid = true ∧ (∀ record ∈ c.lifecycle, record.route ≠ route) ∧
      (speakerAssetsRuntimeLifecycleCapacity ≤ c.lifecycle.length ∨ (kind = .opened ∧
        speakerAssetsRuntimeLifecycleCapacity - speakerAssetsRuntimeActiveRoutes ≤
          c.lifecycle.length)) := by
  unfold enqueueLifecycle
  split
  · rename_i hshape
    simp only [reduceCtorEq, false_iff]
    rintro ⟨h, -⟩
    simp [h] at hshape
  rename_i hshape
  have hshape : route.shapeIsValid = true := by simpa using hshape
  split
  · rename_i record hfound
    have hroute : record.route = route := by simpa using List.find?_some hfound
    have hmem := List.mem_of_find?_eq_some hfound
    have hnot : ¬ ∀ record ∈ c.lifecycle, record.route ≠ route := fun h => h record hmem hroute
    split
    · simp [hnot]
    · split <;> simp [hnot]
  · rename_i hnone
    have hnone : ∀ record ∈ c.lifecycle, record.route ≠ route := by simpa using hnone
    split
    · rename_i hfull
      exact ⟨fun _ => ⟨hshape, hnone, Or.inl hfull⟩, fun _ => rfl⟩
    · split
      · rename_i hfull
        exact ⟨fun _ => ⟨hshape, hnone, Or.inr hfull⟩, fun _ => rfl⟩
      · rename_i h₁ h₂
        simp only [reduceCtorEq, false_iff]
        rintro ⟨-, -, h | h⟩
        · exact h₁ h
        · exact h₂ h

/-- A frame joins the ingress, or nothing changes. -/
theorem importFrame_spec (c : SpeakerAssetsRuntimeCore) (record : SpeakerAssetsRuntimeMailboxRecord)
    (hkind : record.kind = .usbFrame ∨ record.kind = .wifiFrame) :
    ∃ ingress, (c.importMailboxRecord record).2 = { c with ingress := ingress } := by
  have hingress : ∀ kind, ∃ ingress, (c.enqueueIngress kind record.route record.bytes
      record.receivedMs record.admissionId).2 = { c with ingress := ingress } := by
    intro kind
    unfold enqueueIngress
    split_ifs
    · exact ⟨c.ingress, rfl⟩
    · exact ⟨c.ingress, rfl⟩
    · exact ⟨_, rfl⟩
  unfold importMailboxRecord
  split
  · exact ⟨c.ingress, rfl⟩
  · rcases hkind with hkind | hkind
    · rw [hkind]
      dsimp only
      split_ifs
      · exact ⟨c.ingress, rfl⟩
      · exact hingress _
    · rw [hkind]
      dsimp only
      split_ifs
      · exact ⟨c.ingress, rfl⟩
      · exact hingress _

/-! ### Revoking every route -/

theorem foldl_remember (routes : List SpeakerAssetsRouteToken) :
    (∃ bits, routes.foldl rememberClosedRoute c = { c with closedRouteFilter := bits } ∧
      (∀ bit ∈ c.closedRouteFilter, bit ∈ bits) ∧
      ∀ q ∈ routes, ∀ bit ∈ routeFilterBits q, bit ∈ bits) := by
  induction routes generalizing c with
  | nil => exact ⟨c.closedRouteFilter, rfl, fun _ h => h, by simp⟩
  | cons route routes ih =>
    obtain ⟨bits, heq, hold, hnew⟩ := ih (c := c.rememberClosedRoute route)
    refine ⟨bits, heq, fun bit h => hold bit (List.mem_append_right _ h), fun q hq bit hbit => ?_⟩
    rcases List.mem_cons.1 hq with rfl | hq
    · exact hold bit (List.mem_append_left _ hbit)
    · exact hnew q hq bit hbit

/-- Behind a revoke-all the core works for nobody, and remembers every route it knew. -/
theorem revokeAllRoutes_spec (c : SpeakerAssetsRuntimeCore) (route : SpeakerAssetsRouteToken) :
    (∀ q, (c.revokeAllRoutes route).view.Silent q) ∧
      (∀ q, c.view.Filtered q → (c.revokeAllRoutes route).view.Filtered q) ∧
      (∀ q ∈ c.knownRoutes, (c.revokeAllRoutes route).view.Filtered q) ∧
      (route.shapeIsValid = true → (c.revokeAllRoutes route).view.Filtered route) ∧
      (c.view.Linked → (c.revokeAllRoutes route).view.Linked) ∧
      (Answerable c.session → Answerable (c.revokeAllRoutes route).session) ∧
      (c.revokeAllRoutes route).lifecycle = [] := by
  unfold revokeAllRoutes
  dsimp only
  obtain ⟨bits, heq, hold, hnew⟩ := foldl_remember (c := c)
    ((if route.shapeIsValid then [route] else []) ++ c.knownRoutes)
  rw [heq]
  refine ⟨fun q => ⟨by simp [view], ?_, fun p hp _ => ?_, by simp [view]⟩,
    fun q hq bit hbit => hold bit (hq bit hbit),
    fun q hq => hnew q (List.mem_append_right _ hq), fun hshape => hnew route (by simp [hshape]), ?_,
    fun ha => ha.allRoutesClosed, rfl⟩
  · simp [view, SpeakerAssetsSession.allRoutesClosed_route]
  · simp only [view, SpeakerAssetsSession.allRoutesClosed_pending] at hp
    obtain ⟨p₀, -, rfl⟩ := Option.map_eq_some_iff.1 hp
    rfl
  · unfold CoreView.Linked
    simp only [view, SpeakerAssetsSession.allRoutesClosed_pending]
    rcases c.pendingAction with _ | ⟨action, lease⟩ <;> rcases c.session.pending with _ | p <;> exact id

end SpeakerAssetsRuntimeCore

namespace RuntimeWorld

open CoreView (Silent Filtered)

variable {crypto : SoundCrypto} {w : RuntimeWorld} {m : SpeakerAssetsRuntimeMailbox}
  {r : SpeakerAssetsRouteToken}

/-! ### Where a close is -/

/-- The mailbox takes nothing in any more, and all that was open is revoked or about to be. -/
structure Shut (w : RuntimeWorld) : Prop where
  failClosed : w.mailbox.resourceSyncFailClosed = true
  noOpens : ∀ record ∈ w.mailbox.data, record.kind ≠ .routeOpened
  silent : w.mailbox.revokeAll.isSome ∨
    ((∀ record ∈ w.core.lifecycle, record.kind = .closed) ∧ ∀ q, w.core.view.Silent q)

/-- The route is silent, and no open brings it back. -/
structure Dead (w : RuntimeWorld) (r : SpeakerAssetsRouteToken) : Prop where
  silent : w.core.view.Silent r
  filtered : r.shapeIsValid = true → w.core.view.Filtered r

/-- A close of the route was called and has done its work, or is on its way, if it may be; so may the
    revoke-all of a mailbox that is shut. -/
inductive Gone (w : RuntimeWorld) (moving : Prop) (r : SpeakerAssetsRouteToken) : Prop
  | pending : moving → w.mailbox.closePending r = true → Gone w moving r
  | queued : moving → ⟨.closed, r⟩ ∈ w.core.lifecycle → Gone w moving r
  | dead : w.Dead r → Gone w moving r
  | shut : (moving ∨ w.mailbox.revokeAll = none) → w.Shut → Gone w moving r

/-- What every state of a run keeps, as long as there are admission ids. -/
structure RouteInv (w : RuntimeWorld) : Prop where
  whole : w.mailbox.Whole
  linked : w.core.view.Linked
  answerable : Answerable w.core.session
  shapes : ∀ record ∈ w.core.lifecycle, record.route.shapeIsValid = true
  invalid : ∀ q, q.shapeIsValid = false → w.core.view.Silent q
  shut : w.mailbox.resourceSyncFailClosed = true → w.mailbox.nextAdmissionId ≠ 0 → w.Shut

/-- The routes named are gone, in a world with its invariant; the close of some may be on its way. -/
structure Closing (w : RuntimeWorld) (moving closed : SpeakerAssetsRouteToken → Prop) : Prop where
  inv : w.RouteInv
  gone : ∀ r, (moving r → w.mailbox.nextAdmissionId ≠ 0) → closed r → w.Gone (moving r) r

variable {moving closed : SpeakerAssetsRouteToken → Prop}

theorem Shut.keeps (h : w.Shut) (hm : w.mailbox.Keeps (fun _ => False) m) :
    Shut { w with mailbox := m } where
  failClosed := hm.failClosed h.failClosed
  noOpens record hrecord hkind :=
    h.noOpens record (hm.opens h.failClosed record hrecord hkind) hkind
  silent := h.silent.imp_left fun hr => hm.revokeAll hr ▸ hr

/-- A callback or a release. -/
theorem Closing.keeps (h : w.Closing moving closed) (hm : w.mailbox.Keeps (fun _ => False) m) :
    Closing { w with mailbox := m } moving closed := by
  have hinv : RouteInv { w with mailbox := m } :=
    { whole := hm.whole h.inv.whole
      linked := h.inv.linked
      answerable := h.inv.answerable
      shapes := h.inv.shapes
      invalid := h.inv.invalid
      shut := fun hfail hid => by
        rcases hm.failCloses hfail with hfail' | hid' | hrevoke
        · exact (h.inv.shut hfail' fun h => hid (hm.exhausted h)).keeps hm
        · exact absurd hid' hid
        · exact ⟨hfail, (hm.whole h.inv.whole).noOpens hrevoke, Or.inl hrevoke⟩ }
  refine ⟨hinv, fun r hid hr => ?_⟩
  rcases h.gone r (fun hmove h => hid hmove (hm.exhausted h)) hr with
    ⟨hmove, hp⟩ | ⟨hmove, hq⟩ | hd | ⟨hmove, hs⟩
  · rcases hm.closes h.inv.whole r (by simp) hp with hp | hfail
    · exact .pending hmove hp
    · exact .shut (Or.inl hmove) (hinv.shut hfail (hid hmove))
  · exact .queued hmove hq
  · exact .dead ⟨hd.silent, hd.filtered⟩
  · exact .shut (hmove.imp_right fun h => (hm.sealed hs.failClosed).trans h) (hs.keeps hm)

/-- One step of the core. -/
theorem Closing.coreStep (h : w.Closing moving closed) (nowMs : UInt32) (allowed : Bool)
    (execution : Option SpeakerAssetsActionExecutionResult) :
    (w.coreStep crypto nowMs allowed execution).Closing moving closed := by
  have hout := @SpeakerAssetsRuntimeCore.step_spec _ crypto h.inv.linked h.inv.answerable nowMs
    allowed execution
  unfold RuntimeWorld.coreStep
  generalize w.core.step crypto nowMs allowed execution = out at hout
  obtain ⟨result, release, core⟩ := out
  obtain ⟨hstep, hanswerable⟩ := hout
  dsimp only at hstep hanswerable ⊢
  have hlifecycle : core.lifecycle = w.core.lifecycle.tail := hstep.lifecycle
  have htail : ∀ record ∈ core.lifecycle, record ∈ w.core.lifecycle :=
    fun record hrecord => List.mem_of_mem_tail (hlifecycle ▸ hrecord)
  -- a record at the head of the queue is one of the queue's
  have hhead : ∀ {q l}, w.core.view.lifecycle = ⟨.opened, q⟩ :: l → ⟨.opened, q⟩ ∈ w.core.lifecycle :=
    fun hl => by
      rw [show w.core.lifecycle = _ from hl]
      exact List.mem_cons_self ..
  have hinvalid : ∀ q, q.shapeIsValid = false → core.view.Silent q := fun q hq =>
    (h.inv.invalid q hq).step h.inv.linked hstep fun l hl => by
      have hshape : q.shapeIsValid = true := h.inv.shapes _ (hhead hl)
      simp [hq] at hshape
  have hshut : w.Shut → Shut { w with core := core, returned := release } := fun hs =>
    { failClosed := hs.failClosed
      noOpens := hs.noOpens
      silent := hs.silent.imp_right fun ⟨hclosed, hsilent⟩ =>
        ⟨fun record hrecord => hclosed record (htail record hrecord),
          fun q => (hsilent q).step h.inv.linked hstep fun l hl => by
            simpa using hclosed _ (hhead hl)⟩ }
  refine ⟨?_, fun r hid hr => ?_⟩
  · exact
      { whole := h.inv.whole
        linked := h.inv.linked.step hstep
        answerable := hanswerable
        shapes := fun record hrecord => h.inv.shapes record (htail record hrecord)
        invalid := hinvalid
        shut := fun hfail hid => hshut (h.inv.shut hfail hid) }
  · rcases h.gone r hid hr with ⟨hmove, hp⟩ | ⟨hmove, hq⟩ | hd | ⟨hmove, hs⟩
    · exact .pending hmove hp
    · rcases hstep.closes hq with hq | ⟨hsilent, hfiltered⟩
      · exact .queued hmove hq
      · exact .dead ⟨hsilent, fun _ => hfiltered⟩
    · refine .dead ⟨hd.silent.step h.inv.linked hstep fun l hl => ?_, fun hshape =>
        (hd.filtered hshape).step hstep⟩
      exact hd.filtered (h.inv.shapes _ (hhead hl))
    · exact .shut hmove (hshut hs)

/-- Replies leave the core, and the supervisor's own variables change. -/
theorem Closing.replies (h : w.Closing moving closed) {replies : List SpeakerAssetsRuntimeReply}
    (hsub : ∀ reply ∈ replies, reply ∈ w.core.replies) (bootRead : Bool)
    (queued : Option (UInt32 × SpeakerAssetsLogicalRequestLease))
    (returned : Option SpeakerAssetsLogicalRequestLease) :
    Closing { w with core := { w.core with replies := replies }, bootRead := bootRead,
                     queuedReply := queued, returned := returned } moving closed := by
  have hsilent : ∀ q, w.core.view.Silent q →
      ({ w.core with replies := replies } : SpeakerAssetsRuntimeCore).view.Silent q :=
    fun q hq => ⟨hq.inactive, hq.unbound, hq.orphaned, fun reply hreply =>
      hq.unanswered reply (hsub reply hreply)⟩
  have hshut : w.Shut → Shut { w with core := { w.core with replies := replies }, bootRead := bootRead,
                                      queuedReply := queued, returned := returned } := fun hs =>
    { failClosed := hs.failClosed
      noOpens := hs.noOpens
      silent := hs.silent.imp_right fun ⟨hclosed, hs⟩ => ⟨hclosed, fun q => hsilent q (hs q)⟩ }
  refine ⟨?_, fun r hid hr => ?_⟩
  · exact
      { whole := h.inv.whole
        linked := h.inv.linked
        answerable := h.inv.answerable
        shapes := h.inv.shapes
        invalid := fun q hq => hsilent q (h.inv.invalid q hq)
        shut := fun hfail hid => hshut (h.inv.shut hfail hid) }
  · rcases h.gone r hid hr with ⟨hmove, hp⟩ | ⟨hmove, hq⟩ | hd | ⟨hmove, hs⟩
    · exact .pending hmove hp
    · exact .queued hmove hq
    · exact .dead ⟨hsilent r hd.silent, hd.filtered⟩
    · exact .shut hmove (hshut hs)

/-! ### Imports -/

/-- The record an import takes, when it is a close of the route, finds room in the core. -/
def CloseTaken (w : RuntimeWorld) (r : SpeakerAssetsRouteToken) : RuntimeEvent → Prop
  | .importRecord => w.returned = none → ∀ record ∈ w.nextRecord,
    record.kind = .routeClosed → record.route = r → (w.core.importMailboxRecord record).1 ≠ .full
  | _ => True

instance (w : RuntimeWorld) (r : SpeakerAssetsRouteToken) : DecidablePred (w.CloseTaken r)
  | .importRecord => inferInstanceAs (Decidable (_ → ∀ record ∈ w.nextRecord, _ → _))
  | .routeOpened _ | .routeClosed _ | .usbFrame .. | .wifiFrame .. | .bootRead _ | .coreStep ..
  | .releaseLease | .usbReplyOffered _ | .usbReplyForgotten | .usbReplyAccepted ..
  | .wifiReplyAccepted .. => .isTrue trivial

/-- A lifecycle record goes from the mailbox to the core. -/
theorem Closing.lifecycle (h : w.Closing moving closed) {kind : LifecycleKind}
    {route : SpeakerAssetsRouteToken} {result : SpeakerAssetsRuntimeEnqueueResult}
    {lifecycle : List LifecycleRecord} (hq : w.core.Queued kind route result lifecycle)
    (hfull : kind = .closed → moving route → result ≠ .full) (hwhole : m.Whole)
    (hrevoke : m.revokeAll = w.mailbox.revokeAll)
    (hfail : m.resourceSyncFailClosed = w.mailbox.resourceSyncFailClosed)
    (hnext : m.nextAdmissionId = w.mailbox.nextAdmissionId)
    (hdata : ∀ record ∈ m.data, record ∈ w.mailbox.data)
    (hopen : kind = .opened → ∃ record ∈ w.mailbox.data, record.kind = .routeOpened)
    (hclose : ∀ q, w.mailbox.closePending q = true →
      m.closePending q = true ∨ (kind = .closed ∧ q = route)) :
    Closing { w with mailbox := m, core := { w.core with lifecycle := lifecycle } } moving closed := by
  have hsilent : ∀ q, w.core.view.Silent q →
      ({ w.core with lifecycle := lifecycle } : SpeakerAssetsRuntimeCore).view.Silent q :=
    fun q hq => ⟨hq.inactive, hq.unbound, hq.orphaned, hq.unanswered⟩
  have hshut : w.Shut →
      Shut { w with mailbox := m, core := { w.core with lifecycle := lifecycle } } := fun hs =>
    { failClosed := hfail.trans hs.failClosed
      noOpens := fun record hrecord => hs.noOpens record (hdata record hrecord)
      silent := by
        rw [hrevoke]
        refine hs.silent.imp_right fun ⟨hclosed, hs'⟩ => ⟨fun record hrecord => ?_, fun q =>
          hsilent q (hs' q)⟩
        rcases hq.records record hrecord with hold | ⟨rfl, -⟩
        · exact hclosed record hold
        · cases kind with
          | closed => rfl
          | opened =>
            obtain ⟨record, hrecord, hkind⟩ := hopen rfl
            exact absurd hkind (hs.noOpens record hrecord) }
  refine ⟨?_, fun r hid hr => ?_⟩
  · exact
      { whole := hwhole
        linked := h.inv.linked
        answerable := h.inv.answerable
        shapes := fun record hrecord => by
          rcases hq.records record hrecord with hold | ⟨rfl, hshape⟩
          · exact h.inv.shapes record hold
          · exact hshape
        invalid := fun q hq => hsilent q (h.inv.invalid q hq)
        shut := fun hf hid => hshut (h.inv.shut (hfail ▸ hf) (hnext ▸ hid)) }
  · rcases h.gone r (hnext ▸ hid) hr with ⟨hmove, hp⟩ | ⟨hmove, hmem⟩ | hd | ⟨hmove, hs⟩
    · rcases hclose r hp with hp | ⟨hkind, rfl⟩
      · exact .pending hmove hp
      · by_cases hshape : r.shapeIsValid = true
        · exact .queued hmove (hq.added hkind hshape (hfull hkind hmove))
        · have hshape : r.shapeIsValid = false := by simpa using hshape
          exact .dead ⟨hsilent r (h.inv.invalid r hshape), fun h => by simp [hshape] at h⟩
    · exact .queued hmove (hq.closed r hmem)
    · exact .dead ⟨hsilent r hd.silent, hd.filtered⟩
    · exact .shut (hrevoke ▸ hmove) (hshut hs)

/-- The revoke-all goes from the mailbox to the core. -/
theorem Closing.revokeAll (h : w.Closing moving closed) {route : SpeakerAssetsRouteToken}
    (hroute : w.mailbox.revokeAll = some route) :
    Closing { w with mailbox := { w.mailbox with revokeAll := none }
                     core := w.core.revokeAllRoutes route } moving closed := by
  obtain ⟨hsilent, hfiltered, hknown, hoverflow, hlinked, hanswerable, hempty⟩ :=
    w.core.revokeAllRoutes_spec route
  have hshut : w.Shut → Shut { w with mailbox := { w.mailbox with revokeAll := none }
                                      core := w.core.revokeAllRoutes route } := fun hs =>
    ⟨hs.failClosed, hs.noOpens, Or.inr ⟨by simp [hempty], hsilent⟩⟩
  refine ⟨?_, fun r hid hr => ?_⟩
  · exact
      { whole := ⟨h.inv.whole.live, h.inv.whole.kinds, h.inv.whole.ids, nofun⟩
        linked := hlinked h.inv.linked
        answerable := hanswerable h.inv.answerable
        shapes := by simp [hempty]
        invalid := fun q _ => hsilent q
        shut := fun hf hid => hshut (h.inv.shut hf hid) }
  · rcases h.gone r hid hr with ⟨hmove, hp⟩ | ⟨-, hmem⟩ | hd | ⟨hmove, hs⟩
    · rw [SpeakerAssetsRuntimeMailbox.closePending_iff, hroute] at hp
      rcases hp with hp | hp
      · obtain rfl := Option.some.inj hp
        exact .dead ⟨hsilent _, hoverflow⟩
      · exact .pending hmove (SpeakerAssetsRuntimeMailbox.closePending_iff.2 (Or.inr hp))
    · refine .dead ⟨hsilent r, fun _ => hknown r ?_⟩
      have : r ∈ w.core.lifecycle.map (·.route) := List.mem_map.2 ⟨_, hmem, rfl⟩
      simp only [SpeakerAssetsRuntimeCore.knownRoutes, List.mem_append, this, true_or]
    · exact .dead ⟨hsilent r, fun hshape => hfiltered r (hd.filtered hshape)⟩
    · exact .shut (Or.inr rfl) (hshut hs)

/-- A frame goes from the mailbox to the core, or is refused there. -/
theorem Closing.frame (h : w.Closing moving closed) {record : SpeakerAssetsRuntimeMailboxRecord}
    {data : List SpeakerAssetsRuntimeMailboxRecord} (hdata : w.mailbox.data = record :: data)
    (hkind : record.kind ≠ .routeClosed) (ingress : List IngressRecord) :
    Closing { w with mailbox := { w.mailbox with data := data }
                     core := { w.core with ingress := ingress } } moving closed := by
  have hsub : ∀ record ∈ data, record ∈ w.mailbox.data :=
    fun _ h => hdata ▸ List.mem_cons_of_mem _ h
  have hsilent : ∀ q, w.core.view.Silent q →
      ({ w.core with ingress := ingress } : SpeakerAssetsRuntimeCore).view.Silent q :=
    fun q hq => ⟨hq.inactive, hq.unbound, hq.orphaned, hq.unanswered⟩
  have hshut : w.Shut → Shut { w with mailbox := { w.mailbox with data := data }
                                      core := { w.core with ingress := ingress } } := fun hs =>
    ⟨hs.failClosed, fun record h => hs.noOpens record (hsub record h),
      hs.silent.imp_right fun ⟨hclosed, hs⟩ => ⟨hclosed, fun q => hsilent q (hs q)⟩⟩
  refine ⟨?_, fun r hid hr => ?_⟩
  · exact
      { whole :=
          { live := fun record h' => h.inv.whole.live record (hsub record h')
            kinds := fun record h' => h.inv.whole.kinds record (hsub record h')
            ids := fun record h' => h.inv.whole.ids record (hsub record h')
            noOpens := fun hr record h' => h.inv.whole.noOpens hr record (hsub record h') }
        linked := h.inv.linked
        answerable := h.inv.answerable
        shapes := h.inv.shapes
        invalid := fun q hq => hsilent q (h.inv.invalid q hq)
        shut := fun hf hid => hshut (h.inv.shut hf hid) }
  · rcases h.gone r hid hr with ⟨hmove, hp⟩ | ⟨hmove, hmem⟩ | hd | ⟨hmove, hs⟩
    · refine .pending hmove ?_
      rw [SpeakerAssetsRuntimeMailbox.closePending_iff] at hp ⊢
      refine hp.imp_right (Or.imp_right fun ⟨record', hmem, hclosed, hroute⟩ => ?_)
      rcases List.mem_cons.1 (hdata ▸ hmem) with rfl | hmem
      · exact absurd hclosed hkind
      · exact ⟨record', hmem, hclosed, hroute⟩
    · exact .queued hmove hmem
    · exact .dead ⟨hsilent r hd.silent, hd.filtered⟩
    · exact .shut hmove (hshut hs)

theorem Closing.importRecord (h : w.Closing moving closed)
    (htaken : ∀ record, w.nextRecord = some record → record.kind = .routeClosed → moving record.route →
      (w.core.importMailboxRecord record).1 ≠ .full) :
    w.importOneMailboxRecord.Closing moving closed := by
  unfold importOneMailboxRecord
  unfold nextRecord at htaken
  have hspec := SpeakerAssetsRuntimeMailbox.takeNext_spec h.inv.whole
  generalize w.mailbox.takeNext = out at hspec htaken
  cases hspec with
  | revokeAll hr => exact h.revokeAll hr
  | @close route closes hr hc =>
    obtain ⟨result, lifecycle, heq, hq⟩ := w.core.enqueueLifecycle_spec .closed route
    have hfull : LifecycleKind.closed = .closed → moving route → result ≠ .full := fun _ hmove => by
      have := htaken _ rfl rfl hmove
      simpa [SpeakerAssetsRuntimeCore.importMailboxRecord, heq] using this
    have hcore : (w.core.importMailboxRecord { kind := .routeClosed, route := route }).2 =
        { w.core with lifecycle := lifecycle } := by
      simp [SpeakerAssetsRuntimeCore.importMailboxRecord, heq]
    dsimp only
    rw [hcore]
    refine h.lifecycle hq hfull ⟨h.inv.whole.live, h.inv.whole.kinds, h.inv.whole.ids,
      h.inv.whole.noOpens⟩ rfl rfl rfl (fun _ h => h) nofun fun q hp => ?_
    rw [SpeakerAssetsRuntimeMailbox.closePending_iff, hc, List.mem_cons] at hp
    rcases hp with hp | (hp | hp) | hp
    · exact Or.inl (SpeakerAssetsRuntimeMailbox.closePending_iff.2 (Or.inl hp))
    · exact Or.inr ⟨rfl, hp⟩
    · exact Or.inl (SpeakerAssetsRuntimeMailbox.closePending_iff.2 (Or.inr (Or.inl hp)))
    · exact Or.inl (SpeakerAssetsRuntimeMailbox.closePending_iff.2 (Or.inr (Or.inr hp)))
  | @data record data hr hc hd =>
    have hmem : record ∈ w.mailbox.data := hd ▸ List.mem_cons_self ..
    have hsub : ∀ record ∈ data, record ∈ w.mailbox.data := fun _ h => hd ▸ List.mem_cons_of_mem _ h
    have hlive := h.inv.whole.live record hmem
    have hlifecycle : ∀ kind, (w.core.importMailboxRecord record =
          w.core.enqueueLifecycle kind record.route) →
        (kind = .opened → record.kind = .routeOpened) →
        (record.kind = .routeClosed → kind = .closed) →
        (kind = .closed → moving record.route → (w.core.importMailboxRecord record).1 ≠ .full) →
        Closing { w with mailbox := { w.mailbox with data := data }
                         core := (w.core.importMailboxRecord record).2 } moving closed := by
      intro kind himport hopened hclosed hfull
      obtain ⟨result, lifecycle, heq, hq⟩ := w.core.enqueueLifecycle_spec kind record.route
      rw [himport, heq] at hfull ⊢
      refine h.lifecycle hq hfull ⟨fun record h' => h.inv.whole.live record (hsub record h'),
        fun record h' => h.inv.whole.kinds record (hsub record h'),
        fun record h' => h.inv.whole.ids record (hsub record h'),
        fun hr record h' => h.inv.whole.noOpens hr record (hsub record h')⟩ rfl rfl rfl hsub
        (fun hk => ⟨record, hmem, hopened hk⟩) fun q hp => ?_
      rw [SpeakerAssetsRuntimeMailbox.closePending_iff] at hp
      rcases hp with hp | hp | ⟨record', hmem', hkind, hroute⟩
      · exact Or.inl (SpeakerAssetsRuntimeMailbox.closePending_iff.2 (Or.inl hp))
      · exact Or.inl (SpeakerAssetsRuntimeMailbox.closePending_iff.2 (Or.inr (Or.inl hp)))
      · rcases List.mem_cons.1 (hd ▸ hmem') with rfl | hmem'
        · exact Or.inr ⟨hclosed hkind, hroute.symm⟩
        · exact Or.inl (SpeakerAssetsRuntimeMailbox.closePending_iff.2
            (Or.inr (Or.inr ⟨record', hmem', hkind, hroute⟩)))
    cases hk : record.kind with
    | routeOpened =>
      refine hlifecycle .opened ?_ (fun _ => hk) (fun h => ?_) nofun
      · simp [SpeakerAssetsRuntimeCore.importMailboxRecord, hlive, hk]
      · simp [hk] at h
    | routeClosed =>
      refine hlifecycle .closed ?_ nofun (fun _ => rfl) fun _ hmove => htaken record rfl hk hmove
      simp [SpeakerAssetsRuntimeCore.importMailboxRecord, hlive, hk]
    | allRoutesClosed => exact absurd hk (h.inv.whole.kinds record hmem)
    | usbFrame =>
      obtain ⟨ingress, heq⟩ := w.core.importFrame_spec record (Or.inl hk)
      dsimp only
      rw [heq]
      exact h.frame hd (by simp [hk]) ingress
    | wifiFrame =>
      obtain ⟨ingress, heq⟩ := w.core.importFrame_spec record (Or.inr hk)
      dsimp only
      rw [heq]
      exact h.frame hd (by simp [hk]) ingress
  | nothing hr hc hd => exact h

/-! ### Every run -/

/-- The routes closed once an event was handled; only a close that may move counts. -/
def ClosedBy (closed moving : SpeakerAssetsRouteToken → Prop) (event : RuntimeEvent)
    (r : SpeakerAssetsRouteToken) : Prop :=
  closed r ∨ (moving r ∧ event = .routeClosed r)

theorem Closing.mono {closed' : SpeakerAssetsRouteToken → Prop} (h : w.Closing moving closed)
    (hsub : ∀ r, closed' r → closed r) : w.Closing moving closed' :=
  ⟨h.inv, fun r hid hr => h.gone r hid (hsub r hr)⟩

/-- An event that closes no route. -/
theorem Closing.same {event : RuntimeEvent} (h : w.Closing moving closed)
    (hevent : ∀ r, event ≠ .routeClosed r) : w.Closing moving (ClosedBy closed moving event) :=
  h.mono fun r hr => hr.resolve_right fun h => hevent r h.2

theorem Closing.apply (h : w.Closing moving closed) {event : RuntimeEvent}
    (htaken : ∀ q, moving q → w.CloseTaken q event) :
    (w.apply crypto event).Closing moving (ClosedBy closed moving event) := by
  have hretire : ∀ sequence lease queued, Closing
      { w.retireReply sequence lease with queuedReply := queued } moving closed := by
    intro sequence lease queued
    unfold retireReply SpeakerAssetsRuntimeCore.removeReplyIfSequence
    split
    · exact h.replies (fun _ h => h) _ _ _
    · exact h.replies (fun _ h => List.mem_of_mem_eraseP h) _ _ _
  cases event with
  | routeOpened route => exact (h.keeps .enqueueRouteOpened).same nofun
  | routeClosed route =>
    have hkeeps := h.keeps (m := (w.mailbox.enqueueRouteClosed route).2) .enqueueRouteClosed
    refine ⟨hkeeps.inv, fun r hid hr => ?_⟩
    rcases hr with hr | ⟨hmove, hr⟩
    · exact hkeeps.gone r hid hr
    · obtain rfl : route = r := by simpa using hr
      rcases (@SpeakerAssetsRuntimeMailbox.Keeps.routeClosed_spec w.mailbox route).2 with
        ⟨hshape, -⟩ | hpending | hfail
      · exact .dead ⟨hkeeps.inv.invalid route hshape, fun h => by simp [hshape] at h⟩
      · exact .pending hmove hpending
      · exact .shut (Or.inl hmove) (hkeeps.inv.shut hfail (hid hmove))
  | usbFrame route bytes receivedMs => exact (h.keeps (.enqueueUsbFrame bytes receivedMs)).same nofun
  | wifiFrame route bytes receivedMs => exact (h.keeps (.enqueueWifiFrame bytes receivedMs)).same nofun
  | bootRead inProgress => exact (h.replies (fun _ h => h) inProgress _ _).same nofun
  | importRecord =>
    refine Closing.same ?_ nofun
    dsimp only [RuntimeWorld.apply]
    split
    · exact h
    · rename_i hreturned
      exact h.importRecord fun record hnext hkind hmove =>
        htaken record.route hmove (by simpa using hreturned) record hnext hkind rfl
  | coreStep nowMs allowed execution =>
    refine Closing.same ?_ nofun
    dsimp only [RuntimeWorld.apply]
    split
    · exact h
    · exact h.coreStep nowMs allowed execution
  | releaseLease =>
    refine Closing.same ?_ nofun
    dsimp only [RuntimeWorld.apply]
    unfold RuntimeWorld.releaseLease
    split
    · exact h
    · exact (h.keeps (.releaseLogicalRequest _)).replies (fun _ h => h) _ _ _
  | usbReplyOffered generation =>
    refine Closing.same ?_ nofun
    dsimp only [RuntimeWorld.apply]
    split
    · exact h
    · unfold offerUsbReply
      split
      · exact h
      · split
        · exact h
        · exact h.replies (fun _ h => h) _ _ _
  | usbReplyForgotten =>
    refine Closing.same ?_ nofun
    dsimp only [RuntimeWorld.apply]
    split
    · exact h
    · exact h.replies (fun _ h => h) _ _ _
  | usbReplyAccepted epoch sequence =>
    refine Closing.same ?_ nofun
    dsimp only [RuntimeWorld.apply]
    split
    · exact hretire _ _ _
    · exact h
  | wifiReplyAccepted route sequence =>
    refine Closing.same ?_ nofun
    dsimp only [RuntimeWorld.apply]
    split
    · exact hretire _ _ _
    · exact h

theorem Closing.run {events : List RuntimeEvent} (h : w.Closing moving closed)
    (htaken : ∀ q, moving q → ∀ x ∈ w.trace crypto events, x.1.CloseTaken q x.2) :
    (w.run crypto events).Closing moving fun r => closed r ∨ (moving r ∧ .routeClosed r ∈ events) := by
  induction events generalizing w closed with
  | nil => exact h.mono fun r hr => by simpa using hr
  | cons event events ih =>
    have hstep := @Closing.apply crypto _ _ _ h _ fun q hmove =>
      htaken q hmove (w, event) (List.mem_cons_self ..)
    refine (ih hstep fun q hmove x hx => htaken q hmove x (List.mem_cons_of_mem _ hx)).mono
      fun r hr => ?_
    rcases hr with hr | ⟨hmove, hr⟩
    · exact Or.inl (Or.inl hr)
    · rcases List.mem_cons.1 hr with hr | hr
      · exact Or.inl (Or.inr ⟨hmove, hr.symm⟩)
      · exact Or.inr ⟨hmove, hr⟩

theorem closing_init (cookieSeed actionTokenSeed partialTimeoutMs sessionLeaseMs : UInt32) :
    (init cookieSeed actionTokenSeed partialTimeoutMs sessionLeaseMs).Closing moving fun _ => False where
  inv :=
    { whole := ⟨by simp [init], by simp [init], by simp [init], by simp [init]⟩
      linked := trivial
      answerable := ⟨by simp [init, SpeakerAssetsRuntimeCore.init, SpeakerAssetsSession.init], nofun⟩
      shapes := by simp [init, SpeakerAssetsRuntimeCore.init]
      invalid := fun q _ => ⟨by simp [init, SpeakerAssetsRuntimeCore.init, SpeakerAssetsRuntimeCore.view],
        nofun, nofun, by simp [init, SpeakerAssetsRuntimeCore.init, SpeakerAssetsRuntimeCore.view]⟩
      shut := nofun }
  gone _ _ hr := hr.elim

end RuntimeWorld

end CodexKeyboard.SoundSync
