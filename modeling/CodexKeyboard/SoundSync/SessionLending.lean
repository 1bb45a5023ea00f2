import CodexKeyboard.SoundSync.SessionRuns

/-! One action is out at a time, and what it borrows from the session stays as it is until it completes.

    Beside the session a run keeps the action that the executor has in hand, from the call that emitted it to the
    completion that settles it. -/

namespace CodexKeyboard.SoundSync

open Schemes.Bytes

namespace SpeakerAssetsSession

variable {s t u : SpeakerAssetsSession} {route : SpeakerAssetsRouteToken} {frame : SpeakerAssetsFrame}
  {crypto : SoundCrypto} {kind : SpeakerAssetsActionKind} {p : PendingAction} {action : SpeakerAssetsActionView}

/-! ### Emissions -/

/-- The binding and the remembered replies are those of `s`. -/
structure Held (s t : SpeakerAssetsSession) : Prop where
  route : t.route = s.route
  cookie : t.sessionCookie = s.sessionCookie
  progress : t.progress = s.progress
  replay : t.replay = s.replay
  slot : t.nextReplaySlot = s.nextReplaySlot

theorem Held.refl (s : SpeakerAssetsSession) : Held s s := ⟨rfl, rfl, rfl, rfl, rfl⟩

theorem Held.trans (h : Held s t) (h' : Held t u) : Held s u :=
  ⟨h'.route.trans h.route, h'.cookie.trans h.cookie, h'.progress.trans h.progress, h'.replay.trans h.replay,
    h'.slot.trans h.slot⟩

/-- The executor may use the views of the action: they show what the session holds. -/
structure Borrowed (s : SpeakerAssetsSession) (p : PendingAction) (action : SpeakerAssetsActionView) : Prop where
  token : action.token = p.token
  kind : action.kind = p.kind
  route : action.route = p.route
  request : action.requestId = p.requestId
  cookie : action.sessionCookie = p.requestCookie
  bytes : action.kind.isWrite = true → s.blockAssembler.complete = true ∧ s.blockAssembler.buffer.bytes = action.bytes
  plan : ∀ plan, action.plan = some plan → s.decodedPlan = plan

/-- An action that writes nothing and has no plan borrows nothing. -/
theorem Borrowed.reading (token : action.token = p.token) (kind : action.kind = p.kind) (route : action.route = p.route)
    (request : action.requestId = p.requestId) (cookie : action.sessionCookie = p.requestCookie)
    (hwrite : action.kind.isWrite = false) (hplan : action.plan = none) : Borrowed s p action := by
  refine ⟨token, kind, route, request, cookie, fun h => ?_, fun plan h => ?_⟩
  · rw [hwrite] at h
    cases h
  · rw [hplan] at h
    cases h

/-- The action that a request begins. -/
structure Begun (s : SpeakerAssetsSession) (route : SpeakerAssetsRouteToken) (frame : SpeakerAssetsFrame)
    (p : PendingAction) (action : SpeakerAssetsActionView) (t : SpeakerAssetsSession) : Prop where
  pending : t.pending = some p
  orphaned : p.orphaned = false
  borrowed : Borrowed t p action
  owner : p.route = route
  request : p.requestId = frame.requestId
  cookie : p.requestCookie = frame.sessionCookie
  bound : p.onBound = true → s.route = some route ∧ frame.sessionCookie = s.sessionCookie ∧
    action.expectedIdentity = (s.progress.getD {}).identity
  new : ∀ entry, some entry ∈ s.replay → entry.route = route → entry.requestCookie = frame.sessionCookie →
    entry.requestId ≠ frame.requestId

/-- A request is answered, or begins an action. -/
inductive Reacted (s : SpeakerAssetsSession) (route : SpeakerAssetsRouteToken) (frame : SpeakerAssetsFrame) :
    SpeakerAssetsEmission × SpeakerAssetsSession → Prop
  | reply {reply : SpeakerAssetsFrame} {t : SpeakerAssetsSession} : Held s t → Reacted s route frame (.reply reply, t)
  | action {p : PendingAction} {action : SpeakerAssetsActionView} {t : SpeakerAssetsSession} : Held s t →
      Begun s route frame p action t → Reacted s route frame (.action action, t)

theorem Reacted.of_held (hheld : Held s t) {e : SpeakerAssetsEmission × SpeakerAssetsSession}
    (h : Reacted t route frame e) : Reacted s route frame e := by
  cases h with
  | reply hnext => exact .reply (hheld.trans hnext)
  | action hnext hbegun =>
    refine .action (hheld.trans hnext) { hbegun with bound := ?_, new := ?_ }
    · rw [← hheld.route, ← hheld.cookie, ← hheld.progress]
      exact hbegun.bound
    · rw [← hheld.replay]
      exact hbegun.new

theorem lookupReplay_miss {requestCookie requestId : UInt32} {opcode : UInt8} {region : SpeakerAssetsRegion}
    {unitIndex : UInt16} {fingerprint : SoundSha256Digest}
    (h : s.lookupReplay route requestCookie requestId opcode region unitIndex fingerprint = .miss)
    (entry : ReplayEntry) (hentry : some entry ∈ s.replay) (hroute : entry.route = route)
    (hcookie : entry.requestCookie = requestCookie) : entry.requestId ≠ requestId := by
  intro hrequest
  unfold lookupReplay at h
  dsimp only at h
  split at h
  · cases h
  · split at h
    next hempty =>
      have hmem : entry ∈ s.replay.reduceOption.filter fun entry =>
          entry.route = route ∧ entry.requestCookie = requestCookie ∧ entry.requestId = requestId :=
        List.mem_filter.2 ⟨List.reduceOption_mem_iff.2 hentry, by simp [hroute, hcookie, hrequest]⟩
      rw [hempty] at hmem
      cases hmem
    next => cases h

theorem reacted_currentActive : Reacted s route frame (s.consumeCurrentActive crypto route frame) := by
  unfold consumeCurrentActive
  split
  · exact .reply (.refl s)
  next hflags =>
    push Not at hflags
    dsimp only
    split
    · exact .reply (.refl s)
    · exact .reply (.refl s)
    next hmiss =>
      split
      · exact .reply (.refl s)
      · refine .action ⟨rfl, rfl, rfl, rfl, rfl⟩
          ⟨rfl, rfl, .reading rfl rfl rfl rfl rfl rfl rfl, rfl, rfl, rfl, fun h => (Bool.false_ne_true h).elim, ?_⟩
        rw [hflags.2.1]
        exact lookupReplay_miss hmiss

theorem reacted_resume : Reacted s route frame (s.consumeResume crypto route frame) := by
  unfold consumeResume
  split
  · exact .reply (.refl s)
  next hflags =>
    push Not at hflags
    split
    · exact .reply (.refl s)
    · dsimp only
      split
      · exact .reply (.refl s)
      · exact .reply (.refl s)
      next hmiss =>
        split
        · exact .reply (.refl s)
        · refine .action ⟨rfl, rfl, rfl, rfl, rfl⟩
            ⟨rfl, rfl, .reading rfl rfl rfl rfl rfl rfl rfl, rfl, rfl, rfl, ?_, ?_⟩
          · simp only [PendingAction.onBound, beginPendingAction, SpeakerAssetsActionKind.isWrite, hflags.2.1]
            intro h
            cases h
          · rw [hflags.2.1]
            exact lookupReplay_miss hmiss

theorem reacted_bound (hkind : boundKind kind = true) :
    Reacted s route frame (s.consumeBound crypto route frame kind) := by
  have hwrite : kind.isWrite = false := by
    revert hkind
    cases kind <;> decide
  unfold consumeBound
  split
  · exact .reply (.refl s)
  · dsimp only
    split
    · exact .reply (.refl s)
    · exact .reply (.refl s)
    next hmiss =>
      split
      · exact .reply (.refl s)
      next hready =>
        push Not at hready
        refine .action ⟨rfl, rfl, rfl, rfl, rfl⟩
          ⟨rfl, rfl, .reading rfl rfl rfl rfl rfl hwrite rfl, rfl, rfl, rfl, ?_, ?_⟩
        · exact fun _ => ⟨hready.2.1, hready.2.2, rfl⟩
        · exact lookupReplay_miss hmiss

theorem held_enterPlan (s : SpeakerAssetsSession) (route : SpeakerAssetsRouteToken) (frame : SpeakerAssetsFrame)
    (kind : SpeakerAssetsActionKind) (hasFirst : Bool) :
    Held s (s.enterPlanAssembly route frame kind hasFirst).2 := by
  unfold enterPlanAssembly
  dsimp only
  split
  · split_ifs <;> exact ⟨rfl, rfl, rfl, rfl, rfl⟩
  · split_ifs <;> exact ⟨rfl, rfl, rfl, rfl, rfl⟩
  · split_ifs <;> exact .refl s
  · exact .refl s
  · exact .refl s

theorem reacted_finishPlan (hkind : kind = .begin ∨ kind = .discardInvalidStaging) (hcookie : frame.sessionCookie = 0) :
    Reacted s route frame (s.finishPlanAssembly crypto route frame kind) := by
  unfold finishPlanAssembly
  dsimp only
  split
  · exact .reply ⟨rfl, rfl, rfl, rfl, rfl⟩
  · split
    · exact .reply ⟨rfl, rfl, rfl, rfl, rfl⟩
    · exact .reply ⟨rfl, rfl, rfl, rfl, rfl⟩
    next hmiss =>
      split
      · exact .reply ⟨rfl, rfl, rfl, rfl, rfl⟩
      · refine .action ⟨rfl, rfl, rfl, rfl, rfl⟩
          ⟨rfl, rfl, ⟨rfl, rfl, rfl, rfl, rfl, ?_, fun plan hplan => Option.some.inj hplan⟩, rfl, rfl, rfl, ?_, ?_⟩
        · rcases hkind with rfl | rfl
          · exact fun h => (Bool.false_ne_true h).elim
          · exact fun h => (Bool.false_ne_true h).elim
        · rcases hkind with rfl | rfl
          · exact fun h => (Bool.false_ne_true h).elim
          · exact fun h => (Bool.false_ne_true h).elim
        · rw [hcookie]
          exact lookupReplay_miss hmiss

theorem reacted_plan (hkind : kind = .begin ∨ kind = .discardInvalidStaging) :
    Reacted s route frame (s.consumePlanAction crypto route frame kind) := by
  unfold consumePlanAction
  dsimp only
  split
  · exact .reply (.refl s)
  next hchecks =>
    simp only [Bool.or_eq_true, not_or, bne_iff_ne, not_not] at hchecks
    have hcookie : frame.sessionCookie = 0 := hchecks.1.1.1.1.2
    have hheld := held_enterPlan s route frame kind (hasFlag frame.flags flagFirstFragment)
    split
    next status t ht =>
      rw [ht] at hheld
      exact .reply hheld
    next t ht =>
      rw [ht] at hheld
      refine .of_held hheld ?_
      unfold acceptPlanFragment
      dsimp only
      split
      · exact .reply ⟨rfl, rfl, rfl, rfl, rfl⟩
      · split
        · split
          · exact .reply ⟨rfl, rfl, rfl, rfl, rfl⟩
          · exact .reply ⟨rfl, rfl, rfl, rfl, rfl⟩
        · refine .of_held ?_ (reacted_finishPlan hkind hcookie)
          exact ⟨rfl, rfl, rfl, rfl, rfl⟩

theorem held_enterUnit (s : SpeakerAssetsSession) (frame : SpeakerAssetsFrame) (region : SpeakerAssetsRegion)
    (unitIndex : UInt16) (unitBase : UInt32) (expectedBytes : ℕ)
    (hasFirst : Bool) : Held s (s.enterUnitAssembly frame region unitIndex unitBase expectedBytes hasFirst).2 := by
  unfold enterUnitAssembly
  dsimp only
  split_ifs <;> exact ⟨rfl, rfl, rfl, rfl, rfl⟩

theorem reacted_finishUnit (hroute : s.route = some route) (hcookie : frame.sessionCookie = s.sessionCookie)
    (hfull : s.blockAssembler.complete = true) (region : SpeakerAssetsRegion) (unitIndex : UInt16) :
    Reacted s route frame (s.finishUnitAssembly crypto route frame region unitIndex) := by
  unfold finishUnitAssembly
  dsimp only
  split
  · exact .reply ⟨rfl, rfl, rfl, rfl, rfl⟩
  · exact .reply ⟨rfl, rfl, rfl, rfl, rfl⟩
  next hmiss =>
    refine .action ⟨rfl, rfl, rfl, rfl, rfl⟩
      ⟨rfl, rfl, ⟨rfl, rfl, rfl, rfl, rfl, fun _ => ⟨hfull, rfl⟩, fun plan h => ?_⟩, rfl, rfl, rfl,
        fun _ => ⟨hroute, hcookie, rfl⟩, ?_⟩
    · cases h
    rw [hcookie]
    exact lookupReplay_miss hmiss

theorem reacted_unit (hdata : DataFrame s route frame) (region : SpeakerAssetsRegion) (unitIndex : UInt16)
    (unitBase : UInt32) (expectedBytes unitOffset : ℕ) :
    Reacted s route frame
      (s.consumeUnitFragment crypto route frame region unitIndex unitBase expectedBytes unitOffset) := by
  unfold consumeUnitFragment
  dsimp only
  split
  · exact .reply (.refl s)
  · have hheld := held_enterUnit s frame region unitIndex unitBase expectedBytes
      (hasFlag frame.flags flagFirstFragment)
    split
    next status t ht =>
      rw [ht] at hheld
      exact .reply hheld
    next t ht =>
      rw [ht] at hheld
      refine .of_held hheld ?_
      unfold acceptUnitFragment
      dsimp only
      split
      · exact .reply ⟨rfl, rfl, rfl, rfl, rfl⟩
      · split
        · split
          · exact .reply ⟨rfl, rfl, rfl, rfl, rfl⟩
          · exact .reply ⟨rfl, rfl, rfl, rfl, rfl⟩
        next hcomplete =>
          simp only [Bool.or_eq_true, Bool.not_eq_true', not_or, Bool.not_eq_false] at hcomplete
          refine .of_held ?_ (reacted_finishUnit ?_ ?_ ?_ _ _)
          · exact ⟨rfl, rfl, rfl, rfl, rfl⟩
          · exact hheld.route.trans hdata.route
          · exact hdata.cookie.trans hheld.cookie.symm
          · exact hcomplete.1.1

/-- The spec of `consume`, with what the executor gets. -/
theorem consume_reacted (s : SpeakerAssetsSession) (crypto : SoundCrypto) (route : SpeakerAssetsRouteToken)
    (frame : SpeakerAssetsFrame) : s.consume crypto route frame = (.invalidArgument, .none, s) ∨
      Reacted s route frame (s.consume crypto route frame).2 ∧
        (s.phase = .actionPending → (s.consume crypto route frame).2.2 = s ∧
          ∃ reply, (s.consume crypto route frame).2.1 = .reply reply) := by
  unfold consume
  split
  · exact Or.inl rfl
  · right
    split
    · exact ⟨.reply (.refl s), fun _ => ⟨rfl, _, rfl⟩⟩
    · split
      · unfold consumeCapabilities
        split <;> exact ⟨.reply (.refl s), fun _ => ⟨rfl, _, rfl⟩⟩
      · split
        · exact ⟨.reply (.refl s), fun _ => ⟨rfl, _, rfl⟩⟩
        next hphase =>
          refine ⟨?_, fun h => absurd h hphase⟩
          dsimp only
          split
          · exact reacted_plan (Or.inl rfl)
          · exact reacted_resume
          · exact consumeData_cases (P := Reacted s route frame) (fun _ _ => .reply (.refl s))
              fun _ _ _ _ _ hdata => reacted_unit hdata _ _ _ _ _
          · exact reacted_bound rfl
          · exact reacted_bound rfl
          · exact reacted_bound rfl
          · exact reacted_plan (Or.inr rfl)
          · exact reacted_currentActive
          · exact .reply (.refl s)
          · exact .reply (.refl s)

/-! ### What completions and closed routes leave -/

/-- A completion that is none of the pending action changes nothing; the right one leaves nothing pending. -/
theorem complete_pending (s : SpeakerAssetsSession) (completion : SpeakerAssetsActionCompletion) :
    (s.complete completion).1 ≠ .ok ∧ (s.complete completion).2 = (.none, s) ∨
      (s.complete completion).1 = .ok ∧ (s.complete completion).2.2.pending = none := by
  rcases complete_spec s completion with ⟨h, -⟩ | ⟨h, -⟩ | ⟨finished, -, -, -, hok, hsettled⟩
  · rw [h]
    exact Or.inl ⟨nofun, rfl⟩
  · rw [h]
    exact Or.inl ⟨nofun, rfl⟩
  · refine Or.inr ⟨hok, ?_⟩
    generalize (s.complete completion).2 = answer at hsettled
    cases hsettled with
    | orphaned _ _ hnone _ => exact hnone
    | reply _ _ _ hnone _ => exact hnone

/-- The pending action may be orphaned; its views stay. -/
structure Loaned (s t : SpeakerAssetsSession) : Prop where
  pending : ∃ next : PendingAction → PendingAction, t.pending = s.pending.map next ∧
    ∀ p, ∃ orphaned : Bool, next p = { p with orphaned := orphaned }
  block : ∀ p, s.pending = some p → p.kind.isWrite = true → t.blockAssembler = s.blockAssembler
  plan : t.decodedPlan = s.decodedPlan

theorem loaned_routeClosed (h : Coherent s) (route : SpeakerAssetsRouteToken) : Loaned s (s.routeClosed route) := by
  refine ⟨⟨orphan route, routeClosed_pending s route, fun p => ?_⟩, fun p hp hwrite => ?_, ?_⟩
  · unfold orphan
    split
    · exact ⟨true, rfl⟩
    · exact ⟨p.orphaned, rfl⟩
  · have hreplay : (s.clearReplayForRoute route).pending = some p := hp
    unfold routeClosed
    dsimp only
    rw [hreplay]
    dsimp only
    by_cases hmine : p.route = route
    · rw [if_pos hmine]
      simp only [hwrite, ↓reduceIte]
      rfl
    · rw [if_neg hmine]
      split
      next howned => exact absurd howned (h.elsewhere hp hmine)
      next => rfl
  · unfold routeClosed
    dsimp only
    split
    · split
      · split <;> rfl
      · split <;> rfl
    · split <;> rfl

theorem loaned_allRoutesClosed (s : SpeakerAssetsSession) : Loaned s s.allRoutesClosed := by
  refine ⟨⟨_, allRoutesClosed_pending s, fun p => ⟨true, rfl⟩⟩, fun p hp hwrite => ?_, ?_⟩
  · unfold allRoutesClosed
    dsimp only
    rw [hp]
    dsimp only
    rw [if_pos hwrite]
    rfl
  · unfold allRoutesClosed
    dsimp only
    split
    · split <;> rfl
    · rfl

theorem loaned_expirePartial (h : Coherent s) (route : SpeakerAssetsRouteToken) :
    Loaned s (s.expirePartial route).2 := by
  refine ⟨⟨id, ?_, fun p => ⟨p.orphaned, rfl⟩⟩, fun p hp _ => ?_, ?_⟩
  · rw [Option.map_id, (kept_expirePartial route).pending]
    rfl
  · have hphase := h.pendingPhase hp
    unfold expirePartial
    rw [if_neg (by simp [hphase]), if_neg (by simp [hphase])]
  · unfold expirePartial
    split_ifs <;> rfl

end SpeakerAssetsSession

/-! ### Runs -/

/-- The calls of the session's owner. -/
inductive SessionCall
  | consume (route : SpeakerAssetsRouteToken) (frame : SpeakerAssetsFrame)
  | complete (completion : SpeakerAssetsActionCompletion)
  | routeClosed (route : SpeakerAssetsRouteToken)
  | allRoutesClosed
  | expirePartial (route : SpeakerAssetsRouteToken)
deriving DecidableEq

/-- The session, and the action that the executor has in hand. -/
structure Lending where
  session : SpeakerAssetsSession
  inHand : Option SpeakerAssetsActionView := none
deriving DecidableEq

namespace Lending

open SpeakerAssetsSession

def call (crypto : SoundCrypto) (w : Lending) : SessionCall → Lending
  | .consume route frame =>
    { session := (w.session.consume crypto route frame).2.2
      inHand :=
        match (w.session.consume crypto route frame).2.1 with
        | .action action => some action
        | .none | .reply _ => w.inHand }
  | .complete completion =>
    { session := (w.session.complete completion).2.2
      inHand := if (w.session.complete completion).1 = .ok then none else w.inHand }
  | .routeClosed route => { w with session := w.session.routeClosed route }
  | .allRoutesClosed => { w with session := w.session.allRoutesClosed }
  | .expirePartial route => { w with session := (w.session.expirePartial route).2 }

/-- Any calls from a new session. -/
inductive Reachable (crypto : SoundCrypto) : Lending → Prop
  | init (cookieSeed actionTokenSeed : UInt32) :
    Reachable crypto { session := SpeakerAssetsSession.init cookieSeed actionTokenSeed }
  | call {w : Lending} : Reachable crypto w → ∀ c, Reachable crypto (w.call crypto c)

/-- The executor has the pending action in hand, if there is one. -/
structure Lends (w : Lending) : Prop where
  coherent : Coherent w.session
  free : w.session.pending = none → w.inHand = none
  out : ∀ p, w.session.pending = some p → ∃ action, w.inHand = some action ∧ Borrowed w.session p action

variable {crypto : SoundCrypto} {w : Lending}

theorem Lends.loaned (h : Lends w) {t : SpeakerAssetsSession} (hcoherent : Coherent t) (hloaned : Loaned w.session t) :
    Lends { w with session := t } := by
  obtain ⟨next, hpending, hnext⟩ := hloaned.pending
  refine ⟨hcoherent, fun hnone => ?_, fun q hq => ?_⟩
  · have hnone : t.pending = none := hnone
    rw [hpending, Option.map_eq_none_iff] at hnone
    exact h.free hnone
  · have hq : t.pending = some q := hq
    rw [hpending, Option.map_eq_some_iff] at hq
    obtain ⟨p, hp, rfl⟩ := hq
    obtain ⟨action, haction, hborrowed⟩ := h.out p hp
    obtain ⟨orphaned, horphaned⟩ := hnext p
    refine ⟨action, haction, ?_⟩
    rw [horphaned]
    refine { hborrowed with bytes := fun hwrite => ?_, plan := fun plan hplan => ?_ }
    · have hblock := hloaned.block p hp (hborrowed.kind ▸ hwrite)
      rw [hblock]
      exact hborrowed.bytes hwrite
    · rw [hloaned.plan]
      exact hborrowed.plan plan hplan

theorem lends_call (h : Lends w) (c : SessionCall) : Lends (w.call crypto c) := by
  cases c with
  | consume route frame =>
    have hcoherent := coherent_consume h.coherent crypto route frame
    rcases consume_reacted w.session crypto route frame with hrefused | ⟨hreacted, hbusy⟩
    · simp only [call, hrefused]
      exact h
    · simp only [call]
      by_cases hphase : w.session.phase = .actionPending
      · obtain ⟨hsame, reply, hreply⟩ := hbusy hphase
        rw [hsame, hreply]
        exact h
      · have hquiet := h.coherent.quiet hphase
        have hspec := (consume_spec w.session crypto route frame).resolve_left fun hrefused => by
          rw [hrefused] at hreacted
          cases hreacted
        generalize (w.session.consume crypto route frame).2 = answer at hreacted hspec hcoherent
        cases hreacted with
        | reply hheld =>
          cases hspec.2 with
          | reply hkept => exact ⟨hcoherent, fun _ => h.free hquiet, fun p hp => by
              rw [hkept.pending, hquiet] at hp
              cases hp⟩
        | action hheld hbegun =>
          refine ⟨hcoherent, fun hnone => ?_, fun p hp => ?_⟩
          · have hnone := hbegun.pending.symm.trans hnone
            cases hnone
          · cases hbegun.pending.symm.trans hp
            exact ⟨_, rfl, hbegun.borrowed⟩
  | complete completion =>
    have hcoherent := coherent_complete h.coherent completion
    simp only [call]
    rcases complete_pending w.session completion with ⟨hrefused, hsame⟩ | ⟨hok, hnone⟩
    · rw [if_neg hrefused, hsame]
      exact h
    · rw [if_pos hok]
      exact ⟨hcoherent, fun _ => rfl, fun p hp => by rw [hnone] at hp; cases hp⟩
  | routeClosed route => exact h.loaned (coherent_routeClosed h.coherent route) (loaned_routeClosed h.coherent route)
  | allRoutesClosed => exact h.loaned (coherent_allRoutesClosed h.coherent) (loaned_allRoutesClosed w.session)
  | expirePartial route =>
    exact h.loaned (coherent_expirePartial h.coherent route) (loaned_expirePartial h.coherent route)

theorem Reachable.lends (h : Reachable crypto w) : Lends w := by
  induction h with
  | init cookieSeed actionTokenSeed => exact ⟨coherent_init _ _, fun _ => rfl, fun p hp => by cases hp⟩
  | call _ c ih => exact lends_call ih c

/-- In every state of every run: an action is in the executor's hand while one is pending, its views show what
    the session holds, no request changes the session or begins another action, and only its own completion
    settles it. -/
theorem one_action_out (h : Reachable crypto w) :
    (w.session.phase = .actionPending ↔ w.inHand.isSome = true) ∧
      (w.inHand = none → ∀ completion, w.session.complete completion = (.noPendingAction, .none, w.session)) ∧
      ∀ action, w.inHand = some action →
        (action.kind.isWrite = true → w.session.blockAssembler.complete = true ∧
          w.session.blockAssembler.buffer.bytes = action.bytes) ∧
        (∀ plan, action.plan = some plan → w.session.decodedPlan = plan) ∧
        (∀ route frame, (w.session.consume crypto route frame).2.2 = w.session ∧
          ∀ other, (w.session.consume crypto route frame).2.1 ≠ .action other) ∧
        (∀ completion, completion.token ≠ action.token ∨ completion.kind ≠ action.kind →
          w.session.complete completion = (.staleCompletion, .none, w.session)) ∧
        ∀ completion, completion.token = action.token → completion.kind = action.kind →
          (w.call crypto (.complete completion)).inHand = none := by
  obtain ⟨hcoherent, hfree, hout⟩ := h.lends
  have hsome : w.inHand.isSome = true → w.session.pending.isSome = true := by
    intro hinHand
    rw [Option.isSome_iff_ne_none] at hinHand ⊢
    exact fun hnone => hinHand (hfree hnone)
  refine ⟨⟨fun hphase => ?_, fun hinHand => hcoherent.pending.2 (hsome hinHand)⟩, fun hnone completion => ?_,
    fun action haction => ?_⟩
  · obtain ⟨p, hp⟩ := Option.isSome_iff_exists.1 (hcoherent.pending.1 hphase)
    obtain ⟨action, haction, -⟩ := hout p hp
    rw [haction]
    rfl
  · have hquiet : w.session.pending = none := by
      cases hp : w.session.pending with
      | none => rfl
      | some p =>
        obtain ⟨action, haction, -⟩ := hout p hp
        rw [hnone] at haction
        cases haction
    rw [complete, hquiet]
  · obtain ⟨p, hp⟩ := Option.isSome_iff_exists.1 (hsome (by rw [haction]; rfl))
    obtain ⟨same, hsame, hborrowed⟩ := hout p hp
    cases haction.symm.trans hsame
    refine ⟨hborrowed.bytes, hborrowed.plan, fun route frame => ?_, fun completion hother => ?_,
      fun completion htoken hkind => ?_⟩
    · rcases consume_reacted w.session crypto route frame with hrefused | ⟨-, hbusy⟩
      · rw [hrefused]
        refine ⟨rfl, fun other h => ?_⟩
        cases h
      · obtain ⟨hunchanged, reply, hreply⟩ := hbusy (hcoherent.pendingPhase hp)
        rw [hreply]
        refine ⟨hunchanged, fun other h => ?_⟩
        cases h
    · rw [hborrowed.token, hborrowed.kind] at hother
      rw [complete, hp]
      exact if_pos hother
    · rcases complete_spec w.session completion with ⟨-, hnone⟩ | ⟨hstale, -⟩ | ⟨_, -, -, -, hok, -⟩
      · rw [hp] at hnone
        cases hnone
      · rw [complete, hp] at hstale
        dsimp only at hstale
        rw [if_neg (by rw [← hborrowed.token, ← hborrowed.kind]; simp [htoken, hkind])] at hstale
        split_ifs at hstale <;> cases hstale
      · exact if_pos hok

/-- A query of the active bank is out: a commit cannot be completed in its place. -/
theorem one_action_out_query : ∃ w : Lending, w.inHand.isSome = true ∧
    w.session.complete { token := 1, kind := .commit } = (.staleCompletion, .none, w.session) := by
  have hout := one_action_out (.call (.init 1 1) (.consume { generation := 1 }
    { opcode := 9, flags := singleFrameRequestFlags, requestId := 1 }) : Reachable ⟨fun _ => 0, fun _ => zeroDigest⟩ _)
  exact ⟨_, rfl, (hout.2.2 _ rfl).2.2.2.1 _ (Or.inr (by decide))⟩

end Lending

end CodexKeyboard.SoundSync
