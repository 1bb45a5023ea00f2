import CodexKeyboard.SoundSync.SessionFacts

/-! What belongs together in a sound session: its phase, the route that owns it, the transaction, the assembly under
    way and the action that is out. Every call keeps it, with any arguments and in any order. -/

namespace CodexKeyboard.SoundSync

open Schemes.Bytes

/-- The action works on the bound transaction; a query does if it came with the cookie. -/
def PendingAction.onBound (p : PendingAction) : Bool :=
  p.kind.isWrite || p.kind == .commit || p.kind == .abort || (p.kind == .resumeQuery && p.requestCookie != 0)

namespace SpeakerAssetsSession

variable {s t : SpeakerAssetsSession} {route : SpeakerAssetsRouteToken} {frame : SpeakerAssetsFrame}
  {crypto : SoundCrypto} {kind : SpeakerAssetsActionKind}

/-! ### What belongs together in a session -/

/-- The pending action's route is the bound one, or none is bound. -/
def Placed (s : SpeakerAssetsSession) (p : PendingAction) : Prop :=
  if p.orphaned = false ∧ p.onBound = true then s.route = some p.route ∧ p.requestCookie = s.sessionCookie
  else s.route = none

structure Coherent (s : SpeakerAssetsSession) : Prop where
  pending : s.phase = .actionPending ↔ s.pending.isSome = true
  idle : s.phase = .idle → s.route = none
  bound : s.phase = .ready ∨ s.phase = .unitAssembly → s.route.isSome = true
  progress : s.progress.isSome = s.route.isSome
  cookie : s.route.isSome = true → s.sessionCookie ≠ 0
  unowned : s.phase ≠ .beginAssembly → s.planAssembler.bound = none
  fresh : s.phase = .beginAssembly → s.beginReplayFromReady = false → s.route = none
  rebound : s.phase = .beginAssembly → s.beginReplayFromReady = true → s.planAssembler.bound.map Prod.fst = s.route
  placed : ∀ p, s.pending = some p → Placed s p

theorem coherent_init (cookieSeed actionTokenSeed : UInt32) : Coherent (init cookieSeed actionTokenSeed) where
  pending := by simp [init]
  idle _ := rfl
  bound h := by simp [init] at h
  progress := rfl
  cookie h := by simp [init] at h
  unowned _ := rfl
  fresh _ _ := rfl
  rebound h := by simp [init] at h
  placed p hp := by simp [init] at hp

theorem Coherent.quiet (h : Coherent s) (hphase : s.phase ≠ .actionPending) : s.pending = none := by
  rw [← Option.not_isSome_iff_eq_none, ← h.pending]
  exact hphase

/-- Nothing is pending in the next state, and what is bound stays so. -/
theorem Coherent.settle (h : Coherent s) (hroute : t.route = s.route)
    (hprogress : t.progress.isSome = s.progress.isSome)
    (hcookie : t.sessionCookie = s.sessionCookie) (hpending : t.pending = none)
    (hphase : t.phase = if s.route.isSome then .ready else .idle)
    (hbound : t.planAssembler.bound = none) : Coherent t where
  pending := by
    rw [hphase, hpending]
    split <;> simp
  idle hidle := by
    rw [hphase] at hidle
    rw [hroute]
    split at hidle
    next => cases hidle
    next hnone => simpa using hnone
  bound hready := by
    rw [hphase] at hready
    rw [hroute]
    split at hready
    next hsome => exact hsome
    next => simp at hready
  progress := by rw [hprogress, hroute, h.progress]
  cookie := by
    rw [hroute, hcookie]
    exact h.cookie
  unowned _ := hbound
  fresh hbegin := by
    rw [hphase] at hbegin
    split at hbegin <;> cases hbegin
  rebound hbegin := by
    rw [hphase] at hbegin
    split at hbegin <;> cases hbegin
  placed p hp := by
    rw [hpending] at hp
    cases hp

/-- The session is free. -/
theorem coherent_free (hphase : s.phase = .idle) (hroute : s.route = none) (hprogress : s.progress = none)
    (hbound : s.planAssembler.bound = none) (hpending : s.pending = none) : Coherent s where
  pending := by simp [hphase, hpending]
  idle _ := hroute
  bound h := by simp [hphase] at h
  progress := by rw [hprogress, hroute]; rfl
  cookie h := by simp [hroute] at h
  unowned _ := hbound
  fresh h := by simp [hphase] at h
  rebound h := by simp [hphase] at h
  placed p hp := by simp [hpending] at hp

theorem Coherent.restore (h : Coherent s) (hphase : s.phase = .beginAssembly) :
    Coherent s.restoreAfterBeginAssembly := by
  refine h.settle rfl rfl rfl (h.quiet (by simp [hphase])) ?_ rfl
  rw [restoreAfterBeginAssembly]
  cases hready : s.beginReplayFromReady with
  | false => simp [h.fresh hphase hready]
  | true => simp

/-- An action begins. -/
theorem Coherent.action (h : Coherent s) {region : SpeakerAssetsRegion} {unitIndex : UInt16}
    {fingerprint : SoundSha256Digest} {identity : SoundUpdateIdentity}
    (hplan : t.planAssembler.bound = none)
    (ht : t.phase = .actionPending ∧ t.route = s.route ∧ t.progress = s.progress ∧ t.sessionCookie = s.sessionCookie ∧
      t.pending = (s.beginPendingAction kind route frame region unitIndex fingerprint identity).2.pending)
    (hplaced : ∀ p, t.pending = some p → Placed t p) : Coherent t := by
  obtain ⟨hphase, hroute, hprogress, hcookie, hpending⟩ := ht
  exact
    { pending := by rw [hphase, hpending]; simp [beginPendingAction]
      idle := fun hidle => by rw [hphase] at hidle; cases hidle
      bound := fun hready => by rw [hphase] at hready; simp at hready
      progress := by rw [hprogress, hroute, h.progress]
      cookie := by
        rw [hroute, hcookie]
        exact h.cookie
      unowned := fun _ => hplan
      fresh := fun hbegin => by rw [hphase] at hbegin; cases hbegin
      rebound := fun hbegin => by rw [hphase] at hbegin; cases hbegin
      placed := hplaced }

/-! ### Requests -/

/-- Only what the phase keeps to itself differs. -/
theorem Coherent.same (h : Coherent s) (hphase : t.phase = s.phase) (hroute : t.route = s.route)
    (hprogress : t.progress = s.progress) (hcookie : t.sessionCookie = s.sessionCookie)
    (hpending : t.pending = s.pending)
    (hbound : t.planAssembler.bound = s.planAssembler.bound)
    (hready : t.beginReplayFromReady = s.beginReplayFromReady) :
    Coherent t where
  pending := by rw [hphase, hpending]; exact h.pending
  idle := by rw [hphase, hroute]; exact h.idle
  bound := by rw [hphase, hroute]; exact h.bound
  progress := by rw [hprogress, hroute]; exact h.progress
  cookie := by rw [hroute, hcookie]; exact h.cookie
  unowned := by rw [hphase, hbound]; exact h.unowned
  fresh := by rw [hphase, hready, hroute]; exact h.fresh
  rebound := by rw [hphase, hready, hbound, hroute]; exact h.rebound
  placed := by
    rw [hpending]
    intro p hp
    have hplaced := h.placed p hp
    rw [Placed] at hplaced ⊢
    rwa [hroute, hcookie]

theorem coherent_currentActive (h : Coherent s) : Coherent (s.consumeCurrentActive crypto route frame).2 := by
  unfold consumeCurrentActive
  split
  · exact h
  · dsimp only
    split
    · exact h
    · exact h
    · split
      · exact h
      next hfree =>
        push Not at hfree
        refine h.action (h.unowned (by simp [hfree.1])) ⟨rfl, rfl, rfl, rfl, rfl⟩ fun p hp => ?_
        cases hp
        simp only [Placed, PendingAction.onBound, beginPendingAction, SpeakerAssetsActionKind.isWrite]
        exact h.idle hfree.1

theorem coherent_resume (h : Coherent s) : Coherent (s.consumeResume crypto route frame).2 := by
  unfold consumeResume
  split
  · exact h
  next hflags =>
    split
    · exact h
    · dsimp only
      split
      · exact h
      · exact h
      · split
        · exact h
        next hidle =>
          rw [not_not] at hidle
          push Not at hflags
          refine h.action (h.unowned (by simp [hidle])) ⟨rfl, rfl, rfl, rfl, rfl⟩ fun p hp => ?_
          cases hp
          simp only [Placed, PendingAction.onBound, beginPendingAction, SpeakerAssetsActionKind.isWrite, hflags.2.1]
          exact h.idle hidle

/-- The kinds that `consume_query` and `consume_terminal_action` ask for. -/
def boundKind (kind : SpeakerAssetsActionKind) : Bool := kind == .resumeQuery || kind == .commit || kind == .abort

theorem coherent_bound (h : Coherent s) (hkind : boundKind kind = true) :
    Coherent (s.consumeBound crypto route frame kind).2 := by
  unfold consumeBound
  split
  · exact h
  · dsimp only
    split
    · exact h
    · exact h
    · split
      · exact h
      next hready =>
        push Not at hready
        obtain ⟨hphase, hroute, hcookie⟩ := hready
        refine h.action (h.unowned (by simp [hphase])) ⟨rfl, rfl, rfl, rfl, rfl⟩ fun p hp => ?_
        cases hp
        have hset : s.sessionCookie ≠ 0 := h.cookie (by simp [hroute])
        have hon : (kind.isWrite || kind == .commit || kind == .abort ||
            (kind == .resumeQuery && frame.sessionCookie != 0)) = true := by
          rw [hcookie, bne_iff_ne.2 hset]
          revert hkind
          cases kind <;> decide
        simp only [Placed, PendingAction.onBound, beginPendingAction, hon]
        exact ⟨hroute, hcookie⟩

/-! ### Plans -/

/-- The assembler takes the request, or is as it was. -/
theorem begin_spec (assembler : SpeakerAssetsPlanAssembler) (owner : SpeakerAssetsRouteToken) (beginId : UInt32) :
    (assembler.begin owner beginId).2.bound =
      if (assembler.begin owner beginId).1 = .ok then some (owner, beginId) else assembler.bound := by
  unfold SpeakerAssetsPlanAssembler.begin
  split
  · rfl
  · split
    next key hkey =>
      by_cases hsame : key = (owner, beginId)
      · simp [hsame, hkey]
      · simp [hsame]
    next => rfl

theorem acceptFragment_bound (assembler : SpeakerAssetsPlanAssembler) (owner : SpeakerAssetsRouteToken)
    (beginId : UInt32) (offset : ℕ) (data : List UInt8) :
    (assembler.acceptFragment owner beginId offset data).2.bound = assembler.bound := by
  unfold SpeakerAssetsPlanAssembler.acceptFragment
  split <;> rfl

/-- The assembly of a plan is entered from a free session, or from the bound one of the same route. -/
theorem coherent_enterPlan (h : Coherent s) (route : SpeakerAssetsRouteToken) (frame : SpeakerAssetsFrame)
    (kind : SpeakerAssetsActionKind) (hasFirst : Bool) :
    Coherent (s.enterPlanAssembly route frame kind hasFirst).2 ∧
      ((s.enterPlanAssembly route frame kind hasFirst).1 = none →
        (s.enterPlanAssembly route frame kind hasFirst).2.phase = .beginAssembly) := by
  unfold enterPlanAssembly
  dsimp only
  split
  next hidle =>
    have hnone := h.quiet (by simp [hidle])
    split_ifs with hfirst hrefused
    · exact ⟨h, nofun⟩
    · refine ⟨h.same rfl rfl rfl rfl rfl ?_ rfl, nofun⟩
      rw [begin_spec, if_neg hrefused]
    · refine ⟨?_, fun _ => rfl⟩
      exact
        { pending := by simp [hnone]
          idle := fun hphase => by cases hphase
          bound := fun hphase => by simp at hphase
          progress := h.progress
          cookie := h.cookie
          unowned := fun hphase => absurd rfl hphase
          fresh := fun _ _ => h.idle hidle
          rebound := fun _ hready => by cases hready
          placed := fun p hp => by simp [hnone] at hp }
  next hready =>
    have hnone := h.quiet (by simp [hready])
    have hunowned := h.unowned (by simp [hready])
    split_ifs with hkind hroute hrefused
    · exact ⟨h, nofun⟩
    · exact ⟨h, nofun⟩
    · refine ⟨h.same rfl rfl rfl rfl rfl ?_ rfl, nofun⟩
      rw [begin_spec, if_neg hrefused, hunowned]
    · push Not at hroute
      refine ⟨?_, fun _ => rfl⟩
      exact
        { pending := by simp [hnone]
          idle := fun hphase => by cases hphase
          bound := fun hphase => by simp at hphase
          progress := h.progress
          cookie := h.cookie
          unowned := fun hphase => absurd rfl hphase
          fresh := fun _ hfalse => by cases hfalse
          rebound := fun _ _ => by
            rw [begin_spec, if_pos (not_not.1 hrefused), hroute.1]
            rfl
          placed := fun p hp => by simp [hnone] at hp }
  next hphase =>
    split_ifs
    · exact ⟨h, nofun⟩
    · exact ⟨h, fun _ => hphase⟩
  · exact ⟨h, nofun⟩
  · exact ⟨h, nofun⟩

theorem coherent_finishPlan (h : Coherent s) (hphase : s.phase = .beginAssembly)
    (hkind : kind = .begin ∨ kind = .discardInvalidStaging) :
    Coherent (s.finishPlanAssembly crypto route frame kind).2 := by
  have hplan (plan : SoundBundlePlan) : Coherent { s with decodedPlan := plan } := h.same rfl rfl rfl rfl rfl rfl rfl
  unfold finishPlanAssembly
  dsimp only
  split
  · exact h.restore hphase
  · split
    · exact (hplan _).restore hphase
    · exact (hplan _).restore hphase
    · split
      · exact (hplan _).restore hphase
      next hready =>
        refine h.action rfl ⟨rfl, rfl, rfl, rfl, rfl⟩ fun p hp => ?_
        cases hp
        have hfree : s.route = none := h.fresh hphase (by simpa using hready)
        rcases hkind with rfl | rfl
        · simp only [Placed, PendingAction.onBound, beginPendingAction, SpeakerAssetsActionKind.isWrite]
          exact hfree
        · simp only [Placed, PendingAction.onBound, beginPendingAction, SpeakerAssetsActionKind.isWrite]
          exact hfree

theorem coherent_acceptPlan (h : Coherent s) (hphase : s.phase = .beginAssembly)
    (hkind : kind = .begin ∨ kind = .discardInvalidStaging) (hasFirst hasLast : Bool) :
    Coherent (s.acceptPlanFragment crypto route frame kind hasFirst hasLast).2 := by
  have hbound := acceptFragment_bound s.planAssembler route frame.requestId frame.objectOffset.toNat frame.body
  unfold acceptPlanFragment
  dsimp only
  split
  · exact h.same rfl rfl rfl rfl rfl hbound rfl
  · split
    · split
      · exact h.same rfl rfl rfl rfl rfl hbound rfl
      · exact h.same rfl rfl rfl rfl rfl hbound rfl
    · exact coherent_finishPlan (h.same rfl rfl rfl rfl rfl hbound rfl) hphase hkind

theorem coherent_plan (h : Coherent s) (hkind : kind = .begin ∨ kind = .discardInvalidStaging) :
    Coherent (s.consumePlanAction crypto route frame kind).2 := by
  unfold consumePlanAction
  dsimp only
  split
  · exact h
  · have hentered := coherent_enterPlan h route frame kind (hasFlag frame.flags flagFirstFragment)
    split
    next status u hu =>
      rw [hu] at hentered
      exact hentered.1
    next u hu =>
      rw [hu] at hentered
      exact coherent_acceptPlan hentered.1 (hentered.2 rfl) hkind _ _

/-! ### Units -/

theorem coherent_enterUnit (h : Coherent s) (hphase : s.phase = .ready ∨ s.phase = .unitAssembly)
    (frame : SpeakerAssetsFrame) (region : SpeakerAssetsRegion) (unitIndex : UInt16) (unitBase : UInt32)
    (expectedBytes : ℕ) (hasFirst : Bool) :
    Coherent (s.enterUnitAssembly frame region unitIndex unitBase expectedBytes hasFirst).2 ∧
      ((s.enterUnitAssembly frame region unitIndex unitBase expectedBytes hasFirst).1 = none →
        (s.enterUnitAssembly frame region unitIndex unitBase expectedBytes hasFirst).2.phase = .unitAssembly) := by
  have hnone := h.quiet (by rcases hphase with h | h <;> simp [h])
  have hunowned := h.unowned (by rcases hphase with h | h <;> simp [h])
  unfold enterUnitAssembly
  dsimp only
  split_ifs with hready hfirst hrefused hother
  · exact ⟨h, nofun⟩
  · exact ⟨h.same rfl rfl rfl rfl rfl rfl rfl, nofun⟩
  · refine ⟨?_, fun _ => rfl⟩
    exact
      { pending := by simp [hnone]
        idle := fun hidle => by cases hidle
        bound := fun _ => h.bound hphase
        progress := h.progress
        cookie := h.cookie
        unowned := fun _ => hunowned
        fresh := fun hbegin => by cases hbegin
        rebound := fun hbegin => by cases hbegin
        placed := fun p hp => by simp [hnone] at hp }
  · exact ⟨h, nofun⟩
  · exact ⟨h, fun _ => hphase.resolve_left hready⟩

theorem coherent_finishUnit (h : Coherent s) (hphase : s.phase = .unitAssembly) (hroute : s.route = some route)
    (hcookie : frame.sessionCookie = s.sessionCookie) (region : SpeakerAssetsRegion) (unitIndex : UInt16) :
    Coherent (s.finishUnitAssembly crypto route frame region unitIndex).2 := by
  have hnone := h.quiet (by simp [hphase])
  have hunowned := h.unowned (by simp [hphase])
  have hready : Coherent { s with blockAssembler := none, phase := .ready } :=
    h.settle rfl rfl rfl hnone (by simp [hroute]) hunowned
  unfold finishUnitAssembly
  dsimp only
  split
  · exact hready
  · exact hready
  · refine h.action hunowned ⟨rfl, rfl, rfl, rfl, rfl⟩ fun p hp => ?_
    cases hp
    cases region
    · simp only [Placed, PendingAction.onBound, beginPendingAction]
      exact ⟨hroute, hcookie⟩
    · simp only [Placed, PendingAction.onBound, beginPendingAction]
      exact ⟨hroute, hcookie⟩

theorem coherent_acceptUnit (h : Coherent s) (hphase : s.phase = .unitAssembly) (hroute : s.route = some route)
    (hcookie : frame.sessionCookie = s.sessionCookie) (region : SpeakerAssetsRegion)
    (unitIndex : UInt16) (unitOffset : ℕ)
    (hasFirst hasLast : Bool) :
    Coherent (s.acceptUnitFragment crypto route frame region unitIndex unitOffset hasFirst hasLast).2 := by
  unfold acceptUnitFragment
  dsimp only
  split
  · exact h.same rfl rfl rfl rfl rfl rfl rfl
  · split
    · split
      · exact h.same rfl rfl rfl rfl rfl rfl rfl
      · exact h.same rfl rfl rfl rfl rfl rfl rfl
    · refine coherent_finishUnit ?_ ?_ ?_ ?_ _ _
      · exact h.same rfl rfl rfl rfl rfl rfl rfl
      · exact hphase
      · exact hroute
      · exact hcookie

theorem enterUnit_bound (s : SpeakerAssetsSession) (frame : SpeakerAssetsFrame) (region : SpeakerAssetsRegion)
    (unitIndex : UInt16) (unitBase : UInt32) (expectedBytes : ℕ) (hasFirst : Bool) :
    (s.enterUnitAssembly frame region unitIndex unitBase expectedBytes hasFirst).2.route = s.route ∧
      (s.enterUnitAssembly frame region unitIndex unitBase expectedBytes hasFirst).2.sessionCookie =
        s.sessionCookie := by
  unfold enterUnitAssembly
  dsimp only
  split_ifs <;> exact ⟨rfl, rfl⟩

theorem coherent_unit (h : Coherent s) (hphase : s.phase = .ready ∨ s.phase = .unitAssembly)
    (hroute : s.route = some route)
    (hcookie : frame.sessionCookie = s.sessionCookie) (region : SpeakerAssetsRegion) (unitIndex : UInt16)
    (unitBase : UInt32) (expectedBytes unitOffset : ℕ) :
    Coherent (s.consumeUnitFragment crypto route frame region unitIndex unitBase expectedBytes unitOffset).2 := by
  unfold consumeUnitFragment
  dsimp only
  split
  · exact h
  · have hentered := coherent_enterUnit h hphase frame region unitIndex unitBase expectedBytes
      (hasFlag frame.flags flagFirstFragment)
    have hbound := enterUnit_bound s frame region unitIndex unitBase expectedBytes
      (hasFlag frame.flags flagFirstFragment)
    split
    next status u hu =>
      rw [hu] at hentered
      exact hentered.1
    next u hu =>
      rw [hu] at hentered hbound
      exact coherent_acceptUnit hentered.1 (hentered.2 rfl) (hbound.1.trans hroute)
        (hcookie.trans hbound.2.symm) _ _ _ _ _

/-- A data frame that gets past the checks. -/
structure DataFrame (s : SpeakerAssetsSession) (route : SpeakerAssetsRouteToken) (frame : SpeakerAssetsFrame) :
    Prop where
  route : s.route = some route
  cookie : frame.sessionCookie = s.sessionCookie
  phase : s.phase = .ready ∨ s.phase = .unitAssembly

theorem consumeData_cases {P : SpeakerAssetsEmission × SpeakerAssetsSession → Prop}
    (hrefuse : ∀ status cookie, P (s.refuse frame status cookie))
    (hunit : ∀ region unitIndex unitBase expectedBytes unitOffset, DataFrame s route frame →
      P (s.consumeUnitFragment crypto route frame region unitIndex unitBase expectedBytes unitOffset)) :
    P (s.consumeData crypto route frame) := by
  unfold consumeData
  dsimp only
  split
  · exact hrefuse _ _
  · split
    · exact hrefuse _ _
    next hchecks =>
      simp only [Bool.or_eq_true, Bool.not_eq_true', not_or, Bool.not_eq_false, Bool.and_eq_true, decide_eq_true_eq,
        beq_iff_eq] at hchecks
      have hdata : DataFrame s route frame := ⟨hchecks.1.2.1, hchecks.1.2.2, hchecks.2⟩
      split
      · split
        · exact hrefuse _ _
        · exact hunit _ _ _ _ _ hdata
      · split
        · exact hrefuse _ _
        · exact hunit _ _ _ _ _ hdata

theorem coherent_data (h : Coherent s) : Coherent (s.consumeData crypto route frame).2 :=
  consumeData_cases (P := fun r => Coherent r.2) (fun _ _ => h)
    fun _ _ _ _ _ hdata => coherent_unit h hdata.phase hdata.route hdata.cookie _ _ _ _ _

theorem coherent_consume (h : Coherent s) (crypto : SoundCrypto) (route : SpeakerAssetsRouteToken)
    (frame : SpeakerAssetsFrame) : Coherent (s.consume crypto route frame).2.2 := by
  unfold consume
  split
  · exact h
  · split
    · exact h
    · split
      · unfold consumeCapabilities
        split <;> exact h
      · split
        · exact h
        · dsimp only
          split
          · exact coherent_plan h (Or.inl rfl)
          · exact coherent_resume h
          · exact coherent_data h
          · exact coherent_bound h rfl
          · exact coherent_bound h rfl
          · exact coherent_bound h rfl
          · exact coherent_plan h (Or.inr rfl)
          · exact coherent_currentActive h
          · exact h
          · exact h

/-! ### Completions -/

theorem nextNonZero_ne (value : UInt32) : (nextNonZero value).1 ≠ 0 := by
  rw [nextNonZero]
  split
  next => decide
  next h => exact h

variable {finished : PendingAction} {completion : SpeakerAssetsActionCompletion}

theorem Coherent.pendingPhase (h : Coherent s) (hp : s.pending = some finished) : s.phase = .actionPending :=
  h.pending.2 (by rw [hp]; rfl)

/-- The session is ready again for the transaction the action worked on. -/
theorem Coherent.ready (h : Coherent s) (hp : s.pending = some finished) (horphaned : finished.orphaned = false)
    (hon : finished.onBound = true) (hroute : t.route = s.route) (hprogress : t.progress.isSome = s.progress.isSome)
    (hcookie : t.sessionCookie = s.sessionCookie) (hpending : t.pending = none) (hphase : t.phase = .ready)
    (hbound : t.planAssembler.bound = s.planAssembler.bound) : Coherent t := by
  have hplaced := h.placed finished hp
  rw [Placed, if_pos ⟨horphaned, hon⟩] at hplaced
  refine h.settle hroute hprogress hcookie hpending ?_ ?_
  · rw [hphase, hplaced.1]
    rfl
  · rw [hbound]
    exact h.unowned (by simp [h.pendingPhase hp])

theorem coherent_failed (h : Coherent s) (hp : s.pending = some finished) (horphaned : finished.orphaned = false)
    (result : SoundStoreResult) : Coherent (s.completeFailed finished result).2 := by
  have hunowned := h.unowned (by simp [h.pendingPhase hp])
  have hready {t : SpeakerAssetsSession} (hon : finished.onBound = true) := h.ready (t := t) hp horphaned hon
  unfold completeFailed
  cases hkind : finished.kind with
  | begin => exact coherent_free rfl rfl rfl hunowned rfl
  | discardInvalidStaging => exact coherent_free rfl rfl rfl hunowned rfl
  | queryCurrentActive => exact coherent_free rfl rfl rfl hunowned rfl
  | resumeQuery =>
    dsimp only
    split
    next hcookie => exact hready (by simp [PendingAction.onBound, hkind, hcookie]) rfl rfl rfl rfl rfl rfl
    next => exact coherent_free rfl rfl rfl hunowned rfl
  | writeManifest =>
    exact hready (by simp [PendingAction.onBound, hkind, SpeakerAssetsActionKind.isWrite]) rfl rfl rfl rfl rfl rfl
  | writePayloadBlock =>
    exact hready (by simp [PendingAction.onBound, hkind, SpeakerAssetsActionKind.isWrite]) rfl rfl rfl rfl rfl rfl
  | commit => exact hready (by simp [PendingAction.onBound, hkind]) rfl rfl rfl rfl rfl rfl
  | abort => exact hready (by simp [PendingAction.onBound, hkind]) rfl rfl rfl rfl rfl rfl

theorem coherent_completeBound (h : Coherent s) (hp : s.pending = some finished) (progress : SoundUpdateProgress) :
    Coherent (s.completeBound finished progress).2 where
  pending := by simp [completeBound]
  idle hidle := by cases hidle
  bound _ := rfl
  progress := rfl
  cookie _ := nextNonZero_ne s.nextCookie
  unowned _ := h.unowned (by simp [h.pendingPhase hp])
  fresh hbegin := by cases hbegin
  rebound hbegin := by cases hbegin
  placed p hp := by cases hp

theorem coherent_completeProgress (h : Coherent s) (hp : s.pending = some finished)
    (horphaned : finished.orphaned = false) (hon : finished.onBound = true) (progress : SoundUpdateProgress) :
    Coherent (s.completeProgress finished progress).2 := by
  have hplaced := h.placed finished hp
  rw [Placed, if_pos ⟨horphaned, hon⟩] at hplaced
  refine h.ready hp horphaned hon rfl ?_ rfl rfl rfl rfl
  rw [h.progress, hplaced.1]
  rfl

theorem coherent_ok (h : Coherent s) (hp : s.pending = some finished) (horphaned : finished.orphaned = false) :
    Coherent (s.completeOk finished completion).2 := by
  have hfinal (reply : SpeakerAssetsFrame) : Coherent (s.completeFinal finished reply).2 :=
    coherent_free rfl rfl rfl rfl rfl
  unfold completeOk
  cases hkind : finished.kind with
  | begin => exact coherent_completeBound h hp _
  | discardInvalidStaging => exact hfinal _
  | queryCurrentActive => exact hfinal _
  | resumeQuery =>
    dsimp only
    split
    · split
      · exact coherent_completeBound h hp _
      next hcookie => exact coherent_completeProgress h hp horphaned (by simp [PendingAction.onBound, hkind, hcookie]) _
    · exact hfinal _
  | writeManifest =>
    have hon : finished.onBound = true := by simp [PendingAction.onBound, hkind, SpeakerAssetsActionKind.isWrite]
    exact (coherent_completeProgress h hp horphaned hon _).same rfl rfl rfl rfl rfl rfl rfl
  | writePayloadBlock =>
    have hon : finished.onBound = true := by simp [PendingAction.onBound, hkind, SpeakerAssetsActionKind.isWrite]
    exact (coherent_completeProgress h hp horphaned hon _).same rfl rfl rfl rfl rfl rfl rfl
  | commit => exact hfinal _
  | abort => exact hfinal _

theorem coherent_complete (h : Coherent s) (completion : SpeakerAssetsActionCompletion) :
    Coherent (s.complete completion).2.2 := by
  unfold complete
  split
  · exact h
  next finished hp =>
    split
    · exact h
    · split
      · exact coherent_free rfl rfl rfl rfl rfl
      next horphaned =>
        rw [Bool.not_eq_true] at horphaned
        split
        · exact coherent_failed h hp horphaned _
        · split
          · exact coherent_free rfl rfl rfl rfl rfl
          · exact coherent_ok h hp horphaned

/-! ### Routes and timeouts -/

theorem Coherent.orphaned (h : Coherent s) {p : PendingAction} (hp : s.pending = some p) (hphase : t.phase = s.phase)
    (hroute : t.route = none) (hprogress : t.progress = none) (hpending : t.pending = some { p with orphaned := true })
    (hbound : t.planAssembler.bound = none) : Coherent t where
  pending := by rw [hphase, h.pendingPhase hp, hpending]; simp
  idle _ := hroute
  bound hready := by rw [hphase, h.pendingPhase hp] at hready; simp at hready
  progress := by rw [hprogress, hroute]; rfl
  cookie hsome := by simp [hroute] at hsome
  unowned _ := hbound
  fresh _ _ := hroute
  rebound hbegin := by rw [hphase, h.pendingPhase hp] at hbegin; cases hbegin
  placed q hq := by
    rw [hpending] at hq
    cases hq
    rw [Placed, if_neg (by simp)]
    exact hroute

/-- While an action is pending, no other route is bound and none has a plan under way. -/
theorem Coherent.elsewhere (h : Coherent s) {p : PendingAction} (hp : s.pending = some p) (hother : p.route ≠ route) :
    ¬(s.route = some route ∨ s.planAssembler.bound.map Prod.fst = some route) := by
  have hplaced := h.placed p hp
  have hunowned := h.unowned (by simp [h.pendingPhase hp])
  rw [Placed] at hplaced
  rintro (hroute | howner)
  · split at hplaced
    · rw [hroute] at hplaced
      exact hother (Option.some.inj hplaced.1).symm
    · rw [hroute] at hplaced
      cases hplaced
  · rw [hunowned] at howner
    cases howner

theorem coherent_routeClosed (h : Coherent s) (route : SpeakerAssetsRouteToken) : Coherent (s.routeClosed route) := by
  have hreplay : Coherent (s.clearReplayForRoute route) := h.same rfl rfl rfl rfl rfl rfl rfl
  unfold routeClosed
  dsimp only
  split
  next p hp =>
    have hunowned := hreplay.unowned (by simp [hreplay.pendingPhase hp])
    split
    · split
      · exact hreplay.orphaned hp rfl rfl rfl rfl hunowned
      · exact hreplay.orphaned hp rfl rfl rfl rfl rfl
    next hother =>
      rw [if_neg (hreplay.elsewhere hp hother)]
      exact hreplay
  next hp =>
    split
    · exact coherent_free rfl rfl rfl rfl hp
    · exact hreplay

theorem coherent_allRoutesClosed (h : Coherent s) : Coherent s.allRoutesClosed := by
  have hreplay : Coherent { s with replay := List.replicate speakerAssetsReplayEntries none, nextReplaySlot := 0 } :=
    h.same rfl rfl rfl rfl rfl rfl rfl
  unfold allRoutesClosed
  dsimp only
  split
  next p hp =>
    have hunowned := hreplay.unowned (by simp [h.pendingPhase hp])
    split
    · exact hreplay.orphaned hp rfl rfl rfl rfl hunowned
    · exact hreplay.orphaned hp rfl rfl rfl rfl rfl
  next hp => exact coherent_free rfl rfl rfl rfl hp

theorem coherent_expirePartial (h : Coherent s) (route : SpeakerAssetsRouteToken) :
    Coherent (s.expirePartial route).2 := by
  unfold expirePartial
  split_ifs with hplan hunit
  · exact h.restore hplan.1
  · have hnone := h.quiet (by simp [hunit.1])
    exact h.settle rfl rfl rfl hnone (by simp [hunit.2]) (h.unowned (by simp [hunit.1]))
  · exact h

end SpeakerAssetsSession

end CodexKeyboard.SoundSync
