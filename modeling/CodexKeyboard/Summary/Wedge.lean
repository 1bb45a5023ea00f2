import CodexKeyboard.Schemes.Text
import CodexKeyboard.Store.Handover
import CodexKeyboard.Summary.Orchestrator

/-! When the summary worker leaves a task usable behind it.

    A call gives its claim up on most of its failures, but returns at once when the first look into
    the cache fails and when `publish_summary` refuses the claim; the row then stays `generating`.
    The refusal takes two threads: the keyboard plays the generation the claim was made over while
    the worker is busy. `Harmless` says when a step does not meet one of these returns; runs of
    harmless steps never wedge a task. -/

namespace CodexKeyboard.Summary

open Store Schemes Transact

variable {P : Type} {env : Env P} {db db' : Database} {task : String} {claim : SummaryClaim}

/-! ### The condition -/

/-- `publish_summary` can take the claim: nobody has played the generation the claim was made over,
    and the coverage it will report fits its counter. -/
def Publishable (db : Database) (claim : SummaryClaim) : Prop :=
  Unplayed db claim.taskId (claim.previousUnread.map (·.generation)) ∧
  claim.previousCoverage + claim.completions.length ≤ u32Max

/-- The document in the cache is about the completions of the claim. -/
def CoversClaim (env : Env P) (claim : SummaryClaim) (summary : SummaryDocument) : Prop :=
  summary.validateExpectedCovers env (SummaryClaim.expected claim) = .ok ()

/-- A look into the cache that does not end the call with the claim in its hands; the second one
    gives the claim up whenever it fails. -/
def HarmlessLook (env : Env P) (db : Database) (claim : SummaryClaim) (again : Bool) : CacheRead → Prop
  | .missingObject => True
  | .failed => again = true
  | .loaded summary => again = true ∨ CoversClaim env claim summary ∧ Publishable db claim

def HarmlessStep (env : Env P) (db : Database) (task : String) (choices : Choices) : Pc → Prop
  | .resuming => ∀ r ∈ db.summaryLedger, r.taskId = task → r.state = .interrupted →
      Unplayed db task r.previousGeneration
  | .recovering claim again => HarmlessLook env db claim again choices.cache
  | .publishing claim => choices.cacheCommitted = true → Publishable db claim
  | _ => True

def Harmless (env : Env P) (w : World) : Act P → Prop
  | .worker choices => HarmlessStep env w.db w.task choices w.pc
  | _ => True

/-- Every step of a run is harmless where it is taken. -/
def HarmlessRun (env : Env P) : World → List (Act P) → Prop
  | _, [] => True
  | w, a :: as => Harmless env w a ∧ HarmlessRun env (act env w a) as

/-- What the second look finds can be published; otherwise the call ends with the refusal of its own
    claim, after giving it up. -/
def UndisputedStep (env : Env P) (db : Database) (choices : Choices) : Pc → Prop
  | .recovering claim true => ∀ summary, choices.cache = .loaded summary →
      CoversClaim env claim summary → Publishable db claim
  | _ => True

def Undisputed (env : Env P) (w : World) : Act P → Prop
  | .worker choices => UndisputedStep env w.db choices w.pc
  | _ => True

/-- Every step of a run is undisputed where it is taken. -/
def UndisputedRun (env : Env P) : World → List (Act P) → Prop
  | _, [] => True
  | w, a :: as => Undisputed env w a ∧ UndisputedRun env (act env w a) as

instance (db : Database) (task : String) (previous : Option Nat) :
    Decidable (Unplayed db task previous) :=
  decidable_of_iff (previous.all (fun p => db.summaryLedger.all fun u =>
    decide (u.key = (task, p) → u.state ≠ .heard)) = true) (by
      cases previous <;> simp [Unplayed, ← imp_iff_not_or])

instance (db : Database) (claim : SummaryClaim) : Decidable (Publishable db claim) :=
  inferInstanceAs (Decidable (_ ∧ _))

instance (env : Env P) (claim : SummaryClaim) (summary : SummaryDocument) :
    Decidable (CoversClaim env claim summary) :=
  inferInstanceAs (Decidable (_ = _))

instance (env : Env P) (db : Database) (claim : SummaryClaim) (again : Bool) :
    (cache : CacheRead) → Decidable (HarmlessLook env db claim again cache)
  | .missingObject => .isTrue trivial
  | .failed => inferInstanceAs (Decidable (again = true))
  | .loaded _ => inferInstanceAs (Decidable (_ ∨ _))

instance (env : Env P) (db : Database) (task : String) (choices : Choices) :
    (pc : Pc) → Decidable (HarmlessStep env db task choices pc)
  | .resuming => inferInstanceAs (Decidable (∀ r ∈ db.summaryLedger, _ → _ → _))
  | .recovering claim again => inferInstanceAs (Decidable (HarmlessLook env db claim again _))
  | .publishing _ => inferInstanceAs (Decidable (_ → _))
  | .idle | .running _ | .checkingAttempt _ | .loadingPrevious _ | .generating _ | .beginning _
  | .synthesizing _ | .abandoning .. | .returned _ => .isTrue trivial

instance (env : Env P) (w : World) : (a : Act P) → Decidable (Harmless env w a)
  | .worker choices => inferInstanceAs (Decidable (HarmlessStep env w.db w.task choices w.pc))
  | .resume _ | .run .. | .daemon _ | .restart => .isTrue trivial

instance decidableHarmlessRun (env : Env P) :
    (w : World) → (as : List (Act P)) → Decidable (HarmlessRun env w as)
  | _, [] => .isTrue trivial
  | w, a :: as =>
    have := decidableHarmlessRun env (act env w a) as
    inferInstanceAs (Decidable (_ ∧ _))

/-! ### The invariant of a call -/

/-- The claim a call has in its hands. -/
def Pc.held : Pc → Option SummaryClaim
  | .idle | .resuming | .running _ | .returned _ => none
  | .recovering claim _ | .checkingAttempt claim | .loadingPrevious claim | .generating claim
  | .beginning claim | .synthesizing claim | .publishing claim | .abandoning claim _ => some claim

/-- Whoever has a claim in hand is the only one generating; without one nobody is. -/
structure CallOk (env : Env P) (db : Database) (task : String) (pc : Pc) : Prop where
  store : StoreOk env db
  quiet : pc.held = none → Quiet db
  inHand : ∀ claim, pc.held = some claim → InHand env db task claim

theorem callOk_quiet {pc : Pc} (hstore : StoreOk env db) (hquiet : Quiet db) (hpc : pc.held = none) :
    CallOk env db task pc :=
  ⟨hstore, fun _ => hquiet, fun claim hclaim => by simp [hpc] at hclaim⟩

theorem callOk_inHand {pc : Pc} (hstore : StoreOk env db) (hhand : InHand env db task claim)
    (hpc : pc.held = some claim) : CallOk env db task pc := by
  refine ⟨hstore, fun hnone => ?_, fun claim' hclaim => ?_⟩
  · simp [hpc] at hnone
  · obtain rfl : claim = claim' := by simpa [hpc] using hclaim
    exact hhand

/-- An error by which a claim that was left behind shows itself. -/
def CallResult.wedged : CallResult → Prop
  | .error (.store e) => e.wedged
  | _ => False

/-- A call that no earlier claim gets in the way of. -/
def Clean (db : Database) (task : String) : Pc → Prop
  | .running request => Idle db task ∧ ∀ r ∈ db.summaryLedger, r.requestId ≠ some request
  | .abandoning _ result => ¬ CallResult.wedged result
  | .returned result => Idle db task ∧ ¬ CallResult.wedged result
  | _ => True

/-- Both properties of a call, for the pair a step results in. -/
def StepOk (env : Env P) (task : String) (clean : Prop) (s : Database × Pc) : Prop :=
  CallOk env s.1 task s.2 ∧ (clean → Clean s.1 task s.2)

/-! ### One step of the worker -/

attribute [local simp] workerStep abandonStep

/-- A claim handed to `publish_summary` is published, or nothing happens. -/
theorem publishClaim_cases (hhand : InHand env db task claim) (hstore : StoreOk env db) :
    (∃ unread db', publishClaim env claim db = (.ok unread, db') ∧
      StoreOk env db' ∧ Quiet db' ∧ Idle db' task) ∨
    ∃ e, publishClaim env claim db = (.error e, db) := by
  unfold publishClaim
  cases CacheId.forTask env claim.taskId claim.generation with
  | none => exact Or.inr ⟨_, rfl⟩
  | some id =>
    rcases hres : publishSummary env claim id.reference db with ⟨e | unread, db'⟩
    · obtain rfl := publishSummary_error hres
      exact Or.inr ⟨.store e, by simp only [hres]⟩
    · have heff : Effect env (.publishSummary claim _) db db' := .published (publishSummary_ok hres)
      obtain ⟨hquiet, hidle⟩ := hhand.published hstore hres
      exact Or.inl ⟨unread, db', by simp only [hres], hstore.effect heff, hquiet, hidle⟩

theorem publishClaim_total (hhand : InHand env db task claim) (hstore : StoreOk env db)
    (hp : Publishable db claim) : ∃ unread db', publishClaim env claim db = (.ok unread, db') ∧
      StoreOk env db' ∧ Quiet db' ∧ Idle db' task := by
  refine (publishClaim_cases hhand hstore).resolve_right ?_
  rintro ⟨e, hrefused⟩
  obtain ⟨unread, db', hres⟩ := hhand.holds.publishSummary_total hstore hp.1 hp.2
  have hpos := (hhand.holds.valid hstore).2.2
  simp only [publishClaim, CacheId.forTask, Nat.pos_iff_ne_zero.1 hpos, if_false] at hrefused
  simp only [cacheReference] at hres
  rw [hres] at hrefused
  cases hrefused

/-- A call that ends with its claim published. -/
theorem stepOk_published {clean : Prop} {result : CallResult} (hstore : StoreOk env db)
    (hquiet : Quiet db) (hidle : Idle db task) (hresult : ¬ CallResult.wedged result) :
    StepOk env task clean (db, .returned result) :=
  ⟨callOk_quiet hstore hquiet rfl, fun _ => ⟨hidle, hresult⟩⟩

/-- A call that goes on with its claim. -/
theorem stepOk_inHand {clean : Prop} {pc : Pc} (hstore : StoreOk env db)
    (hhand : InHand env db task claim) (hpc : pc.held = some claim)
    (hclean : ∀ claim result, pc = .abandoning claim result → ¬ CallResult.wedged result) :
    StepOk env task clean (db, pc) := by
  refine ⟨callOk_inHand hstore hhand hpc, fun _ => ?_⟩
  cases pc <;> first
    | trivial
    | exact hclean _ _ rfl

/-- The look into the cache publishes the claim, or leaves it for the steps that follow. -/
theorem recoverAuthenticatedCache_cases {again : Bool} {choices : Choices}
    (hhand : InHand env db task claim) (hstore : StoreOk env db)
    (hlook : HarmlessLook env db claim again choices.cache) :
    (∃ unread db', recoverAuthenticatedCache env claim choices.cache db =
      (.ok (some (.published unread true)), db') ∧ StoreOk env db' ∧ Quiet db' ∧ Idle db' task) ∨
    recoverAuthenticatedCache env claim choices.cache db = (.ok none, db) ∨
    (again = true ∧ ∃ e, recoverAuthenticatedCache env claim choices.cache db = (.error e, db) ∧
      (UndisputedStep env db choices (.recovering claim again) → ¬ CallResult.wedged (.error e))) := by
  cases hcache : choices.cache with
  | missingObject => exact Or.inr (Or.inl rfl)
  | failed =>
    rw [hcache] at hlook
    exact Or.inr (Or.inr ⟨hlook, .cache, rfl, by simp [CallResult.wedged]⟩)
  | loaded summary =>
    rw [hcache] at hlook
    cases hcovers : summary.validateExpectedCovers env (SummaryClaim.expected claim) with
    | ok u =>
      rcases publishClaim_cases hhand hstore with ⟨unread, db', hres, hafter⟩ | ⟨e, hres⟩
      · refine Or.inl ⟨unread, db', ?_, hafter⟩
        simp only [recoverAuthenticatedCache, hcovers, hres]
      · have hrefused : ¬ Publishable db claim := fun hp => by
          obtain ⟨unread, db', htotal, -⟩ := publishClaim_total hhand hstore hp
          rw [hres] at htotal
          cases htotal
        obtain rfl : again = true := hlook.resolve_right fun h => hrefused h.2
        refine Or.inr (Or.inr ⟨rfl, e, ?_, fun h => absurd (h summary hcache hcovers) hrefused⟩)
        simp only [recoverAuthenticatedCache, hcovers, hres]
    | error e =>
      have hagain : again = true := hlook.resolve_right fun h => by
        simp [CoversClaim, hcovers] at h
      refine Or.inr (Or.inr ⟨hagain, .summary e, ?_, by simp [CallResult.wedged]⟩)
      simp only [recoverAuthenticatedCache, hcovers]

theorem not_wedged_ok (outcome : SummaryRunOutcome) : ¬ CallResult.wedged (.ok outcome) := id

theorem stepOk_resuming {clean : Prop} (h : CallOk env db task .resuming) (choices : Choices)
    (hstep : HarmlessStep env db task choices .resuming) :
    StepOk env task clean (workerStep env task choices db .resuming) := by
  have hquiet := h.quiet rfl
  rcases h.store.resumeInterruptedSummary_cases hquiet hstep with
    ⟨hres | hres, hidle⟩ | ⟨claim, db', hres, hstore, hhand⟩
  · simp only [workerStep, hres]
    exact stepOk_published h.store hquiet hidle (by simp [CallResult.wedged, StoreError.wedged])
  · simp only [workerStep, hres]
    exact stepOk_published h.store hquiet hidle (not_wedged_ok _)
  · simp only [workerStep, hres]
    exact stepOk_inHand hstore hhand rfl (by simp)

theorem stepOk_running {request : String} (h : CallOk env db task (.running request))
    (choices : Choices) : StepOk env task (Clean db task (.running request))
      (workerStep env task choices db (.running request)) := by
  have hquiet := h.quiet rfl
  rcases hres : claimSummary env task request db with ⟨e | result, db'⟩
  · obtain rfl := claimSummary_error hres
    simp only [workerStep, hres]
    refine ⟨callOk_quiet h.store hquiet rfl, fun hclean => ⟨hclean.1, fun hwedged => ?_⟩⟩
    exact h.store.ledger.claimSummary_fresh hclean.1 hclean.2 hwedged (by rw [hres])
  · rcases h.store.claimSummary_ok hquiet hres with ⟨rfl, hnone⟩ | ⟨claim, rfl, hstore, hhand⟩
    · cases result with
      | none =>
        simp only [workerStep, hres]
        exact ⟨callOk_quiet h.store hquiet rfl, fun hclean => ⟨hclean.1, not_wedged_ok _⟩⟩
      | some result =>
        cases result with
        | claimed claim => exact absurd rfl (hnone claim)
        | published task' generation =>
          simp only [workerStep, hres]
          exact ⟨callOk_quiet h.store hquiet rfl, fun hclean => ⟨hclean.1, not_wedged_ok _⟩⟩
    · simp only [workerStep, hres]
      exact stepOk_inHand hstore hhand rfl (by simp)

theorem stepOk_recovering {again : Bool} (h : CallOk env db task (.recovering claim again))
    (choices : Choices) (hstep : HarmlessStep env db task choices (.recovering claim again)) :
    StepOk env task (UndisputedStep env db choices (.recovering claim again))
      (workerStep env task choices db (.recovering claim again)) := by
  have hhand := h.inHand claim rfl
  rcases recoverAuthenticatedCache_cases hhand h.store hstep with
    ⟨unread, db', hres, hstore, hquiet, hidle⟩ | hres | ⟨rfl, e, hres, hwedged⟩
  · cases again <;> simp only [workerStep, hres] <;>
      exact stepOk_published hstore hquiet hidle (not_wedged_ok _)
  · cases again with
    | false =>
      simp only [workerStep, hres]
      exact stepOk_inHand h.store hhand rfl (by simp)
    | true =>
      simp only [workerStep, hres]
      refine stepOk_inHand h.store hhand rfl ?_
      rintro _ _ ⟨⟩
      exact not_wedged_ok _
  · simp only [workerStep, hres]
    exact ⟨callOk_inHand h.store hhand rfl, hwedged⟩

theorem stepOk_beginning {clean : Prop} (h : CallOk env db task (.beginning claim)) (choices : Choices) :
    StepOk env task clean (workerStep env task choices db (.beginning claim)) := by
  have hhand := h.inHand claim rfl
  obtain ⟨state, db', hres⟩ := hhand.holds.beginSummaryTtsAttempt_total h.store
  have hafter : StoreOk env db' ∧ InHand env db' task claim := by
    rcases beginSummaryTtsAttempt_ok hres with rfl | ⟨t, hschema, rfl⟩
    · exact ⟨h.store, hhand⟩
    · have heff : Effect env (.beginSummaryTtsAttempt claim) db _ := .attempted rfl t hschema
      exact ⟨h.store.effect heff, hhand.frame (frame_of_ledgers rfl rfl)⟩
  cases state <;> simp only [workerStep, hres]
  · exact stepOk_inHand hafter.1 hafter.2 rfl (by simp)
  · refine stepOk_inHand hafter.1 hafter.2 rfl ?_
    rintro _ _ ⟨⟩
    exact not_wedged_ok _

theorem stepOk_publishing {clean : Prop} (h : CallOk env db task (.publishing claim)) (choices : Choices)
    (hstep : HarmlessStep env db task choices (.publishing claim)) :
    StepOk env task clean (workerStep env task choices db (.publishing claim)) := by
  have hhand := h.inHand claim rfl
  cases hcommitted : choices.cacheCommitted with
  | false =>
    simp only [workerStep, hcommitted]
    exact stepOk_inHand h.store hhand rfl (by simp)
  | true =>
    obtain ⟨unread, db', hres, hstore, hquiet, hidle⟩ :=
      publishClaim_total hhand h.store (hstep hcommitted)
    simp only [workerStep, hcommitted, hres]
    exact stepOk_published hstore hquiet hidle (not_wedged_ok _)

theorem stepOk_abandoning {result : CallResult} (h : CallOk env db task (.abandoning claim result))
    (choices : Choices) : StepOk env task (Clean db task (.abandoning claim result))
      (workerStep env task choices db (.abandoning claim result)) := by
  obtain ⟨db', hres, hstore, hquiet, hidle⟩ := (h.inHand claim rfl).abandoned h.store
  simp only [workerStep, abandonStep, hres]
  exact ⟨callOk_quiet hstore hquiet rfl, fun hclean => ⟨hidle, hclean⟩⟩

/-- Giving the claim up with a result that names no store error. -/
theorem stepOk_giveUp {clean : Prop} {result : CallResult} (hstore : StoreOk env db)
    (hhand : InHand env db task claim) (hresult : ¬ CallResult.wedged result) :
    StepOk env task clean (db, .abandoning claim result) := by
  refine stepOk_inHand hstore hhand rfl ?_
  rintro _ _ ⟨⟩
  exact hresult

/-- The steps that only ask a service, or read. -/
theorem stepOk_asking {clean : Prop} {pc : Pc} (h : CallOk env db task pc) (choices : Choices)
    (hpc : pc = .checkingAttempt claim ∨ pc = .loadingPrevious claim ∨ pc = .generating claim ∨
      pc = .synthesizing claim) : StepOk env task clean (workerStep env task choices db pc) := by
  have hhand : InHand env db task claim := by
    rcases hpc with rfl | rfl | rfl | rfl <;> exact h.inHand claim rfl
  have hon : ∀ pc' : Pc, pc'.held = some claim → (∀ c result, pc' ≠ .abandoning c result) →
      StepOk env task clean (db, pc') := fun pc' hpc' hne =>
    stepOk_inHand h.store hhand hpc' fun c result hc => absurd hc (hne c result)
  rcases hpc with rfl | rfl | rfl | rfl
  · obtain ⟨state, hres⟩ := hhand.holds.summaryTtsAttempt_total h.store
    cases state <;> simp only [workerStep, hres]
    · exact hon _ rfl (by simp)
    · exact stepOk_giveUp h.store hhand (not_wedged_ok _)
  · simp only [workerStep]
    split
    · exact hon _ rfl (by simp)
    · exact hon _ rfl (by simp)
    · exact stepOk_giveUp h.store hhand (by simp [CallResult.wedged])
  · simp only [workerStep]
    split
    · exact stepOk_giveUp h.store hhand (by simp [CallResult.wedged])
    · split
      · exact stepOk_giveUp h.store hhand (by simp [CallResult.wedged])
      · exact hon _ rfl (by simp)
  · simp only [workerStep]
    split
    · split
      · exact hon _ rfl (by simp)
      · exact stepOk_giveUp h.store hhand (not_wedged_ok _)
    · exact stepOk_giveUp h.store hhand (not_wedged_ok _)
    · exact stepOk_giveUp h.store hhand (by simp [CallResult.wedged])

theorem CallOk.workerStep {pc : Pc} (h : CallOk env db task pc) (choices : Choices)
    (hstep : HarmlessStep env db task choices pc) :
    StepOk env task (Clean db task pc ∧ UndisputedStep env db choices pc)
      (workerStep env task choices db pc) := by
  cases pc with
  | idle => exact ⟨h, And.left⟩
  | returned result => exact ⟨h, And.left⟩
  | resuming => exact stepOk_resuming h choices hstep
  | running request => exact (stepOk_running h choices).imp_right (· ∘ And.left)
  | recovering claim again => exact (stepOk_recovering h choices hstep).imp_right (· ∘ And.right)
  | checkingAttempt claim => exact stepOk_asking h choices (Or.inl rfl)
  | loadingPrevious claim => exact stepOk_asking h choices (Or.inr (Or.inl rfl))
  | generating claim => exact stepOk_asking h choices (Or.inr (Or.inr (Or.inl rfl)))
  | beginning claim => exact stepOk_beginning h choices
  | synthesizing claim => exact stepOk_asking h choices (Or.inr (Or.inr (Or.inr rfl)))
  | publishing claim => exact stepOk_publishing h choices hstep
  | abandoning claim result => exact (stepOk_abandoning h choices).imp_right (· ∘ And.left)

/-! ### Whole runs -/

theorem frame_of_daemon {op : Op P} (h : StoreOk env db) (hop : Op.byDaemon op = true) :
    Frame db (step env db op) := by
  have hreopen : op ≠ .reopen := by
    rintro rfl
    cases hop
  refine (step_effect env op hreopen h.ledger.leases.2.1 h.ledger.attempts.2).frame ?_ ?_ hreopen
  · cases op <;> first | rfl | cases hop
  · rintro _ _ rfl
    cases hop

theorem CallOk.frame {pc : Pc} (h : CallOk env db task pc) (hf : Frame db db') (hstore : StoreOk env db') :
    CallOk env db' task pc :=
  ⟨hstore, fun hnone => (h.quiet hnone).frame hf, fun claim hclaim => (h.inHand claim hclaim).frame hf⟩

theorem Clean.frame {pc : Pc} (h : Clean db task pc) (hf : Frame db db') : Clean db' task pc := by
  cases pc with
  | running request =>
    refine ⟨h.1.frame hf, fun r' hr' hrequest => ?_⟩
    obtain ⟨r, hr, hsame⟩ := hf.requests r' hr'
    exact h.2 r hr (hsame.trans hrequest)
  | returned result => exact ⟨h.1.frame hf, h.2⟩
  | abandoning claim result => exact h
  | _ => trivial

/-- The acts that go on with a call: steps of the worker, and the daemon next to it. -/
def Act.serves : Act P → Bool
  | .worker _ | .daemon _ => true
  | _ => false

def WorldOk (env : Env P) (w : World) : Prop := CallOk env w.db w.task w.pc

theorem held_of_not_inCall {pc : Pc} (h : pc.inCall = false) : pc.held = none := by
  cases pc <;> first | rfl | cases h

theorem WorldOk.act {w : World} {a : Act P} (h : WorldOk env w) (ha : Harmless env w a) :
    WorldOk env (act env w a) ∧
      (a.serves = true → Clean w.db w.task w.pc ∧ Undisputed env w a →
        Clean (act env w a).db (act env w a).task (act env w a).pc) := by
  cases a with
  | resume task =>
    simp only [Summary.act]
    split
    · exact ⟨h, fun hs => by cases hs⟩
    next hcall =>
      refine ⟨callOk_quiet h.store (h.quiet (held_of_not_inCall ?_)) rfl, fun hs => by cases hs⟩
      simpa using hcall
  | run task request =>
    simp only [Summary.act]
    split
    · exact ⟨h, fun hs => by cases hs⟩
    next hcall =>
      refine ⟨callOk_quiet h.store (h.quiet (held_of_not_inCall ?_)) rfl, fun hs => by cases hs⟩
      simpa using hcall
  | worker choices =>
    have hstep := CallOk.workerStep h choices ha
    exact ⟨hstep.1, fun _ => hstep.2⟩
  | daemon op =>
    simp only [Summary.act]
    split
    next hop =>
      have hf := frame_of_daemon h.store hop
      exact ⟨h.frame hf (h.store.step op), fun _ hclean => hclean.1.frame hf⟩
    next => exact ⟨h, fun _ hclean => hclean.1⟩
  | restart =>
    refine ⟨?_, fun hs => by cases hs⟩
    simp only [Summary.act]
    have hstore : StoreOk env (reopen w.db).2 := h.store.effects reopen_effects
    rcases hres : reopen w.db with ⟨e | ⟨jobs, summaries⟩, db'⟩
    · exact h
    · rw [hres] at hstore
      exact callOk_quiet hstore (reopen_quiet hres) rfl

theorem WorldOk.acts {w : World} {as : List (Act P)} (h : WorldOk env w) (has : HarmlessRun env w as) :
    WorldOk env (acts env w as) := by
  induction as generalizing w with
  | nil => exact h
  | cons a as ih => exact ih (h.act has.1).1 has.2

theorem clean_acts {w : World} {as : List (Act P)} (h : WorldOk env w)
    (hclean : Clean w.db w.task w.pc) (has : HarmlessRun env w as) (hundisputed : UndisputedRun env w as)
    (hserves : ∀ a ∈ as, a.serves = true) :
    Clean (acts env w as).db (acts env w as).task (acts env w as).pc := by
  induction as generalizing w with
  | nil => exact hclean
  | cons a as ih =>
    obtain ⟨hok, hstep⟩ := h.act has.1
    have hhere := hstep (hserves a (List.mem_cons_self ..)) ⟨hclean, hundisputed.1⟩
    exact ih hok hhere has.2 hundisputed.2 fun a ha => hserves a (List.mem_cons_of_mem _ ha)

/-! ### A call comes to its end -/

/-- The steps a call still takes, at most. -/
def Pc.rank : Pc → Nat
  | .idle | .returned _ => 0
  | .abandoning .. => 1
  | .recovering _ true => 2
  | .publishing _ => 3
  | .synthesizing _ => 4
  | .beginning _ => 5
  | .generating _ => 6
  | .loadingPrevious _ => 7
  | .checkingAttempt _ => 8
  | .recovering _ false => 9
  | .resuming | .running _ => 10

def Act.ofWorker : Act P → Bool
  | .worker _ => true
  | _ => false

theorem abandonStep_rank (env : Env P) (claim : SummaryClaim) (result : CallResult) (db : Database) :
    (abandonStep env claim result db).2.rank = 0 ∧ (abandonStep env claim result db).2 ≠ .idle := by
  unfold abandonStep
  split <;> exact ⟨rfl, by simp⟩

/-- Each step of the worker brings the call nearer to its return. -/
theorem workerStep_rank (env : Env P) (task : String) (choices : Choices) (db : Database) {pc : Pc}
    (h : pc ≠ .idle) : (workerStep env task choices db pc).2.rank ≤ pc.rank - 1 ∧
      (workerStep env task choices db pc).2 ≠ .idle := by
  cases pc with
  | idle => exact absurd rfl h
  | returned result => exact ⟨Nat.le_refl _, by simp [workerStep]⟩
  | abandoning claim result =>
    obtain ⟨hrank, hidle⟩ := abandonStep_rank env claim result db
    exact ⟨Nat.le_of_eq hrank, hidle⟩
  | recovering claim again =>
    cases again <;> simp only [workerStep] <;> split <;> exact ⟨by simp [Pc.rank], by simp⟩
  | synthesizing claim =>
    simp only [workerStep]
    split
    · split <;> exact ⟨by simp [Pc.rank], by simp⟩
    · exact ⟨by simp [Pc.rank], by simp⟩
    · exact ⟨by simp [Pc.rank], by simp⟩
  | generating claim =>
    simp only [workerStep]
    split
    · exact ⟨by simp [Pc.rank], by simp⟩
    · split <;> exact ⟨by simp [Pc.rank], by simp⟩
  | publishing claim =>
    simp only [workerStep]
    split
    · split <;> exact ⟨by simp [Pc.rank], by simp⟩
    · exact ⟨by simp [Pc.rank], by simp⟩
  | _ =>
    simp only [workerStep]
    split <;> exact ⟨by simp [Pc.rank], by simp⟩

theorem acts_rank (env : Env P) {w : World} {as : List (Act P)} (h : w.pc ≠ .idle)
    (hserves : ∀ a ∈ as, a.serves = true) :
    (acts env w as).pc.rank ≤ w.pc.rank - as.countP Act.ofWorker ∧ (acts env w as).pc ≠ .idle := by
  induction as generalizing w with
  | nil => exact ⟨Nat.le_refl _, h⟩
  | cons a as ih =>
    have hrest := fun a ha => hserves a (List.mem_cons_of_mem _ ha)
    cases a with
    | worker choices =>
      obtain ⟨hrank, hidle⟩ := workerStep_rank env w.task choices w.db h
      obtain ⟨hle, hne⟩ := ih (w := act env w (.worker choices)) hidle hrest
      refine ⟨?_, hne⟩
      have hcount : (Act.worker choices :: as).countP Act.ofWorker = as.countP Act.ofWorker + 1 :=
        List.countP_cons_of_pos rfl
      have hact : (act env w (.worker choices)).pc = (workerStep env w.task choices w.db w.pc).2 := rfl
      rw [acts_cons, hcount]
      rw [hact] at hle
      omega
    | daemon op =>
      have hact : (act env w (.daemon op)).pc = w.pc := by
        simp only [act]
        split <;> rfl
      obtain ⟨hle, hne⟩ := ih (w := act env w (.daemon op)) (by rwa [hact]) hrest
      refine ⟨?_, hne⟩
      have hcount : (Act.daemon op :: as).countP Act.ofWorker = as.countP Act.ofWorker :=
        List.countP_cons_of_neg (by simp [Act.ofWorker])
      rw [acts_cons, hcount]
      rwa [hact] at hle
    | _ => cases hserves _ (List.mem_cons_self ..)

theorem acts_task (env : Env P) {w : World} {as : List (Act P)} (hserves : ∀ a ∈ as, a.serves = true) :
    (acts env w as).task = w.task := by
  induction as generalizing w with
  | nil => rfl
  | cons a as ih =>
    rw [acts_cons, ih fun a ha => hserves a (List.mem_cons_of_mem _ ha)]
    cases a with
    | worker choices => rfl
    | daemon op =>
      simp only [act]
      split <;> rfl
    | _ => cases hserves _ (List.mem_cons_self ..)

theorem returned_of_rank {pc : Pc} (hrank : pc.rank = 0) (hidle : pc ≠ .idle) :
    ∃ result, pc = .returned result := by
  cases pc with
  | returned result => exact ⟨result, rfl⟩
  | idle => exact absurd rfl hidle
  | recovering claim again => cases again <;> cases hrank
  | _ => cases hrank

/-! ### The worker never wedges a task -/

/-- What a call of the worker on `task` comes to, however the daemon's transactions fall between its
    steps: with enough steps it returns, and never because of a claim an earlier call left behind. -/
structure CallServed (env : Env P) (w : World) (as : List (Act P)) : Prop where
  returns : 10 ≤ as.countP Act.ofWorker → ∃ result, (acts env w as).pc = .returned result
  notWedged : ∀ result, (acts env w as).pc = .returned result → ¬ CallResult.wedged result

theorem callServed {w : World} {as : List (Act P)} (h : WorldOk env w)
    (hclean : Clean w.db w.task w.pc) (hcall : w.pc.rank = 10) (has : HarmlessRun env w as)
    (hundisputed : UndisputedRun env w as) (hserves : ∀ a ∈ as, a.serves = true) :
    CallServed env w as := by
  have hstart : w.pc ≠ .idle := by
    intro hidle
    rw [hidle] at hcall
    cases hcall
  obtain ⟨hrank, hidle⟩ := acts_rank env hstart hserves
  refine ⟨fun hsteps => returned_of_rank (by omega) hidle, fun result hresult => ?_⟩
  have hend := clean_acts h hclean has hundisputed hserves
  rw [hresult] at hend
  exact hend.2

/-- In every run of harmless steps: a call that has returned leaves no row of its task `generating`;
    and when no call is in progress, `resume` and then `run` with a fresh request, while nobody plays
    away what they are about to publish, are not stopped by a claim that an earlier call left
    behind. -/
theorem summary_worker_never_wedges (env : Env P) (as : List (Act P))
    (has : HarmlessRun env World.init as) :
    (∀ result, (acts env World.init as).pc = .returned result →
      ∀ r ∈ (acts env World.init as).db.summaryLedger,
        r.taskId = (acts env World.init as).task → r.state ≠ .generating) ∧
    ((acts env World.init as).pc.inCall = false → ∀ (task : String) (bs : List (Act P)),
      (∀ b ∈ bs, b.serves = true) →
      HarmlessRun env (acts env World.init as) (.resume task :: bs) →
      UndisputedRun env (acts env World.init as) (.resume task :: bs) →
      CallServed env (act env (acts env World.init as) (.resume task)) bs ∧
      ∀ result, (acts env (acts env World.init as) (.resume task :: bs)).pc = .returned result →
        ∀ (request : String) (cs : List (Act P)), (∀ c ∈ cs, c.serves = true) →
        (∀ r ∈ (acts env (acts env World.init as) (.resume task :: bs)).db.summaryLedger,
          r.requestId ≠ some request) →
        HarmlessRun env (acts env (acts env World.init as) (.resume task :: bs))
          (.run task request :: cs) →
        UndisputedRun env (acts env (acts env World.init as) (.resume task :: bs))
          (.run task request :: cs) →
        CallServed env (act env (acts env (acts env World.init as) (.resume task :: bs))
          (.run task request)) cs) := by
  have hinit : WorldOk env World.init :=
    callOk_quiet (storeOk_empty env) (by simp [Quiet, World.init, Database.empty]) rfl
  have h := hinit.acts has
  generalize acts env World.init as = w at h
  refine ⟨fun result hresult r hr _ => h.quiet (by rw [hresult]; rfl) r hr, ?_⟩
  intro hcall task bs hbs hharmless hundisputed
  have hresume : act env w (.resume task) = ⟨w.db, task, .resuming⟩ := by
    simp [act, hcall]
  have h₁ : WorldOk env (act env w (.resume task)) := (h.act hharmless.1).1
  have hclean₁ : Clean (act env w (.resume task)).db (act env w (.resume task)).task
      (act env w (.resume task)).pc := by
    rw [hresume]
    trivial
  refine ⟨callServed h₁ hclean₁ (by rw [hresume]; rfl) hharmless.2 hundisputed.2 hbs, ?_⟩
  intro result hresult request cs hcs hfresh hrun hpublishes
  -- the resumed call has ended, and with it whatever was left to take up
  have hend := clean_acts h₁ hclean₁ hharmless.2 hundisputed.2 hbs
  have h₂ := h₁.acts hharmless.2
  have htask := acts_task env (w := act env w (.resume task)) hbs
  rw [acts_cons] at hresult hfresh hrun hpublishes ⊢
  generalize acts env (act env w (.resume task)) bs = w₂ at hresult hfresh hrun hpublishes hend h₂ htask ⊢
  rw [hresume] at htask
  have hstart : act env w₂ (.run task request) = ⟨w₂.db, task, .running request⟩ := by
    simp [act, hresult, Pc.inCall]
  refine callServed (h₂.act hrun.1).1 ?_ (by rw [hstart]; rfl) hrun.2 hpublishes.2 hcs
  rw [hstart]
  rw [hresult, htask] at hend
  exact ⟨hend.1, hfresh⟩

/-! ### Two runs that differ in one order

    The keyboard leases the first summary, the task completes another turn and the worker claims
    it. Whether the second summary is published before or after the first has been played decides. -/

def sampleTask : String := "019fa972-5cfa-75e1-9008-0b17ade9a347"
def firstCompletion : String := "019fa972-5cfa-75e1-9008-0b17ade9a348"
def secondCompletion : String := "019fa972-5cfa-75e1-9008-0b17ade9a349"

/-- Unix paths, and the digest of the one task there is. -/
def sampleEnv : Env (List UInt8) where
  uuidOk s := Text.hyphenated s.toList
  sha256 _ := #v[0x54, 0xc5, 0xb2, 0x86, 0x74, 0xfe, 0x5f, 0x38, 0x07, 0xc8, 0x2d, 0x16, 0x7f, 0x25,
    0x13, 0xc6, 0x92, 0xbb, 0x38, 0x27, 0x52, 0xd5, 0x85, 0x7d, 0xe2, 0x61, 0x6f, 0xf4, 0x29, 0x17,
    0x01, 0x8d]
  jsonObject s := s.toList.head? == some '\x7b'
  encodePath p := p
  decodePath p := some p
  decode_encode _ := rfl
  isAbsolute p := p.head? == some 47
  containsNul p := p.contains 0
  samePath p q := p == q
  samePath_refl := by simp

def sampleCursor (offset : Nat) : RolloutCursor (List UInt8) where
  taskId := sampleTask
  rolloutPath := [47, 97]
  device := 1
  inode := 1
  offset := offset
  generation := 1
  anchor := Vector.replicate 32 1

def sampleLease : SummaryPlaybackLease :=
  ⟨7, 1, sampleTask, 1, 1, 1, cacheReference sampleEnv sampleTask 1⟩

def sampleDocument (completion : String) : SummaryDocument :=
  ⟨summarySchemaVersion, ["done"], [], [], "done", [completion]⟩

/-- A call over one completion, every service answering, up to the commit of its bundle. -/
def generateFor (request completion : String) : List (Act (List UInt8)) :=
  [.run sampleTask request, .worker {}, .worker {}, .worker {},
   .worker { cache := .loaded (sampleDocument completion) },
   .worker { generated := .ok (sampleDocument completion) }, .worker {},
   .worker { synthesized := .ok summaryTtsVoice }]

def commitBundle : Act (List UInt8) := .worker { cacheCommitted := true }
def playToEnd : Act (List UInt8) := .daemon (.finishSummaryPlayback sampleLease)

/-- The first summary is being played, the second is ready to be published. -/
def bothBusy : List (Act (List UInt8)) :=
  [.daemon (.commitRolloutCompletion none (sampleCursor 10) firstCompletion "\x7b\x7d" 1)] ++
  generateFor "request-1" firstCompletion ++
  [commitBundle, .daemon (.setBinding 1 none sampleTask), .daemon (.acquireSummaryPlayback 1 1 1 7),
   .daemon (.commitRolloutCompletion (some (sampleCursor 10)) (sampleCursor 20) secondCompletion
     "\x7b\x7d" 2)] ++
  generateFor "request-2" secondCompletion

/-- Published first, played to the end afterwards: the task stays usable. -/
theorem summary_worker_published_first :
    HarmlessRun sampleEnv World.init (bothBusy ++ [commitBundle, playToEnd]) ∧
    ∀ r ∈ (acts sampleEnv World.init (bothBusy ++ [commitBundle, playToEnd])).db.summaryLedger,
      r.taskId = sampleTask → r.state ≠ .generating := by
  have hrun : HarmlessRun sampleEnv World.init (bothBusy ++ [commitBundle, playToEnd]) := by
    decide +kernel
  refine ⟨hrun, fun r hr htask => ?_⟩
  have hpc : (acts sampleEnv World.init (bothBusy ++ [commitBundle, playToEnd])).pc =
      .returned (.ok (.published ⟨sampleTask, 2, cacheReference sampleEnv sampleTask 2, 2⟩ false)) := by
    decide +kernel
  exact (summary_worker_never_wedges sampleEnv _ hrun).1 _ hpc r hr htask

/-- Played to the end first: `publish_summary` refuses, the call returns and its row stays
    `generating`. Every later request finds the task busy, and after a restart the claim can not even
    be loaded. -/
theorem summary_worker_wedges :
    let w := acts sampleEnv World.init (bothBusy ++ [playToEnd, commitBundle])
    w.pc = .returned (.error (.store .summaryClaimChanged)) ∧
    (w.db.summaryLedger.any fun r => r.taskId == w.task && r.state == .generating) = true ∧
    (acts sampleEnv w [.resume sampleTask, .worker {}, .run sampleTask "request-3", .worker {}]).pc =
      .returned (.error (.store .summaryBusy)) ∧
    (acts sampleEnv w [.restart, .resume sampleTask, .worker {}]).pc =
      .returned (.error (.store .invalidSummaryState)) := by
  decide +kernel

end CodexKeyboard.Summary
