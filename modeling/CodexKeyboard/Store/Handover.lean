import CodexKeyboard.Store.Claims

/-! How a worker comes by a claim, and why nothing the daemon commits in between takes it away. -/

namespace CodexKeyboard.Store

open Schemes Transact

variable {P : Type} {env : Env P} {db db' : Database} {op : Op P}

/-- No summary is being generated. -/
def Quiet (db : Database) : Prop := ∀ r ∈ db.summaryLedger, r.state ≠ .generating

/-- A claim in the hands of the one worker: the claim's row is the only one being generated. -/
structure InHand (env : Env P) (db : Database) (task : String) (claim : SummaryClaim) : Prop where
  task : claim.taskId = task
  holds : Holds env db claim
  only : ∀ r ∈ db.summaryLedger, r.state = .generating → r.key = (claim.taskId, claim.generation)

/-! ### What leaves the claims alone -/

/-- The active rows and the recorded completions are as before, and no request is new. -/
structure Frame (db db' : Database) : Prop where
  completions : ∃ added, db'.completionLedger = db.completionLedger ++ added ∧
    ∀ c ∈ added, c.summarizedGeneration = none
  active : ∀ r, r.active = true → (r ∈ db'.summaryLedger ↔ r ∈ db.summaryLedger)
  requests : ∀ r' ∈ db'.summaryLedger, ∃ r ∈ db.summaryLedger, r.requestId = r'.requestId

theorem frame_of_ledgers (hledger : db'.summaryLedger = db.summaryLedger)
    (hcompletions : db'.completionLedger = db.completionLedger) : Frame db db' := by
  refine ⟨⟨[], by simp [hcompletions], by simp⟩, fun r _ => by rw [hledger], fun r hr => ?_⟩
  rw [hledger] at hr
  exact ⟨r, hr, rfl⟩

/-- Rewriting rows that are not active, and do not become so. -/
theorem frame_of_update {target : SummaryRow → Bool} {g : SummaryRow → SummaryRow}
    (hledger : db'.summaryLedger = Table.update target g db.summaryLedger)
    (hcompletions : db'.completionLedger = db.completionLedger)
    (htarget : ∀ r, target r = true → r.active = false) (hactive : ∀ r, (g r).active = false)
    (hrequest : ∀ r, (g r).requestId = r.requestId) : Frame db db' := by
  refine ⟨⟨[], by simp [hcompletions], by simp⟩, fun r ha => ?_, fun r' hr' => ?_⟩
  · rw [hledger]
    constructor
    · intro hr
      rcases Table.mem_update_cases hr with ⟨hr, _⟩ | ⟨s, _, _, rfl⟩
      · exact hr
      · rw [hactive s] at ha
        cases ha
    · intro hr
      refine Table.mem_update_of_not hr ?_
      rw [Bool.eq_false_iff]
      intro ht
      rw [htarget r ht] at ha
      cases ha
  · rw [hledger] at hr'
    rcases Table.mem_update_cases hr' with ⟨hr, _⟩ | ⟨s, hs, _, rfl⟩
    · exact ⟨r', hr, rfl⟩
    · exact ⟨s, hs, (hrequest s).symm⟩

theorem active_release (r : SummaryRow) : r.release.active = false := by
  simp only [SummaryRow.active, SummaryRow.release]
  split <;> rfl

theorem active_eq_false {r : SummaryRow} (hg : r.state ≠ .generating) (hi : r.state ≠ .interrupted) :
    r.active = false := by
  rw [Bool.eq_false_iff, ne_eq, SummaryRow.active_iff]
  tauto

/-- A call that takes no claim, publishes none and is no reopen. -/
theorem Effect.frame (he : Effect env op db db') (hclaims : op.onClaims = false)
    (hpublish : ∀ claim cacheObject, op ≠ .publishSummary claim cacheObject)
    (hreopen : op ≠ .reopen) : Frame db db' := by
  cases he with
  | same => exact frame_of_ledgers rfl rfl
  | queue jobs sequence onQueue => exact frame_of_ledgers rfl rfl
  | bound t schema => exact frame_of_ledgers rfl rfl
  | attempted onClaims t schema => simp [hclaims] at onClaims
  | observed cursors schema => exact frame_of_ledgers rfl rfl
  | recorded cursors schema row pending id turnPack completions =>
    refine ⟨⟨[row], rfl, by simpa using pending⟩, fun r _ => Iff.rfl, fun r hr => ⟨r, hr, rfl⟩⟩
  | claimed onClaims claim valid new schema => simp [hclaims] at onClaims
  | resumed onClaims target interrupted schema => simp [hclaims] at onClaims
  | abandoned onClaims target attempts active schema => simp [hclaims] at onClaims
  | published publication => exact absurd rfl (hpublish _ _)
  | acquired lease acquisition =>
    rw [acquisition.commits]
    refine frame_of_update rfl rfl (fun r ht => ?_) (fun _ => rfl) fun _ => rfl
    obtain ⟨_, hs, _⟩ := SummaryRow.leasable_iff.1 ht
    exact active_eq_false (by simp [hs]) (by simp [hs])
  | released lease release =>
    rw [release.commits]
    refine frame_of_update rfl rfl (fun r ht => ?_) active_release fun _ => rfl
    simp only [Bool.and_eq_true, beq_iff_eq] at ht
    exact active_eq_false (by simp [ht.2]) (by simp [ht.2])
  | finished finish =>
    rw [finish.commits]
    refine frame_of_update rfl rfl (fun r ht => ?_) (fun _ => rfl) fun _ => rfl
    obtain ⟨_, hs, _⟩ := SummaryRow.playedBy_iff.1 ht
    exact active_eq_false (by simp [hs]) (by simp [hs])
  | interrupted schema => exact absurd rfl hreopen
  | leasesDropped schema => exact absurd rfl hreopen

theorem Quiet.frame (h : Quiet db) (hf : Frame db db') : Quiet db' := by
  intro r hr hs
  exact h r ((hf.active r (SummaryRow.active_iff.2 (Or.inl hs))).1 hr) hs

theorem Holds.frame {claim : SummaryClaim} (h : Holds env db claim) (hf : Frame db db') :
    Holds env db' claim := by
  obtain ⟨added, hadded, hnone⟩ := hf.completions
  refine ⟨?_, ?_, ?_⟩
  · obtain ⟨r, hr, hkey, hs, hrow⟩ := h.row
    exact ⟨r, (hf.active r (SummaryRow.active_iff.2 (Or.inl hs))).2 hr, hkey, hs, hrow⟩
  · obtain ⟨rows, hrows, hcompletions⟩ := h.covers
    refine ⟨rows, hrows.mono ?_, hcompletions⟩
    rw [hadded]
    exact List.subset_append_left _ _
  · intro u hu
    obtain ⟨htask, hcache, hcount⟩ := h.previous u hu
    refine ⟨htask, hcache, ?_⟩
    -- a completion recorded since is pending, so it is nobody's coverage yet
    have hzero : added.countP (CompletionRow.coveredBy claim.taskId u.generation) = 0 := by
      rw [List.countP_eq_zero]
      intro c hc
      simp [CompletionRow.coveredBy, hnone c hc]
    rw [hadded, List.countP_append, hzero, Nat.add_zero, hcount]

theorem InHand.frame {task : String} {claim : SummaryClaim} (h : InHand env db task claim)
    (hf : Frame db db') : InHand env db' task claim := by
  refine ⟨h.task, h.holds.frame hf, fun r hr hs => ?_⟩
  exact h.only r ((hf.active r (SummaryRow.active_iff.2 (Or.inl hs))).1 hr) hs

/-- No row of a task is active. -/
def Idle (db : Database) (task : String) : Prop :=
  ∀ r ∈ db.summaryLedger, r.taskId = task → r.active = false

theorem Idle.frame {task : String} (h : Idle db task) (hf : Frame db db') : Idle db' task := by
  intro r hr htask
  rw [Bool.eq_false_iff]
  intro ha
  rw [h r ((hf.active r ha).1 hr) htask] at ha
  cases ha

/-! ### Letting a claim go -/

theorem InHand.published {task cacheObject : String} {claim : SummaryClaim} {unread : UnreadSummary}
    (h : InHand env db task claim) (hok : StoreOk env db)
    (hres : publishSummary env claim cacheObject db = (.ok unread, db')) :
    Quiet db' ∧ Idle db' task := by
  have hp := publishSummary_ok hres
  have hidle := hp.idle hok.ledger
  refine ⟨fun r' hr' hs => ?_, fun r hr htask => hidle r hr (htask.trans h.task.symm)⟩
  have hactive : r'.active = true := SummaryRow.active_iff.2 (Or.inl hs)
  have hne : r'.taskId ≠ claim.taskId := fun htask => by simp [hidle r' hr' htask] at hactive
  rw [hp.commits] at hr'
  simp only [publishing_eq_map] at hr'
  obtain ⟨r, hr, rfl⟩ := List.mem_map.1 hr'
  have htask := taskId_of_key (key_republish claim cacheObject r)
  rcases republish_cases claim cacheObject r with ⟨hpub, _⟩ | ⟨hsup, _⟩ | ⟨_, _, heq⟩
  · exact hne (htask.trans (congrArg Prod.fst (SummaryRow.publishable_iff.1 hpub).1))
  · obtain ⟨_, _, hkey, _⟩ := SummaryClaim.supersedes_iff.1 hsup
    exact hne (htask.trans (congrArg Prod.fst hkey))
  · rw [heq] at hs hne
    exact hne (congrArg Prod.fst (h.only r hr hs))

theorem InHand.abandoned {task : String} {claim : SummaryClaim} (h : InHand env db task claim)
    (hok : StoreOk env db) : ∃ db', abandonSummaryClaim env claim db = (.ok true, db') ∧
      StoreOk env db' ∧ Quiet db' ∧ Idle db' task := by
  obtain ⟨db', hres, hidle⟩ := h.holds.abandonSummaryClaim_total hok
  obtain ⟨target, attempts, hactive, hschema, rfl⟩ := abandonSummaryClaim_ok hres
  have heff : Effect env (.abandonSummaryClaim claim) db _ :=
    .abandoned rfl target attempts hactive hschema
  refine ⟨_, hres, hok.effect heff, fun r' hr' hs => ?_, fun r hr htask =>
    hidle r hr (htask.trans h.task.symm)⟩
  have hact : r'.active = true := SummaryRow.active_iff.2 (Or.inl hs)
  rcases Table.mem_update_cases hr' with ⟨hr, _⟩ | ⟨s, _, _, rfl⟩
  · have htask := congrArg Prod.fst (h.only r' hr hs)
    rw [hidle r' hr' htask] at hact
    cases hact
  · simp [SummaryRow.abandon] at hs

/-! ### Taking a claim up -/

theorem Unplayed.regenerated {task : String} {previous : Option Nat} {target : SummaryRow → Bool}
    (h : Unplayed db task previous) : Unplayed (regenerated target db) task previous := by
  intro p hp u hu hkey hs
  rcases Table.mem_update_cases hu with ⟨hu, _⟩ | ⟨s, _, _, rfl⟩
  · exact h p hp u hu hkey hs
  · simp [SummaryRow.regenerate] at hs

/-- A claim whose previous generation loads was made over a generation that is unplayed. -/
theorem LedgerOk.unplayed_of_loadPrevious (h : LedgerOk env db) {task : String} {previous : Option Nat}
    {unread : Option UnreadSummary} (hload : loadPrevious db task previous = .ok unread) :
    Unplayed db task previous := by
  rintro p rfl u hu hkey hs
  simp only [loadPrevious, bind_ok] at hload
  obtain ⟨current, hquery, hload⟩ := hload
  cases current with
  | none => simp at hload
  | some current =>
    simp only at hload
    split at hload
    next hgen =>
      obtain ⟨row, hrow, htask, hunread, _, hgen', _⟩ := queryCurrentUnread_some hquery
      have hsame : u = row := h.eq_of_key hu hrow (by
        rw [hkey, SummaryRow.key, htask, ← hgen', hgen])
      rw [← hsame] at hunread
      rcases (SummaryRow.currentUnread_iff.1 hunread).1 with hc | hc <;> simp [hs] at hc
    next => cases hload

/-- Taking up the one interrupted row `r` that `target` picks. -/
structure TakenUp (env : Env P) (db : Database) (r : SummaryRow) (target : SummaryRow → Bool) :
    Prop where
  one : db.summaryLedger.countP target = 1
  schema : SummarySchema (Table.update target SummaryRow.regenerate db.summaryLedger)
  store : StoreOk env (regenerated target db)
  row : r.regenerate ∈ (regenerated target db).summaryLedger
  only : ∀ s ∈ (regenerated target db).summaryLedger, s.state = .generating → s.key = r.key

theorem StoreOk.takenUp (h : StoreOk env db) (hquiet : Quiet db) {r : SummaryRow}
    (hr : r ∈ db.summaryLedger) (target : SummaryRow → Bool) (htarget : target r = true)
    (honly : ∀ s, target s = true → s.state = .interrupted ∧ s.key = r.key) :
    TakenUp env db r target := by
  have hint := fun s hs => (honly s hs).1
  have hschema := h.ledger.regenerate_schema hint
  refine ⟨?_, hschema, ?_, Table.mem_update_of hr htarget, fun s hs hgen => ?_⟩
  · exact h.ledger.schema.2.1.countP_eq_one (fun s _ hs => ⟨rfl, (honly s hs).2⟩) hr htarget
  · have heff : Effect env (.resumeInterruptedSummary r.taskId) db _ :=
      .resumed rfl target hint hschema
    exact h.effect heff
  · rcases Table.mem_update_cases hs with ⟨hs, _⟩ | ⟨s, _, ht, rfl⟩
    · exact absurd hgen (hquiet s hs)
    · exact (honly s ht).2

/-- The claim of a row that was taken up loads, when its previous generation is unplayed. -/
theorem TakenUp.load {r : SummaryRow} {target : SummaryRow → Bool} {task request : String}
    (h : TakenUp env db r target) (htask : r.taskId = task) (hrequest : r.claimId = some request)
    (hunplayed : Unplayed (regenerated target db) task r.previousGeneration)
    (outcome : SummaryClaimOutcome) :
    ∃ claim, loadSummaryClaim (regenerated target db) outcome request task r.generation
      r.previousGeneration r.coversCompletions = .ok claim ∧
      InHand env (regenerated target db) task claim := by
  subst htask
  obtain ⟨claim, hload, hholds, htask, hgen⟩ :=
    h.store.loadSummaryClaim_total h.row rfl hrequest hunplayed outcome
  refine ⟨claim, hload, htask, hholds, fun s hs hstate => ?_⟩
  rw [h.only s hs hstate, SummaryRow.key, htask, hgen]
  rfl

theorem StoreOk.idle_of_uuid (h : StoreOk env db) {task : String} (hid : env.uuidOk task = false) :
    Idle db task := by
  rintro r hr rfl
  rw [Bool.eq_false_iff]
  intro ha
  obtain ⟨request, _, _, hvalid⟩ := (h.claims r hr ha).request
  simp [summaryRequestOk, hid] at hvalid

/-- Resuming answers with nothing to do, or hands over the interrupted claim, as long as the
    generation that claim was made over is unplayed. -/
theorem StoreOk.resumeInterruptedSummary_cases (h : StoreOk env db) (hquiet : Quiet db) {task : String}
    (hunplayed : ∀ r ∈ db.summaryLedger, r.taskId = task → r.state = .interrupted →
      Unplayed db task r.previousGeneration) :
    ((resumeInterruptedSummary env task db = (.error .invalidSummaryRequest, db) ∨
      resumeInterruptedSummary env task db = (.ok none, db)) ∧ Idle db task) ∨
    ∃ claim db', resumeInterruptedSummary env task db = (.ok (some claim), db') ∧
      StoreOk env db' ∧ InHand env db' task claim := by
  by_cases hid : env.uuidOk task = true
  · cases hfind : db.summaryLedger.find? fun r => r.taskId == task && r.state == .interrupted with
    | none =>
      refine Or.inl ⟨Or.inr ?_, fun r hr htask => ?_⟩
      · simp [resumeInterruptedSummary, hid, hfind]
      · have hnot := List.find?_eq_none.1 hfind r hr
        exact active_eq_false (hquiet r hr) (by simpa [htask] using hnot)
    | some r =>
      have hr := List.mem_of_find?_eq_some hfind
      have hp := List.find?_some hfind
      simp only [Bool.and_eq_true, beq_iff_eq] at hp
      obtain ⟨htask, hs⟩ := hp
      obtain ⟨request, hreq, hclaim, _⟩ :=
        (h.claims r hr (SummaryRow.active_iff.2 (Or.inr hs))).request
      have hup := h.takenUp hquiet hr (SummaryRow.interruptedAs request task r.generation) (by
          simp [SummaryRow.interruptedAs, SummaryRow.at_iff, SummaryRow.key, htask, hs, hclaim]) (by
          intro s hs
          simp only [SummaryRow.interruptedAs, Bool.and_eq_true, beq_iff_eq, SummaryRow.at_iff] at hs
          exact ⟨hs.1.2, hs.1.1.trans (by rw [SummaryRow.key, htask])⟩)
      obtain ⟨claim, hload, hhand⟩ :=
        hup.load htask hclaim (hunplayed r hr htask hs).regenerated .replay
      refine Or.inr ⟨claim, _, ?_, hup.store, hhand⟩
      simp only [resumeInterruptedSummary, transaction_eq_ok, bind_ok, ensure_ok, hfind, orThrow_ok,
        Database.putSummaries_ok]
      exact ⟨(), hid, request, hclaim, _, ⟨hup.schema, rfl⟩, (), hup.one, claim, hload, rfl⟩
  · refine Or.inl ⟨Or.inl ?_, h.idle_of_uuid (by simpa using hid)⟩
    simp [resumeInterruptedSummary, hid]

/-! ### A request for a summary -/

/-- A newly made claim is in hand. -/
theorem NewClaim.inHand (h : StoreOk env db) (hquiet : Quiet db) {task request : String}
    {claim : SummaryClaim} (hnew : NewClaim env db task request claim) :
    InHand env { db with summaryLedger := db.summaryLedger ++ [claim.row] } task claim := by
  refine ⟨hnew.taskId, ⟨⟨claim.row, by simp, rfl, rfl, rfl, rfl, rfl, rfl⟩, ?_, ?_⟩, ?_⟩
  · rw [hnew.taskId]
    exact hnew.covers h.ledger
  · intro u hu
    have hquery := hnew.previous
    rw [hu] at hquery
    obtain ⟨row, hrow, htask, hunread, hutask, hgen, _, hcache, hcount, _⟩ :=
      queryCurrentUnread_some hquery
    have hpub : row.state.published = true := by
      rcases (SummaryRow.currentUnread_iff.1 hunread).1 with hs | hs <;> rw [hs] <;> rfl
    have hshape := (h.ledger.shape row hrow).cache hpub
    rw [hcache, Option.some.injEq, htask, ← hgen] at hshape
    rw [hnew.taskId]
    exact ⟨hutask, hshape, by rw [hcount, hgen]⟩
  · intro r hr hs
    rcases List.mem_append.1 hr with hr | hr
    · exact absurd hs (hquiet r hr)
    · rw [List.mem_singleton] at hr
      rw [hr]
      rfl

/-- A replayed request finds its summary published, or gets its interrupted claim back. -/
theorem StoreOk.replaySummaryRequest_ok (h : StoreOk env db) (hquiet : Quiet db)
    {task request : String} {prior : SummaryRow} (hprior : prior ∈ db.summaryLedger)
    (hrequest : prior.requestId = some request) {result : Option SummaryClaimResult}
    (hres : replaySummaryRequest task request prior db = .ok (result, db')) :
    (db' = db ∧ ∀ claim, result ≠ some (.claimed claim)) ∨
    ∃ claim, result = some (.claimed claim) ∧ StoreOk env db' ∧ InHand env db' task claim := by
  simp only [replaySummaryRequest, bind_ok, ensure_ok] at hres
  obtain ⟨_, htask, hres⟩ := hres
  split at hres
  case h_6 hs =>
    have hactive := h.claims prior hprior (SummaryRow.active_iff.2 (Or.inr hs))
    obtain ⟨request', hreq', hclaim, _⟩ := hactive.request
    obtain rfl : request' = request := by simpa [hrequest] using hreq'.symm
    have hup := h.takenUp hquiet hprior (fun r => r.requestId == some request' &&
        r.interruptedAs request' task prior.generation) (by
        simp [SummaryRow.interruptedAs, SummaryRow.at_iff, SummaryRow.key, htask, hs, hclaim,
          hrequest]) (by
        intro s hs
        simp only [SummaryRow.interruptedAs, Bool.and_eq_true, beq_iff_eq, SummaryRow.at_iff] at hs
        exact ⟨hs.2.1.2, hs.2.1.1.trans (by rw [SummaryRow.key, htask])⟩)
    simp only [bind_ok, Database.putSummaries_ok, Except.ok.injEq, Prod.mk.injEq] at hres
    obtain ⟨_, ⟨_, rfl⟩, _, _, claim, hload, rfl, rfl⟩ := hres
    -- what loaded was made over an unplayed generation
    have hprevious := hload
    simp only [loadSummaryClaim, bind_ok] at hprevious
    obtain ⟨_, _, _, _, _, _, previous, hprevious, _⟩ := hprevious
    obtain ⟨claim', hload', hhand⟩ := hup.load htask hclaim
      (hup.store.ledger.unplayed_of_loadPrevious hprevious) .replay
    obtain rfl : claim = claim' := Except.ok.inj (hload.symm.trans hload')
    exact Or.inr ⟨claim, rfl, hup.store, hhand⟩
  case h_7 hs => exact absurd hs (hquiet prior hprior)
  all_goals
    simp only [Except.ok.injEq, Prod.mk.injEq, reduceCtorEq] at hres
    try exact Or.inl ⟨hres.2.symm, fun claim => by simp [← hres.1]⟩

/-- A successful request changes nothing or leaves the worker with a claim in hand. -/
theorem StoreOk.claimSummary_ok (h : StoreOk env db) (hquiet : Quiet db) {task request : String}
    {result : Option SummaryClaimResult} (hres : claimSummary env task request db = (.ok result, db')) :
    (db' = db ∧ ∀ claim, result ≠ some (.claimed claim)) ∨
    ∃ claim, result = some (.claimed claim) ∧ StoreOk env db' ∧ InHand env db' task claim := by
  have hbody := hres
  simp only [claimSummary, transaction_eq_ok, bind_ok, validateSummaryRequest, ensure_ok] at hbody
  obtain ⟨_, hvalid, hbody⟩ := hbody
  split at hbody
  next prior hprior =>
    exact h.replaySummaryRequest_ok hquiet (List.mem_of_find?_eq_some hprior)
      (by simpa using List.find?_some hprior) hbody
  next hfresh =>
    have hnone : ∀ r ∈ db.summaryLedger, r.requestId ≠ some request := by
      intro r hr
      simpa using List.find?_eq_none.1 hfresh r hr
    split at hbody
    next existing hexisting =>
      -- an active row carries its request, which would have been found
      have hmem := List.mem_of_find?_eq_some hexisting
      have hp := List.find?_some hexisting
      simp only [Bool.and_eq_true] at hp
      obtain ⟨request', hreq', hclaim, _⟩ := (h.claims existing hmem hp.2).request
      simp only [bind_ok, ensure_ok, orThrow_ok] at hbody
      obtain ⟨claimId, hid, _, rfl, _⟩ := hbody
      rw [hclaim, Option.some.injEq] at hid
      exact absurd (hid ▸ hreq') (hnone existing hmem)
    next hactive =>
      have hidle : Idle db task := by
        intro r hr htask
        simpa [htask] using List.find?_eq_none.1 hactive r hr
      rcases insertSummaryClaim_ok hnone hidle hbody with ⟨rfl, rfl, _⟩ | ⟨claim, rfl, hnew, hschema, rfl⟩
      · exact Or.inl ⟨rfl, by simp⟩
      · have heff : Effect env (.claimSummary task request) db _ :=
          .claimed rfl claim hvalid hnew hschema
        exact Or.inr ⟨claim, rfl, h.effect heff, hnew.inHand h hquiet⟩

theorem LedgerOk.collectPending_avoids (h : LedgerOk env db) {rows : List CompletionRow}
    {acc : List PendingSummaryCompletion} {total : Nat} (hrows : rows ⊆ db.completionLedger)
    (e : StoreError) : Avoids e (collectPending env rows acc total) := by
  induction rows generalizing acc total with
  | nil => simp [collectPending]
  | cons row rows ih =>
    rw [collectPending]
    split
    · simp
    · have hrow := h.observed row (hrows (List.mem_cons_self ..))
      rw [ensure_of (by simp [hrow])]
      refine (avoids_ok _ _).bind fun _ _ => ?_
      simp only
      split
      · simp
      · exact ih fun c hc => hrows (List.mem_cons_of_mem _ hc)

/-- The errors a claim left behind by an earlier call shows itself with. -/
def StoreError.wedged (e : StoreError) : Prop :=
  e = .summaryBusy ∨ e = .summaryClaimChanged ∨ e = .invalidSummaryState

/-- A fresh request on an idle task never meets a claim that somebody left behind. -/
theorem LedgerOk.claimSummary_fresh (h : LedgerOk env db) {task request : String}
    (hidle : Idle db task) (hfresh : ∀ r ∈ db.summaryLedger, r.requestId ≠ some request)
    {e : StoreError} (hwedged : e.wedged) : Avoids e (claimSummary env task request db).1 := by
  have hne : ∀ e', ¬ e'.wedged → e' ≠ e := fun e' hn heq => hn (heq ▸ hwedged)
  refine avoids_transaction ((avoids_ensure (hne _ (by simp [StoreError.wedged]))).bind fun _ _ => ?_)
  have hrequest : (db.summaryLedger.find? fun r => r.requestId == some request) = none := by
    rw [List.find?_eq_none]
    intro r hr
    simpa using hfresh r hr
  have hactive : (db.summaryLedger.find? fun r => r.taskId == task && r.active) = none := by
    rw [List.find?_eq_none]
    intro r hr ht
    simp only [Bool.and_eq_true, beq_iff_eq] at ht
    simp [hidle r hr ht.1] at ht
  simp only [hrequest, hactive]
  refine Avoids.bind ?_ fun previous hprevious => Avoids.bind ?_ fun completions _ => ?_
  · rcases h.queryCurrentUnread_total task with ⟨hq, _⟩ | ⟨_, _, _, _, hq⟩ <;> simp [hq]
  · exact h.collectPending_avoids (fun c hc => (mem_pendingRows hc).1) e
  · split
    · simp
    refine (avoids_ensure (hne _ (by simp [StoreError.wedged]))).bind fun _ _ => Avoids.bind ?_
      fun column hcolumn => Avoids.bind ?_ fun _ _ => by simp
    · cases previous with
      | none => simp [previousColumn]
      | some unread =>
        refine Avoids.bind (fun herr => ?_) fun _ _ => by simp
        exact hne _ (by simp [StoreError.wedged]) (toI64_error.1 herr).2
    · obtain rfl := previousColumn_ok hcolumn
      intro herr
      exact hne _ (by simp [StoreError.wedged]) (Database.putSummaries_error.1 herr).2

/-! ### A restart -/

/-- After a restart no summary is being generated. -/
theorem reopen_quiet {jobs summaries : Nat} (h : reopen db = (.ok (jobs, summaries), db')) :
    Quiet db' := by
  unfold reopen at h
  split at h
  · cases h
  split at h
  · cases h
  next hsum =>
    split at h
    · cases h
    next hlease =>
      obtain ⟨_, rfl⟩ := recoverInterruptedSummaries_ok hsum
      obtain ⟨_, rfl⟩ := recoverInterruptedPlaybackLeases_ok hlease
      simp only [Prod.mk.injEq] at h
      obtain ⟨_, rfl⟩ := h
      intro r hr hs
      rcases Table.mem_update_cases hr with ⟨hr, _⟩ | ⟨s, _, _, rfl⟩
      · rcases Table.mem_update_cases hr with ⟨_, hnot⟩ | ⟨s, _, _, rfl⟩
        · simp [hs] at hnot
        · cases hs
      · have hcontra := SummaryRow.active_iff.2 (Or.inl hs)
        rw [active_release] at hcontra
        cases hcontra

end CodexKeyboard.Store
