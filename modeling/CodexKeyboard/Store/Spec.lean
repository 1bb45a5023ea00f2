import CodexKeyboard.Store.Ops

/-! What each call on the ledgers can do: one inversion lemma for every operation, read off its
    transaction. Later modules cite these and never open an operation again. -/

namespace CodexKeyboard.Store

open Schemes Transact

variable {P : Type} {env : Env P} {db db' : Database} {e : StoreError}

/-! ### Bindings and completions -/

theorem setBinding_ok {slot : Nat} {expected : Option Nat} {task : String} {result : Option Binding}
    (h : setBinding slot expected task db = (.ok result, db')) :
    db' = db ∨ ∃ t, BindingSchema t ∧ db' = { db with bindings := t } := by
  simp only [setBinding, transaction_eq_ok, bind_ok] at h
  obtain ⟨_, _, h⟩ := h
  split at h
  next => simp only [Except.ok.injEq, Prod.mk.injEq] at h; exact Or.inl h.2.symm
  next =>
    simp only [bind_ok, Database.putBindings_ok, Except.ok.injEq, Prod.mk.injEq] at h
    obtain ⟨_, _, _, ⟨hschema, rfl⟩, _, rfl⟩ := h
    exact Or.inr ⟨_, hschema, rfl⟩

theorem setBinding_error {slot : Nat} {expected : Option Nat} {task : String}
    (h : setBinding slot expected task db = (.error e, db')) : db' = db := by
  simp only [setBinding, transaction_eq_error] at h
  exact h.2.symm

/-- A committed completion is a known one, or a new pending row at the end of the ledger. -/
theorem commitRolloutCompletionOn_ok {binding : Option Binding} {expected : Option (RolloutCursor P)}
    {next : RolloutCursor P} {id turnPack : String} {now : Int} {outcome : CompletionOutcome}
    (h : commitRolloutCompletionOn env binding expected next id turnPack now db = (.ok outcome, db')) :
    rolloutCompletionOk env expected next id turnPack = true ∧
    ∃ completions cursors, CursorSchema cursors ∧
      db' = { db with completionLedger := completions, rolloutCursors := cursors } ∧
      ((outcome = .replay ∧ completions = db.completionLedger) ∨
        (outcome = .inserted ∧ CompletionSchema completions ∧
          (∀ c ∈ db.completionLedger, c.completionId ≠ id) ∧
          completions = db.completionLedger ++ [completionRow next id turnPack now])) := by
  simp only [commitRolloutCompletionOn, transaction_eq_ok, bind_ok, validateRolloutCompletion,
    ensure_ok] at h
  obtain ⟨_, hvalid, _, _, _, _, _, _, ⟨outcome', tx⟩, hins, row, _, h⟩ := h
  simp only [Database.putCursors_ok, Except.ok.injEq, Prod.mk.injEq] at h
  obtain ⟨_, ⟨hcursor, rfl⟩, rfl, rfl⟩ := h
  refine ⟨hvalid, ?_⟩
  unfold insertCompletion at hins
  split at hins
  next existing hfind =>
    simp only [bind_ok, ensure_ok, Except.ok.injEq, Prod.mk.injEq] at hins
    obtain ⟨_, _, rfl, rfl⟩ := hins
    exact ⟨_, _, hcursor, rfl, Or.inl ⟨rfl, rfl⟩⟩
  next hnone =>
    simp only [bind_ok, Database.putCompletions_ok, Except.ok.injEq, Prod.mk.injEq] at hins
    obtain ⟨_, ⟨hschema, rfl⟩, rfl, rfl⟩ := hins
    refine ⟨_, _, hcursor, rfl, Or.inr ⟨rfl, hschema, fun c hc => ?_, rfl⟩⟩
    simpa using List.find?_eq_none.1 hnone c hc

theorem commitRolloutCompletionOn_error {binding : Option Binding}
    {expected : Option (RolloutCursor P)} {next : RolloutCursor P} {id turnPack : String} {now : Int}
    (h : commitRolloutCompletionOn env binding expected next id turnPack now db = (.error e, db')) :
    db' = db := by
  simp only [commitRolloutCompletionOn, transaction_eq_error] at h
  exact h.2.symm

/-! ### Queries -/

/-- The current unread generation and its coverage, as `query_current_unread` reports them. -/
theorem queryCurrentUnread_some {task : String} {unread : UnreadSummary}
    (h : queryCurrentUnread db task = .ok (some unread)) :
    ∃ row ∈ db.summaryLedger, row.taskId = task ∧ row.currentUnread = true ∧
      unread.taskId = task ∧ unread.generation = row.generation ∧ 0 < row.generation ∧
      row.cacheObject = some unread.cacheObject ∧
      unread.coverageCount = db.completionLedger.countP (CompletionRow.coveredBy task row.generation) ∧
      0 < unread.coverageCount ∧ unread.coverageCount ≤ u32Max := by
  unfold queryCurrentUnread at h
  split at h
  next => simp at h
  next row hfind =>
    have hrow := List.mem_of_find?_eq_some hfind
    have hp := List.find?_some hfind
    simp only [Bool.and_eq_true, beq_iff_eq] at hp
    obtain ⟨htask, hunread⟩ := hp
    cases hcache : row.cacheObject with
    | none => simp [hcache] at h
    | some cacheObject =>
      simp only [hcache, bind_ok, ensure_ok, Except.ok.injEq, Option.some.injEq] at h
      obtain ⟨_, ⟨hgen, hpos⟩, _, hmax, rfl⟩ := h
      refine ⟨row, hrow, htask, hunread, rfl, rfl, hgen, hcache, ?_, ?_, ?_⟩
      · simp only [htask]
      · simpa using hpos
      · simpa using hmax

theorem queryCurrentUnread_none {task : String} (h : queryCurrentUnread db task = .ok none) :
    ∀ row ∈ db.summaryLedger, row.taskId = task → row.currentUnread = false := by
  unfold queryCurrentUnread at h
  split at h
  next hnone =>
    intro row hrow htask
    have := List.find?_eq_none.1 hnone row hrow
    simpa [htask] using this
  next row hfind =>
    cases hcache : row.cacheObject <;> simp [hcache] at h

/-- What `collectPending` returns are pending rows it was given, each within its bounds. -/
theorem collectPending_ok {rows : List CompletionRow} {acc result : List PendingSummaryCompletion}
    {total : Nat} (h : collectPending env rows acc total = .ok result) :
    ∃ taken, taken <+: rows ∧
      result = acc ++ taken.map (fun c => ⟨c.completionId, c.turnPack⟩) ∧
      (∀ c ∈ taken, env.uuidOk c.completionId = true ∧ turnPackOk c.turnPack = true) ∧
      (acc.length ≤ maxSummaryCompletionsPerClaim → result.length ≤ maxSummaryCompletionsPerClaim) := by
  induction rows generalizing acc total with
  | nil =>
    simp only [collectPending, Except.ok.injEq] at h
    subst h
    exact ⟨[], List.nil_prefix, by simp, by simp, id⟩
  | cons row rows ih =>
    rw [collectPending] at h
    split at h
    next =>
      simp only [Except.ok.injEq] at h
      subst h
      exact ⟨[], List.nil_prefix, by simp, by simp, id⟩
    next hlen =>
      simp only [bind_ok, ensure_ok, Bool.and_eq_true] at h
      obtain ⟨_, hrow, h⟩ := h
      split at h
      next =>
        simp only [Except.ok.injEq] at h
        subst h
        exact ⟨[], List.nil_prefix, by simp, by simp, id⟩
      next =>
        obtain ⟨taken, hpre, hres, hok, hbound⟩ := ih h
        refine ⟨row :: taken, List.cons_prefix_cons.2 ⟨rfl, hpre⟩, by simp [hres], ?_, ?_⟩
        · intro c hc
          rcases List.mem_cons.1 hc with rfl | hc
          · exact hrow
          · exact hok c hc
        · intro hacc
          refine hbound ?_
          simp only [List.length_append, List.length_cons, List.length_nil]
          omega

theorem mem_pendingRows {task : String} {c : CompletionRow} (h : c ∈ pendingRows db task) :
    c ∈ db.completionLedger ∧ c.taskId = task ∧ c.summarizedGeneration = none := by
  have hmem := Table.mem_orderBy.1 (List.mem_of_mem_take h)
  have hfil := List.mem_filter.1 hmem
  simpa [CompletionRow.pending] using hfil

/-- Every completion a new claim lists is a pending row of the task. -/
theorem queryPendingSummaryCompletions_ok {task : String} {result : List PendingSummaryCompletion}
    (h : queryPendingSummaryCompletions env db task = .ok result) :
    result.length ≤ maxSummaryCompletionsPerClaim ∧
    ∀ p ∈ result, env.uuidOk p.completionId = true ∧ turnPackOk p.turnPack = true ∧
      ∃ c ∈ db.completionLedger, c.taskId = task ∧ c.summarizedGeneration = none ∧
        c.completionId = p.completionId ∧ c.turnPack = p.turnPack := by
  obtain ⟨taken, hpre, hres, hok, hbound⟩ := collectPending_ok h
  refine ⟨hbound (by simp [maxSummaryCompletionsPerClaim]), fun p hp => ?_⟩
  rw [hres, List.nil_append, List.mem_map] at hp
  obtain ⟨c, hc, rfl⟩ := hp
  obtain ⟨hmem, htask, hpend⟩ := mem_pendingRows (hpre.subset hc)
  exact ⟨(hok c hc).1, (hok c hc).2, c, hmem, htask, hpend, rfl, rfl⟩

/-! ### Claims -/

theorem maxGeneration_le {t : List SummaryRow} {task : String} {r : SummaryRow} (hr : r ∈ t)
    (htask : r.taskId = task) : r.generation ≤ maxGeneration t task := by
  unfold maxGeneration
  have hmem : r ∈ t.filter fun r => r.taskId == task := by simp [hr, htask]
  generalize (t.filter fun r => r.taskId == task) = rows at hmem
  induction rows with
  | nil => cases hmem
  | cons a l ih =>
    rw [List.foldr_cons]
    rcases List.mem_cons.1 hmem with rfl | hmem
    · exact le_max_left _ _
    · exact le_trans (ih hmem) (le_max_right _ _)

theorem previousColumn_ok {previous : Option UnreadSummary} {column : Option Nat}
    (h : previousColumn previous = .ok column) : column = previous.map (·.generation) := by
  cases previous with
  | none => simpa [previousColumn] using h.symm
  | some summary =>
    simp only [previousColumn, bind_ok, toI64_ok, Except.ok.injEq] at h
    obtain ⟨_, ⟨_, rfl⟩, rfl⟩ := h
    rfl

/-- The facts a newly inserted claim row rests on. -/
structure NewClaim (env : Env P) (db : Database) (task request : String) (claim : SummaryClaim) :
    Prop where
  outcome : claim.outcome = .inserted
  requestId : claim.requestId = request
  taskId : claim.taskId = task
  generation : claim.generation = maxGeneration db.summaryLedger task + 1
  inRange : claim.generation ≤ i64Max
  previous : queryCurrentUnread db task = .ok claim.previousUnread
  pending : queryPendingSummaryCompletions env db task = .ok claim.completions
  nonempty : claim.completions ≠ []
  freshRequest : ∀ r ∈ db.summaryLedger, r.requestId ≠ some request
  noActive : ∀ r ∈ db.summaryLedger, r.taskId = task → r.active = false

/-- The row a claim stands for. -/
def SummaryClaim.row (claim : SummaryClaim) : SummaryRow :=
  claimRow claim.taskId claim.requestId claim.generation (claim.previousUnread.map (·.generation))
    (claim.completions.map (·.completionId))

theorem insertSummaryClaim_ok {task request : String} {result : Option SummaryClaimResult}
    (hfresh : ∀ r ∈ db.summaryLedger, r.requestId ≠ some request)
    (hactive : ∀ r ∈ db.summaryLedger, r.taskId = task → r.active = false)
    (h : insertSummaryClaim env task request db = .ok (result, db')) :
    (result = none ∧ db' = db ∧ queryPendingSummaryCompletions env db task = .ok []) ∨
    ∃ claim, result = some (.claimed claim) ∧ NewClaim env db task request claim ∧
      SummarySchema (db.summaryLedger ++ [claim.row]) ∧
      db' = { db with summaryLedger := db.summaryLedger ++ [claim.row] } := by
  simp only [insertSummaryClaim, bind_ok] at h
  obtain ⟨previousUnread, hprev, completions, hpend, h⟩ := h
  split at h
  next hnil =>
    simp only [Except.ok.injEq, Prod.mk.injEq] at h
    exact Or.inl ⟨h.1.symm, h.2.symm, hnil ▸ hpend⟩
  next hne =>
    simp only [bind_ok, ensure_ok, Database.putSummaries_ok, Except.ok.injEq, Prod.mk.injEq] at h
    obtain ⟨_, hrange, previous, hprevious, _, ⟨hschema, rfl⟩, rfl, rfl⟩ := h
    obtain rfl := previousColumn_ok hprevious
    exact Or.inr ⟨_, rfl, ⟨rfl, rfl, rfl, rfl, hrange, hprev, hpend, hne, hfresh, hactive⟩,
      hschema, rfl⟩

/-- The rows one call moves from `interrupted` back to `generating`. -/
def regenerated (target : SummaryRow → Bool) (db : Database) : Database :=
  { db with summaryLedger := Table.update target SummaryRow.regenerate db.summaryLedger }

theorem replaySummaryRequest_ok {task request : String} {prior : SummaryRow}
    {result : Option SummaryClaimResult} (h : replaySummaryRequest task request prior db = .ok (result, db')) :
    db' = db ∨ ∃ target : SummaryRow → Bool, (∀ r, target r = true → r.state = .interrupted) ∧
      SummarySchema (Table.update target SummaryRow.regenerate db.summaryLedger) ∧
      db' = regenerated target db := by
  simp only [replaySummaryRequest, bind_ok] at h
  obtain ⟨_, _, h⟩ := h
  split at h
  case h_6 =>
    simp only [bind_ok, Database.putSummaries_ok, Except.ok.injEq, Prod.mk.injEq] at h
    obtain ⟨_, ⟨hschema, rfl⟩, _, _, _, _, _, rfl⟩ := h
    refine Or.inr ⟨_, ?_, hschema, rfl⟩
    intro r hr
    simp only [SummaryRow.interruptedAs, Bool.and_eq_true, beq_iff_eq] at hr
    exact hr.2.1.2
  case h_7 =>
    simp only [bind_ok, Except.ok.injEq, Prod.mk.injEq] at h
    obtain ⟨_, _, _, rfl⟩ := h
    exact Or.inl rfl
  all_goals first
    | exact Or.inl (by simpa using h.symm)
    | simp only [Except.ok.injEq, Prod.mk.injEq] at h; exact Or.inl h.2.symm

/-- A successful claim finds the ledger as it is, takes an interrupted claim up again, or inserts a
    row for a new one. -/
theorem claimSummary_ok {task request : String} {result : Option SummaryClaimResult}
    (h : claimSummary env task request db = (.ok result, db')) :
    summaryRequestOk env task request = true ∧
    (db' = db ∨
      (∃ target : SummaryRow → Bool, (∀ r, target r = true → r.state = .interrupted) ∧
        SummarySchema (Table.update target SummaryRow.regenerate db.summaryLedger) ∧
        db' = regenerated target db) ∨
      ∃ claim, result = some (.claimed claim) ∧ NewClaim env db task request claim ∧
        SummarySchema (db.summaryLedger ++ [claim.row]) ∧
        db' = { db with summaryLedger := db.summaryLedger ++ [claim.row] }) := by
  simp only [claimSummary, transaction_eq_ok, bind_ok, validateSummaryRequest, ensure_ok] at h
  obtain ⟨_, hvalid, h⟩ := h
  refine ⟨hvalid, ?_⟩
  split at h
  next prior hprior =>
    rcases replaySummaryRequest_ok h with h | h
    · exact Or.inl h
    · exact Or.inr (Or.inl h)
  next hnone =>
    split at h
    next existing hexisting =>
      simp only [bind_ok, Except.ok.injEq, Prod.mk.injEq] at h
      obtain ⟨_, _, _, _, _, _, _, rfl⟩ := h
      exact Or.inl rfl
    next hactive =>
      have hfresh : ∀ r ∈ db.summaryLedger, r.requestId ≠ some request := by
        intro r hr
        simpa using List.find?_eq_none.1 hnone r hr
      have hidle : ∀ r ∈ db.summaryLedger, r.taskId = task → r.active = false := by
        intro r hr htask
        simpa [htask] using List.find?_eq_none.1 hactive r hr
      rcases insertSummaryClaim_ok hfresh hidle h with ⟨_, h, _⟩ | h
      · exact Or.inl h
      · exact Or.inr (Or.inr h)

theorem claimSummary_error {task request : String}
    (h : claimSummary env task request db = (.error e, db')) : db' = db := by
  simp only [claimSummary, transaction_eq_error] at h
  exact h.2.symm

theorem abandonSummaryClaim_ok {claim : SummaryClaim} {changed : Bool}
    (h : abandonSummaryClaim env claim db = (.ok changed, db')) :
    ∃ target attempts, (∀ r : SummaryRow, target r = true → r.active = true) ∧
      SummarySchema (Table.update target SummaryRow.abandon db.summaryLedger) ∧
      db' = { db with
        summaryLedger := Table.update target SummaryRow.abandon db.summaryLedger
        summaryTtsAttempts := Table.delete attempts db.summaryTtsAttempts } := by
  simp only [abandonSummaryClaim, transaction_eq_ok, bind_ok, toI64_ok, Database.putSummaries_ok,
    Except.ok.injEq, Prod.mk.injEq] at h
  obtain ⟨_, _, _, ⟨_, rfl⟩, _, ⟨hschema, rfl⟩, _, rfl⟩ := h
  have htarget : ∀ r : SummaryRow, (r.at claim.taskId claim.generation && r.active &&
      r.claimId == some claim.requestId) = true → r.active = true := by
    intro r hr
    simp only [Bool.and_eq_true] at hr
    exact hr.1.2
  split
  next => exact ⟨_, _, htarget, hschema, rfl⟩
  next => exact ⟨_, fun _ => false, htarget, hschema, by simp [Table.delete]⟩

theorem abandonSummaryClaim_error {claim : SummaryClaim}
    (h : abandonSummaryClaim env claim db = (.error e, db')) : db' = db := by
  simp only [abandonSummaryClaim, transaction_eq_error] at h
  exact h.2.symm

theorem abandonInterruptedSummaryForTask_ok {task : String} {generation : Option Nat}
    (h : abandonInterruptedSummaryForTask env task db = (.ok generation, db')) :
    db' = db ∨ ∃ target attempts, (∀ r : SummaryRow, target r = true → r.active = true) ∧
      SummarySchema (Table.update target SummaryRow.abandon db.summaryLedger) ∧
      db' = { db with
        summaryLedger := Table.update target SummaryRow.abandon db.summaryLedger
        summaryTtsAttempts := Table.delete attempts db.summaryTtsAttempts } := by
  simp only [abandonInterruptedSummaryForTask, transaction_eq_ok, bind_ok] at h
  obtain ⟨_, _, h⟩ := h
  split at h
  next => simp only [Except.ok.injEq, Prod.mk.injEq] at h; exact Or.inl h.2.symm
  next row _ =>
    simp only [bind_ok, Database.putSummaries_ok, Except.ok.injEq, Prod.mk.injEq] at h
    obtain ⟨_, ⟨hschema, rfl⟩, _, _, _, rfl⟩ := h
    refine Or.inr ⟨_, _, ?_, hschema, rfl⟩
    intro r hr
    simp only [Bool.and_eq_true, beq_iff_eq] at hr
    simp [SummaryRow.active, hr.2, SummaryState.active]

theorem abandonInterruptedSummaryForTask_error {task : String}
    (h : abandonInterruptedSummaryForTask env task db = (.error e, db')) : db' = db := by
  simp only [abandonInterruptedSummaryForTask, transaction_eq_error] at h
  exact h.2.symm

theorem resumeInterruptedSummary_ok {task : String} {claim : Option SummaryClaim}
    (h : resumeInterruptedSummary env task db = (.ok claim, db')) :
    db' = db ∨ ∃ target : SummaryRow → Bool, (∀ r, target r = true → r.state = .interrupted) ∧
      SummarySchema (Table.update target SummaryRow.regenerate db.summaryLedger) ∧
      db' = regenerated target db := by
  simp only [resumeInterruptedSummary, transaction_eq_ok, bind_ok] at h
  obtain ⟨_, _, h⟩ := h
  split at h
  next => simp only [Except.ok.injEq, Prod.mk.injEq] at h; exact Or.inl h.2.symm
  next row _ =>
    simp only [bind_ok, Database.putSummaries_ok, Except.ok.injEq, Prod.mk.injEq] at h
    obtain ⟨_, _, _, ⟨hschema, rfl⟩, _, _, _, _, _, rfl⟩ := h
    refine Or.inr ⟨_, ?_, hschema, rfl⟩
    intro r hr
    simp only [SummaryRow.interruptedAs, Bool.and_eq_true, beq_iff_eq] at hr
    exact hr.1.2

theorem resumeInterruptedSummary_error {task : String}
    (h : resumeInterruptedSummary env task db = (.error e, db')) : db' = db := by
  simp only [resumeInterruptedSummary, transaction_eq_error] at h
  exact h.2.symm

/-! ### Speech synthesis attempts -/

theorem beginSummaryTtsAttempt_ok {claim : SummaryClaim} {state : SummaryTtsAttemptState}
    (h : beginSummaryTtsAttempt env claim db = (.ok state, db')) :
    db' = db ∨ ∃ t, TtsAttemptSchema db.summaryLedger t ∧ db' = { db with summaryTtsAttempts := t } := by
  simp only [beginSummaryTtsAttempt, transaction_eq_ok, bind_ok] at h
  obtain ⟨_, _, _, _, _, _, h⟩ := h
  split at h
  next => simp only [Except.ok.injEq, Prod.mk.injEq] at h; exact Or.inl h.2.symm
  next =>
    simp only [bind_ok, Database.putTtsAttempts_ok, Except.ok.injEq, Prod.mk.injEq] at h
    obtain ⟨_, ⟨hschema, rfl⟩, _, rfl⟩ := h
    exact Or.inr ⟨_, hschema, rfl⟩

theorem beginSummaryTtsAttempt_error {claim : SummaryClaim}
    (h : beginSummaryTtsAttempt env claim db = (.error e, db')) : db' = db := by
  simp only [beginSummaryTtsAttempt, transaction_eq_error] at h
  exact h.2.symm

theorem markSummaryTtsAmbiguous_ok {claim : SummaryClaim} {u : Unit}
    (h : markSummaryTtsAmbiguous env claim db = (.ok u, db')) :
    ∃ t, TtsAttemptSchema db.summaryLedger t ∧ db' = { db with summaryTtsAttempts := t } := by
  simp only [markSummaryTtsAmbiguous, committed_eq_ok, bind_ok, toI64_ok, Database.putTtsAttempts_ok,
    Except.ok.injEq, Prod.mk.injEq] at h
  obtain ⟨_, _, _, ⟨_, rfl⟩, _, ⟨hschema, rfl⟩, _, rfl⟩ := h
  exact ⟨_, hschema, rfl⟩

/-- The statement has run when the error is reported, but on no row. -/
theorem markSummaryTtsAmbiguous_error {claim : SummaryClaim}
    (hunique : Table.Unique (fun _ => true) TtsAttemptRow.key db.summaryTtsAttempts)
    (h : markSummaryTtsAmbiguous env claim db = (.error e, db')) : db' = db := by
  simp only [markSummaryTtsAmbiguous, committed_eq_error] at h
  rcases h with ⟨_, rfl⟩ | h
  · rfl
  simp only [bind_ok, toI64_ok, Database.putTtsAttempts_ok, Except.ok.injEq, Prod.mk.injEq,
    ensure_error] at h
  obtain ⟨_, _, _, ⟨_, rfl⟩, _, ⟨_, rfl⟩, ⟨hcount, _⟩, rfl⟩ := h
  have hle := hunique.countP_le_one (k := (claim.taskId, claim.generation))
    (q := fun a => a.at claim.taskId claim.generation &&
      db.summaryLedger.any (SummaryRow.heldBy claim)) (by
    intro a _ ha
    simp only [TtsAttemptRow.at, Bool.and_eq_true, beq_iff_eq] at ha
    simp [TtsAttemptRow.key, ha.1.1, ha.1.2])
  have hzero : db.summaryTtsAttempts.countP (fun a => a.at claim.taskId claim.generation &&
      db.summaryLedger.any (SummaryRow.heldBy claim)) = 0 := by omega
  rw [Table.update_eq_self]
  intro a ha
  simpa using List.countP_eq_zero.1 hzero a ha

/-! ### Publishing -/

/-- The pending rows a list of completions stands for. -/
def CompletionRow.listedIn (task : String) (listed : List PendingSummaryCompletion)
    (c : CompletionRow) : Bool :=
  listed.any fun completion => c.pendingAs task completion

/-- The rows the previous unread generation of a claim covers. -/
def CompletionRow.inherited (claim : SummaryClaim) (c : CompletionRow) : Bool :=
  claim.previousUnread.any fun previous => c.coveredBy claim.taskId previous.generation

/-- The completions a publication moves to its generation: what the superseded generation covered,
    and what the claim lists. -/
def SummaryClaim.takes (claim : SummaryClaim) (c : CompletionRow) : Bool :=
  c.inherited claim || c.listedIn claim.taskId claim.completions

/-- The row a publication supersedes. -/
def SummaryClaim.supersedes (claim : SummaryClaim) (r : SummaryRow) : Bool :=
  claim.previousUnread.any fun previous =>
    r.at claim.taskId previous.generation && r.currentUnread

/-- The ledger with the previous unread generation of the claim superseded. -/
def SummaryClaim.superseding (claim : SummaryClaim) (t : List SummaryRow) : List SummaryRow :=
  Table.update claim.supersedes (SummaryRow.supersede claim.generation) t

/-- What the superseded generation covered so far. -/
def SummaryClaim.previousCoverage (claim : SummaryClaim) : Nat :=
  (claim.previousUnread.map (·.coverageCount)).getD 0

theorem listedIn_cover {task : String} {generation : Nat} {listed : List PendingSummaryCompletion}
    {c : CompletionRow} : (c.cover generation).listedIn task listed = false := by
  simp [CompletionRow.listedIn, CompletionRow.pendingAs, CompletionRow.cover]

theorem pending_of_listedIn {task : String} {listed : List PendingSummaryCompletion}
    {c : CompletionRow} (h : c.listedIn task listed = true) :
    c.taskId = task ∧ c.summarizedGeneration = none ∧
      ∃ completion ∈ listed, completion.completionId = c.completionId := by
  simp only [CompletionRow.listedIn, List.any_eq_true, CompletionRow.pendingAs, Bool.and_eq_true,
    beq_iff_eq] at h
  obtain ⟨completion, hmem, ⟨⟨hid, htask⟩, -⟩, hnone⟩ := h
  exact ⟨htask, hnone, completion, hmem, hid.symm⟩

/-- Covering a list of completions is one pass over the ledger, and each of them is a row of its own. -/
theorem coverCompletions_ok {task : String} {generation : Nat} {listed : List PendingSummaryCompletion}
    (h : coverCompletions task generation listed db = .ok db') :
    db' = { db with
      completionLedger := Table.update (CompletionRow.listedIn task listed)
        (CompletionRow.cover generation) db.completionLedger } ∧
    db.completionLedger.countP (CompletionRow.listedIn task listed) = listed.length := by
  induction listed generalizing db with
  | nil =>
    simp only [coverCompletions, Except.ok.injEq] at h
    subst h
    refine ⟨?_, List.countP_eq_zero.2 fun c _ => by simp [CompletionRow.listedIn]⟩
    rw [Table.update_eq_self fun c _ => by simp [CompletionRow.listedIn]]
  | cons completion rest ih =>
    simp only [coverCompletions, bind_ok, Database.putCompletions_ok, ensure_ok] at h
    obtain ⟨_, ⟨_, rfl⟩, _, hone, h⟩ := h
    obtain ⟨rfl, hrest⟩ := ih h
    have hsplit : CompletionRow.listedIn task (completion :: rest) =
        fun c => c.pendingAs task completion || c.listedIn task rest := rfl
    constructor
    · simp only [hsplit]
      rw [Table.update_update fun c _ => listedIn_cover]
    · rw [hsplit, Table.countP_or_eq, hone, List.length_cons, add_comm 1, ← hrest,
        Table.countP_update]
      congr 1
      refine List.countP_congr fun c _ => ?_
      cases hc : c.pendingAs task completion with
      | true => simp [listedIn_cover]
      | false => simp

theorem inherited_some {claim : SummaryClaim} {previous : UnreadSummary}
    (h : claim.previousUnread = some previous) :
    CompletionRow.inherited claim = CompletionRow.coveredBy claim.taskId previous.generation := by
  funext c
  simp [CompletionRow.inherited, h]

theorem inherited_none {claim : SummaryClaim} (h : claim.previousUnread = none) (c : CompletionRow) :
    c.inherited claim = false := by
  simp [CompletionRow.inherited, h]

/-- Superseding checks that the unread generation is the one the claim was made over. -/
theorem supersedePrevious_ok {claim : SummaryClaim} {coverage : Nat}
    (h : supersedePrevious claim db = .ok (coverage, db')) :
    queryCurrentUnread db claim.taskId = .ok claim.previousUnread ∧
    coverage = claim.previousCoverage ∧
    db' = { db with
      summaryLedger := claim.superseding db.summaryLedger
      completionLedger := Table.update (CompletionRow.inherited claim)
        (CompletionRow.cover claim.generation) db.completionLedger } := by
  unfold supersedePrevious at h
  cases hprev : claim.previousUnread with
  | none =>
    simp only [hprev, bind_ok, ensure_ok, Except.ok.injEq, Prod.mk.injEq] at h
    obtain ⟨_, hquery, _, rfl, rfl, rfl⟩ := h
    refine ⟨hquery, by simp [SummaryClaim.previousCoverage, hprev], ?_⟩
    rw [Table.update_eq_self fun c _ => inherited_none hprev c, SummaryClaim.superseding,
      Table.update_eq_self fun r _ => by simp [SummaryClaim.supersedes, hprev]]
  | some previous =>
    simp only [hprev, bind_ok, ensure_ok, Database.putSummaries_ok, Database.putCompletions_ok,
      Except.ok.injEq, Prod.mk.injEq] at h
    obtain ⟨_, hquery, _, rfl, _, ⟨_, rfl⟩, _, _, _, ⟨_, rfl⟩, _, hcount, rfl, rfl⟩ := h
    refine ⟨hquery, ?_, ?_⟩
    · simpa [SummaryClaim.previousCoverage, hprev] using hcount
    · have hsup : claim.supersedes =
          fun r => r.at claim.taskId previous.generation && r.currentUnread := by
        funext r
        simp [SummaryClaim.supersedes, hprev]
      simp [SummaryClaim.superseding, hsup, inherited_some hprev]

/-- What a publication found, and the database it commits. -/
structure Publication (env : Env P) (db : Database) (claim : SummaryClaim) (cacheObject : String)
    (db' : Database) : Prop where
  request : summaryRequestOk env claim.taskId claim.requestId = true
  valid : summaryClaimOk env claim = true
  inRange : claim.generation ≤ i64Max
  cache : cacheObject = (CacheId.mk (env.sha256 claim.taskId) claim.generation).reference
  held : ∃ stored ∈ db.summaryLedger, stored.publishable claim = true
  previous : queryCurrentUnread db claim.taskId = .ok claim.previousUnread
  listed : db.completionLedger.countP (CompletionRow.listedIn claim.taskId claim.completions) =
    claim.completions.length
  coverage : claim.previousCoverage + claim.completions.length ≤ u32Max
  schema : SummarySchema db'.summaryLedger
  commits : db' = { db with
    summaryLedger := Table.update (SummaryRow.publishable claim) (SummaryRow.publish cacheObject)
      (claim.superseding db.summaryLedger)
    completionLedger := Table.update claim.takes (CompletionRow.cover claim.generation)
      db.completionLedger
    summaryTtsAttempts := Table.delete (TtsAttemptRow.at claim.taskId claim.generation)
      db.summaryTtsAttempts }

theorem publishSummary_ok {claim : SummaryClaim} {cacheObject : String} {unread : UnreadSummary}
    (h : publishSummary env claim cacheObject db = (.ok unread, db')) :
    Publication env db claim cacheObject db' := by
  simp only [publishSummary, transaction_eq_ok, bind_ok, validateSummaryClaim,
    validateSummaryRequest, ensure_ok, orThrow_ok, toI64_ok] at h
  obtain ⟨_, ⟨_, hrequest, hvalid⟩, id, hid, _, hcache, _, ⟨hrange, rfl⟩, stored, hstored, _, _, _, _,
    ⟨previousCoverage, tx⟩, hsup, tx', hcover, h⟩ := h
  simp only [Database.putSummaries_ok, Except.ok.injEq, Prod.mk.injEq] at h
  obtain ⟨_, ⟨hschema, rfl⟩, _, _, _, hcoverage, rfl, rfl⟩ := h
  obtain ⟨hquery, rfl, rfl⟩ := supersedePrevious_ok hsup
  obtain ⟨rfl, hlisted⟩ := coverCompletions_ok hcover
  have hpos : claim.generation ≠ 0 := by
    intro hzero
    simp [CacheId.forTask, hzero] at hid
  have hid' : id = ⟨env.sha256 claim.taskId, claim.generation⟩ := by
    simpa [CacheId.forTask, hpos] using hid.symm
  subst hid'
  have hsplit : claim.takes = fun c => c.inherited claim || c.listedIn claim.taskId claim.completions :=
    rfl
  refine ⟨hrequest, hvalid, hrange, hcache,
    ⟨stored, List.mem_of_find?_eq_some hstored, List.find?_some hstored⟩, hquery, ?_, hcoverage,
    hschema, ?_⟩
  · rw [← hlisted, Table.countP_update]
    refine List.countP_congr fun c _ => ?_
    cases hc : c.inherited claim with
    | true =>
      -- an inherited row is not pending, before or after
      have hnot : c.listedIn claim.taskId claim.completions = false := by
        rw [Bool.eq_false_iff]
        intro hl
        obtain ⟨_, hnone, _⟩ := pending_of_listedIn hl
        cases hprev : claim.previousUnread with
        | none => simp [inherited_none hprev] at hc
        | some previous =>
          rw [inherited_some hprev] at hc
          simp [CompletionRow.coveredBy, hnone] at hc
      simp [listedIn_cover, hnot]
    | false => simp
  · simp only [Database.deleteTtsAttempts, hsplit]
    rw [Table.update_update fun c _ => listedIn_cover]

theorem publishSummary_error {claim : SummaryClaim} {cacheObject : String}
    (h : publishSummary env claim cacheObject db = (.error e, db')) : db' = db := by
  simp only [publishSummary, transaction_eq_error] at h
  exact h.2.symm

/-! ### Playback leases -/

/-- The row an unread generation is leased from. -/
def SummaryRow.leasable (task : String) (generation : Nat) (r : SummaryRow) : Bool :=
  r.at task generation && r.state == .unheard && r.supersededBy.isNone

/-- A lease that `acquire_summary_playback` wrote. -/
structure Acquisition (db : Database) (lease : LeaseRow) (db' : Database) : Prop where
  unheard : ∃ row ∈ db.summaryLedger, row.leasable lease.taskId lease.summaryGeneration = true
  noLease : ∀ l ∈ db.summaryPlaybackLeases, l.key ≠ lease.key
  schema : SummarySchema db'.summaryLedger
  leases : LeaseSchema db'.summaryLedger db'.summaryPlaybackLeases
  commits : db' = { db with
    summaryLedger := Table.update (SummaryRow.leasable lease.taskId lease.summaryGeneration)
      SummaryRow.lease db.summaryLedger
    summaryPlaybackLeases := db.summaryPlaybackLeases ++ [lease] }

theorem find_lease_none {t : List LeaseRow} {task : String} {generation : Nat}
    (h : t.find? (LeaseRow.at task generation) = none) : ∀ l ∈ t, l.key ≠ (task, generation) := by
  intro l hl hkey
  have := List.find?_eq_none.1 h l hl
  simp only [LeaseRow.key, Prod.mk.injEq] at hkey
  simp [LeaseRow.at, hkey.1, hkey.2] at this

/-- A successful acquisition leaves everything as it is, or writes one lease over an unheard row. -/
theorem acquireSummaryPlayback_ok {slot request connection lease : Nat}
    {result : Option SummaryPlaybackLease}
    (h : acquireSummaryPlayback slot request connection lease db = (.ok result, db')) :
    db' = db ∨ ∃ row : LeaseRow, Acquisition db row db' := by
  simp only [acquireSummaryPlayback, committed_eq_ok, bind_ok] at h
  obtain ⟨_, _, _, _, h⟩ := h
  split at h
  next => simp only [Except.ok.injEq, Prod.mk.injEq] at h; exact Or.inl h.2.symm
  next binding _ =>
    split at h
    next => simp only [Except.ok.injEq, Prod.mk.injEq] at h; exact Or.inl h.2.symm
    next row hfind =>
      simp only [bind_ok] at h
      obtain ⟨cacheObject, _, h⟩ := h
      split at h
      next existing _ =>
        split at h <;> simp only [Except.ok.injEq, Prod.mk.injEq] at h
        · exact Or.inl h.2.symm
        · cases h.1
      next hlease =>
        simp only [leaseUnread, bind_ok, ensure_ok, Database.putSummaries_ok, Database.putLeases_ok,
          Except.ok.injEq, Prod.mk.injEq] at h
        obtain ⟨_, hstate, _, ⟨hschema, rfl⟩, _, _, _, ⟨hleases, rfl⟩, _, rfl⟩ := h
        have hrow := List.find?_some hfind
        simp only [SummaryRow.currentUnread, Bool.and_eq_true, beq_iff_eq] at hrow
        refine Or.inr ⟨⟨lease, binding.taskId, row.generation, slot, request, connection⟩,
          ⟨row, List.mem_of_find?_eq_some hfind, ?_⟩, find_lease_none hlease, hschema, hleases, rfl⟩
        simp [SummaryRow.leasable, SummaryRow.at, hrow.1, hstate, hrow.2.2]

theorem acquireSummaryPlayback_error {slot request connection lease : Nat}
    (h : acquireSummaryPlayback slot request connection lease db = (.error e, db')) : db' = db := by
  simp only [acquireSummaryPlayback, committed_eq_error] at h
  rcases h with ⟨_, rfl⟩ | h
  · rfl
  simp only [bind_ok] at h
  obtain ⟨_, _, _, _, h⟩ := h
  split at h
  next => simp at h
  next =>
    split at h
    next => simp at h
    next =>
      simp only [bind_ok] at h
      obtain ⟨_, _, h⟩ := h
      split at h
      next =>
        split at h <;> simp only [Except.ok.injEq, Prod.mk.injEq] at h
        · cases h.1
        · exact h.2.symm
      next =>
        simp only [leaseUnread, bind_ok, Except.ok.injEq, Prod.mk.injEq] at h
        obtain ⟨_, _, _, _, _, _, _, _, hcontra, _⟩ := h
        cases hcontra

/-- A released lease: its row is gone, and the row it played is unread again (or superseded). -/
structure Release (db : Database) (lease : SummaryPlaybackLease) (db' : Database) : Prop where
  held : ∃ l ∈ db.summaryPlaybackLeases, l.exact lease = true
  schema : SummarySchema db'.summaryLedger
  commits : db' = { db with
    summaryLedger := Table.update
      (fun r => r.at lease.taskId lease.summaryGeneration && r.state == .leased)
      SummaryRow.release db.summaryLedger
    summaryPlaybackLeases := Table.delete (LeaseRow.exact lease) db.summaryPlaybackLeases }

theorem cancelSummaryPlayback_ok {lease : SummaryPlaybackLease} {removed : Bool}
    (hunique : Table.Unique (fun _ => true) LeaseRow.leaseId db.summaryPlaybackLeases)
    (h : cancelSummaryPlayback env lease db = (.ok removed, db')) :
    (removed = false ∧ db' = db ∧ ∀ l ∈ db.summaryPlaybackLeases, l.exact lease = false) ∨
      (removed = true ∧ Release db lease db') := by
  simp only [cancelSummaryPlayback, transaction_eq_ok, bind_ok] at h
  obtain ⟨_, _, h⟩ := h
  split at h
  next hone =>
    simp only [bind_ok, Database.putSummaries_ok, Except.ok.injEq, Prod.mk.injEq] at h
    obtain ⟨_, ⟨hschema, rfl⟩, rfl, rfl⟩ := h
    exact Or.inr ⟨rfl, List.countP_pos_iff.1 (by omega), hschema, rfl⟩
  next hne =>
    simp only [Except.ok.injEq, Prod.mk.injEq] at h
    obtain ⟨rfl, rfl⟩ := h
    have hle := hunique.countP_le_one (k := lease.lease) (q := LeaseRow.exact lease) (by
      intro l _ hl
      simp only [LeaseRow.exact, Bool.and_eq_true, beq_iff_eq] at hl
      exact ⟨rfl, hl.1.1.1.1.1⟩)
    have hzero : ∀ l ∈ db.summaryPlaybackLeases, l.exact lease = false := by
      intro l hl
      simpa using List.countP_eq_zero.1 (show _ = 0 by omega) l hl
    refine Or.inl ⟨rfl, ?_, hzero⟩
    have hsame : Table.delete (LeaseRow.exact lease) db.summaryPlaybackLeases =
        db.summaryPlaybackLeases := by
      rw [Table.delete, List.filter_eq_self]
      intro l hl
      simp [hzero l hl]
    rw [hsame]

theorem cancelSummaryPlayback_error {lease : SummaryPlaybackLease}
    (h : cancelSummaryPlayback env lease db = (.error e, db')) : db' = db := by
  simp only [cancelSummaryPlayback, transaction_eq_error] at h
  exact h.2.symm

/-- The leased row a finished lease turns into `heard`. -/
def SummaryRow.playedBy (lease : SummaryPlaybackLease) (r : SummaryRow) : Bool :=
  r.at lease.taskId lease.summaryGeneration && r.state == .leased &&
  r.cacheObject == some lease.cacheObject

def SummaryRow.hear (r : SummaryRow) : SummaryRow := { r with state := .heard }

/-- A finished lease: its row is gone, and the row it played is heard. -/
structure Finish (db : Database) (lease : SummaryPlaybackLease) (db' : Database) : Prop where
  held : ∃ l ∈ db.summaryPlaybackLeases, l.exact lease = true
  played : ∃ row ∈ db.summaryLedger, row.playedBy lease = true
  schema : SummarySchema db'.summaryLedger
  commits : db' = { db with
    summaryLedger := Table.update (SummaryRow.playedBy lease) SummaryRow.hear db.summaryLedger
    summaryPlaybackLeases := Table.delete (fun l => l.leaseId == lease.lease)
      db.summaryPlaybackLeases }

theorem finishSummaryPlayback_ok {lease : SummaryPlaybackLease} {finished : Bool}
    (h : finishSummaryPlayback env lease db = (.ok finished, db')) :
    (finished = false ∧ db' = db ∧ ∀ l ∈ db.summaryPlaybackLeases, l.exact lease = false) ∨
      (finished = true ∧ Finish db lease db') := by
  simp only [finishSummaryPlayback, transaction_eq_ok, bind_ok] at h
  obtain ⟨_, _, h⟩ := h
  split at h
  next hany =>
    simp only [bind_ok, Database.putSummaries_ok, ensure_ok, Except.ok.injEq, Prod.mk.injEq] at h
    obtain ⟨_, ⟨hschema, rfl⟩, _, hone, rfl, rfl⟩ := h
    have hplayed : 0 < db.summaryLedger.countP (SummaryRow.playedBy lease) :=
      Nat.lt_of_lt_of_eq Nat.one_pos hone.symm
    exact Or.inr ⟨rfl, by simpa using hany, List.countP_pos_iff.1 hplayed, hschema, rfl⟩
  next hnone =>
    simp only [Except.ok.injEq, Prod.mk.injEq] at h
    refine Or.inl ⟨h.1.symm, h.2.symm, ?_⟩
    simpa using hnone

theorem finishSummaryPlayback_error {lease : SummaryPlaybackLease}
    (h : finishSummaryPlayback env lease db = (.error e, db')) : db' = db := by
  simp only [finishSummaryPlayback, transaction_eq_error] at h
  exact h.2.symm

/-! ### Recovery -/

/-- `generating` to `interrupted`. -/
def interruptedLedger (t : List SummaryRow) : List SummaryRow :=
  Table.update (fun r => r.state == .generating) (fun r => { r with state := .interrupted }) t

/-- Every leased row released. -/
def releasedLedger (t : List SummaryRow) : List SummaryRow :=
  Table.update (fun r => r.state == .leased) SummaryRow.release t

theorem recoverInterruptedSummaries_ok {n : Nat} (h : recoverInterruptedSummaries db = (.ok n, db')) :
    SummarySchema (interruptedLedger db.summaryLedger) ∧
      db' = { db with summaryLedger := interruptedLedger db.summaryLedger } := by
  simp only [recoverInterruptedSummaries, transaction_eq_ok, bind_ok, Database.putSummaries_ok,
    Except.ok.injEq, Prod.mk.injEq] at h
  obtain ⟨_, ⟨hschema, rfl⟩, _, rfl⟩ := h
  exact ⟨hschema, rfl⟩

theorem recoverInterruptedSummaries_error (h : recoverInterruptedSummaries db = (.error e, db')) :
    e = .sqlite .constraintViolation ∧ db' = db := by
  simp [recoverInterruptedSummaries] at h
  exact ⟨h.1.2.symm, h.2.symm⟩

theorem recoverInterruptedPlaybackLeases_ok {u : Unit}
    (h : recoverInterruptedPlaybackLeases db = (.ok u, db')) :
    SummarySchema (releasedLedger db.summaryLedger) ∧
      db' = { db with
        summaryLedger := releasedLedger db.summaryLedger
        summaryPlaybackLeases := [] } := by
  simp only [recoverInterruptedPlaybackLeases, transaction_eq_ok, bind_ok, Database.putSummaries_ok,
    Except.ok.injEq, Prod.mk.injEq] at h
  obtain ⟨_, ⟨hschema, rfl⟩, _, rfl⟩ := h
  exact ⟨hschema, rfl⟩

theorem recoverInterruptedPlaybackLeases_error
    (h : recoverInterruptedPlaybackLeases db = (.error e, db')) :
    e = .sqlite .constraintViolation ∧ db' = db := by
  simp [recoverInterruptedPlaybackLeases] at h
  exact ⟨h.1.2.symm, h.2.symm⟩

end CodexKeyboard.Store
