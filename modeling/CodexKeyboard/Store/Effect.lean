import CodexKeyboard.Store.Spec

/-! What any call can do to the database, said once. `Effect` lists the changes one transaction
    commits, with the facts it checked before; every invariant of the store is proved against this
    list. A reopened store makes three of them in a row. -/

namespace CodexKeyboard.Store

open Schemes Transact

variable {P : Type}

/-- The calls that work on the prompt queue. -/
def Op.onQueue : Op P → Bool
  | .enqueue _ | .claimNextRunnable | .markCompleted .. | .markFailed .. | .reopen => true
  | _ => false

/-- The calls that take, give up or work on a summary claim. -/
def Op.onClaims : Op P → Bool
  | .claimSummary .. | .abandonSummaryClaim _ | .abandonInterruptedSummaryForTask _
  | .beginSummaryTtsAttempt _ | .markSummaryTtsAmbiguous _ | .resumeInterruptedSummary _ => true
  | _ => false

/-- The changes one transaction of a call can commit. -/
inductive Effect (env : Env P) : Op P → Database → Database → Prop
  | same {op db} : Effect env op db db
  /-- The prompt queue, which no other table refers to. -/
  | queue {op db} (jobs : List JobRow) (sequence : Nat) (onQueue : op.onQueue = true) :
      Effect env op db { db with jobs := jobs, jobsSequence := sequence }
  | bound {op db} (t : List Binding) (schema : BindingSchema t) :
      Effect env op db { db with bindings := t }
  | attempted {op db} (onClaims : op.onClaims = true) (t : List TtsAttemptRow)
      (schema : TtsAttemptSchema db.summaryLedger t) :
      Effect env op db { db with summaryTtsAttempts := t }
  /-- The cursor moves over a completion the ledger knows. -/
  | observed {op db} (cursors : List CursorRow) (schema : CursorSchema cursors) :
      Effect env op db { db with rolloutCursors := cursors }
  | recorded {op db} (cursors : List CursorRow) (schema : CursorSchema cursors)
      (row : CompletionRow) (pending : row.summarizedGeneration = none)
      (id : env.uuidOk row.completionId = true) (turnPack : turnPackOk row.turnPack = true)
      (completions : CompletionSchema (db.completionLedger ++ [row])) :
      Effect env op db { db with
        completionLedger := db.completionLedger ++ [row]
        rolloutCursors := cursors }
  | claimed {op db task request} (onClaims : op.onClaims = true) (claim : SummaryClaim)
      (valid : summaryRequestOk env task request = true) (new : NewClaim env db task request claim)
      (schema : SummarySchema (db.summaryLedger ++ [claim.row])) :
      Effect env op db { db with summaryLedger := db.summaryLedger ++ [claim.row] }
  | resumed {op db} (onClaims : op.onClaims = true) (target : SummaryRow → Bool)
      (interrupted : ∀ r, target r = true → r.state = .interrupted)
      (schema : SummarySchema (Table.update target SummaryRow.regenerate db.summaryLedger)) :
      Effect env op db (regenerated target db)
  | abandoned {op db} (onClaims : op.onClaims = true) (target : SummaryRow → Bool)
      (attempts : TtsAttemptRow → Bool)
      (active : ∀ r, target r = true → r.active = true)
      (schema : SummarySchema (Table.update target SummaryRow.abandon db.summaryLedger)) :
      Effect env op db { db with
        summaryLedger := Table.update target SummaryRow.abandon db.summaryLedger
        summaryTtsAttempts := Table.delete attempts db.summaryTtsAttempts }
  | published {db db' claim cacheObject} (publication : Publication env db claim cacheObject db') :
      Effect env (.publishSummary claim cacheObject) db db'
  | acquired {op db db'} (lease : LeaseRow) (acquisition : Acquisition db lease db') :
      Effect env op db db'
  | released {op db db'} (lease : SummaryPlaybackLease) (release : Release db lease db') :
      Effect env op db db'
  | finished {db db' lease} (finish : Finish db lease db') :
      Effect env (.finishSummaryPlayback lease) db db'
  | interrupted {db} (schema : SummarySchema (interruptedLedger db.summaryLedger)) :
      Effect env .reopen db { db with summaryLedger := interruptedLedger db.summaryLedger }
  | leasesDropped {db} (schema : SummarySchema (releasedLedger db.summaryLedger)) :
      Effect env .reopen db { db with
        summaryLedger := releasedLedger db.summaryLedger
        summaryPlaybackLeases := [] }

/-- The transactions of one call, in a row. -/
abbrev Effects (env : Env P) (op : Op P) : Database → Database → Prop :=
  Relation.ReflTransGen (Effect env op)

variable {env : Env P} {db db' : Database} {op : Op P} {α : Type}

/-- A call that rolls back on error has an effect only when it succeeds. -/
theorem effect_of_result (r : Except StoreError α × Database)
    (herr : ∀ e db', r = (.error e, db') → db' = db)
    (hok : ∀ a db', r = (.ok a, db') → Effect env op db db') : Effect env op db r.2 := by
  obtain ⟨e | a, db'⟩ := r
  · rw [herr e db' rfl]
    exact .same
  · exact hok a db' rfl

theorem effect_of_commit {binding : Option Binding} {expected : Option (RolloutCursor P)}
    {next : RolloutCursor P} {id turnPack : String} {now : Int} {outcome : CompletionOutcome}
    (h : commitRolloutCompletionOn env binding expected next id turnPack now db = (.ok outcome, db')) :
    Effect env op db db' := by
  obtain ⟨hvalid, completions, cursors, hcursor, rfl, hcases⟩ := commitRolloutCompletionOn_ok h
  rcases hcases with ⟨_, rfl⟩ | ⟨_, hschema, _, rfl⟩
  · exact .observed cursors hcursor
  · simp only [rolloutCompletionOk, Bool.and_eq_true, bne_iff_ne, decide_eq_true_eq] at hvalid
    have hid : env.uuidOk id = true := by tauto
    have hpack : turnPackOk turnPack = true := by
      simp only [turnPackOk, Bool.and_eq_true, bne_iff_ne, decide_eq_true_eq]
      tauto
    exact .recorded cursors hcursor (completionRow next id turnPack now) rfl hid hpack hschema

theorem effect_of_regenerated (hop : op.onClaims = true) (h : db' = db ∨ ∃ target : SummaryRow → Bool,
      (∀ r, target r = true → r.state = .interrupted) ∧
      SummarySchema (Table.update target SummaryRow.regenerate db.summaryLedger) ∧
      db' = regenerated target db) : Effect env op db db' := by
  rcases h with rfl | ⟨target, htarget, hschema, rfl⟩
  · exact .same
  · exact .resumed hop target htarget hschema

theorem reopen_effects : Effects env .reopen db (reopen db).2 := by
  unfold reopen
  rcases hjobs : recoverInterruptedJobs db with ⟨e | n, db₁⟩
  · obtain rfl := recoverInterruptedJobs_error hjobs
    exact .refl
  obtain ⟨_, rfl⟩ := recoverInterruptedJobs_ok hjobs
  have h₁ : Effects env .reopen db _ := .single
    (.queue (Table.update (fun j => j.state == .running) JobRow.recover db.jobs) db.jobsSequence rfl)
  simp only
  generalize Database.mk _ _ _ _ _ _ _ _ = db₁ at h₁ ⊢
  rcases hsum : recoverInterruptedSummaries db₁ with ⟨e | m, db₂⟩
  · obtain ⟨_, rfl⟩ := recoverInterruptedSummaries_error hsum
    exact h₁
  obtain ⟨hschema, rfl⟩ := recoverInterruptedSummaries_ok hsum
  have h₂ := h₁.tail (.interrupted hschema)
  simp only
  generalize Database.mk _ _ _ _ _ _ _ _ = db₂ at h₂ ⊢
  rcases hlease : recoverInterruptedPlaybackLeases db₂ with ⟨e | u, db₃⟩
  · obtain ⟨_, rfl⟩ := recoverInterruptedPlaybackLeases_error hlease
    exact h₂
  obtain ⟨hschema', rfl⟩ := recoverInterruptedPlaybackLeases_ok hlease
  exact h₂.tail (.leasesDropped hschema')

/-- Every call but a reopen has one effect; the two unique indexes are all it needs. -/
theorem step_effect (env : Env P) (op : Op P) (hop : op ≠ .reopen)
    (hleases : Table.Unique (fun _ => true) LeaseRow.leaseId db.summaryPlaybackLeases)
    (hattempts : Table.Unique (fun _ => true) TtsAttemptRow.key db.summaryTtsAttempts) :
    Effect env op db (step env db op) := by
  cases op with
  | reopen => exact absurd rfl hop
  | enqueue job =>
    refine effect_of_result (enqueue env job db)
      (fun e db' => enqueue_error) fun a db' h => ?_
    rcases (enqueue_ok h).2.2 with ⟨_, rfl, _⟩ | ⟨_, _, _, _, _, rfl⟩
    · exact .same
    · exact .queue _ _ rfl
  | claimNextRunnable =>
    refine effect_of_result (claimNextRunnable env db)
      (fun e db' => claimNextRunnable_error) fun a db' h => ?_
    rcases claimNextRunnable_ok h with ⟨_, rfl⟩ | ⟨_, _, _, _, _, _, _, _, _, _, _, rfl⟩
    · exact .same
    · exact .queue _ _ rfl
  | markCompleted id generation =>
    refine effect_of_result (markCompleted id generation db)
      (fun e db' => markCompleted_error) fun a db' h => ?_
    obtain ⟨_, rfl⟩ := markCompleted_ok h
    exact .queue _ _ rfl
  | markFailed id generation failure =>
    refine effect_of_result (markFailed id generation failure db)
      (fun e db' => markFailed_error) fun a db' h => ?_
    obtain ⟨_, rfl⟩ := markFailed_ok h
    exact .queue _ _ rfl
  | setBinding slot expected task =>
    refine effect_of_result (setBinding slot expected task db)
      (fun e db' => setBinding_error) fun a db' h => ?_
    rcases setBinding_ok h with rfl | ⟨t, hschema, rfl⟩
    · exact .same
    · exact .bound t hschema
  | commitRolloutCompletion expected next id turnPack now =>
    exact effect_of_result
      (commitRolloutCompletionOn env none expected next id turnPack now db)
      (fun e db' => commitRolloutCompletionOn_error) fun a db' h => effect_of_commit h
  | commitBoundRolloutCompletion binding expected next id turnPack now =>
    exact effect_of_result
      (commitRolloutCompletionOn env (some binding) expected next id turnPack now db)
      (fun e db' => commitRolloutCompletionOn_error) fun a db' h => effect_of_commit h
  | claimSummary task request =>
    refine effect_of_result (claimSummary env task request db)
      (fun e db' => claimSummary_error) fun a db' h => ?_
    obtain ⟨hrequest, rfl | h | ⟨claim, _, hnew, hschema, rfl⟩⟩ := claimSummary_ok h
    · exact .same
    · exact effect_of_regenerated rfl (Or.inr h)
    · exact .claimed rfl claim hrequest hnew hschema
  | abandonSummaryClaim claim =>
    refine effect_of_result (abandonSummaryClaim env claim db)
      (fun e db' => abandonSummaryClaim_error) fun a db' h => ?_
    obtain ⟨target, attempts, hactive, hschema, rfl⟩ := abandonSummaryClaim_ok h
    exact .abandoned rfl target attempts hactive hschema
  | abandonInterruptedSummaryForTask task =>
    refine effect_of_result (abandonInterruptedSummaryForTask env task db)
      (fun e db' => abandonInterruptedSummaryForTask_error) fun a db' h => ?_
    rcases abandonInterruptedSummaryForTask_ok h with rfl | ⟨target, attempts, hactive, hschema, rfl⟩
    · exact .same
    · exact .abandoned rfl target attempts hactive hschema
  | beginSummaryTtsAttempt claim =>
    refine effect_of_result (beginSummaryTtsAttempt env claim db)
      (fun e db' => beginSummaryTtsAttempt_error) fun a db' h => ?_
    rcases beginSummaryTtsAttempt_ok h with rfl | ⟨t, hschema, rfl⟩
    · exact .same
    · exact .attempted rfl t hschema
  | markSummaryTtsAmbiguous claim =>
    refine effect_of_result (markSummaryTtsAmbiguous env claim db)
      (fun e db' => markSummaryTtsAmbiguous_error hattempts) fun a db' h => ?_
    obtain ⟨t, hschema, rfl⟩ := markSummaryTtsAmbiguous_ok h
    exact .attempted rfl t hschema
  | resumeInterruptedSummary task =>
    exact effect_of_result (resumeInterruptedSummary env task db)
      (fun e db' => resumeInterruptedSummary_error) fun a db' h =>
      effect_of_regenerated rfl (resumeInterruptedSummary_ok h)
  | publishSummary claim cacheObject =>
    exact effect_of_result (publishSummary env claim cacheObject db)
      (fun e db' => publishSummary_error) fun a db' h =>
      .published (publishSummary_ok h)
  | acquireSummaryPlayback slot request connection lease =>
    refine effect_of_result (acquireSummaryPlayback slot request connection lease db)
      (fun e db' => acquireSummaryPlayback_error) fun a db' h => ?_
    rcases acquireSummaryPlayback_ok h with rfl | ⟨row, hrow⟩
    · exact .same
    · exact .acquired row hrow
  | cancelSummaryPlayback lease =>
    refine effect_of_result (cancelSummaryPlayback env lease db)
      (fun e db' => cancelSummaryPlayback_error) fun a db' h => ?_
    rcases cancelSummaryPlayback_ok hleases h with ⟨_, rfl, _⟩ | ⟨_, hrelease⟩
    · exact .same
    · exact .released lease hrelease
  | finishSummaryPlayback lease =>
    refine effect_of_result (finishSummaryPlayback env lease db)
      (fun e db' => finishSummaryPlayback_error) fun a db' h => ?_
    rcases finishSummaryPlayback_ok h with ⟨_, rfl, _⟩ | ⟨_, hfinish⟩
    · exact .same
    · exact .finished hfinish

theorem step_effects (env : Env P) (op : Op P)
    (hleases : Table.Unique (fun _ => true) LeaseRow.leaseId db.summaryPlaybackLeases)
    (hattempts : Table.Unique (fun _ => true) TtsAttemptRow.key db.summaryTtsAttempts) :
    Effects env op db (step env db op) := by
  by_cases hop : op = .reopen
  · subst hop
    exact reopen_effects
  · exact .single (step_effect env op hop hleases hattempts)

end CodexKeyboard.Store
