import CodexKeyboard.Store.Jobs
import CodexKeyboard.Store.Playback

/-! The store as a transition system: every operation of `StateStore` that opens a transaction, and
    the recovery passes of a close and reopen, as steps on the committed database. -/

namespace CodexKeyboard.Store

variable {P : Type}

/-- One call, with arbitrary arguments. `reopen` closes the store and opens it again. -/
inductive Op (P : Type) where
  | enqueue (job : NewJob P)
  | claimNextRunnable
  | markCompleted (requestId : String) (claimGeneration : Nat)
  | markFailed (requestId : String) (claimGeneration : Nat) (failure : JobFailureKind)
  | setBinding (slot : Nat) (expectedGeneration : Option Nat) (taskId : String)
  | commitRolloutCompletion (expected : Option (RolloutCursor P)) (next : RolloutCursor P)
      (completionId turnPack : String) (now : Int)
  | commitBoundRolloutCompletion (binding : Binding) (expected : Option (RolloutCursor P))
      (next : RolloutCursor P) (completionId turnPack : String) (now : Int)
  | claimSummary (task request : String)
  | abandonSummaryClaim (claim : SummaryClaim)
  | abandonInterruptedSummaryForTask (task : String)
  | beginSummaryTtsAttempt (claim : SummaryClaim)
  | markSummaryTtsAmbiguous (claim : SummaryClaim)
  | resumeInterruptedSummary (task : String)
  | publishSummary (claim : SummaryClaim) (cacheObject : String)
  | acquireSummaryPlayback (slot requestGeneration connectionGeneration lease : Nat)
  | cancelSummaryPlayback (lease : SummaryPlaybackLease)
  | finishSummaryPlayback (lease : SummaryPlaybackLease)
  | reopen

/-- What a call answers with. -/
inductive Reply (P : Type) where
  | enqueue (outcome : EnqueueOutcome)
  | claimNextRunnable (job : Option (Job P))
  | markCompleted (changed : Bool)
  | markFailed (changed : Bool)
  | setBinding (binding : Option Binding)
  | commitRolloutCompletion (outcome : CompletionOutcome)
  | claimSummary (result : Option SummaryClaimResult)
  | abandonSummaryClaim (changed : Bool)
  | abandonInterruptedSummaryForTask (generation : Option Nat)
  | beginSummaryTtsAttempt (state : SummaryTtsAttemptState)
  | markSummaryTtsAmbiguous
  | resumeInterruptedSummary (claim : Option SummaryClaim)
  | publishSummary (unread : UnreadSummary)
  | acquireSummaryPlayback (lease : Option SummaryPlaybackLease)
  | cancelSummaryPlayback (removed : Bool)
  | finishSummaryPlayback (finished : Bool)
  | reopen (jobs summaries : Nat)

/-- The recovery passes `StateStore::open` makes, one transaction each; the first failure ends it. -/
def reopen (db : Database) : Except StoreError (Nat × Nat) × Database :=
  match recoverInterruptedJobs db with
  | (.error e, db) => (.error e, db)
  | (.ok jobs, db) =>
    match recoverInterruptedSummaries db with
    | (.error e, db) => (.error e, db)
    | (.ok summaries, db) =>
      match recoverInterruptedPlaybackLeases db with
      | (.error e, db) => (.error e, db)
      | (.ok _, db) => (.ok (jobs, summaries), db)

/-- Wrap the answer of one call. -/
def Reply.of {α : Type} (wrap : α → Reply P) (r : Except StoreError α × Database) :
    Except StoreError (Reply P) × Database :=
  (r.1.map wrap, r.2)

def exec (env : Env P) (db : Database) : Op P → Except StoreError (Reply P) × Database
  | .enqueue job => Reply.of .enqueue (enqueue env job db)
  | .claimNextRunnable => Reply.of .claimNextRunnable (claimNextRunnable env db)
  | .markCompleted id generation => Reply.of .markCompleted (markCompleted id generation db)
  | .markFailed id generation failure => Reply.of .markFailed (markFailed id generation failure db)
  | .setBinding slot expected task => Reply.of .setBinding (setBinding slot expected task db)
  | .commitRolloutCompletion expected next id turnPack now =>
    Reply.of .commitRolloutCompletion (commitRolloutCompletion env expected next id turnPack now db)
  | .commitBoundRolloutCompletion binding expected next id turnPack now =>
    Reply.of .commitRolloutCompletion
      (commitBoundRolloutCompletion env binding expected next id turnPack now db)
  | .claimSummary task request => Reply.of .claimSummary (claimSummary env task request db)
  | .abandonSummaryClaim claim => Reply.of .abandonSummaryClaim (abandonSummaryClaim env claim db)
  | .abandonInterruptedSummaryForTask task =>
    Reply.of .abandonInterruptedSummaryForTask (abandonInterruptedSummaryForTask env task db)
  | .beginSummaryTtsAttempt claim =>
    Reply.of .beginSummaryTtsAttempt (beginSummaryTtsAttempt env claim db)
  | .markSummaryTtsAmbiguous claim =>
    Reply.of (fun _ => .markSummaryTtsAmbiguous) (markSummaryTtsAmbiguous env claim db)
  | .resumeInterruptedSummary task =>
    Reply.of .resumeInterruptedSummary (resumeInterruptedSummary env task db)
  | .publishSummary claim cacheObject =>
    Reply.of .publishSummary (publishSummary env claim cacheObject db)
  | .acquireSummaryPlayback slot request connection lease =>
    Reply.of .acquireSummaryPlayback (acquireSummaryPlayback slot request connection lease db)
  | .cancelSummaryPlayback lease =>
    Reply.of .cancelSummaryPlayback (cancelSummaryPlayback env lease db)
  | .finishSummaryPlayback lease =>
    Reply.of .finishSummaryPlayback (finishSummaryPlayback env lease db)
  | .reopen => Reply.of (fun r => .reopen r.1 r.2) (reopen db)

/-- The database one call leaves behind. -/
def step (env : Env P) (db : Database) (op : Op P) : Database := (exec env db op).2

/-- The database a sequence of calls leaves behind. -/
def run (env : Env P) (db : Database) (ops : List (Op P)) : Database := ops.foldl (step env) db

@[simp] theorem run_nil (env : Env P) (db : Database) : run env db [] = db := rfl

@[simp] theorem run_cons (env : Env P) (db : Database) (op : Op P) (ops : List (Op P)) :
    run env db (op :: ops) = run env (step env db op) ops := rfl

theorem run_append (env : Env P) (db : Database) (ops ops' : List (Op P)) :
    run env db (ops ++ ops') = run env (run env db ops) ops' :=
  List.foldl_append

theorem run_snoc (env : Env P) (db : Database) (ops : List (Op P)) (op : Op P) :
    run env db (ops ++ [op]) = step env (run env db ops) op :=
  run_append env db ops [op]

/-- What one call preserves, every sequence of calls preserves. -/
theorem run_preserves (env : Env P) {I : Database → Prop}
    (hstep : ∀ db op, I db → I (step env db op)) {db : Database} (h : I db) (ops : List (Op P)) :
    I (run env db ops) := by
  induction ops generalizing db with
  | nil => exact h
  | cons op ops ih => exact ih (hstep db op h)

end CodexKeyboard.Store
