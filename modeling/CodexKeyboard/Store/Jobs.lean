import CodexKeyboard.Store.Schema

/-! The durable prompt queue: `enqueue`, `claim_next_runnable`, `mark_completed`, `mark_failed` and
    the recovery pass a reopened store makes over interrupted jobs. -/

namespace CodexKeyboard.Store

open Schemes Transact

variable {P : Type}

structure NewJob (P : Type) where
  requestId : String
  taskId : String
  slot : Nat
  generation : Nat
  prompt : String
  cwd : P

structure Job (P : Type) where
  requestId : String
  taskId : String
  slot : Nat
  generation : Nat
  prompt : String
  cwd : P
  recoveryCount : Nat
  claimGeneration : Nat

inductive EnqueueOutcome where
  | inserted | replay
  deriving DecidableEq, Repr

/-- `char::is_whitespace`: the Unicode property White_Space. -/
def isWhitespace (c : Char) : Bool :=
  (0x09 ≤ c.val && c.val ≤ 0x0d) || c.val == 0x20 || c.val == 0x85 || c.val == 0xa0 ||
  c.val == 0x1680 || (0x2000 ≤ c.val && c.val ≤ 0x200a) || c.val == 0x2028 || c.val == 0x2029 ||
  c.val == 0x202f || c.val == 0x205f || c.val == 0x3000

def jobOk (env : Env P) (job : NewJob P) : Bool :=
  let requestOk := job.requestId ≠ "" && job.requestId.utf8ByteSize ≤ maxRequestIdBytes &&
    !hasAsciiControl job.requestId
  let taskOk := job.taskId ≠ "" && job.taskId.utf8ByteSize ≤ maxTaskIdBytes &&
    !hasAsciiControl job.taskId
  let promptOk := !job.prompt.toList.all isWhitespace && job.prompt.utf8ByteSize ≤ maxPromptBytes
  let cwd := env.encodePath job.cwd
  let cwdOk := env.isAbsolute job.cwd && !cwd.isEmpty && cwd.length ≤ maxCwdBytes &&
    !env.containsNul job.cwd
  requestOk && taskOk && promptOk && cwdOk

def validateJob (env : Env P) (job : NewJob P) : Except StoreError Unit :=
  ensure (jobOk env job = true) .invalidJob

/-- `WHERE task_id = ?1 AND state IN ('queued', 'running')`. -/
def JobRow.pending (task : String) (j : JobRow) : Bool :=
  j.taskId == task && (j.state == .queued || j.state == .running)

/-- Whether a known request is repeated with its immutable payload. The generation is converted only
    once task and slot agree, so an out-of-range one fails there and nowhere else. -/
def exactReplay (env : Env P) (existing : JobRow) (job : NewJob P) : Except StoreError Bool :=
  if existing.taskId == job.taskId && existing.slot == job.slot then do
    let generation ← toI64 job.generation
    .ok (existing.generation == generation && existing.prompt == job.prompt &&
      existing.cwd == env.encodePath job.cwd)
  else .ok false

/-- The row `enqueue` inserts. -/
def queuedRow (env : Env P) (job : NewJob P) (sequence : Nat) : JobRow where
  sequence := sequence
  requestId := job.requestId
  taskId := job.taskId
  slot := job.slot
  generation := job.generation
  prompt := job.prompt
  cwd := env.encodePath job.cwd
  state := .queued
  recoveryCount := 0
  claimGeneration := 0
  failureKind := none

def enqueue (env : Env P) (job : NewJob P) : Database → Except StoreError EnqueueOutcome × Database :=
  transaction fun db => do
    validateSlot job.slot
    validateJob env job
    match db.jobs.find? fun row => row.requestId == job.requestId with
    | some existing =>
      let replay ← exactReplay env existing job
      ensure (replay = true) .requestIdConflict
      .ok (.replay, db)
    | none =>
      ensure (db.jobs.countP (JobRow.pending job.taskId) < maxPendingJobsPerTask) .taskQueueFull
      let _ ← toI64 job.generation
      ensure (db.jobsSequence < i64Max) (.sqlite .full)
      let sequence := db.jobsSequence + 1
      let db ← db.putJobs (db.jobs ++ [queuedRow env job sequence])
      .ok (.inserted, { db with jobsSequence := sequence })

/-- The candidates of `claim_next_runnable`: queued, no running job of the task, no earlier one. -/
def runnable (jobs : List JobRow) (queued : JobRow) : Bool :=
  queued.state == .queued &&
  !jobs.any (fun running => running.taskId == queued.taskId && running.state == .running) &&
  !jobs.any (fun earlier => earlier.taskId == queued.taskId && earlier.state == .queued &&
    decide (earlier.sequence < queued.sequence))

/-- `WHERE request_id = ?1 AND state = 'queued'`. -/
def JobRow.queuedAs (requestId : String) (j : JobRow) : Bool :=
  j.requestId == requestId && j.state == .queued

/-- The effect of a claim on its row. -/
def JobRow.claim (next : Nat) (row : JobRow) : JobRow :=
  { row with state := .running, claimGeneration := next, failureKind := none }

def mapJob (env : Env P) (row : JobRow) : Except StoreError (Job P) := do
  let cwd ← orThrow (.sqlite .fromSqlConversion) (env.decodePath row.cwd)
  .ok {
    requestId := row.requestId
    taskId := row.taskId
    slot := row.slot
    generation := row.generation
    prompt := row.prompt
    cwd := cwd
    recoveryCount := row.recoveryCount
    claimGeneration := row.claimGeneration }

def claimNextRunnable (env : Env P) : Database → Except StoreError (Option (Job P)) × Database :=
  transaction fun db =>
    if maxGlobalRunningJobs ≤ db.jobs.countP (fun j => j.state == .running) then .ok (none, db) else
    match (Table.orderBy JobRow.sequence (db.jobs.filter (runnable db.jobs))).head? with
    | none => .ok (none, db)
    | some candidate => do
      ensure (candidate.claimGeneration < i64Max) .claimGenerationOutOfRange
      let target := JobRow.queuedAs candidate.requestId
      let changed := db.jobs.countP target
      let tx ← db.putJobs (Table.update target (JobRow.claim (candidate.claimGeneration + 1)) db.jobs)
      if changed ≠ 1 then .ok (none, db) else do
      let row ← orThrow (.sqlite .queryReturnedNoRows)
        (tx.jobs.find? fun j => j.requestId == candidate.requestId)
      let job ← mapJob env row
      .ok (some job, tx)

/-- The claim a worker answers for: the request, running, at the claimed generation. -/
def JobRow.claimedAs (requestId : String) (claimGeneration : Nat) (j : JobRow) : Bool :=
  j.requestId == requestId && j.state == .running && j.claimGeneration == claimGeneration

def JobRow.complete (j : JobRow) : JobRow := { j with state := .completed }

def JobRow.fail (failure : JobFailureKind) (j : JobRow) : JobRow :=
  { j with state := .failed, failureKind := some failure }

def markCompleted (requestId : String) (claimGeneration : Nat) :
    Database → Except StoreError Bool × Database :=
  transaction fun db => do
    let generation ← toI64 claimGeneration
    let target := JobRow.claimedAs requestId generation
    let changed := db.jobs.countP target
    let tx ← db.putJobs (Table.update target JobRow.complete db.jobs)
    .ok (changed == 1, tx)

def markFailed (requestId : String) (claimGeneration : Nat) (failure : JobFailureKind) :
    Database → Except StoreError Bool × Database :=
  transaction fun db => do
    let generation ← toI64 claimGeneration
    let target := JobRow.claimedAs requestId generation
    let changed := db.jobs.countP target
    let tx ← db.putJobs (Table.update target (JobRow.fail failure) db.jobs)
    .ok (changed == 1, tx)

/-- `running` back to `queued`, with one more recovery. -/
def JobRow.recover (j : JobRow) : JobRow :=
  { j with state := .queued, recoveryCount := j.recoveryCount + 1 }

def recoverInterruptedJobs : Database → Except StoreError Nat × Database :=
  transaction fun db => do
    let target := fun j : JobRow => j.state == .running
    let recovered := db.jobs.countP target
    let tx ← db.putJobs (Table.update target JobRow.recover db.jobs)
    .ok (recovered, tx)

/-! ### What each call can do -/

section Spec

variable {env : Env P} {db db' : Database} {e : StoreError}

theorem mapJob_ok {row : JobRow} {job : Job P} (h : mapJob env row = .ok job) :
    job.requestId = row.requestId ∧ job.taskId = row.taskId ∧
      job.claimGeneration = row.claimGeneration := by
  simp only [mapJob, bind_ok, Except.ok.injEq] at h
  obtain ⟨_, _, rfl⟩ := h
  exact ⟨rfl, rfl, rfl⟩

/-- A successful `enqueue` finds the request with its payload, or appends a queued row for it. -/
theorem enqueue_ok {job : NewJob P} {outcome : EnqueueOutcome}
    (h : enqueue env job db = (.ok outcome, db')) :
    slotOk job.slot = true ∧ jobOk env job = true ∧
    ((outcome = .replay ∧ db' = db ∧ ∃ row ∈ db.jobs, row.requestId = job.requestId ∧
        exactReplay env row job = .ok true) ∨
      (outcome = .inserted ∧ (∀ row ∈ db.jobs, row.requestId ≠ job.requestId) ∧
        db.jobs.countP (JobRow.pending job.taskId) < maxPendingJobsPerTask ∧
        job.generation ≤ i64Max ∧ JobSchema (db.jobs ++ [queuedRow env job (db.jobsSequence + 1)]) ∧
        db' = { db with
          jobs := db.jobs ++ [queuedRow env job (db.jobsSequence + 1)]
          jobsSequence := db.jobsSequence + 1 })) := by
  simp only [enqueue, transaction_eq_ok, bind_ok, validateSlot, validateJob, ensure_ok] at h
  obtain ⟨_, hslot, _, hjob, h⟩ := h
  refine ⟨hslot, hjob, ?_⟩
  split at h
  next existing hfind =>
    simp only [bind_ok, ensure_ok, Except.ok.injEq, Prod.mk.injEq] at h
    obtain ⟨replay, hreplay, _, rfl, rfl, rfl⟩ := h
    exact Or.inl ⟨rfl, rfl, existing, List.mem_of_find?_eq_some hfind,
      by simpa using List.find?_some hfind, hreplay⟩
  next hnone =>
    simp only [bind_ok, ensure_ok, toI64_ok, Database.putJobs_ok, Except.ok.injEq,
      Prod.mk.injEq] at h
    obtain ⟨_, hpending, _, ⟨hgen, rfl⟩, _, _, _, ⟨hschema, rfl⟩, rfl, rfl⟩ := h
    refine Or.inr ⟨rfl, ?_, hpending, hgen, hschema, rfl⟩
    intro row hrow
    simpa using List.find?_eq_none.1 hnone row hrow

theorem enqueue_error {job : NewJob P} (h : enqueue env job db = (.error e, db')) : db' = db := by
  simp only [enqueue, transaction_eq_error] at h
  exact h.2.symm

/-- The row `claim_next_runnable` picks is queued, first of its task, and no job of it runs. -/
theorem runnable_iff {jobs : List JobRow} {row : JobRow} :
    runnable jobs row = true ↔ row.state = .queued ∧
      (∀ j ∈ jobs, j.taskId = row.taskId → j.state ≠ .running) ∧
      ∀ j ∈ jobs, j.taskId = row.taskId → j.state = .queued → row.sequence ≤ j.sequence := by
  simp only [runnable, Bool.and_eq_true, beq_iff_eq, Bool.not_eq_true', List.any_eq_false,
    decide_eq_true_eq, not_and, not_lt, and_assoc]

/-- The table after `row` was claimed. -/
def claimed (row : JobRow) (jobs : List JobRow) : List JobRow :=
  Table.update (JobRow.queuedAs row.requestId) (JobRow.claim (row.claimGeneration + 1)) jobs

/-- A successful claim hands nothing out and changes nothing, or turns one runnable row into the
    running row it hands out. -/
theorem claimNextRunnable_ok {result : Option (Job P)}
    (h : claimNextRunnable env db = (.ok result, db')) :
    (result = none ∧ db' = db) ∨
    ∃ job row, result = some job ∧ row ∈ db.jobs ∧ runnable db.jobs row = true ∧
      db.jobs.countP (fun j => j.state == .running) < maxGlobalRunningJobs ∧
      job.requestId = row.requestId ∧ job.taskId = row.taskId ∧
      job.claimGeneration = row.claimGeneration + 1 ∧
      JobSchema (claimed row db.jobs) ∧ db.jobs.countP (JobRow.queuedAs row.requestId) = 1 ∧
      db' = { db with jobs := claimed row db.jobs } := by
  simp only [claimNextRunnable, transaction_eq_ok] at h
  split at h
  next => simp only [Except.ok.injEq, Prod.mk.injEq] at h; exact Or.inl ⟨h.1.symm, h.2.symm⟩
  next hrunning =>
    split at h
    next => simp only [Except.ok.injEq, Prod.mk.injEq] at h; exact Or.inl ⟨h.1.symm, h.2.symm⟩
    next row hhead =>
      simp only [bind_ok, ensure_ok, Database.putJobs_ok] at h
      obtain ⟨_, _, _, ⟨hschema, rfl⟩, h⟩ := h
      have hmem := Table.mem_orderBy.1 (List.mem_of_head? hhead)
      obtain ⟨hrow, hrunnable⟩ := List.mem_filter.1 hmem
      split at h
      next => simp only [Except.ok.injEq, Prod.mk.injEq] at h; exact Or.inl ⟨h.1.symm, h.2.symm⟩
      next hone =>
        simp only [bind_ok, orThrow_ok, Except.ok.injEq, Prod.mk.injEq] at h
        obtain ⟨found, hfound, job, hjob, rfl, rfl⟩ := h
        have hone' := not_not.1 hone
        obtain ⟨hid, htask, hclaim⟩ := mapJob_ok hjob
        have hidf : found.requestId = row.requestId := by simpa using List.find?_some hfound
        -- the row read back is the claimed one: request ids are unique
        have hnew : row.claim (row.claimGeneration + 1) ∈ claimed row db.jobs :=
          Table.mem_update_of hrow (by simp [JobRow.queuedAs, (runnable_iff.1 hrunnable).1])
        have hfoundEq : found = row.claim (row.claimGeneration + 1) :=
          hschema.2.2.1.eq_of_mem (List.mem_of_find?_eq_some hfound) hnew rfl rfl hidf
        refine Or.inr ⟨job, row, rfl, hrow, hrunnable, by omega, ?_, ?_, ?_, hschema, hone', rfl⟩
        · rw [hid, hidf]
        · rw [htask, hfoundEq]; rfl
        · rw [hclaim, hfoundEq]; rfl

theorem claimNextRunnable_error (h : claimNextRunnable env db = (.error e, db')) : db' = db := by
  simp only [claimNextRunnable, transaction_eq_error] at h
  exact h.2.symm

theorem markCompleted_ok {id : String} {generation : Nat} {changed : Bool}
    (h : markCompleted id generation db = (.ok changed, db')) :
    let jobs := Table.update (JobRow.claimedAs id generation) JobRow.complete db.jobs
    JobSchema jobs ∧ db' = { db with jobs := jobs } := by
  simp only [markCompleted, transaction_eq_ok, bind_ok, toI64_ok, Database.putJobs_ok,
    Except.ok.injEq, Prod.mk.injEq] at h
  obtain ⟨_, ⟨_, rfl⟩, _, ⟨hschema, rfl⟩, _, rfl⟩ := h
  exact ⟨hschema, rfl⟩

theorem markCompleted_error {id : String} {generation : Nat}
    (h : markCompleted id generation db = (.error e, db')) : db' = db := by
  simp only [markCompleted, transaction_eq_error] at h
  exact h.2.symm

theorem markFailed_ok {id : String} {generation : Nat} {failure : JobFailureKind} {changed : Bool}
    (h : markFailed id generation failure db = (.ok changed, db')) :
    let jobs := Table.update (JobRow.claimedAs id generation) (JobRow.fail failure) db.jobs
    JobSchema jobs ∧ db' = { db with jobs := jobs } := by
  simp only [markFailed, transaction_eq_ok, bind_ok, toI64_ok, Database.putJobs_ok,
    Except.ok.injEq, Prod.mk.injEq] at h
  obtain ⟨_, ⟨_, rfl⟩, _, ⟨hschema, rfl⟩, _, rfl⟩ := h
  exact ⟨hschema, rfl⟩

theorem markFailed_error {id : String} {generation : Nat} {failure : JobFailureKind}
    (h : markFailed id generation failure db = (.error e, db')) : db' = db := by
  simp only [markFailed, transaction_eq_error] at h
  exact h.2.symm

theorem recoverInterruptedJobs_ok {n : Nat} (h : recoverInterruptedJobs db = (.ok n, db')) :
    let jobs := Table.update (fun j => j.state == .running) JobRow.recover db.jobs
    JobSchema jobs ∧ db' = { db with jobs := jobs } := by
  simp only [recoverInterruptedJobs, transaction_eq_ok, bind_ok, Database.putJobs_ok,
    Except.ok.injEq, Prod.mk.injEq] at h
  obtain ⟨_, ⟨hschema, rfl⟩, _, rfl⟩ := h
  exact ⟨hschema, rfl⟩

theorem recoverInterruptedJobs_error (h : recoverInterruptedJobs db = (.error e, db')) : db' = db := by
  simp only [recoverInterruptedJobs, transaction_eq_error] at h
  exact h.2.symm

end Spec

end CodexKeyboard.Store
