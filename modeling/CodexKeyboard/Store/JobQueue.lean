import CodexKeyboard.Store.Ledger

/-! The prompt queue is a fenced FIFO for every task: jobs of a task run one at a time and in the
    order they were enqueued, a recovered job before any later one, and a worker that was claimed
    over can no longer change the row. -/

namespace CodexKeyboard.Store

open Schemes Transact

variable {P : Type} {env : Env P} {db db' : Database} {op : Op P}

/-! ### What a call does to the queue -/

/-- The claim a reply hands to a worker. -/
def handed : Except StoreError (Reply P) → List (String × Nat)
  | .ok (.claimNextRunnable (some job)) => [(job.requestId, job.claimGeneration)]
  | _ => []

/-- The changes of one call to the queue, with the claim it hands out. -/
inductive JobEffect (env : Env P) (db : Database) :
    List (String × Nat) → List JobRow → Nat → Prop
  | same : JobEffect env db [] db.jobs db.jobsSequence
  | enqueued (job : NewJob P) (slot : slotOk job.slot = true) (valid : jobOk env job = true)
      (inRange : job.generation ≤ i64Max)
      (fresh : ∀ row ∈ db.jobs, row.requestId ≠ job.requestId)
      (room : db.jobs.countP (JobRow.pending job.taskId) < maxPendingJobsPerTask)
      (schema : JobSchema (db.jobs ++ [queuedRow env job (db.jobsSequence + 1)])) :
      JobEffect env db [] (db.jobs ++ [queuedRow env job (db.jobsSequence + 1)]) (db.jobsSequence + 1)
  | claimed (row : JobRow) (mem : row ∈ db.jobs) (first : runnable db.jobs row = true)
      (room : db.jobs.countP (fun j => j.state == .running) < maxGlobalRunningJobs)
      (one : db.jobs.countP (JobRow.queuedAs row.requestId) = 1)
      (schema : JobSchema (Store.claimed row db.jobs)) :
      JobEffect env db [(row.requestId, row.claimGeneration + 1)] (Store.claimed row db.jobs)
        db.jobsSequence
  | ended (id : String) (generation : Nat) (f : JobRow → JobRow) (hf : f = JobRow.complete ∨
      ∃ failure, f = JobRow.fail failure)
      (schema : JobSchema (Table.update (JobRow.claimedAs id generation) f db.jobs)) :
      JobEffect env db [] (Table.update (JobRow.claimedAs id generation) f db.jobs) db.jobsSequence
  | recovered
      (schema : JobSchema (Table.update (fun j => j.state == .running) JobRow.recover db.jobs)) :
      JobEffect env db [] (Table.update (fun j => j.state == .running) JobRow.recover db.jobs)
        db.jobsSequence

theorem Effect.jobs_frame (he : Effect env op db db') (hop : op.onQueue = false) :
    db'.jobs = db.jobs ∧ db'.jobsSequence = db.jobsSequence := by
  cases he with
  | queue jobs sequence onQueue => simp [hop] at onQueue
  | published publication => rw [publication.commits]; exact ⟨rfl, rfl⟩
  | acquired lease acquisition => rw [acquisition.commits]; exact ⟨rfl, rfl⟩
  | released lease release => rw [release.commits]; exact ⟨rfl, rfl⟩
  | finished finish => rw [finish.commits]; exact ⟨rfl, rfl⟩
  | _ => exact ⟨rfl, rfl⟩

/-- The later recovery passes of a reopen leave the queue as the first one left it. -/
theorem reopen_jobs (env : Env P) (db : Database) :
    JobEffect env db [] (reopen db).2.jobs (reopen db).2.jobsSequence := by
  unfold reopen
  rcases hjobs : recoverInterruptedJobs db with ⟨e | n, db₁⟩
  · obtain rfl := recoverInterruptedJobs_error hjobs
    exact .same
  obtain ⟨hschema, rfl⟩ := recoverInterruptedJobs_ok hjobs
  simp only
  split
  next e db₂ hsum =>
    obtain ⟨_, rfl⟩ := recoverInterruptedSummaries_error hsum
    exact .recovered hschema
  next m db₂ hsum =>
    obtain ⟨_, rfl⟩ := recoverInterruptedSummaries_ok hsum
    split
    next e db₃ hlease =>
      obtain ⟨_, rfl⟩ := recoverInterruptedPlaybackLeases_error hlease
      exact .recovered hschema
    next u db₃ hlease =>
      obtain ⟨_, rfl⟩ := recoverInterruptedPlaybackLeases_ok hlease
      exact .recovered hschema

theorem handed_of {α : Type} {wrap : α → Reply P} {r : Except StoreError α × Database}
    (h : ∀ a, handed (.ok (wrap a)) = []) : handed (Reply.of wrap r).1 = [] := by
  obtain ⟨e | a, db'⟩ := r
  · rfl
  · exact h a

theorem jobEffect_of {α : Type} {wrap : α → Reply P} (r : Except StoreError α × Database)
    (herr : ∀ e db', r = (.error e, db') → db' = db)
    (hok : ∀ a db', r = (.ok a, db') →
      JobEffect env db (handed (.ok (wrap a))) db'.jobs db'.jobsSequence) :
    JobEffect env db (handed (Reply.of wrap r).1) r.2.jobs r.2.jobsSequence := by
  obtain ⟨e | a, db'⟩ := r
  · rw [herr e db' rfl]
    exact .same
  · exact hok a db' rfl

/-- Every call has one of the effects on the queue. -/
theorem LedgerOk.jobEffect (h : LedgerOk env db) (op : Op P) :
    JobEffect env db (handed (exec env db op).1) (Store.step env db op).jobs
      (Store.step env db op).jobsSequence := by
  by_cases hop : op.onQueue = true
  · cases op with
    | enqueue job =>
      refine jobEffect_of (enqueue env job db) (fun e db' => enqueue_error) fun a db' h => ?_
      obtain ⟨hslot, hvalid, ⟨_, rfl, _⟩ | ⟨_, hfresh, hroom, hrange, hschema, rfl⟩⟩ := enqueue_ok h
      · exact .same
      · exact .enqueued job hslot hvalid hrange hfresh hroom hschema
    | claimNextRunnable =>
      refine jobEffect_of (claimNextRunnable env db) (fun e db' => claimNextRunnable_error)
        fun a db' h => ?_
      rcases claimNextRunnable_ok h with ⟨rfl, rfl⟩ |
        ⟨job, row, rfl, hrow, hrunnable, hroom, hid, _, hclaim, hschema, hone, rfl⟩
      · exact .same
      · simp only [handed, hid, hclaim]
        exact .claimed row hrow hrunnable hroom hone hschema
    | markCompleted id generation =>
      refine jobEffect_of (markCompleted id generation db) (fun e db' => markCompleted_error)
        fun a db' h => ?_
      obtain ⟨hschema, rfl⟩ := markCompleted_ok h
      exact .ended id generation _ (Or.inl rfl) hschema
    | markFailed id generation failure =>
      refine jobEffect_of (markFailed id generation failure db) (fun e db' => markFailed_error)
        fun a db' h => ?_
      obtain ⟨hschema, rfl⟩ := markFailed_ok h
      exact .ended id generation _ (Or.inr ⟨failure, rfl⟩) hschema
    | reopen =>
      have hnone : handed (exec env db .reopen).1 = [] := handed_of fun _ => rfl
      rw [hnone]
      exact reopen_jobs env db
    | _ => simp [Op.onQueue] at hop
  · simp only [Bool.not_eq_true] at hop
    have hne : op ≠ .reopen := by
      rintro rfl
      cases hop
    obtain ⟨hjobs, hseq⟩ := (step_effect env op hne h.leases.2.1 h.attempts.2).jobs_frame hop
    have hnone : handed (exec env db op).1 = [] := by
      cases op <;> first | exact handed_of fun _ => rfl | simp [Op.onQueue] at hop
    rw [hnone, hjobs, hseq]
    exact .same

/-! ### The invariant of the table -/

/-- How far a job has come: ended, running, queued. -/
def JobState.rank : JobState → Nat
  | .completed | .failed => 0
  | .running => 1
  | .queued => 2

/-- The row was enqueued as `job`; its immutable columns still say so. -/
structure JobRow.EnqueuedAs (env : Env P) (row : JobRow) (job : NewJob P) : Prop where
  requestId : row.requestId = job.requestId
  taskId : row.taskId = job.taskId
  slot : row.slot = job.slot
  generation : row.generation = job.generation
  prompt : row.prompt = job.prompt
  cwd : row.cwd = env.encodePath job.cwd
  slotOk : slotOk job.slot = true
  valid : jobOk env job = true
  inRange : job.generation ≤ i64Max

structure QueueOk (env : Env P) (jobs : List JobRow) (sequence : Nat) : Prop where
  schema : JobSchema jobs
  bounded : ∀ j ∈ jobs, j.sequence ≤ sequence
  /-- Ended jobs of a task come before its running one, and that before its queued ones. -/
  ordered : ∀ a ∈ jobs, ∀ b ∈ jobs, a.taskId = b.taskId → a.state.rank < b.state.rank →
    a.sequence < b.sequence
  running : jobs.countP (fun j => j.state == .running) ≤ maxGlobalRunningJobs
  pending : ∀ task, jobs.countP (JobRow.pending task) ≤ maxPendingJobsPerTask
  origin : ∀ row ∈ jobs, ∃ job : NewJob P, row.EnqueuedAs env job

theorem queueOk_empty (env : Env P) : QueueOk env [] 0 := by
  constructor <;> simp [JobSchema, Table.unique_nil]

/-- What rewriting some rows has to respect. -/
theorem QueueOk.update {jobs : List JobRow} {sequence : Nat} (h : QueueOk env jobs sequence)
    {target : JobRow → Bool} {f : JobRow → JobRow} (hschema : JobSchema (Table.update target f jobs))
    (hseq : ∀ j, (f j).sequence = j.sequence) (htask : ∀ j, (f j).taskId = j.taskId)
    (horigin : ∀ j (job : NewJob P), j.EnqueuedAs env job → (f j).EnqueuedAs env job)
    (hordered : ∀ a ∈ jobs, ∀ b ∈ jobs, a.taskId = b.taskId →
      (if target a then f a else a).state.rank < (if target b then f b else b).state.rank →
      a.sequence < b.sequence)
    (hrunning : (Table.update target f jobs).countP (fun j => j.state == .running) ≤
      maxGlobalRunningJobs)
    (hpending : ∀ j, target j = true → ∀ task, (f j).pending task = true → j.pending task = true) :
    QueueOk env (Table.update target f jobs) sequence := by
  have hseq' : ∀ j, (if target j then f j else j).sequence = j.sequence := by
    intro j
    split <;> simp [hseq]
  have htask' : ∀ j, (if target j then f j else j).taskId = j.taskId := by
    intro j
    split <;> simp [htask]
  refine ⟨hschema, ?_, ?_, hrunning, ?_, ?_⟩
  · intro j' hj'
    obtain ⟨j, hj, rfl⟩ := Table.mem_update.1 hj'
    rw [hseq']
    exact h.bounded j hj
  · intro a' ha' b' hb' hab hrank
    obtain ⟨a, ha, rfl⟩ := Table.mem_update.1 ha'
    obtain ⟨b, hb, rfl⟩ := Table.mem_update.1 hb'
    rw [htask', htask'] at hab
    rw [hseq', hseq']
    exact hordered a ha b hb hab hrank
  · intro task
    exact le_trans (Table.countP_update_mono fun r _ ht => hpending r ht task) (h.pending task)
  · intro j' hj'
    obtain ⟨j, hj, rfl⟩ := Table.mem_update.1 hj'
    obtain ⟨job, hjob⟩ := h.origin j hj
    split
    · exact ⟨job, horigin j job hjob⟩
    · exact ⟨job, hjob⟩

theorem JobRow.queuedAs_iff {id : String} {j : JobRow} :
    j.queuedAs id = true ↔ j.requestId = id ∧ j.state = .queued := by
  simp [JobRow.queuedAs]

theorem JobRow.claimedAs_iff {id : String} {generation : Nat} {j : JobRow} :
    j.claimedAs id generation = true ↔
      j.requestId = id ∧ j.state = .running ∧ j.claimGeneration = generation := by
  simp [JobRow.claimedAs, and_assoc]

theorem JobRow.EnqueuedAs.of_same {row row' : JobRow} {job : NewJob P} (h : row.EnqueuedAs env job)
    (hid : row'.requestId = row.requestId) (htask : row'.taskId = row.taskId)
    (hslot : row'.slot = row.slot) (hgen : row'.generation = row.generation)
    (hprompt : row'.prompt = row.prompt) (hcwd : row'.cwd = row.cwd) : row'.EnqueuedAs env job :=
  ⟨hid.trans h.requestId, htask.trans h.taskId, hslot.trans h.slot, hgen.trans h.generation,
    hprompt.trans h.prompt, hcwd.trans h.cwd, h.slotOk, h.valid, h.inRange⟩

theorem QueueOk.enqueued {jobs : List JobRow} {sequence : Nat} (h : QueueOk env jobs sequence)
    {job : NewJob P} (hslot : slotOk job.slot = true) (hvalid : jobOk env job = true)
    (hrange : job.generation ≤ i64Max)
    (hroom : jobs.countP (JobRow.pending job.taskId) < maxPendingJobsPerTask)
    (hschema : JobSchema (jobs ++ [queuedRow env job (sequence + 1)])) :
    QueueOk env (jobs ++ [queuedRow env job (sequence + 1)]) (sequence + 1) := by
  refine ⟨hschema, ?_, ?_, ?_, ?_, ?_⟩
  · intro j hj
    rcases List.mem_append.1 hj with hj | hj
    · exact Nat.le_succ_of_le (h.bounded j hj)
    · rw [List.mem_singleton] at hj
      subst hj
      rfl
  · intro a ha b hb hab hrank
    rcases List.mem_append.1 hb with hb | hb
    · rcases List.mem_append.1 ha with ha | ha
      · exact h.ordered a ha b hb hab hrank
      · rw [List.mem_singleton] at ha
        subst ha
        cases hs : b.state <;> simp [queuedRow, JobState.rank, hs] at hrank
    · rw [List.mem_singleton] at hb
      subst hb
      rcases List.mem_append.1 ha with ha | ha
      · exact Nat.lt_succ_of_le (h.bounded a ha)
      · rw [List.mem_singleton] at ha
        subst ha
        simp at hrank
  · rw [List.countP_append, List.countP_singleton]
    exact h.running
  · intro task
    rw [List.countP_append, List.countP_singleton]
    split
    next hp =>
      have : job.taskId = task := by simpa [JobRow.pending, queuedRow] using hp
      subst this
      omega
    next => exact h.pending task
  · intro row hrow
    rcases List.mem_append.1 hrow with hrow | hrow
    · exact h.origin row hrow
    · rw [List.mem_singleton] at hrow
      subst hrow
      exact ⟨job, rfl, rfl, rfl, rfl, rfl, rfl, hslot, hvalid, hrange⟩

theorem QueueOk.claimed {jobs : List JobRow} {sequence : Nat} (h : QueueOk env jobs sequence)
    {row : JobRow} (hrow : row ∈ jobs) (hfirst : runnable jobs row = true)
    (hroom : jobs.countP (fun j => j.state == .running) < maxGlobalRunningJobs)
    (hone : jobs.countP (JobRow.queuedAs row.requestId) = 1)
    (hschema : JobSchema (Store.claimed row jobs)) : QueueOk env (Store.claimed row jobs) sequence := by
  obtain ⟨hqueued, hnone, hmin⟩ := runnable_iff.1 hfirst
  have htarget : ∀ j ∈ jobs, j.queuedAs row.requestId = true → j = row := by
    intro j hj ht
    exact h.schema.2.2.1.eq_of_mem hj hrow rfl rfl (JobRow.queuedAs_iff.1 ht).1
  refine h.update hschema (fun _ => rfl) (fun _ => rfl)
    (fun j job hj => hj.of_same rfl rfl rfl rfl rfl rfl) ?_ ?_ ?_
  · intro a ha b hb hab hrank
    split at hrank
    next hta =>
      -- the claimed job is the first queued one of its task
      obtain rfl := htarget a ha hta
      split at hrank
      next => simp [JobRow.claim] at hrank
      next htb =>
        have hqb : b.state = .queued := by
          cases hs : b.state <;> simp [JobRow.claim, JobState.rank, hs] at hrank ⊢
        have hle := hmin b hb hab.symm hqb
        have hne : a.sequence ≠ b.sequence := by
          intro heq
          have := h.schema.2.1.eq_of_mem ha hb rfl rfl heq
          subst this
          exact htb hta
        omega
    next hta =>
      split at hrank
      next htb =>
        refine h.ordered a ha b hb hab ?_
        obtain rfl := htarget b hb htb
        rw [hqueued]
        exact Nat.lt_trans (show a.state.rank < 1 from hrank) (by decide)
      next => exact h.ordered a ha b hb hab hrank
  · have := Table.countP_update_le (p := JobRow.queuedAs row.requestId)
      (q := fun j => j.state == .running) (f := JobRow.claim (row.claimGeneration + 1)) (t := jobs)
    rw [hone] at this
    omega
  · intro j ht task hp
    simp only [JobRow.pending, JobRow.claim, Bool.and_eq_true, beq_iff_eq] at hp
    simp [JobRow.pending, hp.1, (JobRow.queuedAs_iff.1 ht).2]

theorem QueueOk.ended {jobs : List JobRow} {sequence : Nat} (h : QueueOk env jobs sequence)
    {id : String} {generation : Nat} {f : JobRow → JobRow}
    (hf : f = JobRow.complete ∨ ∃ failure, f = JobRow.fail failure)
    (hschema : JobSchema (Table.update (JobRow.claimedAs id generation) f jobs)) :
    QueueOk env (Table.update (JobRow.claimedAs id generation) f jobs) sequence := by
  have hrank : ∀ j, (f j).state.rank = 0 := by
    rcases hf with rfl | ⟨failure, rfl⟩ <;> intro j <;> rfl
  have hstate : ∀ j, (f j).state ≠ .running ∧ (f j).state ≠ .queued := by
    intro j
    have := hrank j
    constructor <;> intro hs <;> simp [hs, JobState.rank] at this
  refine h.update hschema ?_ ?_ ?_ ?_ ?_ ?_
  · rcases hf with rfl | ⟨failure, rfl⟩ <;> intro j <;> rfl
  · rcases hf with rfl | ⟨failure, rfl⟩ <;> intro j <;> rfl
  · rcases hf with rfl | ⟨failure, rfl⟩ <;> intro j job hj <;>
      exact hj.of_same rfl rfl rfl rfl rfl rfl
  · intro a ha b hb hab hlt
    split at hlt
    next hta =>
      split at hlt
      next => simp [hrank] at hlt
      next htb =>
        obtain ⟨_, hra, _⟩ := JobRow.claimedAs_iff.1 hta
        -- no second job of the task runs, so `b` is queued
        have hqb : b.state = .queued := by
          cases hs : b.state with
          | queued => rfl
          | running =>
            have := h.schema.2.2.2.eq_of_mem ha hb (by simp [hra]) (by simp [hs]) hab
            subst this
            exact absurd hta htb
          | completed => simp [hs, JobState.rank] at hlt
          | failed => simp [hs, JobState.rank] at hlt
        exact h.ordered a ha b hb hab (by simp [hra, hqb, JobState.rank])
    next =>
      split at hlt
      next => simp [hrank] at hlt
      next => exact h.ordered a ha b hb hab hlt
  · refine le_trans (Table.countP_update_mono fun j _ _ hr => ?_) h.running
    exact absurd (by simpa using hr) (hstate j).1
  · intro j ht task hp
    simp only [JobRow.pending, Bool.and_eq_true, Bool.or_eq_true, beq_iff_eq] at hp
    rcases hp.2 with hs | hs
    · exact absurd hs (hstate j).2
    · exact absurd hs (hstate j).1

theorem QueueOk.recovered {jobs : List JobRow} {sequence : Nat} (h : QueueOk env jobs sequence)
    (hschema : JobSchema (Table.update (fun j => j.state == .running) JobRow.recover jobs)) :
    QueueOk env (Table.update (fun j => j.state == .running) JobRow.recover jobs) sequence := by
  refine h.update hschema (fun _ => rfl) (fun _ => rfl)
    (fun j job hj => hj.of_same rfl rfl rfl rfl rfl rfl) ?_ ?_ ?_
  · intro a ha b hb hab hlt
    refine h.ordered a ha b hb hab ?_
    cases hsa : a.state <;> cases hsb : b.state <;>
      simp [hsa, hsb, JobState.rank, JobRow.recover] at hlt ⊢
  · refine le_trans (Table.countP_update_mono fun j _ _ hr => ?_) h.running
    simp [JobRow.recover] at hr
  · intro j ht task hp
    simp only [beq_iff_eq] at ht
    simp only [JobRow.pending, JobRow.recover, Bool.and_eq_true, beq_iff_eq] at hp
    simp [JobRow.pending, hp.1, ht]

theorem QueueOk.effect {trace : List (String × Nat)} {jobs : List JobRow} {sequence : Nat}
    (h : QueueOk env db.jobs db.jobsSequence) (he : JobEffect env db trace jobs sequence) :
    QueueOk env jobs sequence := by
  cases he with
  | same => exact h
  | enqueued job slot valid inRange fresh room schema => exact h.enqueued slot valid inRange room schema
  | claimed row mem first room one schema => exact h.claimed mem first room one schema
  | ended id generation f hf schema => exact h.ended hf schema
  | recovered schema => exact h.recovered schema

/-! ### The claims a run hands out -/

/-- Every claim handed out by a sequence of calls, in order: request and claim generation. -/
def claims (env : Env P) : Database → List (Op P) → List (String × Nat)
  | _, [] => []
  | db, op :: ops => handed (exec env db op).1 ++ claims env (Store.step env db op) ops

/-- The generations handed out for one request, in order. -/
def generationsOf (id : String) (trace : List (String × Nat)) : List Nat :=
  (trace.filter fun claim => claim.1 == id).map Prod.snd

theorem generationsOf_append (id : String) (trace trace' : List (String × Nat)) :
    generationsOf id (trace ++ trace') = generationsOf id trace ++ generationsOf id trace' := by
  simp [generationsOf]

theorem generationsOf_singleton (id : String) (claim : String × Nat) :
    generationsOf id [claim] = if claim.1 = id then [claim.2] else [] := by
  by_cases h : claim.1 = id <;> simp [generationsOf, h]

theorem mem_generationsOf {id : String} {trace : List (String × Nat)} {g : Nat} :
    g ∈ generationsOf id trace ↔ (id, g) ∈ trace := by
  simp [generationsOf]

/-- The table and the claims handed out so far agree. -/
structure TraceOk (jobs : List JobRow) (trace : List (String × Nat)) : Prop where
  increasing : ∀ id, (generationsOf id trace).Pairwise (· < ·)
  bounded : ∀ row ∈ jobs, ∀ g ∈ generationsOf row.requestId trace, g ≤ row.claimGeneration
  latest : ∀ row ∈ jobs,
    (generationsOf row.requestId trace = [] ∧ row.claimGeneration = 0 ∧ row.state = .queued) ∨
    (generationsOf row.requestId trace).getLast? = some row.claimGeneration
  known : ∀ claim ∈ trace, ∃ row ∈ jobs, row.requestId = claim.1

theorem traceOk_empty : TraceOk [] [] := by
  constructor <;> simp [generationsOf]

/-- Rewriting running rows without touching their claim. -/
theorem TraceOk.update {jobs : List JobRow} {trace : List (String × Nat)} (h : TraceOk jobs trace)
    {target : JobRow → Bool} {f : JobRow → JobRow} (hrunning : ∀ j, target j = true → j.state = .running)
    (hid : ∀ j, (f j).requestId = j.requestId)
    (hclaim : ∀ j, (f j).claimGeneration = j.claimGeneration) :
    TraceOk (Table.update target f jobs) trace := by
  refine ⟨h.increasing, ?_, ?_, ?_⟩
  · intro row' hrow' g hg
    rcases Table.mem_update_cases hrow' with ⟨hrow, _⟩ | ⟨row, hrow, _, rfl⟩
    · exact h.bounded row' hrow g hg
    · rw [hid] at hg
      rw [hclaim]
      exact h.bounded row hrow g hg
  · intro row' hrow'
    rcases Table.mem_update_cases hrow' with ⟨hrow, _⟩ | ⟨row, hrow, ht, rfl⟩
    · exact h.latest row' hrow
    · rw [hid, hclaim]
      rcases h.latest row hrow with ⟨_, _, hqueued⟩ | hlast
      · simp [hrunning row ht] at hqueued
      · exact Or.inr hlast
  · intro claim hclaim
    obtain ⟨row, hrow, heq⟩ := h.known claim hclaim
    refine ⟨if target row then f row else row, Table.mem_update.2 ⟨row, hrow, rfl⟩, ?_⟩
    split
    · rw [hid, heq]
    · exact heq

theorem TraceOk.enqueued {jobs : List JobRow} {trace : List (String × Nat)} (h : TraceOk jobs trace)
    {job : NewJob P} (hfresh : ∀ row ∈ jobs, row.requestId ≠ job.requestId) (sequence : Nat) :
    TraceOk (jobs ++ [queuedRow env job sequence]) trace := by
  have hnone : generationsOf job.requestId trace = [] := by
    rw [List.eq_nil_iff_forall_not_mem]
    intro g hg
    obtain ⟨row, hrow, heq⟩ := h.known _ (mem_generationsOf.1 hg)
    exact hfresh row hrow heq
  refine ⟨h.increasing, ?_, ?_, ?_⟩
  · intro row hrow g hg
    rcases List.mem_append.1 hrow with hrow | hrow
    · exact h.bounded row hrow g hg
    · rw [List.mem_singleton] at hrow
      subst hrow
      rw [show (queuedRow env job sequence).requestId = job.requestId from rfl, hnone] at hg
      cases hg
  · intro row hrow
    rcases List.mem_append.1 hrow with hrow | hrow
    · exact h.latest row hrow
    · rw [List.mem_singleton] at hrow
      subst hrow
      exact Or.inl ⟨hnone, rfl, rfl⟩
  · intro claim hclaim
    obtain ⟨row, hrow, heq⟩ := h.known claim hclaim
    exact ⟨row, List.mem_append_left _ hrow, heq⟩

theorem TraceOk.claimed {jobs : List JobRow} {trace : List (String × Nat)} (h : TraceOk jobs trace)
    (hschema : JobSchema jobs) {row : JobRow} (hrow : row ∈ jobs) (hqueued : row.state = .queued) :
    TraceOk (Store.claimed row jobs) (trace ++ [(row.requestId, row.claimGeneration + 1)]) := by
  have hsame : ∀ j ∈ jobs, j.requestId = row.requestId → j = row :=
    fun j hj hid => hschema.2.2.1.eq_of_mem hj hrow rfl rfl hid
  have hmem : ∀ j' ∈ Store.claimed row jobs,
      (j' ∈ jobs ∧ j'.requestId ≠ row.requestId) ∨ j' = row.claim (row.claimGeneration + 1) := by
    intro j' hj'
    rcases Table.mem_update_cases hj' with ⟨hj, ht⟩ | ⟨j, hj, ht, rfl⟩
    · refine Or.inl ⟨hj, fun hid => ?_⟩
      obtain rfl := hsame j' hj hid
      rw [JobRow.queuedAs_iff.2 ⟨rfl, hqueued⟩] at ht
      cases ht
    · rw [hsame j hj (JobRow.queuedAs_iff.1 ht).1]
      exact Or.inr rfl
  refine ⟨?_, ?_, ?_, ?_⟩
  · intro id
    rw [generationsOf_append, generationsOf_singleton]
    split
    next hid =>
      simp only at hid
      subst hid
      refine List.pairwise_append.2 ⟨h.increasing _, List.pairwise_singleton _ _, ?_⟩
      intro g hg g' hg'
      rw [List.mem_singleton] at hg'
      have := h.bounded row hrow g hg
      omega
    next => simpa using h.increasing id
  · intro j' hj' g hg
    rw [generationsOf_append, generationsOf_singleton, List.mem_append] at hg
    rcases hmem j' hj' with ⟨hj, hne⟩ | rfl
    · rw [if_neg (Ne.symm hne)] at hg
      exact h.bounded j' hj g (by simpa using hg)
    · rcases hg with hg | hg
      · exact Nat.le_succ_of_le (h.bounded row hrow g hg)
      · simp [JobRow.claim] at hg ⊢
        omega
  · intro j' hj'
    rw [generationsOf_append, generationsOf_singleton]
    rcases hmem j' hj' with ⟨hj, hne⟩ | rfl
    · rw [if_neg (Ne.symm hne), List.append_nil]
      exact h.latest j' hj
    · right
      simp [JobRow.claim]
  · intro claim hclaim
    rcases List.mem_append.1 hclaim with hclaim | hclaim
    · obtain ⟨j, hj, heq⟩ := h.known claim hclaim
      refine ⟨_, Table.mem_update.2 ⟨j, hj, rfl⟩, ?_⟩
      split
      · exact heq
      · exact heq
    · rw [List.mem_singleton] at hclaim
      subst hclaim
      exact ⟨_, Table.mem_update_of hrow (JobRow.queuedAs_iff.2 ⟨rfl, hqueued⟩), rfl⟩

theorem TraceOk.effect {trace new : List (String × Nat)} {jobs : List JobRow} {sequence : Nat}
    (h : TraceOk db.jobs trace) (hschema : JobSchema db.jobs)
    (he : JobEffect env db new jobs sequence) : TraceOk jobs (trace ++ new) := by
  cases he with
  | same => rwa [List.append_nil]
  | enqueued job slot valid inRange fresh room schema =>
    rw [List.append_nil]
    exact h.enqueued fresh _
  | claimed row mem first room one schema =>
    exact h.claimed hschema mem (runnable_iff.1 first).1
  | ended id generation f hf schema =>
    rw [List.append_nil]
    refine h.update (fun j ht => (JobRow.claimedAs_iff.1 ht).2.1) ?_ ?_ <;>
      rcases hf with rfl | ⟨failure, rfl⟩ <;> intro j <;> rfl
  | recovered schema =>
    rw [List.append_nil]
    exact h.update (fun j ht => by simpa using ht) (fun _ => rfl) (fun _ => rfl)

/-- A job that ended is never touched again. -/
theorem JobEffect.ended_fixed {new : List (String × Nat)} {jobs : List JobRow} {sequence : Nat}
    (he : JobEffect env db new jobs sequence) {row : JobRow} (hrow : row ∈ db.jobs)
    (hended : row.state = .completed ∨ row.state = .failed) : row ∈ jobs := by
  have hqueued : row.state ≠ .queued := by rcases hended with h | h <;> simp [h]
  have hrunning : row.state ≠ .running := by rcases hended with h | h <;> simp [h]
  cases he with
  | same => exact hrow
  | enqueued => exact List.mem_append_left _ hrow
  | claimed => exact Table.mem_update_of_not hrow (by simp [JobRow.queuedAs, hqueued])
  | ended => exact Table.mem_update_of_not hrow (by simp [JobRow.claimedAs, hrunning])
  | recovered => exact Table.mem_update_of_not hrow (by simp [hrunning])

/-! ### Runs -/

/-- The table and the trace along a run, from any state in which they agree. -/
theorem queue_run (ops : List (Op P)) {trace : List (String × Nat)} (hledger : LedgerOk env db)
    (hqueue : QueueOk env db.jobs db.jobsSequence) (htrace : TraceOk db.jobs trace) :
    QueueOk env (run env db ops).jobs (run env db ops).jobsSequence ∧
      TraceOk (run env db ops).jobs (trace ++ claims env db ops) := by
  induction ops generalizing db trace with
  | nil => exact ⟨hqueue, by simpa [claims] using htrace⟩
  | cons op ops ih =>
    have heffect := hledger.jobEffect op
    have := ih (hledger.step op) (hqueue.effect heffect) (htrace.effect hqueue.schema heffect)
    rwa [List.append_assoc] at this

theorem queueOk_run (env : Env P) (ops : List (Op P)) :
    QueueOk env (run env Database.empty ops).jobs (run env Database.empty ops).jobsSequence :=
  (queue_run ops (ledgerOk_empty env) (queueOk_empty env) traceOk_empty).1

theorem traceOk_run (env : Env P) (ops : List (Op P)) :
    TraceOk (run env Database.empty ops).jobs (claims env Database.empty ops) := by
  simpa using (queue_run ops (ledgerOk_empty env) (queueOk_empty env) traceOk_empty).2

theorem ended_run (h : LedgerOk env db) (ops : List (Op P)) {row : JobRow} (hrow : row ∈ db.jobs)
    (hended : row.state = .completed ∨ row.state = .failed) : row ∈ (run env db ops).jobs := by
  induction ops generalizing db with
  | nil => exact hrow
  | cons op ops ih => exact ih (h.step op) ((h.jobEffect op).ended_fixed hrow hended)

/-! ### Known requests -/

/-- The job a row came from is the only one that matches its payload. -/
theorem JobRow.EnqueuedAs.unique {row : JobRow} {job job' : NewJob P} (h : row.EnqueuedAs env job)
    (hid : row.requestId = job'.requestId) (htask : row.taskId = job'.taskId)
    (hslot : row.slot = job'.slot) (hgen : row.generation = job'.generation)
    (hprompt : row.prompt = job'.prompt) (hcwd : env.decodePath row.cwd = some job'.cwd) :
    job = job' := by
  rw [h.cwd, env.decode_encode, Option.some.injEq] at hcwd
  cases job
  cases job'
  simp only [NewJob.mk.injEq]
  exact ⟨h.requestId.symm.trans hid, h.taskId.symm.trans htask, h.slot.symm.trans hslot,
    h.generation.symm.trans hgen, h.prompt.symm.trans hprompt, hcwd⟩

/-- `enqueue` on the request id of a row that is there. -/
theorem QueueOk.enqueue_known (h : QueueOk env db.jobs db.jobsSequence) {row : JobRow}
    {job : NewJob P} (hrow : row ∈ db.jobs) (hid : row.requestId = job.requestId) :
    (enqueue env job db).2 = db ∧
    ((enqueue env job db).1 = .ok .replay ↔ row.taskId = job.taskId ∧ row.slot = job.slot ∧
      row.generation = job.generation ∧ row.prompt = job.prompt ∧
      env.decodePath row.cwd = some job.cwd) := by
  have hsame : (enqueue env job db).2 = db := by
    rcases hres : enqueue env job db with ⟨e | outcome, db'⟩
    · exact enqueue_error hres
    · rcases (enqueue_ok hres).2.2 with ⟨_, hdb, _⟩ | ⟨_, hfresh, _⟩
      · exact hdb
      · exact absurd hid (hfresh row hrow)
  refine ⟨hsame, ?_, ?_⟩
  · intro hreplay
    have hres : enqueue env job db = (.ok .replay, db) := Prod.ext hreplay hsame
    rcases (enqueue_ok hres).2.2 with ⟨_, _, row', hrow', hid', hexact⟩ | ⟨hno, _⟩
    · obtain rfl : row' = row :=
        h.schema.2.2.1.eq_of_mem hrow' hrow rfl rfl (hid'.trans hid.symm)
      unfold exactReplay at hexact
      split at hexact
      next htask =>
        simp only [bind_ok, toI64_ok, Except.ok.injEq, Bool.and_eq_true, beq_iff_eq] at hexact htask
        obtain ⟨_, ⟨_, rfl⟩, ⟨hgen, hprompt⟩, hcwd⟩ := hexact
        exact ⟨htask.1, htask.2, hgen, hprompt, by rw [hcwd, env.decode_encode]⟩
      next => simp at hexact
    · cases hno
  · rintro ⟨htask, hslot, hgen, hprompt, hcwd⟩
    obtain ⟨origin, horigin⟩ := h.origin row hrow
    obtain rfl := horigin.unique hid htask hslot hgen hprompt hcwd
    have hfind : db.jobs.find? (fun r => r.requestId == origin.requestId) = some row :=
      Table.find_eq_some_of_unique hrow (by simp [hid]) fun s hs hqs =>
        h.schema.2.2.1.eq_of_mem hs hrow rfl rfl (by rw [hid]; simpa using hqs)
    have hres : enqueue env origin db = (.ok .replay, db) := by
      simp only [enqueue, transaction_eq_ok, bind_ok, validateSlot, validateJob, ensure_ok]
      refine ⟨(), horigin.slotOk, (), horigin.valid, ?_⟩
      rw [hfind]
      simp [exactReplay, htask, hslot, hgen, hprompt, horigin.cwd, horigin.inRange]
    rw [hres]

/-! ### The queue as a whole -/

/-- A durable queue that is first in, first out within a task, and fenced by claim generations. -/
structure FencedFifo (env : Env P) (ops : List (Op P)) (db : Database) : Prop where
  oneRunning : ∀ a ∈ db.jobs, ∀ b ∈ db.jobs, a.state = .running → b.state = .running →
    a.taskId = b.taskId → a = b
  fourRunning : db.jobs.countP (fun j => j.state == .running) ≤ 4
  twelvePending : ∀ task, db.jobs.countP (fun j => j.taskId == task &&
    (j.state == .queued || j.state == .running)) ≤ 12
  startedFirst : ∀ a ∈ db.jobs, ∀ b ∈ db.jobs, a.taskId = b.taskId → a.state ≠ .queued →
    b.state = .queued → a.sequence < b.sequence
  /-- The job handed out next is the first queued one of its task, recovered or not. -/
  startsInOrder : ∀ job, (exec env db .claimNextRunnable).1 = .ok (.claimNextRunnable (some job)) →
    ∃ row ∈ db.jobs, row.requestId = job.requestId ∧ row.state = .queued ∧
      ∀ j ∈ db.jobs, j.taskId = row.taskId → j.state = .queued → row.sequence ≤ j.sequence
  claimsIncrease : ∀ id, (generationsOf id (claims env Database.empty ops)).Pairwise (· < ·)
  /-- Only the latest claim of a running job can end it. -/
  fenced : ∀ op id generation,
    (op = .markCompleted id generation ∨ ∃ failure, op = .markFailed id generation failure) →
    ∀ row ∈ db.jobs, row ∉ (step env db op).jobs →
      row.requestId = id ∧ row.state = .running ∧ row.claimGeneration = generation ∧
      (generationsOf id (claims env Database.empty ops)).getLast? = some generation
  endedFixed : ∀ more, ∀ row ∈ db.jobs, row.state = .completed ∨ row.state = .failed →
    row ∈ (run env db more).jobs
  knownRequest : ∀ job, ∀ row ∈ db.jobs, row.requestId = job.requestId →
    (enqueue env job db).2 = db ∧
    ((enqueue env job db).1 = .ok .replay ↔ row.taskId = job.taskId ∧ row.slot = job.slot ∧
      row.generation = job.generation ∧ row.prompt = job.prompt ∧
      env.decodePath row.cwd = some job.cwd)

/-- A row that a `mark…` call rewrites is the running one of that claim. -/
theorem marked_claimedAs {op : Op P} {id : String} {generation : Nat}
    (hop : op = .markCompleted id generation ∨ ∃ failure, op = .markFailed id generation failure)
    {row : JobRow} (hrow : row ∈ db.jobs) (hgone : row ∉ (Store.step env db op).jobs) :
    row.claimedAs id generation = true := by
  by_contra hnot
  rw [Bool.not_eq_true] at hnot
  refine hgone ?_
  rcases hop with rfl | ⟨failure, rfl⟩
  · change row ∈ (markCompleted id generation db).2.jobs
    rcases hres : markCompleted id generation db with ⟨e | changed, db'⟩
    · rw [markCompleted_error hres]
      exact hrow
    · obtain ⟨_, rfl⟩ := markCompleted_ok hres
      exact Table.mem_update_of_not hrow hnot
  · change row ∈ (markFailed id generation failure db).2.jobs
    rcases hres : markFailed id generation failure db with ⟨e | changed, db'⟩
    · rw [markFailed_error hres]
      exact hrow
    · obtain ⟨_, rfl⟩ := markFailed_ok hres
      exact Table.mem_update_of_not hrow hnot

/-- Whatever is called on the store, with reopens in between, its prompt queue is a fenced FIFO. -/
theorem prompt_queue_fenced_fifo (env : Env P) (ops : List (Op P)) :
    FencedFifo env ops (run env Database.empty ops) := by
  have hledger := ledgerOk_run env ops
  have hqueue := queueOk_run env ops
  have htrace := traceOk_run env ops
  refine ⟨?_, hqueue.running, hqueue.pending, ?_, ?_, htrace.increasing, ?_, ?_, ?_⟩
  · intro a ha b hb hra hrb htask
    exact hqueue.schema.2.2.2.eq_of_mem ha hb (by simp [hra]) (by simp [hrb]) htask
  · intro a ha b hb htask hstarted hqueued
    refine hqueue.ordered a ha b hb htask ?_
    cases hs : a.state <;> simp [hs, hqueued, JobState.rank] at hstarted ⊢
  · intro job hjob
    rcases hres : claimNextRunnable env (run env Database.empty ops) with ⟨e | result, db'⟩
    · simp [exec, Reply.of, hres, Except.map] at hjob
    · have hresult : result = some job := by
        simpa [exec, Reply.of, hres, Except.map] using hjob
      subst hresult
      rcases claimNextRunnable_ok hres with ⟨hno, _⟩ | ⟨_, row, heq, hrow, hrunnable, _, hid, _⟩
      · cases hno
      · cases heq
        obtain ⟨hqueued, _, hmin⟩ := runnable_iff.1 hrunnable
        exact ⟨row, hrow, hid.symm, hqueued, hmin⟩
  · intro op id generation hop row hrow hgone
    obtain ⟨hid, hrunning, hclaim⟩ := JobRow.claimedAs_iff.1 (marked_claimedAs hop hrow hgone)
    refine ⟨hid, hrunning, hclaim, ?_⟩
    rcases htrace.latest row hrow with ⟨_, _, hqueued⟩ | hlast
    · simp [hrunning] at hqueued
    · rwa [hid, hclaim] at hlast
  · intro more row hrow hended
    exact ended_run hledger more hrow hended
  · intro job row hrow hid
    exact hqueue.enqueue_known hrow hid

end CodexKeyboard.Store
