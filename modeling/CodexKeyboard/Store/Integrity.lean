import CodexKeyboard.Store.JobQueue

/-! The constraints of the schema are backstops that are never hit: on a reachable database the
    guards of every operation are strong enough, except that a lease identifier can be given twice,
    and a job can have been recovered too often. With it, an operation that fails changes nothing. -/

namespace CodexKeyboard.Store

open Schemes Transact

variable {P : Type} {env : Env P} {db db' : Database} {op : Op P}

/-- SQLite reports a violated `UNIQUE`, `CHECK` or `FOREIGN KEY`. -/
abbrev violation : StoreError := .sqlite .constraintViolation

/-! ### Writes that keep the schema -/

theorem putJobs_avoids {t : List JobRow} (h : JobSchema t) : Avoids violation (db.putJobs t) :=
  fun hc => (Database.putJobs_error.1 hc).1 h

theorem putBindings_avoids {t : List Binding} (h : BindingSchema t) :
    Avoids violation (db.putBindings t) :=
  fun hc => (Database.putBindings_error.1 hc).1 h

theorem putCompletions_avoids {t : List CompletionRow} (h : CompletionSchema t) :
    Avoids violation (db.putCompletions t) :=
  fun hc => (Database.putCompletions_error.1 hc).1 h

theorem putCursors_avoids {t : List CursorRow} (h : CursorSchema t) :
    Avoids violation (db.putCursors t) :=
  fun hc => (Database.putCursors_error.1 hc).1 h

theorem putSummaries_avoids {t : List SummaryRow} (h : SummarySchema t) :
    Avoids violation (db.putSummaries t) :=
  fun hc => (Database.putSummaries_error.1 hc).1 h

theorem putTtsAttempts_avoids {t : List TtsAttemptRow} (h : TtsAttemptSchema db.summaryLedger t) :
    Avoids violation (db.putTtsAttempts t) :=
  fun hc => (Database.putTtsAttempts_error.1 hc).1 h

theorem putLeases_avoids {t : List LeaseRow} (h : LeaseSchema db.summaryLedger t) :
    Avoids violation (db.putLeases t) :=
  fun hc => (Database.putLeases_error.1 hc).1 h

theorem toI64_avoids {v : Nat} : Avoids violation (toI64 v) :=
  fun hc => by simp at hc

theorem toSqlI64_avoids {v : Nat} : Avoids violation (toSqlI64 v) :=
  fun hc => by simp at hc

/-! ### The prompt queue -/

theorem QueueOk.enqueue_avoids (h : QueueOk env db.jobs db.jobsSequence) (job : NewJob P) :
    Avoids violation (enqueue env job db).1 := by
  refine avoids_transaction ?_
  refine (avoids_ensure (by simp)).bind fun _ hslot => ?_
  refine (avoids_ensure (by simp)).bind fun _ _ => ?_
  split
  next existing _ =>
    refine Avoids.bind ?_ fun _ _ => (avoids_ensure (by simp)).bind fun _ _ => by simp
    unfold exactReplay
    split
    · exact toI64_avoids.bind fun _ _ => by simp
    · simp
  next hnone =>
    refine (avoids_ensure (by simp)).bind fun _ _ => toI64_avoids.bind fun _ _ => ?_
    refine (avoids_ensure (by simp)).bind fun _ _ => (putJobs_avoids ?_).bind fun _ _ => by simp
    have hslot' : slotOk job.slot = true := by simpa [validateSlot] using hslot
    refine ⟨?_, Table.unique_insert.2 ⟨h.schema.2.1, ?_⟩, Table.unique_insert.2 ⟨h.schema.2.2.1, ?_⟩,
      Table.unique_insert.2 ⟨h.schema.2.2.2, ?_⟩⟩
    · intro j hj
      rcases List.mem_append.1 hj with hj | hj
      · exact h.schema.1 j hj
      · rw [List.mem_singleton] at hj
        subst hj
        exact ⟨hslot', Nat.zero_le _⟩
    · intro _ j hj _ heq
      have := h.bounded j hj
      simp only [queuedRow] at heq
      omega
    · intro _ j hj _ heq
      have hne : j.requestId ≠ job.requestId := by simpa using List.find?_eq_none.1 hnone j hj
      exact hne heq
    · intro hrunning
      simp [queuedRow] at hrunning

theorem QueueOk.claimNextRunnable_avoids (h : QueueOk env db.jobs db.jobsSequence) :
    Avoids violation (claimNextRunnable env db).1 := by
  refine avoids_transaction ?_
  dsimp only
  split
  next => simp
  next =>
    split
    next => simp
    next row hhead =>
      have hmem := Table.mem_orderBy.1 (List.mem_of_head? hhead)
      obtain ⟨hrow, hrunnable⟩ := List.mem_filter.1 hmem
      obtain ⟨hqueued, hnone, _⟩ := runnable_iff.1 hrunnable
      refine (avoids_ensure (by simp)).bind fun _ _ => (putJobs_avoids ?_).bind fun _ _ => ?_
      · have hkey : ∀ j : JobRow, (if j.queuedAs row.requestId then j.claim (row.claimGeneration + 1)
            else j).requestId = j.requestId := by
          intro j
          split <;> rfl
        have hseq : ∀ j : JobRow, (if j.queuedAs row.requestId then j.claim (row.claimGeneration + 1)
            else j).sequence = j.sequence := by
          intro j
          split <;> rfl
        have htask : ∀ j : JobRow, (if j.queuedAs row.requestId then j.claim (row.claimGeneration + 1)
            else j).taskId = j.taskId := by
          intro j
          split <;> rfl
        refine ⟨?_, h.schema.2.1.update fun a _ b _ _ _ hk => ⟨rfl, rfl, by rwa [hseq, hseq] at hk⟩,
          h.schema.2.2.1.update fun a _ b _ _ _ hk => ⟨rfl, rfl, by rwa [hkey, hkey] at hk⟩, ?_⟩
        · intro j' hj'
          rcases Table.mem_update_cases hj' with ⟨hj, _⟩ | ⟨j, hj, _, rfl⟩
          · exact h.schema.1 j' hj
          · exact h.schema.1 j hj
        · -- nothing of the claimed task runs, so two running rows are old ones or the same row
          refine h.schema.2.2.1.update fun a ha b hb hra hrb hk => ⟨rfl, rfl, ?_⟩
          rw [htask, htask] at hk
          have hclaimed : ∀ j ∈ db.jobs, j.queuedAs row.requestId = true → j = row := fun j hj ht =>
            h.schema.2.2.1.eq_of_mem hj hrow rfl rfl (JobRow.queuedAs_iff.1 ht).1
          split at hra <;> split at hrb
          next hta htb => rw [hclaimed a ha hta, hclaimed b hb htb]
          next hta htb =>
            rw [hclaimed a ha hta] at hk
            exact absurd (by simpa using hrb) (hnone b hb hk.symm)
          next hta htb =>
            rw [hclaimed b hb htb] at hk
            exact absurd (by simpa using hra) (hnone a ha hk)
          next => rw [h.schema.2.2.2.eq_of_mem ha hb hra hrb hk]
      · split
        · simp
        · refine (avoids_orThrow (by simp)).bind fun found _ => Avoids.bind ?_ fun _ _ => by simp
          exact (avoids_orThrow (by simp)).bind fun _ _ => by simp

/-- Ending a running job keeps the constraints. -/
theorem QueueOk.ended_schema (h : QueueOk env db.jobs db.jobsSequence) {id : String}
    {generation : Nat} {f : JobRow → JobRow}
    (hf : f = JobRow.complete ∨ ∃ failure, f = JobRow.fail failure) :
    JobSchema (Table.update (JobRow.claimedAs id generation) f db.jobs) := by
  have hkeep : ∀ j, (f j).sequence = j.sequence ∧ (f j).requestId = j.requestId ∧
      (f j).taskId = j.taskId ∧ (f j).slot = j.slot ∧ (f j).recoveryCount = j.recoveryCount ∧
      (f j).state ≠ .running := by
    rcases hf with rfl | ⟨failure, rfl⟩ <;> intro j <;>
      simp [JobRow.complete, JobRow.fail]
  refine ⟨?_, h.schema.2.1.update fun a _ b _ _ _ hk => ⟨rfl, rfl, ?_⟩,
    h.schema.2.2.1.update fun a _ b _ _ _ hk => ⟨rfl, rfl, ?_⟩,
    h.schema.2.2.2.update fun a _ b _ hra hrb hk => ?_⟩
  · intro j' hj'
    rcases Table.mem_update_cases hj' with ⟨hj, _⟩ | ⟨j, hj, _, rfl⟩
    · exact h.schema.1 j' hj
    · obtain ⟨_, _, _, hslot, hcount, _⟩ := hkeep j
      rw [hslot, hcount]
      exact h.schema.1 j hj
  · split at hk <;> split at hk <;> simpa [hkeep] using hk
  · split at hk <;> split at hk <;> simpa [hkeep] using hk
  · split at hra
    next => exact absurd (by simpa using hra) (hkeep a).2.2.2.2.2
    next =>
      split at hrb
      next => exact absurd (by simpa using hrb) (hkeep b).2.2.2.2.2
      next hta htb =>
        refine ⟨hra, hrb, ?_⟩
        simpa [hta, htb] using hk

theorem QueueOk.markCompleted_avoids (h : QueueOk env db.jobs db.jobsSequence) (id : String)
    (generation : Nat) : Avoids violation (markCompleted id generation db).1 :=
  avoids_transaction (toI64_avoids.bind fun _ _ =>
    (putJobs_avoids (h.ended_schema (Or.inl rfl))).bind fun _ _ => by simp)

theorem QueueOk.markFailed_avoids (h : QueueOk env db.jobs db.jobsSequence) (id : String)
    (generation : Nat) (failure : JobFailureKind) :
    Avoids violation (markFailed id generation failure db).1 :=
  avoids_transaction (toI64_avoids.bind fun _ _ =>
    (putJobs_avoids (h.ended_schema (Or.inr ⟨failure, rfl⟩))).bind fun _ _ => by simp)

/-- The recovery pass can only fail on a counter that is at its end. -/
theorem QueueOk.recoverInterruptedJobs_avoids (h : QueueOk env db.jobs db.jobsSequence)
    (hcount : ∀ j ∈ db.jobs, j.state = .running → j.recoveryCount ≠ u32Max) :
    Avoids violation (recoverInterruptedJobs db).1 := by
  refine avoids_transaction ((putJobs_avoids ?_).bind fun _ _ => by simp)
  refine ⟨?_, h.schema.2.1.update fun a _ b _ _ _ hk => ⟨rfl, rfl, ?_⟩,
    h.schema.2.2.1.update fun a _ b _ _ _ hk => ⟨rfl, rfl, ?_⟩,
    h.schema.2.2.2.update fun a _ b _ hra _ _ => ?_⟩
  · intro j' hj'
    rcases Table.mem_update_cases hj' with ⟨hj, _⟩ | ⟨j, hj, hrunning, rfl⟩
    · exact h.schema.1 j' hj
    · have hle := (h.schema.1 j hj).2
      have hne := hcount j hj (by simpa using hrunning)
      refine ⟨(h.schema.1 j hj).1, ?_⟩
      simp only [JobRow.recover]
      omega
  · split at hk <;> split at hk <;> simpa [JobRow.recover] using hk
  · split at hk <;> split at hk <;> simpa [JobRow.recover] using hk
  · split at hra
    next => simp [JobRow.recover] at hra
    next hnot => exact absurd hra hnot

/-! ### Bindings and completions -/

theorem nextBindingGeneration_ok {expected : Option Nat} {generation : Nat}
    (h : nextBindingGeneration expected = .ok generation) : 0 < generation := by
  cases expected with
  | none =>
    simp only [nextBindingGeneration, toI64_ok] at h
    omega
  | some value =>
    simp only [nextBindingGeneration, bind_ok, toI64_ok] at h
    obtain ⟨_, _, _, rfl⟩ := h
    omega

theorem LedgerOk.setBinding_avoids (h : LedgerOk env db) (slot : Nat) (expected : Option Nat)
    (task : String) : Avoids violation (setBinding slot expected task db).1 := by
  refine avoids_transaction ?_
  refine (avoids_ensure (by simp)).bind fun _ hslot => ?_
  dsimp only
  split
  next => simp
  next =>
    refine Avoids.bind ?_ fun generation hgeneration => (putBindings_avoids ?_).bind fun _ _ => by simp
    · cases expected with
      | none => exact toI64_avoids
      | some value => exact (avoids_ensure (by simp)).bind fun _ _ => toI64_avoids
    have hslot' : slotOk slot = true := by simpa [validateSlot] using hslot
    have hpos := nextBindingGeneration_ok hgeneration
    split
    next =>
      refine ⟨?_, h.bindings.2.update fun a _ b _ _ _ hk => ⟨rfl, rfl, ?_⟩⟩
      · intro b' hb'
        rcases Table.mem_update_cases hb' with ⟨hb, _⟩ | ⟨b, hb, _, rfl⟩
        · exact h.bindings.1 b' hb
        · exact ⟨hslot', hpos⟩
      · split at hk <;> split at hk <;> simp_all
    next hnone =>
      refine ⟨?_, Table.unique_insert.2 ⟨h.bindings.2, ?_⟩⟩
      · intro b hb
        rcases List.mem_append.1 hb with hb | hb
        · exact h.bindings.1 b hb
        · rw [List.mem_singleton] at hb
          subst hb
          exact ⟨hslot', hpos⟩
      · intro _ b hb _ heq
        simp only [Bool.not_eq_true, Option.isSome_eq_false_iff, Option.isNone_iff_eq_none] at hnone
        have := List.find?_eq_none.1 hnone b hb
        simp [heq] at this

theorem cursorRow_ok {next : RolloutCursor P} {row : CursorRow} (h : cursorRow env next = .ok row) :
    row.taskId = next.taskId ∧ row.generation = next.generation ∧ row.anchor.length = 32 := by
  simp only [cursorRow, bind_ok, toSqlI64_ok, Except.ok.injEq] at h
  obtain ⟨_, ⟨_, rfl⟩, _, ⟨_, rfl⟩, _, ⟨_, rfl⟩, _, ⟨_, rfl⟩, rfl⟩ := h
  simp

theorem upsertCursor_schema {t : List CursorRow} (h : CursorSchema t) {row : CursorRow}
    (hpos : 0 < row.generation) (hanchor : row.anchor.length = 32) :
    CursorSchema (upsertCursor row t) := by
  unfold upsertCursor
  split
  next =>
    refine ⟨?_, h.2.update fun a _ b _ _ _ hk => ⟨rfl, rfl, ?_⟩⟩
    · intro c' hc'
      rcases Table.mem_update_cases hc' with ⟨hc, _⟩ | ⟨c, hc, _, rfl⟩
      · exact h.1 c' hc
      · exact ⟨hpos, hanchor⟩
    · split at hk <;> split at hk <;> simp_all
  next hnone =>
    refine ⟨?_, Table.unique_insert.2 ⟨h.2, ?_⟩⟩
    · intro c hc
      rcases List.mem_append.1 hc with hc | hc
      · exact h.1 c hc
      · rw [List.mem_singleton] at hc
        subst hc
        exact ⟨hpos, hanchor⟩
    · intro _ c hc _ heq
      refine hnone (List.any_eq_true.2 ⟨c, hc, ?_⟩)
      simpa using heq

theorem LedgerOk.commitRolloutCompletionOn_avoids (h : LedgerOk env db) (binding : Option Binding)
    (expected : Option (RolloutCursor P)) (next : RolloutCursor P) (id turnPack : String) (now : Int) :
    Avoids violation (commitRolloutCompletionOn env binding expected next id turnPack now db).1 := by
  refine avoids_transaction ?_
  refine (avoids_ensure (by simp)).bind fun _ hvalid => ?_
  refine Avoids.bind ?_ fun _ _ => Avoids.bind ?_ fun current _ => ?_
  · cases binding with
    | none => simp [checkBinding]
    | some b => exact toI64_avoids.bind fun _ _ => avoids_ensure (by simp)
  · unfold queryRolloutCursor
    split
    next => simp
    next row _ =>
      refine Avoids.map ((avoids_orThrow (by simp)).bind fun path _ => ?_)
      split <;> simp
  refine (avoids_ensure (by simp)).bind fun _ _ => Avoids.bind ?_ fun result hresult => ?_
  · unfold insertCompletion
    split
    next => exact (avoids_ensure (by simp)).bind fun _ _ => by simp
    next hnone =>
      refine (putCompletions_avoids (Table.unique_insert.2 ⟨h.completions, ?_⟩)).bind fun _ _ => by simp
      intro _ c hc _ heq
      have hne : c.completionId ≠ id := by simpa using List.find?_eq_none.1 hnone c hc
      exact hne heq
  · have hcursors : result.2.rolloutCursors = db.rolloutCursors := by
      unfold insertCompletion at hresult
      split at hresult
      · simp only [bind_ok, ensure_ok, Except.ok.injEq] at hresult
        obtain ⟨_, _, rfl⟩ := hresult
        rfl
      · simp only [bind_ok, Database.putCompletions_ok, Except.ok.injEq] at hresult
        obtain ⟨_, ⟨_, rfl⟩, rfl⟩ := hresult
        rfl
    refine Avoids.bind ?_ fun row hrow => (putCursors_avoids ?_).bind fun _ _ => by simp
    · exact toSqlI64_avoids.bind fun _ _ => toSqlI64_avoids.bind fun _ _ =>
        toSqlI64_avoids.bind fun _ _ => toSqlI64_avoids.bind fun _ _ => by simp
    · obtain ⟨_, hgen, hanchor⟩ := cursorRow_ok hrow
      rw [hcursors]
      refine upsertCursor_schema h.cursors ?_ hanchor
      rw [hgen]
      simp only [ensure_ok, rolloutCompletionOk, Bool.and_eq_true, decide_eq_true_eq] at hvalid
      tauto

/-! ### Relabelled rows -/

/-- Rewriting rows keeps the constraints of the ledger when no row enters an index. -/
theorem SummarySchema.relabel {t : List SummaryRow} (h : SummarySchema t)
    {target : SummaryRow → Bool} {g : SummaryRow → SummaryRow} (hkey : ∀ r, (g r).key = r.key)
    (hrequest : ∀ r, (g r).requestId = r.requestId)
    (hcheck : ∀ r ∈ t, target r = true → r.check = true → (g r).check = true)
    (hactive : ∀ r, target r = true → (g r).active = true → r.active = true)
    (hunread : ∀ r, target r = true → (g r).currentUnread = true → r.currentUnread = true) :
    SummarySchema (Table.update target g t) := by
  have hkey' : ∀ r, (if target r then g r else r).key = r.key := by
    intro r
    split <;> simp [hkey]
  have hrequest' : ∀ r, (if target r then g r else r).requestId = r.requestId := by
    intro r
    split <;> simp [hrequest]
  have hactive' : ∀ r, (if target r then g r else r).active = true → r.active = true := by
    intro r
    split
    next ht => exact hactive r ht
    next => exact id
  have hunread' : ∀ r, (if target r then g r else r).currentUnread = true →
      r.currentUnread = true := by
    intro r
    split
    next ht => exact hunread r ht
    next => exact id
  refine ⟨?_, h.2.1.update fun a _ b _ _ _ hk => ⟨rfl, rfl, by rwa [hkey', hkey'] at hk⟩,
    h.2.2.1.update fun a _ b _ ha hb hk => ⟨hactive' a ha, hactive' b hb, ?_⟩,
    h.2.2.2.1.update fun a _ b _ ha hb hk => ?_,
    h.2.2.2.2.update fun a _ b _ ha hb hk => ⟨hunread' a ha, hunread' b hb, ?_⟩⟩
  · intro r' hr'
    rcases Table.mem_update_cases hr' with ⟨hr, _⟩ | ⟨r, hr, ht, rfl⟩
    · exact h.1 r' hr
    · exact hcheck r hr ht (h.1 r hr)
  · rwa [taskId_of_key (hkey' a), taskId_of_key (hkey' b)] at hk
  · simp only [hrequest'] at ha hb hk
    exact ⟨ha, hb, hk⟩
  · rwa [taskId_of_key (hkey' a), taskId_of_key (hkey' b)] at hk

/-- The `CHECK` on an active row. -/
theorem check_active {r : SummaryRow} (h : r.check = true) (ha : r.active = true) :
    r.claimId.isSome = true ∧ r.cacheObject = none := by
  cases hs : r.state <;> simp [SummaryRow.active, hs, SummaryState.active] at ha <;>
    · simp [SummaryRow.check, hs] at h
      exact ⟨h.2.1, h.2.2⟩

theorem check_published {r : SummaryRow} (h : r.check = true) (hp : r.state.published = true) :
    r.claimId = none := by
  cases hs : r.state <;> simp [hs, SummaryState.published] at hp <;>
    · simp [SummaryRow.check, hs] at h
      exact h.2

/-- The clauses of the `CHECK` that do not look at the state. -/
theorem check_columns {r : SummaryRow} (h : r.check = true) :
    0 < r.generation ∧ r.previousGeneration.all (0 < ·) = true ∧
      r.supersededBy.all (r.generation < ·) = true := by
  simp only [SummaryRow.check, Bool.and_eq_true, decide_eq_true_eq] at h
  exact ⟨h.1.1.1, h.1.1.2, h.1.2⟩

/-- The states the `CHECK` lets a row be in, given its two nullable columns. -/
theorem check_of {r r' : SummaryRow} (h : r.check = true) (hgen : r'.generation = r.generation)
    (hprev : r'.previousGeneration = r.previousGeneration) (hsup : r'.supersededBy = r.supersededBy)
    (hstate : (r'.state.active = true ∧ r'.claimId.isSome = true ∧ r'.cacheObject = none) ∨
      (r'.state = .abandoned ∧ r'.claimId = none ∧ r'.cacheObject = none) ∨
      (r'.state.published = true ∧ r'.claimId = none)) : r'.check = true := by
  obtain ⟨h₁, h₂, h₃⟩ := check_columns h
  rcases hstate with ⟨hs, hc, ho⟩ | ⟨hs, hc, ho⟩ | ⟨hs, hc⟩ <;> cases hstate : r'.state <;>
    simp_all [SummaryRow.check, SummaryState.active, SummaryState.published]

theorem LedgerOk.regenerate_schema (h : LedgerOk env db) {target : SummaryRow → Bool}
    (hint : ∀ r, target r = true → r.state = .interrupted) :
    SummarySchema (Table.update target SummaryRow.regenerate db.summaryLedger) := by
  have hact : ∀ r, target r = true → r.active = true := fun r hr => by
    simp [SummaryRow.active, hint r hr, SummaryState.active]
  refine h.schema.relabel (fun _ => rfl) (fun _ => rfl) ?_ (fun r ht _ => hact r ht) ?_
  · intro r _ ht hc
    obtain ⟨hclaim, hcache⟩ := check_active hc (hact r ht)
    exact check_of hc rfl rfl rfl (Or.inl ⟨rfl, hclaim, hcache⟩)
  · intro r _ hu
    simp [SummaryRow.currentUnread, SummaryRow.regenerate, SummaryState.unread] at hu

theorem LedgerOk.interrupt_schema (h : LedgerOk env db) :
    SummarySchema (interruptedLedger db.summaryLedger) := by
  have hact : ∀ r : SummaryRow, (r.state == .generating) = true → r.active = true := fun r hr => by
    rw [SummaryRow.active, beq_iff_eq.1 hr]
    rfl
  refine h.schema.relabel (fun _ => rfl) (fun _ => rfl) ?_ (fun r ht _ => hact r ht) ?_
  · intro r _ ht hc
    obtain ⟨hclaim, hcache⟩ := check_active hc (hact r ht)
    exact check_of hc rfl rfl rfl (Or.inl ⟨rfl, hclaim, hcache⟩)
  · intro r _ hu
    simp [SummaryRow.currentUnread, SummaryState.unread] at hu

theorem LedgerOk.abandon_schema (h : LedgerOk env db) {target : SummaryRow → Bool}
    (hact : ∀ r, target r = true → r.active = true) :
    SummarySchema (Table.update target SummaryRow.abandon db.summaryLedger) := by
  refine h.schema.relabel (fun _ => rfl) (fun _ => rfl) ?_ (fun r ht _ => hact r ht) ?_
  · intro r _ ht hc
    exact check_of hc rfl rfl rfl (Or.inr (Or.inl ⟨rfl, rfl, (check_active hc (hact r ht)).2⟩))
  · intro r _ hu
    simp [SummaryRow.currentUnread, SummaryRow.abandon, SummaryState.unread] at hu

/-- Moving a published row between published states without making it unread again. -/
theorem LedgerOk.published_schema (h : LedgerOk env db) {target : SummaryRow → Bool}
    {g : SummaryRow → SummaryRow} (hkeep : ∀ r, ∃ state, g r = { r with state := state })
    (hbefore : ∀ r, target r = true → r.state.published = true)
    (hafter : ∀ r, target r = true → (g r).state.published = true)
    (hunread : ∀ r, target r = true → (g r).currentUnread = true → r.currentUnread = true) :
    SummarySchema (Table.update target g db.summaryLedger) := by
  refine h.schema.relabel ?_ ?_ ?_ ?_ hunread
  · intro r
    obtain ⟨state, hg⟩ := hkeep r
    rw [hg]
    rfl
  · intro r
    obtain ⟨state, hg⟩ := hkeep r
    rw [hg]
  · intro r _ ht hc
    have hclaim := check_published hc (hbefore r ht)
    have hpub := hafter r ht
    obtain ⟨state, hg⟩ := hkeep r
    rw [hg] at hpub ⊢
    exact check_of hc rfl rfl rfl (Or.inr (Or.inr ⟨hpub, hclaim⟩))
  · intro r ht ha
    have hpub := hafter r ht
    cases hs : (g r).state <;>
      simp [SummaryRow.active, hs, SummaryState.active, SummaryState.published] at ha hpub

theorem LedgerOk.release_schema (h : LedgerOk env db) {target : SummaryRow → Bool}
    (htarget : ∀ r, target r = true → r.state = .leased) :
    SummarySchema (Table.update target SummaryRow.release db.summaryLedger) := by
  refine h.published_schema (fun r => ⟨_, rfl⟩) ?_ ?_ ?_
  · intro r ht
    rw [htarget r ht]
    rfl
  · intro r _
    simp only [SummaryRow.release]
    split <;> rfl
  · intro r ht hu
    rw [SummaryRow.currentUnread_iff] at hu ⊢
    exact ⟨Or.inr (htarget r ht), hu.2⟩

theorem LedgerOk.hear_schema (h : LedgerOk env db) (lease : SummaryPlaybackLease) :
    SummarySchema (Table.update (SummaryRow.playedBy lease) SummaryRow.hear db.summaryLedger) := by
  refine h.published_schema (fun r => ⟨_, rfl⟩) ?_ (fun _ _ => rfl) ?_
  · intro r ht
    rw [(SummaryRow.playedBy_iff.1 ht).2.1]
    rfl
  · intro r _ hu
    simp [SummaryRow.currentUnread, SummaryRow.hear, SummaryState.unread] at hu

theorem LedgerOk.lease_schema (h : LedgerOk env db) (task : String) (generation : Nat) :
    SummarySchema (Table.update (SummaryRow.leasable task generation) SummaryRow.lease
      db.summaryLedger) := by
  refine h.published_schema (fun r => ⟨_, rfl⟩) ?_ (fun _ _ => rfl) ?_
  · intro r ht
    rw [(SummaryRow.leasable_iff.1 ht).2.1]
    rfl
  · intro r ht _
    rw [SummaryRow.currentUnread_iff]
    exact ⟨Or.inl (SummaryRow.leasable_iff.1 ht).2.1, (SummaryRow.leasable_iff.1 ht).2.2⟩

/-! ### Claims -/

theorem queryCurrentUnread_avoids {task : String} : Avoids violation (queryCurrentUnread db task) := by
  unfold queryCurrentUnread
  split
  next => simp
  next row _ =>
    cases row.cacheObject with
    | none => simp
    | some cacheObject =>
      exact (avoids_ensure (by simp)).bind fun _ _ => (avoids_ensure (by simp)).bind fun _ _ => by simp

theorem collectPending_avoids {rows : List CompletionRow} {acc : List PendingSummaryCompletion}
    {total : Nat} : Avoids violation (collectPending env rows acc total) := by
  induction rows generalizing acc total with
  | nil => simp [collectPending]
  | cons row rows ih =>
    rw [collectPending]
    split
    · simp
    · refine (avoids_ensure (by simp)).bind fun _ _ => ?_
      dsimp only
      split
      · simp
      · exact ih

theorem loadCompletions_avoids {task : String} {covers : List String} {total : Nat} :
    Avoids violation (loadCompletions db task covers total) := by
  induction covers generalizing total with
  | nil => simp [loadCompletions]
  | cons id rest ih =>
    refine (avoids_orThrow (by simp)).bind fun _ _ => (avoids_ensure (by simp)).bind fun _ _ => ?_
    exact (avoids_ensure (by simp)).bind fun _ _ => ih.bind fun _ _ => by simp

theorem loadSummaryClaim_avoids {outcome : SummaryClaimOutcome} {request task : String}
    {generation : Nat} {previous : Option Nat} {covers : List String} :
    Avoids violation (loadSummaryClaim db outcome request task generation previous covers) := by
  refine (avoids_ensure (by simp)).bind fun _ _ => (avoids_ensure (by simp)).bind fun _ _ => ?_
  refine loadCompletions_avoids.bind fun _ _ => Avoids.bind ?_ fun _ _ => by simp
  cases previous with
  | none => simp [loadPrevious]
  | some expected =>
    refine queryCurrentUnread_avoids.bind fun current _ => ?_
    cases current with
    | none => simp
    | some summary =>
      dsimp only
      split <;> simp

theorem previousColumn_avoids {previous : Option UnreadSummary} :
    Avoids violation (previousColumn previous) := by
  cases previous with
  | none => simp [previousColumn]
  | some summary => exact toI64_avoids.bind fun _ _ => by simp

theorem validateSummaryClaim_avoids {claim : SummaryClaim} :
    Avoids violation (validateSummaryClaim env claim) :=
  (avoids_ensure (by simp)).bind fun _ _ => avoids_ensure (by simp)

/-- A new claim row is the newest generation, and the only active one of its task. -/
theorem LedgerOk.claim_schema (h : LedgerOk env db) {task request : String} {generation : Nat}
    {previous : Option UnreadSummary} {covers : List String}
    (hgen : generation = maxGeneration db.summaryLedger task + 1)
    (hprev : queryCurrentUnread db task = .ok previous)
    (hfresh : ∀ r ∈ db.summaryLedger, r.requestId ≠ some request)
    (hidle : ∀ r ∈ db.summaryLedger, r.taskId = task → r.active = false) :
    SummarySchema (db.summaryLedger ++
      [claimRow task request generation (previous.map (·.generation)) covers]) := by
  refine ⟨?_, Table.unique_insert.2 ⟨h.schema.2.1, ?_⟩, Table.unique_insert.2 ⟨h.schema.2.2.1, ?_⟩,
    Table.unique_insert.2 ⟨h.schema.2.2.2.1, ?_⟩, Table.unique_insert.2 ⟨h.schema.2.2.2.2, ?_⟩⟩
  · intro r hr
    rcases List.mem_append.1 hr with hr | hr
    · exact h.schema.1 r hr
    · rw [List.mem_singleton] at hr
      subst hr
      have hpos : (previous.map (·.generation)).all (0 < ·) = true := by
        cases previous with
        | none => rfl
        | some unread =>
          obtain ⟨_, _, _, _, _, hg, hpos, _⟩ := queryCurrentUnread_some hprev
          simpa [hg] using hpos
      simp only [SummaryRow.check, claimRow, hpos]
      simp [hgen]
  · intro _ r hr _ heq
    simp only [SummaryRow.key, claimRow, Prod.mk.injEq] at heq
    have := maxGeneration_le hr heq.1
    omega
  · intro _ r hr ha heq
    rw [hidle r hr heq] at ha
    cases ha
  · intro _ r hr _ heq
    exact hfresh r hr heq
  · intro hu
    simp [SummaryRow.currentUnread, claimRow, SummaryState.unread] at hu

theorem LedgerOk.claimSummary_avoids (h : LedgerOk env db) (task request : String) :
    Avoids violation (claimSummary env task request db).1 := by
  refine avoids_transaction ((avoids_ensure (by simp)).bind fun _ _ => ?_)
  split
  next prior _ =>
    refine (avoids_ensure (by simp)).bind fun _ _ => ?_
    split
    case h_6 =>
      refine (putSummaries_avoids (h.regenerate_schema ?_)).bind fun _ _ =>
        (avoids_ensure (by simp)).bind fun _ _ => loadSummaryClaim_avoids.bind fun _ _ => by simp
      intro r hr
      simp only [SummaryRow.interruptedAs, Bool.and_eq_true, beq_iff_eq] at hr
      exact hr.2.1.2
    case h_7 => exact loadSummaryClaim_avoids.bind fun _ _ => by simp
    all_goals simp
  next hnone =>
    split
    next existing _ =>
      exact (avoids_orThrow (by simp)).bind fun _ _ => (avoids_ensure (by simp)).bind fun _ _ =>
        loadSummaryClaim_avoids.bind fun _ _ => by simp
    next hidle =>
      refine queryCurrentUnread_avoids.bind fun previous hprev => collectPending_avoids.bind
        fun completions _ => ?_
      split
      · simp
      refine (avoids_ensure (by simp)).bind fun _ _ => previousColumn_avoids.bind fun column hcolumn => ?_
      obtain rfl := previousColumn_ok hcolumn
      refine (putSummaries_avoids (h.claim_schema rfl hprev ?_ ?_)).bind fun _ _ => by simp
      · intro r hr
        simpa using List.find?_eq_none.1 hnone r hr
      · intro r hr htask
        simpa [htask] using List.find?_eq_none.1 hidle r hr

theorem LedgerOk.abandonSummaryClaim_avoids (h : LedgerOk env db) (claim : SummaryClaim) :
    Avoids violation (abandonSummaryClaim env claim db).1 := by
  refine avoids_transaction (validateSummaryClaim_avoids.bind fun _ _ => toI64_avoids.bind fun _ _ =>
    (putSummaries_avoids (h.abandon_schema ?_)).bind fun _ _ => by simp)
  intro r hr
  simp only [Bool.and_eq_true] at hr
  exact hr.1.2

theorem LedgerOk.abandonInterruptedSummaryForTask_avoids (h : LedgerOk env db) (task : String) :
    Avoids violation (abandonInterruptedSummaryForTask env task db).1 := by
  refine avoids_transaction ((avoids_ensure (by simp)).bind fun _ _ => ?_)
  split
  next => simp
  next row _ =>
    refine (putSummaries_avoids (h.abandon_schema ?_)).bind fun _ _ =>
      (avoids_ensure (by simp)).bind fun _ _ => by simp
    intro r hr
    simp only [Bool.and_eq_true, beq_iff_eq] at hr
    simp [SummaryRow.active, hr.2, SummaryState.active]

theorem LedgerOk.resumeInterruptedSummary_avoids (h : LedgerOk env db) (task : String) :
    Avoids violation (resumeInterruptedSummary env task db).1 := by
  refine avoids_transaction ((avoids_ensure (by simp)).bind fun _ _ => ?_)
  split
  next => simp
  next row _ =>
    refine (avoids_orThrow (by simp)).bind fun _ _ => (putSummaries_avoids (h.regenerate_schema ?_)).bind
      fun _ _ => (avoids_ensure (by simp)).bind fun _ _ => loadSummaryClaim_avoids.bind
      fun _ _ => by simp
    intro r hr
    simp only [SummaryRow.interruptedAs, Bool.and_eq_true, beq_iff_eq] at hr
    exact hr.1.2

/-! ### Speech synthesis attempts -/

theorem LedgerOk.beginSummaryTtsAttempt_avoids (h : LedgerOk env db) (claim : SummaryClaim) :
    Avoids violation (beginSummaryTtsAttempt env claim db).1 := by
  refine avoids_transaction (validateSummaryClaim_avoids.bind fun _ hvalid => ?_)
  refine toI64_avoids.bind fun generation hgeneration => (avoids_ensure (by simp)).bind fun _ hheld => ?_
  obtain ⟨_, rfl⟩ := toI64_ok.1 hgeneration
  split
  next => simp
  next hnone =>
    refine (putTtsAttempts_avoids ⟨?_, Table.unique_insert.2 ⟨h.attempts.2, ?_⟩⟩).bind fun _ _ => by simp
    · intro a ha
      rcases List.mem_append.1 ha with ha | ha
      · exact h.attempts.1 a ha
      · rw [List.mem_singleton] at ha
        subst ha
        simp only [ensure_ok, List.any_eq_true] at hheld
        obtain ⟨r, hr, hheld⟩ := hheld
        simp only [SummaryRow.heldBy, Bool.and_eq_true] at hheld
        have hkey := SummaryRow.at_iff.1 hheld.1.1.1
        refine ⟨?_, List.mem_map.2 ⟨r, hr, hkey⟩⟩
        have := (check_columns (h.schema.1 r hr)).1
        rwa [show r.generation = claim.generation from congrArg Prod.snd hkey] at this
    · intro _ a ha _ heq
      have := List.find?_eq_none.1 hnone a ha
      simp only [TtsAttemptRow.key, Prod.mk.injEq] at heq
      simp [TtsAttemptRow.at, heq.1, heq.2] at this

theorem LedgerOk.markSummaryTtsAmbiguous_avoids (h : LedgerOk env db) (claim : SummaryClaim) :
    Avoids violation (markSummaryTtsAmbiguous env claim db).1 := by
  refine avoids_committed (validateSummaryClaim_avoids.bind fun _ _ => toI64_avoids.bind fun _ _ =>
    (putTtsAttempts_avoids ⟨?_, ?_⟩).bind fun _ _ => by simp) fun r tx hbody => ?_
  · intro a' ha'
    rcases Table.mem_update_cases ha' with ⟨ha, _⟩ | ⟨a, ha, _, rfl⟩
    · exact h.attempts.1 a' ha
    · exact h.attempts.1 a ha
  · refine h.attempts.2.update fun a _ b _ _ _ hk => ⟨rfl, rfl, ?_⟩
    split at hk <;> split at hk <;> exact hk
  · simp only [bind_ok, Except.ok.injEq, Prod.mk.injEq] at hbody
    obtain ⟨_, _, _, _, _, _, rfl, _⟩ := hbody
    exact avoids_ensure (by simp)

/-! ### Publishing -/

theorem cover_schema {t : List CompletionRow} (h : CompletionSchema t) {target : CompletionRow → Bool}
    {generation : Nat} : CompletionSchema (Table.update target (CompletionRow.cover generation) t) := by
  refine h.update fun a _ b _ _ _ hk => ⟨rfl, rfl, ?_⟩
  split at hk <;> split at hk <;> exact hk

theorem coverCompletions_avoids {task : String} {generation : Nat}
    {listed : List PendingSummaryCompletion} (h : CompletionSchema db.completionLedger) :
    Avoids violation (coverCompletions task generation listed db) := by
  induction listed generalizing db with
  | nil => simp [coverCompletions]
  | cons completion rest ih =>
    refine (putCompletions_avoids (cover_schema h)).bind fun tx htx => ?_
    obtain ⟨hschema, rfl⟩ := Database.putCompletions_ok.1 htx
    exact (avoids_ensure (by simp)).bind fun _ _ => ih hschema

section Publish

variable {claim : SummaryClaim} {cacheObject : String}

/-- The claim is newer than the generation it supersedes. -/
theorem LedgerOk.superseding_schema (h : LedgerOk env db)
    (hheld : ∃ stored ∈ db.summaryLedger, stored.publishable claim = true) :
    SummarySchema (claim.superseding db.summaryLedger) := by
  obtain ⟨stored, hstored, hpub⟩ := hheld
  obtain ⟨hskey, hsstate, _⟩ := SummaryRow.publishable_iff.1 hpub
  rw [SummaryRow.key, Prod.mk.injEq] at hskey
  refine h.schema.relabel (fun _ => rfl) (fun _ => rfl) ?_ ?_ ?_
  · intro r hr hsup hc
    obtain ⟨previous, _, hkey, hunread⟩ := SummaryClaim.supersedes_iff.1 hsup
    rw [SummaryRow.key, Prod.mk.injEq] at hkey
    have hstate := (SummaryRow.currentUnread_iff.1 hunread).1
    have hactive : stored.active = true := by
      rw [SummaryRow.active, hsstate]
      rfl
    have hle := h.newest stored hstored hactive r hr (hkey.1.trans hskey.1.symm)
    have hne : r.generation ≠ stored.generation := by
      intro heq
      have hsame : r = stored := h.eq_of_key hr hstored (by
        rw [SummaryRow.key, SummaryRow.key, hkey.1, hskey.1, heq])
      rw [hsame, hsstate] at hstate
      simp at hstate
    obtain ⟨h₁, h₂, _⟩ := check_columns hc
    have hlt : r.generation < claim.generation := by omega
    rcases hstate with hs | hs
    · have hclaim := check_published hc (by rw [hs]; rfl)
      simp [SummaryRow.check, SummaryRow.supersede, hs, h₁, h₂, hlt, hclaim]
    · have hclaim := check_published hc (by rw [hs]; rfl)
      simp [SummaryRow.check, SummaryRow.supersede, hs, h₁, h₂, hlt, hclaim]
  · intro r hsup ha
    obtain ⟨_, _, _, hunread⟩ := SummaryClaim.supersedes_iff.1 hsup
    rcases (SummaryRow.currentUnread_iff.1 hunread).1 with hs | hs <;>
      simp [SummaryRow.active, SummaryRow.supersede, hs, SummaryState.active] at ha
  · intro r _ hu
    simp [SummaryRow.currentUnread, SummaryRow.supersede] at hu

/-- Once the previous unread row is superseded, the task has no current unread row. -/
theorem LedgerOk.superseding_unread (h : LedgerOk env db)
    (hquery : queryCurrentUnread db claim.taskId = .ok claim.previousUnread) {r : SummaryRow}
    (hr : r ∈ claim.superseding db.summaryLedger) (htask : r.taskId = claim.taskId) :
    r.currentUnread = false := by
  rw [Bool.eq_false_iff]
  intro hunread
  rcases Table.mem_update_cases hr with ⟨hr, hnot⟩ | ⟨s, _, _, rfl⟩
  · rw [h.supersedes_current hquery hr htask hunread] at hnot
    cases hnot
  · simp [SummaryRow.currentUnread, SummaryRow.supersede] at hunread

theorem LedgerOk.publish_schema (h : LedgerOk env db)
    (hheld : ∃ stored ∈ db.summaryLedger, stored.publishable claim = true)
    (hquery : queryCurrentUnread db claim.taskId = .ok claim.previousUnread) :
    SummarySchema (Table.update (SummaryRow.publishable claim) (SummaryRow.publish cacheObject)
      (claim.superseding db.summaryLedger)) := by
  have hschema := h.superseding_schema hheld
  have hkey' : ∀ r : SummaryRow,
      (if r.publishable claim then r.publish cacheObject else r).key = r.key := by
    intro r
    split <;> rfl
  have hrequest' : ∀ r : SummaryRow,
      (if r.publishable claim then r.publish cacheObject else r).requestId = r.requestId := by
    intro r
    split <;> rfl
  have hactive' : ∀ r : SummaryRow,
      (if r.publishable claim then r.publish cacheObject else r).active = true → r.active = true := by
    intro r
    split
    · simp [SummaryRow.active, SummaryRow.publish, SummaryState.active]
    · exact id
  refine ⟨?_, hschema.2.1.update fun a _ b _ _ _ hk => ⟨rfl, rfl, by rwa [hkey', hkey'] at hk⟩,
    hschema.2.2.1.update fun a _ b _ ha hb hk => ⟨hactive' a ha, hactive' b hb, ?_⟩,
    hschema.2.2.2.1.update fun a _ b _ ha hb hk => ?_,
    hschema.2.1.update fun a ha b hb hua hub hk => ⟨rfl, rfl, ?_⟩⟩
  · intro r' hr'
    rcases Table.mem_update_cases hr' with ⟨hr, _⟩ | ⟨r, hr, _, rfl⟩
    · exact hschema.1 r' hr
    · exact check_of (hschema.1 r hr) rfl rfl rfl (Or.inr (Or.inr ⟨rfl, rfl⟩))
  · rwa [taskId_of_key (hkey' a), taskId_of_key (hkey' b)] at hk
  · simp only [hrequest'] at ha hb hk
    exact ⟨ha, hb, hk⟩
  · rw [taskId_of_key (hkey' a), taskId_of_key (hkey' b)] at hk
    split at hua <;> split at hub
    next hpa hpb => rw [(SummaryRow.publishable_iff.1 hpa).1, (SummaryRow.publishable_iff.1 hpb).1]
    next hpa hpb =>
      have htask : b.taskId = claim.taskId :=
        hk.symm.trans (congrArg Prod.fst (SummaryRow.publishable_iff.1 hpa).1)
      simp [h.superseding_unread hquery hb htask] at hub
    next hpa hpb =>
      have htask : a.taskId = claim.taskId :=
        hk.trans (congrArg Prod.fst (SummaryRow.publishable_iff.1 hpb).1)
      simp [h.superseding_unread hquery ha htask] at hua
    next => rw [hschema.2.2.2.2.eq_of_mem ha hb hua hub hk]

theorem LedgerOk.supersedePrevious_avoids (h : LedgerOk env db)
    (hheld : ∃ stored ∈ db.summaryLedger, stored.publishable claim = true) :
    Avoids violation (supersedePrevious claim db) := by
  unfold supersedePrevious
  cases hprev : claim.previousUnread with
  | none => exact queryCurrentUnread_avoids.bind fun _ _ => (avoids_ensure (by simp)).bind fun _ _ => by simp
  | some previous =>
    have hsup : claim.supersedes =
        fun r => r.at claim.taskId previous.generation && r.currentUnread := by
      funext r
      simp [SummaryClaim.supersedes, hprev]
    have hschema := h.superseding_schema hheld
    rw [SummaryClaim.superseding, hsup] at hschema
    refine queryCurrentUnread_avoids.bind fun _ _ => (avoids_ensure (by simp)).bind fun _ _ => ?_
    refine (putSummaries_avoids hschema).bind fun tx htx => (avoids_ensure (by simp)).bind fun _ _ => ?_
    obtain ⟨_, rfl⟩ := Database.putSummaries_ok.1 htx
    exact (putCompletions_avoids (cover_schema h.completions)).bind fun _ _ =>
      (avoids_ensure (by simp)).bind fun _ _ => by simp

end Publish

theorem LedgerOk.publishSummary_avoids (h : LedgerOk env db) (claim : SummaryClaim)
    (cacheObject : String) : Avoids violation (publishSummary env claim cacheObject db).1 := by
  refine avoids_transaction (validateSummaryClaim_avoids.bind fun _ _ =>
    (avoids_orThrow (by simp)).bind fun _ _ => (avoids_ensure (by simp)).bind fun _ _ =>
    toI64_avoids.bind fun _ hgeneration => (avoids_orThrow (by simp)).bind fun stored hstored => ?_)
  obtain ⟨_, rfl⟩ := toI64_ok.1 hgeneration
  have hfind := orThrow_ok.1 hstored
  have hheld : ∃ stored ∈ db.summaryLedger, stored.publishable claim = true :=
    ⟨stored, List.mem_of_find?_eq_some hfind, List.find?_some hfind⟩
  refine previousColumn_avoids.bind fun _ _ => (avoids_ensure (by simp)).bind fun _ _ =>
    (h.supersedePrevious_avoids hheld).bind fun result hresult => ?_
  obtain ⟨coverage, tx⟩ := result
  obtain ⟨hquery, _, rfl⟩ := supersedePrevious_ok hresult
  refine (coverCompletions_avoids (cover_schema h.completions)).bind fun tx' htx' => ?_
  obtain ⟨rfl, _⟩ := coverCompletions_ok htx'
  exact (putSummaries_avoids (h.publish_schema hheld hquery)).bind fun _ _ =>
    (avoids_ensure (by simp)).bind fun _ _ => (avoids_ensure (by simp)).bind fun _ _ => by simp

/-! ### Playback leases -/

/-- Only a lease identifier that is in use can be refused by the schema. -/
theorem LedgerOk.acquireSummaryPlayback_avoids (h : LedgerOk env db)
    {slot request connection lease : Nat} (hfresh : ∀ l ∈ db.summaryPlaybackLeases, l.leaseId ≠ lease) :
    Avoids violation (acquireSummaryPlayback slot request connection lease db).1 := by
  refine avoids_committed ?_ ?_
  · refine (avoids_ensure (by simp)).bind fun _ hslot => (avoids_ensure (by simp)).bind fun _ hargs => ?_
    split
    next => simp
    next binding _ =>
      dsimp only
      split
      next => simp
      next row hfind =>
        refine (avoids_orThrow (by simp)).bind fun _ _ => ?_
        split
        next =>
          split <;> simp
        next hnone =>
          refine (avoids_ensure (by simp)).bind fun _ _ =>
            (putSummaries_avoids (h.lease_schema binding.taskId row.generation)).bind fun tx htx => ?_
          refine (avoids_ensure (by simp)).bind fun _ _ => (putLeases_avoids ?_).bind fun _ _ => by simp
          obtain ⟨_, rfl⟩ := Database.putSummaries_ok.1 htx
          have hrow := List.mem_of_find?_eq_some hfind
          have hmatch := List.find?_some hfind
          simp only [Bool.and_eq_true, beq_iff_eq] at hmatch
          have hkeys : db.summaryLedger.map SummaryRow.key ⊆ (Table.update
              (SummaryRow.leasable binding.taskId row.generation) SummaryRow.lease
              db.summaryLedger).map SummaryRow.key := by
            intro k hk
            obtain ⟨r, hr, rfl⟩ := List.mem_map.1 hk
            refine List.mem_map.2 ⟨_, Table.mem_update.2 ⟨r, hr, rfl⟩, ?_⟩
            split <;> rfl
          refine ⟨?_, Table.unique_insert.2 ⟨h.leases.2.1, fun _ l hl _ => hfresh l hl⟩,
            Table.unique_insert.2 ⟨h.leases.2.2, fun _ l hl _ => find_lease_none hnone l hl⟩⟩
          intro l hl
          rcases List.mem_append.1 hl with hl | hl
          · exact (h.leases.mono hkeys).1 l hl
          · rw [List.mem_singleton] at hl
            subst hl
            simp only [ensure_ok] at hargs
            obtain ⟨hrequest, hconnection, hlease, _⟩ := hargs
            refine ⟨Nat.pos_of_ne_zero hlease, (check_columns (h.schema.1 row hrow)).1,
              by simpa [validateSlot] using hslot, Nat.pos_of_ne_zero hrequest,
              Nat.pos_of_ne_zero hconnection, hkeys (List.mem_map.2 ⟨row, hrow, ?_⟩)⟩
            rw [SummaryRow.key, hmatch.1]
            rfl
  · intro r tx hbody
    simp only [bind_ok] at hbody
    obtain ⟨_, _, _, _, hbody⟩ := hbody
    split at hbody
    next =>
      simp only [Except.ok.injEq, Prod.mk.injEq] at hbody
      simp [← hbody.1]
    next =>
      split at hbody
      next =>
        simp only [Except.ok.injEq, Prod.mk.injEq] at hbody
        simp [← hbody.1]
      next =>
        simp only [bind_ok] at hbody
        obtain ⟨_, _, hbody⟩ := hbody
        split at hbody
        next =>
          split at hbody <;> simp only [Except.ok.injEq, Prod.mk.injEq] at hbody <;>
            simp [← hbody.1]
        next =>
          simp only [leaseUnread, bind_ok, Except.ok.injEq, Prod.mk.injEq] at hbody
          obtain ⟨_, _, _, _, _, _, _, _, hr, _⟩ := hbody
          simp [← hr]

theorem validatePlaybackLease_avoids {lease : SummaryPlaybackLease} :
    Avoids violation (validatePlaybackLease env lease) :=
  (avoids_ensure (by simp)).bind fun _ _ => avoids_ensure (by simp)

theorem LedgerOk.cancelSummaryPlayback_avoids (h : LedgerOk env db) (lease : SummaryPlaybackLease) :
    Avoids violation (cancelSummaryPlayback env lease db).1 := by
  refine avoids_transaction (validatePlaybackLease_avoids.bind fun _ _ => ?_)
  dsimp only
  split
  · refine (putSummaries_avoids (h.release_schema ?_)).bind fun _ _ => by simp
    intro r hr
    simp only [Bool.and_eq_true, beq_iff_eq] at hr
    exact hr.2
  · simp

theorem LedgerOk.finishSummaryPlayback_avoids (h : LedgerOk env db) (lease : SummaryPlaybackLease) :
    Avoids violation (finishSummaryPlayback env lease db).1 := by
  refine avoids_transaction (validatePlaybackLease_avoids.bind fun _ _ => ?_)
  dsimp only
  split
  · exact (putSummaries_avoids (h.hear_schema lease)).bind fun _ _ =>
      (avoids_ensure (by simp)).bind fun _ _ => by simp
  · simp

/-! ### Reopening -/

theorem LedgerOk.recoverInterruptedSummaries_total (h : LedgerOk env db) :
    ∃ n, recoverInterruptedSummaries db =
      (.ok n, { db with summaryLedger := interruptedLedger db.summaryLedger }) := by
  refine ⟨db.summaryLedger.countP (fun r => r.state == .generating), ?_⟩
  simp only [recoverInterruptedSummaries, transaction_eq_ok, bind_ok, Database.putSummaries_ok]
  exact ⟨_, ⟨h.interrupt_schema, rfl⟩, rfl⟩

theorem LedgerOk.recoverInterruptedPlaybackLeases_total (h : LedgerOk env db) :
    recoverInterruptedPlaybackLeases db = (.ok (), { db with
      summaryLedger := releasedLedger db.summaryLedger
      summaryPlaybackLeases := [] }) := by
  simp only [recoverInterruptedPlaybackLeases, transaction_eq_ok, bind_ok, Database.putSummaries_ok]
  exact ⟨_, ⟨h.release_schema (by simp), rfl⟩, rfl⟩

/-- A reopen fails in its first pass or not at all. -/
theorem LedgerOk.reopen_error (h : LedgerOk env db) {e : StoreError}
    (hres : reopen db = (.error e, db')) : db' = db ∧ recoverInterruptedJobs db = (.error e, db) := by
  unfold reopen at hres
  rcases hjobs : recoverInterruptedJobs db with ⟨e' | n, db₁⟩
  · obtain rfl := recoverInterruptedJobs_error hjobs
    simp only [hjobs, Prod.mk.injEq, Except.error.injEq] at hres
    obtain ⟨rfl, rfl⟩ := hres
    exact ⟨rfl, rfl⟩
  · obtain ⟨_, rfl⟩ := recoverInterruptedJobs_ok hjobs
    have h₁ : LedgerOk env _ := h.effect (@Effect.queue _ _ .reopen _
      (Table.update (fun j => j.state == .running) JobRow.recover db.jobs) db.jobsSequence rfl)
    obtain ⟨m, hsum⟩ := h₁.recoverInterruptedSummaries_total
    have h₂ := h₁.interrupted h₁.interrupt_schema
    rw [hjobs] at hres
    simp only [hsum, h₂.recoverInterruptedPlaybackLeases_total, Prod.mk.injEq, reduceCtorEq,
      false_and] at hres

end CodexKeyboard.Store
