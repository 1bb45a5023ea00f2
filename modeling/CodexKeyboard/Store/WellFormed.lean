import CodexKeyboard.Store.Integrity

/-! Well-formedness of the summary ledger as its readers see it: the mailbox view never finds the
    tables in a state it has to reject, and shows exactly the bound tasks with an unread summary. -/

namespace CodexKeyboard.Store

open Schemes Transact

variable {P : Type} {env : Env P} {db db' : Database} {op : Op P}

/-! ### Reading the current unread summary -/

/-- What covers the completions of a task right now, read off a well-formed ledger. -/
theorem LedgerOk.queryCurrentUnread_total (h : LedgerOk env db) (task : String) :
    (queryCurrentUnread db task = .ok none ∧
      ∀ r ∈ db.summaryLedger, r.taskId = task → r.currentUnread = false) ∨
    ∃ r ∈ db.summaryLedger, r.taskId = task ∧ r.currentUnread = true ∧
      queryCurrentUnread db task = .ok (some ⟨task, r.generation, cacheReference env task r.generation,
        db.completionLedger.countP (CompletionRow.coveredBy task r.generation)⟩) := by
  cases hfind : db.summaryLedger.find? (fun r => r.taskId == task && r.currentUnread) with
  | none =>
    have hnone : queryCurrentUnread db task = .ok none := by
      rw [queryCurrentUnread, hfind]
    exact Or.inl ⟨hnone, queryCurrentUnread_none hnone⟩
  | some r =>
    have hr := List.mem_of_find?_eq_some hfind
    have hmatch := List.find?_some hfind
    simp only [Bool.and_eq_true, beq_iff_eq] at hmatch
    obtain ⟨htask, hunread⟩ := hmatch
    have hpub : r.state.published = true := by
      rcases (SummaryRow.currentUnread_iff.1 hunread).1 with hs | hs <;> rw [hs] <;> rfl
    have hcache := (h.shape r hr).cache hpub
    obtain ⟨hpos, hmax⟩ := h.coverage r hr hunread
    have hgen := (check_columns (h.schema.1 r hr)).1
    refine Or.inr ⟨r, hr, htask, hunread, ?_⟩
    subst htask
    simp only [queryCurrentUnread, hfind, hcache, bind_ok, ensure_ok]
    exact ⟨(), ⟨hgen, hpos⟩, (), hmax, trivial⟩

theorem LedgerOk.currentUnreadSummary_total (h : LedgerOk env db) {task : String}
    (htask : env.uuidOk task = true) : ∃ unread, currentUnreadSummary env db task = .ok unread := by
  have hread : currentUnreadSummary env db task = queryCurrentUnread db task := by
    simp [currentUnreadSummary, ensure, htask, bind, Except.bind]
  rw [hread]
  rcases h.queryCurrentUnread_total task with ⟨hq, _⟩ | ⟨_, _, _, _, hq⟩
  · exact ⟨_, hq⟩
  · exact ⟨_, hq⟩

theorem LedgerOk.currentUnreadSummary_avoids (h : LedgerOk env db) (task : String) :
    Avoids .invalidSummaryState (currentUnreadSummary env db task) := by
  refine (avoids_ensure (by simp)).bind fun _ _ => ?_
  rcases h.queryCurrentUnread_total task with ⟨hq, _⟩ | ⟨_, _, _, _, hq⟩ <;> rw [hq] <;> simp

/-! ### The mailbox -/

/-- There is a binding for every slot at most, so the limit of the query cuts nothing off. -/
theorem LedgerOk.mem_queryBindings (h : LedgerOk env db) {b : Binding} :
    b ∈ queryBindings db ↔ b ∈ db.bindings := by
  have hnodup : (db.bindings.map Binding.slot).Nodup := by
    refine List.pairwise_map.2 (h.bindings.2.imp fun hab => hab rfl rfl)
  have hsub : db.bindings.map Binding.slot ⊆ [1, 2, 3, 4] := by
    intro slot hslot
    obtain ⟨b, hb, rfl⟩ := List.mem_map.1 hslot
    have := (h.bindings.1 b hb).1
    simp only [slotOk, Bool.and_eq_true, decide_eq_true_eq] at this
    simp only [List.mem_cons, List.not_mem_nil, or_false]
    omega
  have hlen : db.bindings.length ≤ 4 := by
    simpa using (List.subperm_of_subset hnodup hsub).length_le
  have hfull : (Table.orderBy Binding.slot db.bindings).length ≤ 4 := by
    rwa [Table.orderBy, List.length_insertionSort]
  rw [queryBindings, List.take_of_length_le hfull, Table.mem_orderBy]

theorem LedgerOk.collectMailbox_avoids (h : LedgerOk env db) {bindings : List Binding}
    {status : MailboxStatusSnapshot} :
    Avoids .invalidSummaryState (collectMailbox env db bindings status) := by
  induction bindings generalizing status with
  | nil => simp [collectMailbox]
  | cons b rest ih =>
    refine (h.currentUnreadSummary_avoids b.taskId).bind fun unread _ => ?_
    cases unread with
    | none => exact ih
    | some unread => exact ih

theorem collectMailbox_total {bindings : List Binding} {status : MailboxStatusSnapshot}
    (hread : ∀ b ∈ bindings, ∃ unread, currentUnreadSummary env db b.taskId = .ok unread) :
    ∃ status', collectMailbox env db bindings status = .ok status' := by
  induction bindings generalizing status with
  | nil => exact ⟨status, rfl⟩
  | cons b rest ih =>
    obtain ⟨unread, hunread⟩ := hread b (List.mem_cons_self ..)
    have hrest := fun b hb => hread b (List.mem_cons_of_mem _ hb)
    cases unread with
    | none =>
      obtain ⟨status', hs⟩ := @ih status hrest
      exact ⟨status', bind_ok.2 ⟨_, hunread, hs⟩⟩
    | some unread =>
      obtain ⟨status', hs⟩ := @ih (⟨status.unreadSlots ||| 1 <<< (b.slot - 1),
        status.coverageBySlot.set (b.slot - 1) (min unread.coverageCount 255)⟩) hrest
      exact ⟨status', bind_ok.2 ⟨_, hunread, hs⟩⟩

/-- One slot of the mailbox after the loop: a binding of it with an unread summary, or untouched. -/
def SlotShows (db : Database) (bindings : List Binding) (before after : MailboxStatusSnapshot)
    (i : Nat) : Prop :=
  (∃ b ∈ bindings, b.slot = i + 1 ∧ ∃ unread, queryCurrentUnread db b.taskId = .ok (some unread) ∧
    after.unreadSlots.testBit i = true ∧
    after.coverageBySlot[i]? = some (min unread.coverageCount 255)) ∨
  ((∀ b ∈ bindings, b.slot = i + 1 → queryCurrentUnread db b.taskId = .ok none) ∧
    after.unreadSlots.testBit i = before.unreadSlots.testBit i ∧
    after.coverageBySlot[i]? = before.coverageBySlot[i]?)

theorem collectMailbox_ok {bindings : List Binding} {before after : MailboxStatusSnapshot}
    (hslots : ∀ b ∈ bindings, slotOk b.slot = true) (hlen : before.coverageBySlot.length = 4)
    (h : collectMailbox env db bindings before = .ok after) :
    after.coverageBySlot.length = 4 ∧ ∀ i < 4, SlotShows db bindings before after i := by
  induction bindings generalizing before with
  | nil =>
    simp only [collectMailbox, Except.ok.injEq] at h
    subst h
    exact ⟨hlen, fun i _ => Or.inr ⟨by simp, rfl, rfl⟩⟩
  | cons b rest ih =>
    have hrest := fun b hb => hslots b (List.mem_cons_of_mem _ hb)
    simp only [collectMailbox, bind_ok, currentUnreadSummary, ensure_ok] at h
    obtain ⟨unread, ⟨_, _, hquery⟩, h⟩ := h
    cases unread with
    | none =>
      obtain ⟨hlen', hshows⟩ := ih hrest hlen h
      refine ⟨hlen', fun i hi => ?_⟩
      rcases hshows i hi with ⟨b', hb', hrow⟩ | ⟨hnone, hsame⟩
      · exact Or.inl ⟨b', List.mem_cons_of_mem _ hb', hrow⟩
      · refine Or.inr ⟨fun b' hb' hslot => ?_, hsame⟩
        rcases List.mem_cons.1 hb' with rfl | hb'
        · exact hquery
        · exact hnone b' hb' hslot
    | some unread =>
      have hslot := hslots b (List.mem_cons_self ..)
      simp only [slotOk, Bool.and_eq_true, decide_eq_true_eq] at hslot
      obtain ⟨hlen', hshows⟩ := ih hrest (by simpa using hlen) h
      refine ⟨hlen', fun i hi => ?_⟩
      rcases hshows i hi with ⟨b', hb', hrow⟩ | ⟨hnone, hbit, hcov⟩
      · exact Or.inl ⟨b', List.mem_cons_of_mem _ hb', hrow⟩
      · rw [Nat.testBit_or, Nat.testBit_shiftLeft] at hbit
        by_cases hi' : b.slot = i + 1
        · refine Or.inl ⟨b, List.mem_cons_self .., hi', unread, hquery, ?_, ?_⟩
          · rw [hbit]
            simp [hi']
          · rw [hcov]
            simp [hi', hlen, hi]
        · refine Or.inr ⟨fun b' hb' hslot' => ?_, ?_, ?_⟩
          · rcases List.mem_cons.1 hb' with rfl | hb'
            · exact absurd hslot' hi'
            · exact hnone b' hb' hslot'
          · have hclear : (decide (i ≥ b.slot - 1) && Nat.testBit 1 (i - (b.slot - 1))) = false := by
              rw [Bool.eq_false_iff, ne_eq, Bool.and_eq_true, decide_eq_true_eq,
                Nat.testBit_one_eq_true_iff_self_eq_zero]
              omega
            rw [hbit, hclear, Bool.or_false]
          · rw [hcov, List.getElem?_set_ne (by omega)]

/-- What the mailbox shows for one slot. -/
def MailboxShows (db : Database) (status : MailboxStatusSnapshot) (i : Nat) : Prop :=
  (∃ b ∈ db.bindings, b.slot = i + 1 ∧ ∃ r ∈ db.summaryLedger, r.taskId = b.taskId ∧
    r.currentUnread = true ∧ status.unreadSlots.testBit i = true ∧ status.coverageBySlot[i]? =
      some (min (db.completionLedger.countP (CompletionRow.coveredBy b.taskId r.generation)) 255)) ∨
  ((∀ b ∈ db.bindings, b.slot = i + 1 → ∀ r ∈ db.summaryLedger, r.taskId = b.taskId →
      r.currentUnread = false) ∧
    status.unreadSlots.testBit i = false ∧ status.coverageBySlot[i]? = some 0)

theorem LedgerOk.mailboxShows (h : LedgerOk env db) {status : MailboxStatusSnapshot}
    (hres : collectMailbox env db (queryBindings db) ⟨0, [0, 0, 0, 0]⟩ = .ok status) :
    status.coverageBySlot.length = 4 ∧ ∀ i < 4, MailboxShows db status i := by
  obtain ⟨hlen, hshows⟩ := collectMailbox_ok
    (fun b hb => (h.bindings.1 b (h.mem_queryBindings.1 hb)).1) rfl hres
  refine ⟨hlen, fun i hi => ?_⟩
  rcases hshows i hi with ⟨b, hb, hslot, unread, hquery, hbit, hcov⟩ | ⟨hnone, hbit, hcov⟩
  · obtain ⟨r, hr, htask, hunread, _, _, _, _, hcount, _⟩ := queryCurrentUnread_some hquery
    refine Or.inl ⟨b, h.mem_queryBindings.1 hb, hslot, r, hr, htask, hunread, hbit, ?_⟩
    rw [hcov, hcount]
  · refine Or.inr ⟨fun b hb hslot => queryCurrentUnread_none (hnone b (h.mem_queryBindings.2 hb) hslot),
      by simpa using hbit, ?_⟩
    rw [hcov]
    interval_cases i <;> rfl

/-- The cross-check at the end of `mailbox_status` always succeeds. -/
theorem LedgerOk.mailboxStatus_eq (h : LedgerOk env db) : mailboxStatus env db =
    collectMailbox env db (queryBindings db) ⟨0, [0, 0, 0, 0]⟩ := by
  rw [mailboxStatus]
  cases hres : collectMailbox env db (queryBindings db) ⟨0, [0, 0, 0, 0]⟩ with
  | error e => rfl
  | ok status =>
    obtain ⟨hlen, hshows⟩ := h.mailboxShows hres
    have hall : status.coverageBySlot.zipIdx.all (fun p =>
        status.unreadSlots.testBit p.2 == (p.1 != 0)) = true := by
      rw [List.all_eq_true]
      rintro ⟨coverage, i⟩ hmem
      have hget := List.mem_zipIdx_iff_getElem?.1 hmem
      have hi : i < 4 := by
        obtain ⟨hlt, _⟩ := List.getElem?_eq_some_iff.1 hget
        omega
      simp only at hget ⊢
      rcases hshows i hi with ⟨b, _, _, r, hr, htask, hunread, hbit, hcov⟩ | ⟨_, hbit, hcov⟩
      · rw [hget, Option.some.injEq] at hcov
        have hpos := (h.coverage r hr hunread).1
        rw [htask] at hpos
        have hne : coverage ≠ 0 := by omega
        simp [hbit, hne]
      · rw [hget, Option.some.injEq] at hcov
        simp [hbit, hcov]
    simp [bind, Except.bind, ensure, hall]

/-! ### The ledger as a whole -/

/-- What `exec` answers is what the call answers. -/
theorem avoids_reply {α : Type} {wrap : α → Reply P} {r : Except StoreError α × Database}
    {e : StoreError} (h : Avoids e r.1) : Avoids e (Reply.of wrap r).1 := h.map

theorem reply_error {α : Type} {wrap : α → Reply P} {r : Except StoreError α × Database}
    {e : StoreError} (h : Reply.of wrap r = (.error e, db')) : r = (.error e, db') := by
  obtain ⟨e' | a, db''⟩ := r <;> simp_all [Reply.of, Except.map]

/-- The calls a constraint can refuse. -/
def Refusable (db : Database) (op : Op P) : Prop :=
  (∃ slot request connection lease, op = .acquireSummaryPlayback slot request connection lease ∧
    ∃ l ∈ db.summaryPlaybackLeases, l.leaseId = lease) ∨
  (op = .reopen ∧ ∃ j ∈ db.jobs, j.state = .running ∧ j.recoveryCount = u32Max)

theorem LedgerOk.exec_avoids (h : LedgerOk env db) (hq : QueueOk env db.jobs db.jobsSequence)
    (op : Op P) (hop : ¬ Refusable db op) : Avoids violation (exec env db op).1 := by
  cases op with
  | enqueue job => exact avoids_reply (hq.enqueue_avoids job)
  | claimNextRunnable => exact avoids_reply hq.claimNextRunnable_avoids
  | markCompleted id generation => exact avoids_reply (hq.markCompleted_avoids id generation)
  | markFailed id generation failure => exact avoids_reply (hq.markFailed_avoids id generation failure)
  | setBinding slot expected task => exact avoids_reply (h.setBinding_avoids slot expected task)
  | commitRolloutCompletion expected next id turnPack now =>
    exact avoids_reply (h.commitRolloutCompletionOn_avoids none expected next id turnPack now)
  | commitBoundRolloutCompletion binding expected next id turnPack now =>
    exact avoids_reply (h.commitRolloutCompletionOn_avoids (some binding) expected next id turnPack now)
  | claimSummary task request => exact avoids_reply (h.claimSummary_avoids task request)
  | abandonSummaryClaim claim => exact avoids_reply (h.abandonSummaryClaim_avoids claim)
  | abandonInterruptedSummaryForTask task =>
    exact avoids_reply (h.abandonInterruptedSummaryForTask_avoids task)
  | beginSummaryTtsAttempt claim => exact avoids_reply (h.beginSummaryTtsAttempt_avoids claim)
  | markSummaryTtsAmbiguous claim => exact avoids_reply (h.markSummaryTtsAmbiguous_avoids claim)
  | resumeInterruptedSummary task => exact avoids_reply (h.resumeInterruptedSummary_avoids task)
  | publishSummary claim cacheObject => exact avoids_reply (h.publishSummary_avoids claim cacheObject)
  | acquireSummaryPlayback slot request connection lease =>
    refine avoids_reply (h.acquireSummaryPlayback_avoids fun l hl hid => ?_)
    exact hop (Or.inl ⟨slot, request, connection, lease, rfl, l, hl, hid⟩)
  | cancelSummaryPlayback lease => exact avoids_reply (h.cancelSummaryPlayback_avoids lease)
  | finishSummaryPlayback lease => exact avoids_reply (h.finishSummaryPlayback_avoids lease)
  | reopen =>
    refine avoids_reply fun herr => ?_
    obtain ⟨_, hjobs⟩ := h.reopen_error (Prod.ext herr rfl)
    refine hq.recoverInterruptedJobs_avoids (fun j hj hrunning hcount => ?_) (congrArg Prod.fst hjobs)
    exact hop (Or.inr ⟨rfl, j, hj, hrunning, hcount⟩)

/-- A call that fails leaves the database as it was. -/
theorem LedgerOk.exec_error (h : LedgerOk env db) {op : Op P} {e : StoreError}
    (hres : exec env db op = (.error e, db')) : db' = db := by
  cases op with
  | enqueue => exact enqueue_error (reply_error hres)
  | claimNextRunnable => exact claimNextRunnable_error (reply_error hres)
  | markCompleted => exact markCompleted_error (reply_error hres)
  | markFailed => exact markFailed_error (reply_error hres)
  | setBinding => exact setBinding_error (reply_error hres)
  | commitRolloutCompletion => exact commitRolloutCompletionOn_error (reply_error hres)
  | commitBoundRolloutCompletion => exact commitRolloutCompletionOn_error (reply_error hres)
  | claimSummary => exact claimSummary_error (reply_error hres)
  | abandonSummaryClaim => exact abandonSummaryClaim_error (reply_error hres)
  | abandonInterruptedSummaryForTask => exact abandonInterruptedSummaryForTask_error (reply_error hres)
  | beginSummaryTtsAttempt => exact beginSummaryTtsAttempt_error (reply_error hres)
  | markSummaryTtsAmbiguous => exact markSummaryTtsAmbiguous_error h.attempts.2 (reply_error hres)
  | resumeInterruptedSummary => exact resumeInterruptedSummary_error (reply_error hres)
  | publishSummary => exact publishSummary_error (reply_error hres)
  | acquireSummaryPlayback => exact acquireSummaryPlayback_error (reply_error hres)
  | cancelSummaryPlayback => exact cancelSummaryPlayback_error (reply_error hres)
  | finishSummaryPlayback => exact finishSummaryPlayback_error (reply_error hres)
  | reopen => exact (h.reopen_error (reply_error hres)).1

/-- The ledger is well formed, and every operation on it behaves. -/
structure LedgerWellFormed (env : Env P) (db : Database) : Prop where
  oneActive : ∀ a ∈ db.summaryLedger, ∀ b ∈ db.summaryLedger, a.taskId = b.taskId →
    (a.state = .generating ∨ a.state = .interrupted) →
    (b.state = .generating ∨ b.state = .interrupted) → a = b
  oneUnread : ∀ a ∈ db.summaryLedger, ∀ b ∈ db.summaryLedger, a.taskId = b.taskId →
    (a.state = .unheard ∨ a.state = .leased) ∧ a.supersededBy = none →
    (b.state = .unheard ∨ b.state = .leased) ∧ b.supersededBy = none → a = b
  leases : ∀ task generation,
    (∃ l ∈ db.summaryPlaybackLeases, l.taskId = task ∧ l.summaryGeneration = generation) ↔
    ∃ r ∈ db.summaryLedger, r.taskId = task ∧ r.generation = generation ∧ r.state = .leased
  unread : ∀ r ∈ db.summaryLedger, (r.state = .unheard ∨ r.state = .leased) ∧ r.supersededBy = none →
    (∃ id, CacheId.forTask env r.taskId r.generation = some id ∧ r.cacheObject = some id.reference) ∧
    ∃ c ∈ db.completionLedger, c.taskId = r.taskId ∧ c.summarizedGeneration = some r.generation
  claims : ∀ r ∈ db.summaryLedger,
    r.claimId.isSome = true ↔ r.state = .generating ∨ r.state = .interrupted
  superseded : ∀ r ∈ db.summaryLedger, ∀ s, r.supersededBy = some s → r.generation < s ∧
    ∃ r' ∈ db.summaryLedger, r'.taskId = r.taskId ∧ r'.generation = s ∧
      r'.state.published = true
  violations : ∀ op, (exec env db op).1 = .error violation → Refusable db op
  rollback : ∀ op e db', exec env db op = (.error e, db') → db' = db
  reads : ∀ task, env.uuidOk task = true → ∃ unread, currentUnreadSummary env db task = .ok unread
  mailbox : mailboxStatus env db ≠ .error .invalidSummaryState ∧
    ((∀ b ∈ db.bindings, env.uuidOk b.taskId = true) → ∃ status, mailboxStatus env db = .ok status) ∧
    ∀ status, mailboxStatus env db = .ok status → ∀ i < 4, MailboxShows db status i

theorem SummaryRow.active_iff {r : SummaryRow} :
    r.active = true ↔ r.state = .generating ∨ r.state = .interrupted := by
  unfold SummaryRow.active
  cases r.state <;> simp [SummaryState.active]

theorem check_claimId {r : SummaryRow} (h : r.check = true) :
    r.claimId.isSome = true ↔ r.state = .generating ∨ r.state = .interrupted := by
  rw [← SummaryRow.active_iff]
  cases ha : r.active with
  | true => simp [(check_active h ha).1]
  | false =>
    have hnone : r.claimId = none := by
      cases hs : r.state <;> simp_all [SummaryRow.check, SummaryRow.active, SummaryState.active]
    simp [hnone]

/-- In every database that calls and reopens reach from the empty schema. -/
theorem summary_ledger_wellFormed (env : Env P) (ops : List (Op P)) :
    LedgerWellFormed env (run env Database.empty ops) := by
  have h := ledgerOk_run env ops
  have hq := queueOk_run env ops
  generalize run env Database.empty ops = db at h hq
  refine ⟨?_, ?_, ?_, ?_, ?_, ?_, ?_, ?_, ?_, ?_, ?_, ?_⟩
  · intro a ha b hb htask hsa hsb
    exact h.schema.2.2.1.eq_of_mem ha hb (SummaryRow.active_iff.2 hsa) (SummaryRow.active_iff.2 hsb) htask
  · intro a ha b hb htask hsa hsb
    exact h.schema.2.2.2.2.eq_of_mem ha hb (SummaryRow.currentUnread_iff.2 hsa)
      (SummaryRow.currentUnread_iff.2 hsb) htask
  · intro task generation
    constructor
    · rintro ⟨l, hl, rfl, rfl⟩
      obtain ⟨-, -, -, -, -, hparent⟩ := h.leases.1 l hl
      obtain ⟨r, hr, hkey⟩ := List.mem_map.1 hparent
      have hleased := (h.leased r hr).2 ⟨l, hl, hkey.symm⟩
      rw [SummaryRow.key, LeaseRow.key, Prod.mk.injEq] at hkey
      exact ⟨r, hr, hkey.1, hkey.2, hleased⟩
    · rintro ⟨r, hr, rfl, rfl, hleased⟩
      obtain ⟨l, hl, hkey⟩ := (h.leased r hr).1 hleased
      rw [SummaryRow.key, LeaseRow.key, Prod.mk.injEq] at hkey
      exact ⟨l, hl, hkey.1, hkey.2⟩
  · intro r hr hunread
    have hu := SummaryRow.currentUnread_iff.2 hunread
    have hpub : r.state.published = true := by
      rcases hunread.1 with hs | hs <;> rw [hs] <;> rfl
    have hgen := (check_columns (h.schema.1 r hr)).1
    refine ⟨⟨⟨env.sha256 r.taskId, r.generation⟩, ?_, (h.shape r hr).cache hpub⟩, ?_⟩
    · simp [CacheId.forTask, Nat.pos_iff_ne_zero.1 hgen]
    · obtain ⟨c, hc, hcov⟩ := List.countP_pos_iff.1 (h.coverage r hr hu).1
      simp only [CompletionRow.coveredBy, Bool.and_eq_true, beq_iff_eq] at hcov
      exact ⟨c, hc, hcov⟩
  · intro r hr
    exact check_claimId (h.schema.1 r hr)
  · intro r hr s hs
    obtain ⟨r', hr', hkey, hpub⟩ := h.successor r hr s hs
    have hlater := (check_columns (h.schema.1 r hr)).2.2
    rw [SummaryRow.key, Prod.mk.injEq] at hkey
    refine ⟨by simpa [hs] using hlater, r', hr', hkey.1, hkey.2, hpub⟩
  · intro op herr
    by_contra hop
    exact h.exec_avoids hq op hop herr
  · intro op e db' hres
    exact h.exec_error hres
  · intro task htask
    exact h.currentUnreadSummary_total htask
  · rw [h.mailboxStatus_eq]
    exact h.collectMailbox_avoids
  · intro htasks
    rw [h.mailboxStatus_eq]
    exact collectMailbox_total fun b hb =>
      h.currentUnreadSummary_total (htasks b (h.mem_queryBindings.1 hb))
  · intro status hres
    rw [h.mailboxStatus_eq] at hres
    exact (h.mailboxShows hres).2

end CodexKeyboard.Store
