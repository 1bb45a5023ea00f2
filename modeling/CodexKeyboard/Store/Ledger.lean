import CodexKeyboard.Store.Effect

/-! The summary ledger is well formed in every reachable database.

    `LedgerOk` ties the three tables together: what a row may look like in each state, which row is
    leased, which rows completions point at, and how many. Every effect preserves it. -/

namespace CodexKeyboard.Store

open Schemes Transact

variable {P : Type}

/-! ### The invariant -/

/-- The cache reference of a generation, `CacheId::for_task(task, generation).reference()`. -/
def cacheReference (env : Env P) (task : String) (generation : Nat) : String :=
  (CacheId.mk (env.sha256 task) generation).reference

/-- A row completions may point at: published, not superseded, in `unheard`, `leased` or `heard`. -/
def SummaryRow.Carries (r : SummaryRow) : Prop :=
  r.supersededBy = none ∧ (r.state = .unheard ∨ r.state = .leased ∨ r.state = .heard)

/-- What the columns of a row say about each other. -/
structure SummaryRow.Shape (env : Env P) (r : SummaryRow) : Prop where
  superseded : r.supersededBy.isSome = true → r.state = .leased ∨ r.state = .heard ∨ r.state = .superseded
  successor : r.state = .superseded → r.supersededBy.isSome = true
  cache : r.state.published = true → r.cacheObject = some (cacheReference env r.taskId r.generation)

structure LedgerOk (env : Env P) (db : Database) : Prop where
  bindings : BindingSchema db.bindings
  cursors : CursorSchema db.rolloutCursors
  completions : CompletionSchema db.completionLedger
  attempts : TtsAttemptSchema db.summaryLedger db.summaryTtsAttempts
  leases : LeaseSchema db.summaryLedger db.summaryPlaybackLeases
  schema : SummarySchema db.summaryLedger
  shape : ∀ r ∈ db.summaryLedger, r.Shape env
  /-- An active claim is the newest generation of its task. -/
  newest : ∀ a ∈ db.summaryLedger, a.active = true →
    ∀ r ∈ db.summaryLedger, r.taskId = a.taskId → r.generation ≤ a.generation
  successor : ∀ r ∈ db.summaryLedger, ∀ s, r.supersededBy = some s →
    ∃ r' ∈ db.summaryLedger, r'.key = (r.taskId, s) ∧ r'.state.published = true
  leased : ∀ r ∈ db.summaryLedger,
    r.state = .leased ↔ ∃ l ∈ db.summaryPlaybackLeases, l.key = r.key
  covered : ∀ c ∈ db.completionLedger, ∀ g, c.summarizedGeneration = some g →
    ∃ r ∈ db.summaryLedger, r.key = (c.taskId, g) ∧ r.Carries
  coverage : ∀ r ∈ db.summaryLedger, r.currentUnread = true →
    0 < db.completionLedger.countP (CompletionRow.coveredBy r.taskId r.generation) ∧
    db.completionLedger.countP (CompletionRow.coveredBy r.taskId r.generation) ≤ u32Max
  observed : ∀ c ∈ db.completionLedger,
    env.uuidOk c.completionId = true ∧ turnPackOk c.turnPack = true
  inRange : ∀ r ∈ db.summaryLedger, r.generation ≤ i64Max

variable {env : Env P} {db db' : Database} {op : Op P}

theorem ledgerOk_empty (env : Env P) : LedgerOk env Database.empty := by
  constructor <;> simp [Database.empty, BindingSchema, CursorSchema, CompletionSchema,
    TtsAttemptSchema, LeaseSchema, SummarySchema, Table.unique_nil]

/-! ### Parents of foreign keys -/

theorem LeaseSchema.mono {parent parent' : List SummaryRow} {t : List LeaseRow}
    (h : LeaseSchema parent t) (hkeys : parent.map SummaryRow.key ⊆ parent'.map SummaryRow.key) :
    LeaseSchema parent' t := by
  refine ⟨fun l hl => ?_, h.2⟩
  obtain ⟨h₁, h₂, h₃, h₄, h₅, hparent⟩ := h.1 l hl
  exact ⟨h₁, h₂, h₃, h₄, h₅, hkeys hparent⟩

theorem LeaseSchema.delete {parent : List SummaryRow} {t : List LeaseRow} (h : LeaseSchema parent t)
    (p : LeaseRow → Bool) : LeaseSchema parent (Table.delete p t) :=
  ⟨fun l hl => h.1 l (Table.mem_delete.1 hl).1, h.2.1.delete, h.2.2.delete⟩

theorem leaseSchema_nil (parent : List SummaryRow) : LeaseSchema parent [] := by
  simp [LeaseSchema, Table.unique_nil]

theorem TtsAttemptSchema.mono {parent parent' : List SummaryRow} {t : List TtsAttemptRow}
    (h : TtsAttemptSchema parent t) (hkeys : parent.map SummaryRow.key ⊆ parent'.map SummaryRow.key) :
    TtsAttemptSchema parent' t :=
  ⟨fun a ha => ⟨(h.1 a ha).1, hkeys (h.1 a ha).2⟩, h.2⟩

theorem TtsAttemptSchema.delete {parent : List SummaryRow} {t : List TtsAttemptRow}
    (h : TtsAttemptSchema parent t) (p : TtsAttemptRow → Bool) :
    TtsAttemptSchema parent (Table.delete p t) :=
  ⟨fun a ha => h.1 a (Table.mem_delete.1 ha).1, h.2.delete⟩

theorem LedgerOk.eq_of_key (h : LedgerOk env db) {a b : SummaryRow} (ha : a ∈ db.summaryLedger)
    (hb : b ∈ db.summaryLedger) (hk : a.key = b.key) : a = b :=
  h.schema.2.1.eq_of_mem ha hb rfl rfl hk

/-! ### Effects that relabel rows

    Six effects rewrite states of `summary_ledger` rows and leave keys and completions alone. They
    share the argument below; each only has to say what it does to one row. -/

/-- What rewriting the rows with `f`, and the leases to `leases`, has to respect. -/
structure Relabel (env : Env P) (db : Database) (f : SummaryRow → SummaryRow)
    (leases : List LeaseRow) : Prop where
  key : ∀ r ∈ db.summaryLedger, (f r).key = r.key
  supersededBy : ∀ r ∈ db.summaryLedger, (f r).supersededBy = r.supersededBy
  shape : ∀ r ∈ db.summaryLedger, (f r).Shape env
  active : ∀ r ∈ db.summaryLedger, (f r).active = true → r.active = true
  published : ∀ r ∈ db.summaryLedger, r.state.published = true → (f r).state.published = true
  carries : ∀ r ∈ db.summaryLedger, r.Carries → (f r).Carries
  unread : ∀ r ∈ db.summaryLedger, (f r).currentUnread = true → r.currentUnread = true
  leased : ∀ r ∈ db.summaryLedger, (f r).state = .leased ↔ ∃ l ∈ leases, l.key = r.key

theorem taskId_of_key {a b : SummaryRow} (h : a.key = b.key) : a.taskId = b.taskId :=
  congrArg Prod.fst h

theorem generation_of_key {a b : SummaryRow} (h : a.key = b.key) : a.generation = b.generation :=
  congrArg Prod.snd h

theorem LedgerOk.relabel (h : LedgerOk env db) {f : SummaryRow → SummaryRow} {leases : List LeaseRow}
    (hf : Relabel env db f leases) (attempts : List TtsAttemptRow)
    (hschema : SummarySchema (db.summaryLedger.map f))
    (hattempts : TtsAttemptSchema db.summaryLedger attempts)
    (hleases : LeaseSchema db.summaryLedger leases) :
    LedgerOk env { db with
      summaryLedger := db.summaryLedger.map f
      summaryTtsAttempts := attempts
      summaryPlaybackLeases := leases } := by
  have hkeys : db.summaryLedger.map SummaryRow.key ⊆ (db.summaryLedger.map f).map SummaryRow.key := by
    intro k hk
    obtain ⟨r, hr, rfl⟩ := List.mem_map.1 hk
    exact List.mem_map.2 ⟨f r, List.mem_map_of_mem hr, hf.key r hr⟩
  refine ⟨h.bindings, h.cursors, h.completions, hattempts.mono hkeys, hleases.mono hkeys, hschema,
    ?_, ?_, ?_, ?_, ?_, ?_, h.observed, ?_⟩
  · intro r' hr'
    obtain ⟨r, hr, rfl⟩ := List.mem_map.1 hr'
    exact hf.shape r hr
  · intro a' ha' hactive r' hr' htask
    obtain ⟨a, ha, rfl⟩ := List.mem_map.1 ha'
    obtain ⟨r, hr, rfl⟩ := List.mem_map.1 hr'
    rw [taskId_of_key (hf.key r hr), taskId_of_key (hf.key a ha)] at htask
    rw [generation_of_key (hf.key r hr), generation_of_key (hf.key a ha)]
    exact h.newest a ha (hf.active a ha hactive) r hr htask
  · intro r' hr' s hs
    obtain ⟨r, hr, rfl⟩ := List.mem_map.1 hr'
    rw [hf.supersededBy r hr] at hs
    obtain ⟨n, hn, hkey, hpub⟩ := h.successor r hr s hs
    refine ⟨f n, List.mem_map_of_mem hn, ?_, hf.published n hn hpub⟩
    rw [hf.key n hn, hkey, taskId_of_key (hf.key r hr)]
  · intro r' hr'
    obtain ⟨r, hr, rfl⟩ := List.mem_map.1 hr'
    rw [hf.key r hr]
    exact hf.leased r hr
  · intro c hc g hg
    obtain ⟨r, hr, hkey, hcarries⟩ := h.covered c hc g hg
    exact ⟨f r, List.mem_map_of_mem hr, (hf.key r hr).trans hkey, hf.carries r hr hcarries⟩
  · intro r' hr' hunread
    obtain ⟨r, hr, rfl⟩ := List.mem_map.1 hr'
    rw [taskId_of_key (hf.key r hr), generation_of_key (hf.key r hr)]
    exact h.coverage r hr (hf.unread r hr hunread)
  · intro r' hr'
    obtain ⟨r, hr, rfl⟩ := List.mem_map.1 hr'
    rw [generation_of_key (hf.key r hr)]
    exact h.inRange r hr

/-- A relabelling only has to be checked on the rows it touches. -/
theorem LedgerOk.relabel_touched (h : LedgerOk env db) (target : SummaryRow → Bool)
    (g : SummaryRow → SummaryRow) {leases : List LeaseRow}
    (hkey : ∀ r, (g r).key = r.key) (hsup : ∀ r, (g r).supersededBy = r.supersededBy)
    (hshape : ∀ r ∈ db.summaryLedger, target r = true → r.Shape env → (g r).Shape env)
    (hactive : ∀ r, target r = true → (g r).active = true → r.active = true)
    (hpub : ∀ r, target r = true → r.state.published = true → (g r).state.published = true)
    (hcarries : ∀ r, target r = true → r.Carries → (g r).Carries)
    (hunread : ∀ r, target r = true → (g r).currentUnread = true → r.currentUnread = true)
    (hleased : ∀ r ∈ db.summaryLedger, (if target r then g r else r).state = .leased ↔
      ∃ l ∈ leases, l.key = r.key) :
    Relabel env db (fun r => if target r then g r else r) leases := by
  constructor
  · intro r _; split <;> simp [hkey]
  · intro r _; split <;> simp [hsup]
  · intro r hr; split
    next ht => exact hshape r hr ht (h.shape r hr)
    next => exact h.shape r hr
  · intro r _; split
    next ht => exact hactive r ht
    next => exact id
  · intro r _; split
    next ht => exact hpub r ht
    next => exact id
  · intro r _; split
    next ht => exact hcarries r ht
    next => exact id
  · intro r _; split
    next ht => exact hunread r ht
    next => exact id
  · exact hleased

/-- Rows that are leased neither before nor after keep the leases as they are. -/
theorem LedgerOk.leased_untouched (h : LedgerOk env db) {target : SummaryRow → Bool}
    {g : SummaryRow → SummaryRow} (hbefore : ∀ r, target r = true → r.state ≠ .leased)
    (hafter : ∀ r, target r = true → (g r).state ≠ .leased) :
    ∀ r ∈ db.summaryLedger, (if target r then g r else r).state = .leased ↔
      ∃ l ∈ db.summaryPlaybackLeases, l.key = r.key := by
  intro r hr
  rw [← h.leased r hr]
  split
  next ht => simp [hbefore r ht, hafter r ht]
  next => rfl

/-- An active row, whatever is done to its state, was never superseded. -/
theorem SummaryRow.Shape.not_superseded {r : SummaryRow} (h : r.Shape env) (ha : r.active = true) :
    r.supersededBy = none := by
  cases hs : r.supersededBy with
  | none => rfl
  | some s =>
    rcases h.superseded (by simp [hs]) with hl | hl | hl <;>
      simp [SummaryRow.active, hl, SummaryState.active] at ha

/-- Any state an active row can be given without publishing it keeps the shape. -/
theorem SummaryRow.Shape.setUnpublished {r r' : SummaryRow} (h : r.Shape env) (ha : r.active = true)
    (hsup : r'.supersededBy = r.supersededBy) (hstate : r'.state.published = false) :
    r'.Shape env := by
  have hnone := h.not_superseded ha
  refine ⟨?_, ?_, ?_⟩
  · rw [hsup, hnone]
    simp
  · intro hs
    simp [hs, SummaryState.published] at hstate
  · simp [hstate]

/-! ### One lemma for each effect -/

theorem LedgerOk.resumed (h : LedgerOk env db) {target : SummaryRow → Bool}
    (hint : ∀ r, target r = true → r.state = .interrupted)
    (hschema : SummarySchema (Table.update target SummaryRow.regenerate db.summaryLedger)) :
    LedgerOk env (regenerated target db) := by
  have hact : ∀ r, target r = true → r.active = true := fun r hr => by
    simp [SummaryRow.active, hint r hr, SummaryState.active]
  refine h.relabel (h.relabel_touched target SummaryRow.regenerate (fun _ => rfl) (fun _ => rfl) ?_
    (fun r hr _ => hact r hr) ?_ ?_ ?_ (h.leased_untouched ?_ ?_)) db.summaryTtsAttempts hschema h.attempts h.leases
  · intro r _ hr hs
    exact hs.setUnpublished (hact r hr) rfl rfl
  · intro r hr hp
    simp [hint r hr, SummaryState.published] at hp
  · intro r hr hc
    simp [SummaryRow.Carries, hint r hr] at hc
  · intro r _ hu
    simp [SummaryRow.currentUnread, SummaryRow.regenerate, SummaryState.unread] at hu
  · intro r hr
    simp [hint r hr]
  · intro r _
    simp [SummaryRow.regenerate]

theorem LedgerOk.abandoned (h : LedgerOk env db) {target : SummaryRow → Bool}
    {attempts : TtsAttemptRow → Bool} (hact : ∀ r, target r = true → r.active = true)
    (hschema : SummarySchema (Table.update target SummaryRow.abandon db.summaryLedger)) :
    LedgerOk env { db with
      summaryLedger := Table.update target SummaryRow.abandon db.summaryLedger
      summaryTtsAttempts := Table.delete attempts db.summaryTtsAttempts } := by
  refine h.relabel (h.relabel_touched target SummaryRow.abandon (fun _ => rfl) (fun _ => rfl) ?_
    (fun r hr _ => hact r hr) ?_ ?_ ?_ (h.leased_untouched ?_ ?_)) _ hschema (h.attempts.delete attempts) h.leases
  · intro r _ hr hs
    exact hs.setUnpublished (hact r hr) rfl rfl
  · intro r hr hp
    have := hact r hr
    cases hstate : r.state <;>
      simp [SummaryRow.active, hstate, SummaryState.active, SummaryState.published] at this hp
  · intro r hr hc
    have := hact r hr
    rcases hc.2 with hs | hs | hs <;> simp [SummaryRow.active, hs, SummaryState.active] at this
  · intro r _ hu
    simp [SummaryRow.currentUnread, SummaryRow.abandon, SummaryState.unread] at hu
  · intro r hr hs
    have := hact r hr
    simp [SummaryRow.active, hs, SummaryState.active] at this
  · intro r _
    simp [SummaryRow.abandon]

theorem LedgerOk.interrupted (h : LedgerOk env db)
    (hschema : SummarySchema (interruptedLedger db.summaryLedger)) :
    LedgerOk env { db with summaryLedger := interruptedLedger db.summaryLedger } := by
  have hgen : ∀ r : SummaryRow, (r.state == .generating) = true → r.state = .generating := by
    simp
  refine h.relabel (h.relabel_touched (fun r => r.state == .generating)
    (fun r => { r with state := .interrupted }) (fun _ => rfl) (fun _ => rfl) ?_ ?_ ?_ ?_
    ?_ (h.leased_untouched ?_ ?_)) db.summaryTtsAttempts hschema h.attempts h.leases
  · intro r _ hr hs
    exact hs.setUnpublished (by simp [SummaryRow.active, hgen r hr, SummaryState.active]) rfl rfl
  · intro r hr _
    simp [SummaryRow.active, hgen r hr, SummaryState.active]
  · intro r hr hp
    simp [hgen r hr, SummaryState.published] at hp
  · intro r hr hc
    simp [SummaryRow.Carries, hgen r hr] at hc
  · intro r _ hu
    simp [SummaryRow.currentUnread, SummaryState.unread] at hu
  · intro r hr
    simp [hgen r hr]
  · intro r _
    simp

/-- Releasing leased rows, in the state their successor leaves them. -/
theorem LedgerOk.released_rows (h : LedgerOk env db) {target : SummaryRow → Bool}
    {leases : List LeaseRow} (htarget : ∀ r, target r = true → r.state = .leased)
    (hleased : ∀ r ∈ db.summaryLedger, (r.state = .leased ∧ target r = false) ↔
      ∃ l ∈ leases, l.key = r.key) :
    Relabel env db (fun r => if target r then r.release else r) leases := by
  refine h.relabel_touched target SummaryRow.release (fun _ => rfl) (fun _ => rfl) ?_ ?_ ?_ ?_ ?_ ?_
  · intro r _ hr hs
    refine ⟨?_, ?_, ?_⟩
    · intro hsome
      simp [SummaryRow.release] at hsome ⊢
      cases hsup : r.supersededBy <;> simp [hsup] at hsome ⊢
    · intro hstate
      simp only [SummaryRow.release] at hstate ⊢
      cases hsup : r.supersededBy <;> simp [hsup] at hstate ⊢
    · intro _
      exact hs.cache (by simp [htarget r hr, SummaryState.published])
  · intro r _ ha
    simp only [SummaryRow.active, SummaryRow.release] at ha
    split at ha <;> simp [SummaryState.active] at ha
  · intro r _ _
    simp only [SummaryRow.release]
    split <;> rfl
  · intro r _ hc
    simp [SummaryRow.Carries, SummaryRow.release, hc.1]
  · intro r hr hu
    simp only [SummaryRow.currentUnread, SummaryRow.release, Bool.and_eq_true] at hu
    simp [SummaryRow.currentUnread, htarget r hr, SummaryState.unread, hu.2]
  · intro r hr
    rw [← hleased r hr]
    split
    next ht =>
      simp only [SummaryRow.release, ht, Bool.true_eq_false, and_false, iff_false]
      split <;> simp
    next ht => simp [ht]

theorem LedgerOk.leasesDropped (h : LedgerOk env db)
    (hschema : SummarySchema (releasedLedger db.summaryLedger)) :
    LedgerOk env { db with
      summaryLedger := releasedLedger db.summaryLedger
      summaryPlaybackLeases := [] } := by
  refine h.relabel (h.released_rows (by simp) ?_) db.summaryTtsAttempts hschema h.attempts
    (leaseSchema_nil _)
  intro r _
  simp

theorem LeaseRow.exact_iff {lease : SummaryPlaybackLease} {l : LeaseRow} :
    l.exact lease = true ↔ l = ⟨lease.lease, lease.taskId, lease.summaryGeneration, lease.slot,
      lease.requestGeneration, lease.connectionGeneration⟩ := by
  cases l
  simp [LeaseRow.exact, and_assoc]

theorem SummaryRow.at_iff {task : String} {generation : Nat} {r : SummaryRow} :
    r.at task generation = true ↔ r.key = (task, generation) := by
  simp [SummaryRow.at, SummaryRow.key]

theorem LedgerOk.eq_of_leaseKey (h : LedgerOk env db) {a b : LeaseRow}
    (ha : a ∈ db.summaryPlaybackLeases) (hb : b ∈ db.summaryPlaybackLeases) (hk : a.key = b.key) :
    a = b :=
  h.leases.2.2.eq_of_mem ha hb rfl rfl hk

theorem LedgerOk.eq_of_leaseId (h : LedgerOk env db) {a b : LeaseRow}
    (ha : a ∈ db.summaryPlaybackLeases) (hb : b ∈ db.summaryPlaybackLeases)
    (hk : a.leaseId = b.leaseId) : a = b :=
  h.leases.2.1.eq_of_mem ha hb rfl rfl hk

theorem LedgerOk.released (h : LedgerOk env db) {lease : SummaryPlaybackLease}
    (hr : Release db lease db') : LedgerOk env db' := by
  obtain ⟨⟨held, hheld, hexact⟩, hschema, rfl⟩ := hr
  have hkey : held.key = (lease.taskId, lease.summaryGeneration) := by
    rw [LeaseRow.exact_iff.1 hexact]
    rfl
  refine h.relabel (h.released_rows (fun r hr => ?_) ?_) db.summaryTtsAttempts hschema h.attempts
    (h.leases.delete _)
  · simp only [Bool.and_eq_true, beq_iff_eq] at hr
    exact hr.2
  · intro r hr
    simp only [Bool.and_eq_false_iff, Table.mem_delete]
    constructor
    · rintro ⟨hleased, htarget⟩
      obtain ⟨l, hl, hlkey⟩ := (h.leased r hr).1 hleased
      refine ⟨l, ⟨hl, ?_⟩, hlkey⟩
      rw [Bool.eq_false_iff]
      intro hex
      have hrkey : r.key = (lease.taskId, lease.summaryGeneration) := by
        rw [← hlkey, LeaseRow.exact_iff.1 hex]
        rfl
      rcases htarget with hat | hstate
      · simp [SummaryRow.at_iff.2 hrkey] at hat
      · simp [hleased] at hstate
    · rintro ⟨l, ⟨hl, hex⟩, hlkey⟩
      refine ⟨(h.leased r hr).2 ⟨l, hl, hlkey⟩, Or.inl ?_⟩
      rw [Bool.eq_false_iff]
      intro hat
      rw [SummaryRow.at_iff, ← hlkey, ← hkey] at hat
      rw [h.eq_of_leaseKey hl hheld hat, hexact] at hex
      cases hex

theorem SummaryRow.leasable_iff {task : String} {generation : Nat} {r : SummaryRow} :
    r.leasable task generation = true ↔
      r.key = (task, generation) ∧ r.state = .unheard ∧ r.supersededBy = none := by
  simp [SummaryRow.leasable, SummaryRow.at, SummaryRow.key, and_assoc]

theorem LedgerOk.acquired (h : LedgerOk env db) {lease : LeaseRow}
    (ha : Acquisition db lease db') : LedgerOk env db' := by
  obtain ⟨⟨row, hrow, hleasable⟩, _, hschema, hleases, rfl⟩ := ha
  have hlist : LeaseSchema db.summaryLedger (db.summaryPlaybackLeases ++ [lease]) := by
    refine hleases.mono ?_
    simp only [Table.update, List.map_map]
    intro k hk
    obtain ⟨r, hr, rfl⟩ := List.mem_map.1 hk
    refine List.mem_map.2 ⟨r, hr, ?_⟩
    simp only [Function.comp]
    split <;> rfl
  refine h.relabel (h.relabel_touched (SummaryRow.leasable lease.taskId lease.summaryGeneration)
    SummaryRow.lease (fun _ => rfl) (fun _ => rfl) ?_ ?_ ?_ ?_ ?_ ?_) db.summaryTtsAttempts hschema
    h.attempts hlist
  · intro r _ hr hs
    obtain ⟨_, hstate, _⟩ := SummaryRow.leasable_iff.1 hr
    exact ⟨fun _ => Or.inl rfl, by simp [SummaryRow.lease],
      fun _ => hs.cache (by simp [hstate, SummaryState.published])⟩
  · intro r _ hact
    simp [SummaryRow.active, SummaryRow.lease, SummaryState.active] at hact
  · intro r _ _
    rfl
  · intro r hr _
    exact ⟨(SummaryRow.leasable_iff.1 hr).2.2, Or.inr (Or.inl rfl)⟩
  · intro r hr _
    obtain ⟨_, hstate, hsup⟩ := SummaryRow.leasable_iff.1 hr
    simp [SummaryRow.currentUnread, hstate, hsup, SummaryState.unread]
  · intro r hr
    simp only [List.mem_append, List.mem_singleton]
    split
    next hl =>
      refine ⟨fun _ => ⟨lease, Or.inr rfl, ?_⟩, fun _ => rfl⟩
      exact (SummaryRow.leasable_iff.1 hl).1.symm
    next hl =>
      rw [h.leased r hr]
      constructor
      · rintro ⟨l, hmem, hkey⟩
        exact ⟨l, Or.inl hmem, hkey⟩
      · rintro ⟨l, hmem | rfl, hkey⟩
        · exact ⟨l, hmem, hkey⟩
        · have hsame : r = row :=
            h.eq_of_key hr hrow (hkey.symm.trans (SummaryRow.leasable_iff.1 hleasable).1.symm)
          exact absurd (hsame ▸ hleasable) hl

theorem SummaryRow.playedBy_iff {lease : SummaryPlaybackLease} {r : SummaryRow} :
    r.playedBy lease = true ↔ r.key = (lease.taskId, lease.summaryGeneration) ∧
      r.state = .leased ∧ r.cacheObject = some lease.cacheObject := by
  simp [SummaryRow.playedBy, SummaryRow.at, SummaryRow.key, and_assoc]

theorem LedgerOk.finished (h : LedgerOk env db) {lease : SummaryPlaybackLease}
    (hf : Finish db lease db') : LedgerOk env db' := by
  obtain ⟨⟨held, hheld, hexact⟩, ⟨row, hrow, hplayed⟩, hschema, rfl⟩ := hf
  have heq := LeaseRow.exact_iff.1 hexact
  have hkey : held.key = (lease.taskId, lease.summaryGeneration) := by rw [heq]; rfl
  have hid : held.leaseId = lease.lease := by rw [heq]
  refine h.relabel (h.relabel_touched (SummaryRow.playedBy lease) SummaryRow.hear (fun _ => rfl)
    (fun _ => rfl) ?_ ?_ ?_ ?_ ?_ ?_) db.summaryTtsAttempts hschema h.attempts (h.leases.delete _)
  · intro r _ hr hs
    exact ⟨fun _ => Or.inr (Or.inl rfl), by simp [SummaryRow.hear], fun _ => hs.cache (by
      simp [(SummaryRow.playedBy_iff.1 hr).2.1, SummaryState.published])⟩
  · intro r _ hact
    simp [SummaryRow.active, SummaryRow.hear, SummaryState.active] at hact
  · intro r _ _
    rfl
  · intro r _ hc
    exact ⟨hc.1, Or.inr (Or.inr rfl)⟩
  · intro r _ hu
    simp [SummaryRow.currentUnread, SummaryRow.hear, SummaryState.unread] at hu
  · intro r hr
    simp only [Table.mem_delete, beq_eq_false_iff_ne]
    split
    next hp =>
      -- the one lease on this row is the one that is deleted
      simp only [SummaryRow.hear, reduceCtorEq, false_iff]
      rintro ⟨l, ⟨hl, hne⟩, hlkey⟩
      refine hne ?_
      rw [h.eq_of_leaseKey hl hheld (hlkey.trans ((SummaryRow.playedBy_iff.1 hp).1.trans hkey.symm)), hid]
    next hp =>
      rw [h.leased r hr]
      constructor
      · rintro ⟨l, hl, hlkey⟩
        refine ⟨l, ⟨hl, fun hlid => hp ?_⟩, hlkey⟩
        rw [h.eq_of_leaseId hl hheld (hlid.trans hid.symm), hkey] at hlkey
        rw [h.eq_of_key hr hrow (hlkey.symm.trans (SummaryRow.playedBy_iff.1 hplayed).1.symm)]
        exact hplayed
      · rintro ⟨l, ⟨hl, _⟩, hlkey⟩
        exact ⟨l, hl, hlkey⟩

theorem LedgerOk.recorded (h : LedgerOk env db) {cursors : List CursorRow} {row : CompletionRow}
    (hcursor : CursorSchema cursors) (hpending : row.summarizedGeneration = none)
    (hid : env.uuidOk row.completionId = true) (hpack : turnPackOk row.turnPack = true)
    (hschema : CompletionSchema (db.completionLedger ++ [row])) :
    LedgerOk env { db with
      completionLedger := db.completionLedger ++ [row]
      rolloutCursors := cursors } := by
  refine { h with
    cursors := hcursor
    completions := hschema
    covered := ?_
    coverage := ?_
    observed := ?_ }
  · intro c hc g hg
    rcases List.mem_append.1 hc with hc | hc
    · exact h.covered c hc g hg
    · rw [List.mem_singleton] at hc
      rw [hc, hpending] at hg
      cases hg
  · intro r hr hu
    have hrow : CompletionRow.coveredBy r.taskId r.generation row = false := by
      simp [CompletionRow.coveredBy, hpending]
    rw [List.countP_append, List.countP_singleton, hrow]
    exact h.coverage r hr hu
  · intro c hc
    rcases List.mem_append.1 hc with hc | hc
    · exact h.observed c hc
    · rw [List.mem_singleton] at hc
      subst hc
      exact ⟨hid, hpack⟩

theorem LedgerOk.claimed (h : LedgerOk env db) {task request : String} {claim : SummaryClaim}
    (hnew : NewClaim env db task request claim)
    (hschema : SummarySchema (db.summaryLedger ++ [claim.row])) :
    LedgerOk env { db with summaryLedger := db.summaryLedger ++ [claim.row] } := by
  have hkeys : db.summaryLedger.map SummaryRow.key ⊆
      (db.summaryLedger ++ [claim.row]).map SummaryRow.key := by
    rw [List.map_append]
    exact List.subset_append_left _ _
  have hfresh := (Table.unique_insert.1 hschema.2.1).2 rfl
  have htask : claim.row.taskId = task := hnew.taskId
  have hgen : claim.row.generation = maxGeneration db.summaryLedger task + 1 := hnew.generation
  refine { h with
    attempts := h.attempts.mono hkeys
    leases := h.leases.mono hkeys
    schema := hschema
    shape := ?_
    newest := ?_
    successor := ?_
    leased := ?_
    covered := ?_
    coverage := ?_
    inRange := ?_ }
  · intro r hr
    rcases List.mem_append.1 hr with hr | hr
    · exact h.shape r hr
    · rw [List.mem_singleton] at hr
      subst hr
      refine ⟨?_, ?_, ?_⟩ <;> simp [SummaryClaim.row, claimRow, SummaryState.published]
  · intro a ha hact r hr hsame
    rcases List.mem_append.1 ha with ha | ha
    · rcases List.mem_append.1 hr with hr | hr
      · exact h.newest a ha hact r hr hsame
      · rw [List.mem_singleton] at hr
        subst hr
        rw [hnew.noActive a ha (hsame.symm.trans htask)] at hact
        cases hact
    · rw [List.mem_singleton] at ha
      subst ha
      rcases List.mem_append.1 hr with hr | hr
      · have := maxGeneration_le hr (hsame.trans htask)
        omega
      · rw [List.mem_singleton] at hr
        subst hr
        rfl
  · intro r hr s hs
    rcases List.mem_append.1 hr with hr | hr
    · obtain ⟨n, hn, hkey, hpub⟩ := h.successor r hr s hs
      exact ⟨n, List.mem_append_left _ hn, hkey, hpub⟩
    · rw [List.mem_singleton] at hr
      subst hr
      cases hs
  · intro r hr
    rcases List.mem_append.1 hr with hr | hr
    · exact h.leased r hr
    · rw [List.mem_singleton] at hr
      subst hr
      refine ⟨fun hs => by simp [SummaryClaim.row, claimRow] at hs, ?_⟩
      rintro ⟨l, hl, hkey⟩
      obtain ⟨-, -, -, -, -, hparent⟩ := h.leases.1 l hl
      obtain ⟨p, hp, hpkey⟩ := List.mem_map.1 hparent
      exact absurd (hpkey.trans hkey) (hfresh p hp rfl)
  · intro c hc g hg
    obtain ⟨r, hr, hkey, hcarries⟩ := h.covered c hc g hg
    exact ⟨r, List.mem_append_left _ hr, hkey, hcarries⟩
  · intro r hr hu
    rcases List.mem_append.1 hr with hr | hr
    · exact h.coverage r hr hu
    · rw [List.mem_singleton] at hr
      subst hr
      simp [SummaryRow.currentUnread, SummaryClaim.row, claimRow, SummaryState.unread] at hu
  · intro r hr
    rcases List.mem_append.1 hr with hr | hr
    · exact h.inRange r hr
    · rw [List.mem_singleton] at hr
      subst hr
      exact hnew.inRange

/-! ### Publication -/

/-- What a publication does to one row: publish the claim's, supersede the previous unread one. -/
def SummaryClaim.republish (claim : SummaryClaim) (cacheObject : String) (r : SummaryRow) :
    SummaryRow :=
  if r.publishable claim then r.publish cacheObject
  else if claim.supersedes r then r.supersede claim.generation else r

theorem SummaryRow.publishable_iff {claim : SummaryClaim} {r : SummaryRow} :
    r.publishable claim = true ↔ r.key = (claim.taskId, claim.generation) ∧ r.state = .generating ∧
      r.claimId = some claim.requestId := by
  simp [SummaryRow.publishable, SummaryRow.at, SummaryRow.key, and_assoc]

theorem SummaryClaim.supersedes_iff {claim : SummaryClaim} {r : SummaryRow} :
    claim.supersedes r = true ↔ ∃ previous, claim.previousUnread = some previous ∧
      r.key = (claim.taskId, previous.generation) ∧ r.currentUnread = true := by
  simp [SummaryClaim.supersedes, Option.any_eq_true, SummaryRow.at, SummaryRow.key]

theorem SummaryRow.currentUnread_iff {r : SummaryRow} :
    r.currentUnread = true ↔ (r.state = .unheard ∨ r.state = .leased) ∧ r.supersededBy = none := by
  unfold SummaryRow.currentUnread
  cases r.state <;> simp [SummaryState.unread]

/-- The two passes over the ledger are one. -/
theorem publishing_eq_map {claim : SummaryClaim} {cacheObject : String} {t : List SummaryRow} :
    Table.update (SummaryRow.publishable claim) (SummaryRow.publish cacheObject)
      (claim.superseding t) = t.map (claim.republish cacheObject) := by
  rw [SummaryClaim.superseding, Table.update, Table.update, List.map_map]
  refine List.map_congr_left fun r _ => ?_
  simp only [Function.comp, SummaryClaim.republish]
  cases hs : claim.supersedes r with
  | false => simp
  | true =>
    -- an unread row is not generating, and superseding it does not make it so
    obtain ⟨_, _, _, hunread⟩ := SummaryClaim.supersedes_iff.1 hs
    have hbefore : r.publishable claim = false := by
      rw [Bool.eq_false_iff]
      intro hp
      rcases (SummaryRow.currentUnread_iff.1 hunread).1 with hst | hst <;>
        simp [SummaryRow.publishable_iff, hst] at hp
    have hafter : (r.supersede claim.generation).publishable claim = false := by
      rw [Bool.eq_false_iff]
      intro hp
      have hstate := (SummaryRow.publishable_iff.1 hp).2.1
      rcases (SummaryRow.currentUnread_iff.1 hunread).1 with hst | hst <;>
        simp [SummaryRow.supersede, hst] at hstate
    simp [hbefore, hafter]

theorem republish_cases (claim : SummaryClaim) (cacheObject : String) (r : SummaryRow) :
    (r.publishable claim = true ∧ claim.republish cacheObject r = r.publish cacheObject) ∨
    (claim.supersedes r = true ∧ claim.republish cacheObject r = r.supersede claim.generation) ∨
    (r.publishable claim = false ∧ claim.supersedes r = false ∧ claim.republish cacheObject r = r) := by
  unfold SummaryClaim.republish
  cases hp : r.publishable claim <;> cases hs : claim.supersedes r <;> simp

theorem key_republish (claim : SummaryClaim) (cacheObject : String) (r : SummaryRow) :
    (claim.republish cacheObject r).key = r.key := by
  rcases republish_cases claim cacheObject r with ⟨_, h⟩ | ⟨_, h⟩ | ⟨_, _, h⟩ <;> rw [h] <;> rfl

section Publication

variable {claim : SummaryClaim} {cacheObject : String}

theorem shape_publish {r : SummaryRow} (hs : r.Shape env) (hr : r.publishable claim = true)
    (hcache : cacheObject = cacheReference env claim.taskId claim.generation) :
    (r.publish cacheObject).Shape env := by
  obtain ⟨hkey, hstate, _⟩ := SummaryRow.publishable_iff.1 hr
  have hnone : r.supersededBy = none :=
    hs.not_superseded (by simp [SummaryRow.active, hstate, SummaryState.active])
  refine ⟨?_, ?_, fun _ => ?_⟩
  · simp [SummaryRow.publish, hnone]
  · simp [SummaryRow.publish]
  · simp only [SummaryRow.key, Prod.mk.injEq] at hkey
    simp [SummaryRow.publish, hcache, hkey.1, hkey.2]

theorem shape_supersede {r : SummaryRow} (hs : r.Shape env) (hr : claim.supersedes r = true) :
    (r.supersede claim.generation).Shape env := by
  obtain ⟨_, _, _, hunread⟩ := SummaryClaim.supersedes_iff.1 hr
  have hpub : r.state.published = true := by
    rcases (SummaryRow.currentUnread_iff.1 hunread).1 with h | h <;> simp [h, SummaryState.published]
  refine ⟨fun _ => ?_, fun _ => rfl, fun _ => hs.cache hpub⟩
  rcases (SummaryRow.currentUnread_iff.1 hunread).1 with h | h <;> simp [SummaryRow.supersede, h]

theorem active_republish {r : SummaryRow} (h : (claim.republish cacheObject r).active = true) :
    r.active = true := by
  rcases republish_cases claim cacheObject r with ⟨_, heq⟩ | ⟨hs, heq⟩ | ⟨_, _, heq⟩ <;> rw [heq] at h
  · simp [SummaryRow.active, SummaryRow.publish, SummaryState.active] at h
  · obtain ⟨_, _, _, hunread⟩ := SummaryClaim.supersedes_iff.1 hs
    rcases (SummaryRow.currentUnread_iff.1 hunread).1 with hst | hst <;>
      simp [SummaryRow.active, SummaryRow.supersede, hst, SummaryState.active] at h
  · exact h

theorem published_republish {r : SummaryRow} (h : r.state.published = true) :
    (claim.republish cacheObject r).state.published = true := by
  rcases republish_cases claim cacheObject r with ⟨_, heq⟩ | ⟨hs, heq⟩ | ⟨_, _, heq⟩ <;> rw [heq]
  · rfl
  · simp only [SummaryRow.supersede]
    split
    · rfl
    · exact h
  · exact h

theorem leased_republish {r : SummaryRow} :
    (claim.republish cacheObject r).state = .leased ↔ r.state = .leased := by
  rcases republish_cases claim cacheObject r with ⟨hp, heq⟩ | ⟨hs, heq⟩ | ⟨_, _, heq⟩ <;> rw [heq]
  · simp [SummaryRow.publish, (SummaryRow.publishable_iff.1 hp).2.1]
  · simp only [SummaryRow.supersede]
    split
    next hst => simp [hst]
    next => rfl

theorem takes_task {c : CompletionRow} (h : claim.takes c = true) : c.taskId = claim.taskId := by
  simp only [SummaryClaim.takes, Bool.or_eq_true] at h
  rcases h with h | h
  · simp only [CompletionRow.inherited, Option.any_eq_true] at h
    obtain ⟨_, _, hcov⟩ := h
    simp only [CompletionRow.coveredBy, Bool.and_eq_true, beq_iff_eq] at hcov
    exact hcov.1
  · exact (pending_of_listedIn h).1

variable (h : LedgerOk env db) (hp : Publication env db claim cacheObject db')

include h hp in
/-- The row the claim stands for, after the publication. -/
theorem Publication.published_row : ∃ s ∈ db.summaryLedger, s.publishable claim = true ∧
    claim.republish cacheObject s ∈ db'.summaryLedger ∧
    (claim.republish cacheObject s).key = (claim.taskId, claim.generation) ∧
    (claim.republish cacheObject s).Carries ∧
    (claim.republish cacheObject s).state.published = true := by
  obtain ⟨s, hs, hpub⟩ := hp.held
  obtain ⟨hkey, hstate, _⟩ := SummaryRow.publishable_iff.1 hpub
  have heq : claim.republish cacheObject s = s.publish cacheObject := by
    simp [SummaryClaim.republish, hpub]
  refine ⟨s, hs, hpub, ?_, (key_republish ..).trans hkey, ?_, by rw [heq]; rfl⟩
  · rw [hp.commits]
    simp only [publishing_eq_map]
    exact List.mem_map_of_mem hs
  · rw [heq]
    exact ⟨(h.shape s hs).not_superseded (by simp [SummaryRow.active, hstate, SummaryState.active]),
      Or.inl rfl⟩

include h hp in
/-- Before its publication nothing points at the claim's generation. -/
theorem Publication.uncovered {c : CompletionRow} (hc : c ∈ db.completionLedger) :
    c.coveredBy claim.taskId claim.generation = false := by
  rw [Bool.eq_false_iff]
  intro hcov
  simp only [CompletionRow.coveredBy, Bool.and_eq_true, beq_iff_eq] at hcov
  obtain ⟨r, hr, hkey, hcarries⟩ := h.covered c hc _ hcov.2
  obtain ⟨s, hs, hpub⟩ := hp.held
  obtain ⟨hskey, hstate, _⟩ := SummaryRow.publishable_iff.1 hpub
  rw [hcov.1] at hkey
  rw [h.eq_of_key hr hs (hkey.trans hskey.symm)] at hcarries
  simp [SummaryRow.Carries, hstate] at hcarries

include hp in
/-- The previous coverage and the claim's own completions add up. -/
theorem Publication.countP_takes : db.completionLedger.countP claim.takes =
    claim.previousCoverage + claim.completions.length := by
  have hsplit : claim.takes = fun c => c.inherited claim || c.listedIn claim.taskId claim.completions :=
    rfl
  rw [hsplit, Table.countP_or_eq]
  congr 1
  · cases hprev : claim.previousUnread with
    | none =>
      rw [List.countP_eq_zero.2 fun c _ => by simp [inherited_none hprev c]]
      simp [SummaryClaim.previousCoverage, hprev]
    | some previous =>
      have hquery := hp.previous
      rw [hprev] at hquery
      obtain ⟨row, _, _, _, _, hgen, _, _, hcov, _⟩ := queryCurrentUnread_some hquery
      rw [inherited_some hprev, SummaryClaim.previousCoverage, hprev, hgen]
      exact hcov.symm
  · rw [← hp.listed]
    refine List.countP_congr fun c _ => ?_
    cases hl : c.listedIn claim.taskId claim.completions with
    | false => simp
    | true =>
      obtain ⟨_, hnone, _⟩ := pending_of_listedIn hl
      have : c.inherited claim = false := by
        simp [CompletionRow.inherited, CompletionRow.coveredBy, hnone]
      simp [this]

include hp in
/-- Another task keeps the completions its rows cover. -/
theorem Publication.coverage_other {task : String} {generation : Nat} (hne : task ≠ claim.taskId) :
    db'.completionLedger.countP (CompletionRow.coveredBy task generation) =
      db.completionLedger.countP (CompletionRow.coveredBy task generation) := by
  rw [hp.commits]
  simp only [Table.countP_update]
  refine List.countP_congr fun c _ => ?_
  split
  next ht =>
    have htask := takes_task ht
    simp [CompletionRow.coveredBy, CompletionRow.cover, htask, Ne.symm hne]
  next => rfl

include h hp in
theorem Publication.coverage_own :
    db'.completionLedger.countP (CompletionRow.coveredBy claim.taskId claim.generation) =
      claim.previousCoverage + claim.completions.length := by
  rw [← Publication.countP_takes hp, hp.commits]
  simp only [Table.countP_update]
  refine List.countP_congr fun c hc => ?_
  split
  next ht => simp [CompletionRow.coveredBy, CompletionRow.cover, takes_task ht, ht]
  next ht => simp [Publication.uncovered h hp hc, ht]

/-- A claim made over the current unread generation supersedes every unread row of the task. -/
theorem LedgerOk.supersedes_current (h : LedgerOk env db)
    (hquery : queryCurrentUnread db claim.taskId = .ok claim.previousUnread) {r : SummaryRow}
    (hr : r ∈ db.summaryLedger) (htask : r.taskId = claim.taskId) (hunread : r.currentUnread = true) :
    claim.supersedes r = true := by
  cases hprev : claim.previousUnread with
  | none =>
    rw [hprev] at hquery
    rw [queryCurrentUnread_none hquery r hr htask] at hunread
    cases hunread
  | some previous =>
    rw [hprev] at hquery
    obtain ⟨row, hrow, hrtask, hrunread, _, hgen, _⟩ := queryCurrentUnread_some hquery
    have hsame : r = row :=
      h.schema.2.2.2.2.eq_of_mem hr hrow hunread hrunread (htask.trans hrtask.symm)
    refine SummaryClaim.supersedes_iff.2 ⟨previous, hprev, ?_, hunread⟩
    rw [SummaryRow.key, htask, hgen, hsame]

theorem LedgerOk.published (h : LedgerOk env db) (hp : Publication env db claim cacheObject db') :
    LedgerOk env db' := by
  obtain ⟨s, hs, hspub, hnew, hnewKey, hnewCarries, hnewPub⟩ := Publication.published_row h hp
  have hother := fun task generation => @Publication.coverage_other _ _ _ _ _ _ hp task generation
  have hown := Publication.coverage_own h hp
  have hledger : db'.summaryLedger = db.summaryLedger.map (claim.republish cacheObject) := by
    rw [hp.commits]
    exact publishing_eq_map
  have hmem : ∀ r' ∈ db'.summaryLedger, ∃ r ∈ db.summaryLedger, claim.republish cacheObject r = r' := by
    intro r' hr'
    rw [hledger] at hr'
    exact List.mem_map.1 hr'
  have hmem' : ∀ r ∈ db.summaryLedger, claim.republish cacheObject r ∈ db'.summaryLedger := by
    intro r hr
    rw [hledger]
    exact List.mem_map_of_mem hr
  have hkeys : db.summaryLedger.map SummaryRow.key ⊆ db'.summaryLedger.map SummaryRow.key := by
    intro k hk
    obtain ⟨r, hr, rfl⟩ := List.mem_map.1 hk
    exact List.mem_map.2 ⟨_, hmem' r hr, key_republish ..⟩
  have hcompletions : db'.completionLedger =
      Table.update claim.takes (CompletionRow.cover claim.generation) db.completionLedger := by
    rw [hp.commits]
  refine ⟨?_, ?_, ?_, ?_, ?_, hp.schema, ?_, ?_, ?_, ?_, ?_, ?_, ?_, ?_⟩
  · rw [hp.commits]
    exact h.bindings
  · rw [hp.commits]
    exact h.cursors
  · rw [hcompletions]
    refine h.completions.update fun a _ b _ _ _ hk => ⟨rfl, rfl, ?_⟩
    have hid : ∀ c : CompletionRow,
        (if claim.takes c then c.cover claim.generation else c).completionId = c.completionId := by
      intro c
      split <;> rfl
    rwa [hid, hid] at hk
  · have := (h.attempts.delete (TtsAttemptRow.at claim.taskId claim.generation)).mono hkeys
    rw [hp.commits] at this ⊢
    exact this
  · have := h.leases.mono hkeys
    rw [hp.commits] at this ⊢
    exact this
  · intro r' hr'
    obtain ⟨r, hr, rfl⟩ := hmem r' hr'
    rcases republish_cases claim cacheObject r with ⟨hpub, heq⟩ | ⟨hsup, heq⟩ | ⟨_, _, heq⟩ <;>
      rw [heq]
    · exact shape_publish (h.shape r hr) hpub hp.cache
    · exact shape_supersede (h.shape r hr) hsup
    · exact h.shape r hr
  · intro a' ha' hact r' hr' htask
    obtain ⟨a, ha, rfl⟩ := hmem a' ha'
    obtain ⟨r, hr, rfl⟩ := hmem r' hr'
    rw [taskId_of_key (key_republish ..), taskId_of_key (key_republish claim cacheObject a)] at htask
    rw [generation_of_key (key_republish ..), generation_of_key (key_republish claim cacheObject a)]
    exact h.newest a ha (active_republish hact) r hr htask
  · intro r' hr' g hg
    obtain ⟨r, hr, rfl⟩ := hmem r' hr'
    rw [taskId_of_key (key_republish claim cacheObject r)]
    have hold : r.supersededBy = some g →
        ∃ n' ∈ db'.summaryLedger, n'.key = (r.taskId, g) ∧ n'.state.published = true := by
      intro hg
      obtain ⟨n, hn, hkey, hpub⟩ := h.successor r hr g hg
      exact ⟨_, hmem' n hn, (key_republish ..).trans hkey, published_republish hpub⟩
    rcases republish_cases claim cacheObject r with ⟨hpub, heq⟩ | ⟨hsup, heq⟩ | ⟨_, _, heq⟩ <;>
      rw [heq] at hg
    · exact hold hg
    · -- the row superseded here names the generation published here
      obtain ⟨_, _, hkey, _⟩ := SummaryClaim.supersedes_iff.1 hsup
      simp only [SummaryRow.supersede, Option.some.injEq] at hg
      subst hg
      refine ⟨_, hnew, ?_, hnewPub⟩
      rw [hnewKey, show r.taskId = claim.taskId from congrArg Prod.fst hkey]
    · exact hold hg
  · intro r' hr'
    obtain ⟨r, hr, rfl⟩ := hmem r' hr'
    have hleases : db'.summaryPlaybackLeases = db.summaryPlaybackLeases := by rw [hp.commits]
    rw [leased_republish, key_republish, hleases]
    exact h.leased r hr
  · intro c' hc' g hg
    rw [hcompletions] at hc'
    rcases Table.mem_update_cases hc' with ⟨hc, htakes⟩ | ⟨c, hc, htakes, rfl⟩
    · obtain ⟨r, hr, hkey, hcarries⟩ := h.covered c' hc g hg
      refine ⟨_, hmem' r hr, (key_republish ..).trans hkey, ?_⟩
      rcases republish_cases claim cacheObject r with ⟨hpub, heq⟩ | ⟨hsup, heq⟩ | ⟨_, _, heq⟩
      · simp [SummaryRow.Carries, (SummaryRow.publishable_iff.1 hpub).2.1] at hcarries
      · -- a completion of the superseded row would have been taken along
        obtain ⟨previous, hprev, hskey, _⟩ := SummaryClaim.supersedes_iff.1 hsup
        rw [hskey, Prod.mk.injEq] at hkey
        have : claim.takes c' = true := by
          simp [SummaryClaim.takes, CompletionRow.inherited, hprev, CompletionRow.coveredBy,
            ← hkey.1, hg, hkey.2]
        simp [this] at htakes
      · rw [heq]
        exact hcarries
    · simp only [CompletionRow.cover, Option.some.injEq] at hg
      subst hg
      refine ⟨_, hnew, ?_, hnewCarries⟩
      rw [hnewKey, ← takes_task htakes]
      rfl
  · intro r' hr' hunread
    obtain ⟨r, hr, rfl⟩ := hmem r' hr'
    rw [taskId_of_key (key_republish claim cacheObject r),
      generation_of_key (key_republish claim cacheObject r)]
    by_cases htask : r.taskId = claim.taskId
    · rcases republish_cases claim cacheObject r with ⟨hpub, heq⟩ | ⟨hsup, heq⟩ | ⟨_, hsup, heq⟩
      · have hkey := (SummaryRow.publishable_iff.1 hpub).1
        rw [SummaryRow.key, Prod.mk.injEq] at hkey
        rw [hkey.1, hkey.2, hown]
        have hne : claim.completions ≠ [] := by
          have := hp.valid
          simp only [summaryClaimOk, Bool.and_eq_true, bne_iff_ne] at this
          exact this.1.1.1.2
        have := List.length_pos_of_ne_nil hne
        exact ⟨by omega, hp.coverage⟩
      · rw [heq, SummaryRow.currentUnread_iff] at hunread
        simp [SummaryRow.supersede] at hunread
      · rw [heq] at hunread
        rw [h.supersedes_current hp.previous hr htask hunread] at hsup
        cases hsup
    · rw [hother _ _ htask]
      refine h.coverage r hr ?_
      rcases republish_cases claim cacheObject r with ⟨hpub, heq⟩ | ⟨hsup, heq⟩ | ⟨_, _, heq⟩
      · exact absurd (congrArg Prod.fst (SummaryRow.publishable_iff.1 hpub).1) htask
      · obtain ⟨_, _, hkey, _⟩ := SummaryClaim.supersedes_iff.1 hsup
        exact absurd (congrArg Prod.fst hkey) htask
      · rwa [heq] at hunread
  · intro c' hc'
    rw [hcompletions] at hc'
    rcases Table.mem_update_cases hc' with ⟨hc, _⟩ | ⟨c, hc, _, rfl⟩
    · exact h.observed c' hc
    · exact h.observed c hc
  · intro r' hr'
    obtain ⟨r, hr, rfl⟩ := hmem r' hr'
    rw [generation_of_key (key_republish ..)]
    exact h.inRange r hr

end Publication

/-! ### Every effect, every call, every run -/

theorem LedgerOk.effect (h : LedgerOk env db) (he : Effect env op db db') : LedgerOk env db' := by
  cases he with
  | same => exact h
  | queue jobs sequence onQueue => exact { h with }
  | bound t schema => exact { h with bindings := schema }
  | attempted onClaims t schema => exact { h with attempts := schema }
  | observed cursors schema => exact { h with cursors := schema }
  | recorded cursors schema row pending id turnPack completions =>
    exact h.recorded schema pending id turnPack completions
  | claimed onClaims claim valid new schema => exact h.claimed new schema
  | resumed onClaims target interrupted schema => exact h.resumed interrupted schema
  | abandoned onClaims target attempts active schema => exact h.abandoned active schema
  | published publication => exact h.published publication
  | acquired lease acquisition => exact h.acquired acquisition
  | released lease release => exact h.released release
  | finished finish => exact h.finished finish
  | interrupted schema => exact h.interrupted schema
  | leasesDropped schema => exact h.leasesDropped schema

theorem LedgerOk.effects (h : LedgerOk env db) (he : Effects env op db db') : LedgerOk env db' := by
  induction he with
  | refl => exact h
  | tail _ hlast ih => exact ih.effect hlast

theorem LedgerOk.step_effects (h : LedgerOk env db) (op : Op P) :
    Effects env op db (step env db op) :=
  Store.step_effects env op h.leases.2.1 h.attempts.2

theorem LedgerOk.step (h : LedgerOk env db) (op : Op P) : LedgerOk env (step env db op) :=
  h.effects (h.step_effects op)

/-- Every database a sequence of calls reaches from the empty schema is well formed. -/
theorem ledgerOk_run (env : Env P) (ops : List (Op P)) : LedgerOk env (run env Database.empty ops) :=
  run_preserves env (fun _ op h => h.step op) (ledgerOk_empty env) ops

end CodexKeyboard.Store
