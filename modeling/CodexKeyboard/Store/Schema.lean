import CodexKeyboard.Schemes.Table
import CodexKeyboard.Schemes.Transact

/-! The state database of the Host: rows, tables and constraints of schema version 6.

    A table is the list of its rows in insertion order (`rowid` order). The columns `created_at` and
    `updated_at` are left out: nothing reads them. Integer columns are natural numbers; the `i64`
    range of SQLite shows up as `toI64`. Every statement that writes a table goes through that
    table's `put…`, which fails with a constraint violation when the new contents break a `CHECK`, a
    `UNIQUE` index or a `FOREIGN KEY` of the schema. -/

namespace CodexKeyboard.Store

open Schemes

/-- A SHA-256 digest, `[u8; 32]`. -/
abbrev Digest := Vector UInt8 32

instance : LawfulBEq Digest := inferInstance

/-- What the store takes from the standard library and from other crates: `uuid::Uuid::parse_str`,
    `Sha256::digest`, `serde_json` on a turn pack, and the path type of the platform. -/
structure Env (P : Type) where
  uuidOk : String → Bool
  sha256 : String → Digest
  jsonObject : String → Bool
  encodePath : P → List UInt8
  decodePath : List UInt8 → Option P
  decode_encode : ∀ p, decodePath (encodePath p) = some p
  isAbsolute : P → Bool
  containsNul : P → Bool
  samePath : P → P → Bool
  samePath_refl : ∀ p, samePath p p = true

/-- `i64::MAX`. -/
def i64Max : Nat := 2 ^ 63 - 1

/-- `u32::MAX`. -/
def u32Max : Nat := 2 ^ 32 - 1

/-- `u64::MAX`. -/
def u64Max : Nat := 2 ^ 64 - 1

def maxPendingJobsPerTask : Nat := 12
def maxGlobalRunningJobs : Nat := 4
def maxSummaryCompletionsPerClaim : Nat := 32
def maxRequestIdBytes : Nat := 128
def maxTaskIdBytes : Nat := 64
def maxPromptBytes : Nat := 32 * 1024
def maxCwdBytes : Nat := 4 * 1024
def maxRolloutPathBytes : Nat := 4 * 1024
def maxTurnPackBytes : Nat := 64 * 1024
def maxSummaryTurnPackBytes : Nat := 1024 * 1024

/-- The failures of SQLite itself that the model can produce. -/
inductive SqliteFailure where
  | constraintViolation
  | full
  | queryReturnedNoRows
  | fromSqlConversion
  deriving DecidableEq, Repr

/-- `StoreError`, less the failures of the file system around the database. -/
inductive StoreError where
  | sqlite (failure : SqliteFailure)
  | invalidSlot
  | generationOutOfRange
  | claimGenerationOutOfRange
  | requestIdConflict
  | invalidJob
  | taskQueueFull
  | rolloutCursorChanged
  | bindingChanged
  | completionConflict
  | invalidCompletion
  | invalidSummaryRequest
  | summaryBusy
  | summaryRequestConflict
  | summaryRequestAbandoned
  | summaryGenerationOutOfRange
  | summaryClaimChanged
  | invalidSummaryState
  | invalidSummaryCacheReference
  | summaryTtsAttemptChanged
  | invalidPlaybackLease
  | playbackBusy
  deriving DecidableEq, Repr

inductive JobState where
  | queued | running | completed | failed
  deriving DecidableEq, Repr

inductive JobFailureKind where
  | cliMissing | authentication | taskArchived | activeSession | timeout | invalidOutput
  | outputTooLarge | unsafeWorkingDirectory | processIo | exitFailure
  deriving DecidableEq, Repr

inductive SummaryState where
  | generating | interrupted | abandoned | unheard | leased | heard | superseded
  deriving DecidableEq, Repr

/-- `state IN ('generating', 'interrupted')`. -/
def SummaryState.active : SummaryState → Bool
  | .generating | .interrupted => true
  | _ => false

/-- `state IN ('unheard', 'leased')`. -/
def SummaryState.unread : SummaryState → Bool
  | .unheard | .leased => true
  | _ => false

/-- `state IN ('unheard', 'leased', 'heard', 'superseded')`. -/
def SummaryState.published : SummaryState → Bool
  | .unheard | .leased | .heard | .superseded => true
  | _ => false

inductive SummaryTtsAttemptState where
  | started | ambiguous
  deriving DecidableEq, Repr

structure Binding where
  slot : Nat
  taskId : String
  generation : Nat
  deriving DecidableEq, Repr

structure JobRow where
  sequence : Nat
  requestId : String
  taskId : String
  slot : Nat
  generation : Nat
  prompt : String
  cwd : List UInt8
  state : JobState
  recoveryCount : Nat
  claimGeneration : Nat
  failureKind : Option JobFailureKind
  deriving DecidableEq, Repr

structure CompletionRow where
  completionId : String
  taskId : String
  rolloutCursor : Nat × Nat  -- the text `{generation}:{offset}`
  observedAt : Int
  summarizedGeneration : Option Nat
  turnPack : String
  deriving DecidableEq, Repr

structure CursorRow where
  taskId : String
  rolloutPath : List UInt8
  device : Nat
  inode : Nat
  offset : Nat
  generation : Nat
  anchor : List UInt8
  deriving DecidableEq, Repr

/-- A row of `summary_ledger`. `coversCompletions` is the list whose JSON text the column holds. -/
structure SummaryRow where
  taskId : String
  generation : Nat
  state : SummaryState
  coversCompletions : List String
  cacheObject : Option String
  requestId : Option String
  claimId : Option String
  previousGeneration : Option Nat
  supersededBy : Option Nat
  deriving DecidableEq, Repr

structure TtsAttemptRow where
  taskId : String
  generation : Nat
  state : SummaryTtsAttemptState
  deriving DecidableEq, Repr

structure LeaseRow where
  leaseId : Nat
  taskId : String
  summaryGeneration : Nat
  slot : Nat
  requestGeneration : Nat
  connectionGeneration : Nat
  deriving DecidableEq, Repr

/-- The committed database. `jobsSequence` is the high-water mark `AUTOINCREMENT` keeps. -/
structure Database where
  bindings : List Binding
  jobs : List JobRow
  jobsSequence : Nat
  completionLedger : List CompletionRow
  rolloutCursors : List CursorRow
  summaryLedger : List SummaryRow
  summaryTtsAttempts : List TtsAttemptRow
  summaryPlaybackLeases : List LeaseRow
  deriving DecidableEq, Repr

/-- The empty schema `migrate` creates. -/
def Database.empty : Database := ⟨[], [], 0, [], [], [], [], []⟩

/-! ### Keys and index predicates -/

/-- `WHERE task_id = ?1 AND generation = ?2`. -/
def SummaryRow.at (task : String) (generation : Nat) (r : SummaryRow) : Bool :=
  r.taskId == task && r.generation == generation

def SummaryRow.key (r : SummaryRow) : String × Nat := (r.taskId, r.generation)

/-- Row of the partial index `summary_one_active_claim_per_task`. -/
def SummaryRow.active (r : SummaryRow) : Bool := r.state.active

/-- Row of the partial index `summary_one_current_unread_per_task`. -/
def SummaryRow.currentUnread (r : SummaryRow) : Bool := r.state.unread && r.supersededBy.isNone

def LeaseRow.key (l : LeaseRow) : String × Nat := (l.taskId, l.summaryGeneration)

def LeaseRow.at (task : String) (generation : Nat) (l : LeaseRow) : Bool :=
  l.taskId == task && l.summaryGeneration == generation

def TtsAttemptRow.key (a : TtsAttemptRow) : String × Nat := (a.taskId, a.generation)

def TtsAttemptRow.at (task : String) (generation : Nat) (a : TtsAttemptRow) : Bool :=
  a.taskId == task && a.generation == generation

/-- Pending rows of a task: `task_id = ?1 AND summarized_generation IS NULL`. -/
def CompletionRow.pending (task : String) (c : CompletionRow) : Bool :=
  c.taskId == task && c.summarizedGeneration == none

/-- Rows of a task covered by one generation. -/
def CompletionRow.coveredBy (task : String) (generation : Nat) (c : CompletionRow) : Bool :=
  c.taskId == task && c.summarizedGeneration == some generation

/-! ### Constraints -/

/-- `slot BETWEEN 1 AND 4`. -/
def slotOk (slot : Nat) : Bool := 1 ≤ slot && slot ≤ 4

def BindingSchema (t : List Binding) : Prop :=
  (∀ b ∈ t, slotOk b.slot = true ∧ 0 < b.generation) ∧ Table.Unique (fun _ => true) Binding.slot t

def JobSchema (t : List JobRow) : Prop :=
  (∀ j ∈ t, slotOk j.slot = true ∧ j.recoveryCount ≤ u32Max) ∧
  Table.Unique (fun _ => true) JobRow.sequence t ∧
  Table.Unique (fun _ => true) JobRow.requestId t ∧
  Table.Unique (fun j => j.state == .running) JobRow.taskId t

def CompletionSchema (t : List CompletionRow) : Prop :=
  Table.Unique (fun _ => true) CompletionRow.completionId t

def CursorSchema (t : List CursorRow) : Prop :=
  (∀ c ∈ t, 0 < c.generation ∧ c.anchor.length = 32) ∧ Table.Unique (fun _ => true) CursorRow.taskId t

/-- The `CHECK` clauses of one `summary_ledger` row. -/
def SummaryRow.check (r : SummaryRow) : Bool :=
  0 < r.generation &&
  r.previousGeneration.all (0 < ·) &&
  r.supersededBy.all (r.generation < ·) &&
  match r.state with
  | .generating | .interrupted => r.claimId.isSome && r.cacheObject.isNone
  | .abandoned => r.claimId.isNone && r.cacheObject.isNone
  | .unheard | .leased | .heard | .superseded => r.claimId.isNone

def SummarySchema (t : List SummaryRow) : Prop :=
  (∀ r ∈ t, r.check = true) ∧
  Table.Unique (fun _ => true) SummaryRow.key t ∧
  Table.Unique SummaryRow.active SummaryRow.taskId t ∧
  Table.Unique (fun r => r.requestId.isSome) SummaryRow.requestId t ∧
  Table.Unique SummaryRow.currentUnread SummaryRow.taskId t

/-- Rows of `summary_tts_attempts`, given the parent table of the foreign key. -/
def TtsAttemptSchema (parent : List SummaryRow) (t : List TtsAttemptRow) : Prop :=
  (∀ a ∈ t, 0 < a.generation ∧ a.key ∈ parent.map SummaryRow.key) ∧
  Table.Unique (fun _ => true) TtsAttemptRow.key t

/-- Rows of `summary_playback_leases`, given the parent table of the foreign key. -/
def LeaseSchema (parent : List SummaryRow) (t : List LeaseRow) : Prop :=
  (∀ l ∈ t, 0 < l.leaseId ∧ 0 < l.summaryGeneration ∧ slotOk l.slot = true ∧
    0 < l.requestGeneration ∧ 0 < l.connectionGeneration ∧ l.key ∈ parent.map SummaryRow.key) ∧
  Table.Unique (fun _ => true) LeaseRow.leaseId t ∧
  Table.Unique (fun _ => true) LeaseRow.key t

instance (t) : Decidable (BindingSchema t) := inferInstanceAs (Decidable (_ ∧ _))
instance (t) : Decidable (JobSchema t) := inferInstanceAs (Decidable (_ ∧ _))
instance (t) : Decidable (CompletionSchema t) := inferInstanceAs (Decidable (Table.Unique _ _ _))
instance (t) : Decidable (CursorSchema t) := inferInstanceAs (Decidable (_ ∧ _))
instance (t) : Decidable (SummarySchema t) := inferInstanceAs (Decidable (_ ∧ _))
instance (p t) : Decidable (TtsAttemptSchema p t) := inferInstanceAs (Decidable (_ ∧ _))
instance (p t) : Decidable (LeaseSchema p t) := inferInstanceAs (Decidable (_ ∧ _))

/-! ### Writing a table -/

open Transact

namespace Database

def putBindings (db : Database) (t : List Binding) : Except StoreError Database := do
  ensure (BindingSchema t) (.sqlite .constraintViolation)
  .ok { db with bindings := t }

def putJobs (db : Database) (t : List JobRow) : Except StoreError Database := do
  ensure (JobSchema t) (.sqlite .constraintViolation)
  .ok { db with jobs := t }

def putCompletions (db : Database) (t : List CompletionRow) : Except StoreError Database := do
  ensure (CompletionSchema t) (.sqlite .constraintViolation)
  .ok { db with completionLedger := t }

def putCursors (db : Database) (t : List CursorRow) : Except StoreError Database := do
  ensure (CursorSchema t) (.sqlite .constraintViolation)
  .ok { db with rolloutCursors := t }

def putSummaries (db : Database) (t : List SummaryRow) : Except StoreError Database := do
  ensure (SummarySchema t) (.sqlite .constraintViolation)
  .ok { db with summaryLedger := t }

def putTtsAttempts (db : Database) (t : List TtsAttemptRow) : Except StoreError Database := do
  ensure (TtsAttemptSchema db.summaryLedger t) (.sqlite .constraintViolation)
  .ok { db with summaryTtsAttempts := t }

def putLeases (db : Database) (t : List LeaseRow) : Except StoreError Database := do
  ensure (LeaseSchema db.summaryLedger t) (.sqlite .constraintViolation)
  .ok { db with summaryPlaybackLeases := t }

variable {db tx : Database} {e : StoreError}

@[simp] theorem putBindings_ok {t : List Binding} :
    db.putBindings t = .ok tx ↔ BindingSchema t ∧ { db with bindings := t } = tx := by
  simp [putBindings]

@[simp] theorem putBindings_error {t : List Binding} :
    db.putBindings t = .error e ↔ ¬ BindingSchema t ∧ .sqlite .constraintViolation = e := by
  simp [putBindings]

@[simp] theorem putJobs_ok {t : List JobRow} :
    db.putJobs t = .ok tx ↔ JobSchema t ∧ { db with jobs := t } = tx := by
  simp [putJobs]

@[simp] theorem putJobs_error {t : List JobRow} :
    db.putJobs t = .error e ↔ ¬ JobSchema t ∧ .sqlite .constraintViolation = e := by
  simp [putJobs]

@[simp] theorem putCompletions_ok {t : List CompletionRow} :
    db.putCompletions t = .ok tx ↔ CompletionSchema t ∧ { db with completionLedger := t } = tx := by
  simp [putCompletions]

@[simp] theorem putCompletions_error {t : List CompletionRow} :
    db.putCompletions t = .error e ↔ ¬ CompletionSchema t ∧ .sqlite .constraintViolation = e := by
  simp [putCompletions]

@[simp] theorem putCursors_ok {t : List CursorRow} :
    db.putCursors t = .ok tx ↔ CursorSchema t ∧ { db with rolloutCursors := t } = tx := by
  simp [putCursors]

@[simp] theorem putCursors_error {t : List CursorRow} :
    db.putCursors t = .error e ↔ ¬ CursorSchema t ∧ .sqlite .constraintViolation = e := by
  simp [putCursors]

@[simp] theorem putSummaries_ok {t : List SummaryRow} :
    db.putSummaries t = .ok tx ↔ SummarySchema t ∧ { db with summaryLedger := t } = tx := by
  simp [putSummaries]

@[simp] theorem putSummaries_error {t : List SummaryRow} :
    db.putSummaries t = .error e ↔ ¬ SummarySchema t ∧ .sqlite .constraintViolation = e := by
  simp [putSummaries]

@[simp] theorem putTtsAttempts_ok {t : List TtsAttemptRow} :
    db.putTtsAttempts t = .ok tx ↔
      TtsAttemptSchema db.summaryLedger t ∧ { db with summaryTtsAttempts := t } = tx := by
  simp [putTtsAttempts]

@[simp] theorem putTtsAttempts_error {t : List TtsAttemptRow} :
    db.putTtsAttempts t = .error e ↔
      ¬ TtsAttemptSchema db.summaryLedger t ∧ .sqlite .constraintViolation = e := by
  simp [putTtsAttempts]

@[simp] theorem putLeases_ok {t : List LeaseRow} :
    db.putLeases t = .ok tx ↔
      LeaseSchema db.summaryLedger t ∧ { db with summaryPlaybackLeases := t } = tx := by
  simp [putLeases]

@[simp] theorem putLeases_error {t : List LeaseRow} :
    db.putLeases t = .error e ↔
      ¬ LeaseSchema db.summaryLedger t ∧ .sqlite .constraintViolation = e := by
  simp [putLeases]

end Database

/-! ### Shared checks -/

/-- `to_i64`: a `u64` argument that does not fit SQLite's integers is an error. -/
def toI64 (value : Nat) : Except StoreError Nat := do
  ensure (value ≤ i64Max) .generationOutOfRange
  .ok value

/-- `to_sql_i64`, the variant the rollout cursor uses. -/
def toSqlI64 (value : Nat) : Except StoreError Nat := do
  ensure (value ≤ i64Max) .invalidCompletion
  .ok value

def validateSlot (slot : Nat) : Except StoreError Unit :=
  ensure (slotOk slot = true) .invalidSlot

/-- `byte.is_ascii_control()` of some byte: the control characters are single UTF-8 bytes. -/
def hasAsciiControl (s : String) : Bool :=
  s.toList.any fun c => c.val < 0x20 || c.val == 0x7f

@[simp] theorem toI64_ok {v w : Nat} : toI64 v = .ok w ↔ v ≤ i64Max ∧ v = w := by
  simp [toI64]

@[simp] theorem toI64_error {v : Nat} {e : StoreError} :
    toI64 v = .error e ↔ i64Max < v ∧ StoreError.generationOutOfRange = e := by
  simp [toI64]

@[simp] theorem toSqlI64_ok {v w : Nat} : toSqlI64 v = .ok w ↔ v ≤ i64Max ∧ v = w := by
  simp [toSqlI64]

@[simp] theorem toSqlI64_error {v : Nat} {e : StoreError} :
    toSqlI64 v = .error e ↔ i64Max < v ∧ StoreError.invalidCompletion = e := by
  simp [toSqlI64]

end CodexKeyboard.Store
