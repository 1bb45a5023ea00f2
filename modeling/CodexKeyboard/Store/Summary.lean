import CodexKeyboard.Store.CacheId
import CodexKeyboard.Store.Rollout

/-! The summary ledger: claiming pending completions, resuming or abandoning a claim, publishing a
    generation that supersedes the one still unread, and the mailbox view of it.

    A row of the ledger goes through these states (recovery passes are dotted):

        generating ──publish──▶ unheard ──acquire──▶ leased ──finish──▶ heard
          ┆  ▲ │                  │  ▲──cancel┄recover──┘
          ┆  │ └─abandon─▶ abandoned
        interrupted               └──superseded by the next publish──▶ superseded -/

namespace CodexKeyboard.Store

open Schemes Transact

variable {P : Type}

inductive SummaryClaimOutcome where
  | inserted | replay
  deriving DecidableEq, Repr

structure PendingSummaryCompletion where
  completionId : String
  turnPack : String
  deriving DecidableEq, Repr

structure UnreadSummary where
  taskId : String
  generation : Nat
  cacheObject : String
  coverageCount : Nat
  deriving DecidableEq, Repr

structure SummaryClaim where
  outcome : SummaryClaimOutcome
  requestId : String
  taskId : String
  generation : Nat
  previousUnread : Option UnreadSummary
  completions : List PendingSummaryCompletion
  deriving DecidableEq, Repr

inductive SummaryClaimResult where
  | claimed (claim : SummaryClaim)
  | published (taskId : String) (generation : Nat)
  deriving DecidableEq, Repr

/-! ### Validation -/

def summaryRequestOk (env : Env P) (task request : String) : Bool :=
  env.uuidOk task && request != "" && decide (request.utf8ByteSize ≤ maxRequestIdBytes) &&
  !hasAsciiControl request

def validateSummaryRequest (env : Env P) (task request : String) : Except StoreError Unit :=
  ensure (summaryRequestOk env task request = true) .invalidSummaryRequest

/-- A turn pack within its bounds. -/
def turnPackOk (turnPack : String) : Bool :=
  turnPack != "" && decide (turnPack.utf8ByteSize ≤ maxTurnPackBytes)

/-- The loop of `validate_summary_claim` over the listed completions. -/
def claimCompletionsOk (env : Env P) : List PendingSummaryCompletion → Nat → Bool
  | [], _ => true
  | c :: rest, total =>
    let total := total + c.turnPack.utf8ByteSize
    env.uuidOk c.completionId && turnPackOk c.turnPack && decide (total ≤ maxSummaryTurnPackBytes) &&
    claimCompletionsOk env rest total

def summaryClaimOk (env : Env P) (claim : SummaryClaim) : Bool :=
  claim.generation != 0 && claim.completions != [] &&
  decide (claim.completions.length ≤ maxSummaryCompletionsPerClaim) &&
  claim.previousUnread.all (fun previous => previous.taskId == claim.taskId) &&
  claimCompletionsOk env claim.completions 0

def validateSummaryClaim (env : Env P) (claim : SummaryClaim) : Except StoreError Unit := do
  validateSummaryRequest env claim.taskId claim.requestId
  ensure (summaryClaimOk env claim = true) .invalidSummaryRequest

/-! ### Queries -/

/-- `query_current_unread`: the unread generation that nothing superseded, with its coverage. -/
def queryCurrentUnread (db : Database) (task : String) : Except StoreError (Option UnreadSummary) :=
  match db.summaryLedger.find? fun r => r.taskId == task && r.currentUnread with
  | none => .ok none
  | some row =>
    let coverage := db.completionLedger.countP (CompletionRow.coveredBy row.taskId row.generation)
    match row.cacheObject with
    | some cacheObject => do
      ensure (0 < row.generation ∧ 0 < coverage) .invalidSummaryState
      ensure (coverage ≤ u32Max) .invalidSummaryState
      .ok (some ⟨task, row.generation, cacheObject, coverage⟩)
    | none => .error .invalidSummaryState

/-- The row loop of `query_pending_summary_completions`. -/
def collectPending (env : Env P) : List CompletionRow → List PendingSummaryCompletion → Nat →
    Except StoreError (List PendingSummaryCompletion)
  | [], completions, _ => .ok completions
  | row :: rest, completions, totalBytes =>
    if completions.length = maxSummaryCompletionsPerClaim then .ok completions else do
    ensure ((env.uuidOk row.completionId && turnPackOk row.turnPack) = true) .invalidSummaryState
    let nextTotal := totalBytes + row.turnPack.utf8ByteSize
    if completions ≠ [] ∧ maxSummaryTurnPackBytes < nextTotal then .ok completions else
    collectPending env rest (completions ++ [⟨row.completionId, row.turnPack⟩]) nextTotal

/-- `ORDER BY observed_at ASC, rowid ASC LIMIT 33` over the pending rows of a task. -/
def pendingRows (db : Database) (task : String) : List CompletionRow :=
  (Table.orderBy CompletionRow.observedAt
    (db.completionLedger.filter (CompletionRow.pending task))).take (maxSummaryCompletionsPerClaim + 1)

def queryPendingSummaryCompletions (env : Env P) (db : Database) (task : String) :
    Except StoreError (List PendingSummaryCompletion) :=
  collectPending env (pendingRows db task) [] 0

/-- The completion loop of `load_summary_claim`. -/
def loadCompletions (db : Database) (task : String) : List String → Nat →
    Except StoreError (List PendingSummaryCompletion)
  | [], _ => .ok []
  | completionId :: rest, totalBytes => do
    let row ← orThrow .invalidSummaryState
      (db.completionLedger.find? fun c => c.completionId == completionId && c.taskId == task)
    ensure (row.summarizedGeneration = none) .invalidSummaryState
    let totalBytes := totalBytes + row.turnPack.utf8ByteSize
    ensure (turnPackOk row.turnPack = true ∧ totalBytes ≤ maxSummaryTurnPackBytes) .invalidSummaryState
    let completions ← loadCompletions db task rest totalBytes
    .ok (⟨completionId, row.turnPack⟩ :: completions)

/-- The previous unread generation a claim recorded, if it is still the current one. -/
def loadPrevious (db : Database) (task : String) : Option Nat → Except StoreError (Option UnreadSummary)
  | none => .ok none
  | some expected => do
    let current ← queryCurrentUnread db task
    match current with
    | some summary =>
      if summary.generation = expected then .ok (some summary) else .error .invalidSummaryState
    | none => .error .invalidSummaryState

def loadSummaryClaim (db : Database) (outcome : SummaryClaimOutcome) (request task : String)
    (generation : Nat) (previousGeneration : Option Nat) (covers : List String) :
    Except StoreError SummaryClaim := do
  ensure (0 < generation ∧ previousGeneration ≠ some 0) .invalidSummaryState
  ensure (covers ≠ [] ∧ covers.length ≤ maxSummaryCompletionsPerClaim) .invalidSummaryState
  let completions ← loadCompletions db task covers 0
  let previousUnread ← loadPrevious db task previousGeneration
  .ok ⟨outcome, request, task, generation, previousUnread, completions⟩

/-! ### Claiming -/

/-- `interrupted` back to `generating`, for the row of one claim. -/
def SummaryRow.interruptedAs (request task : String) (generation : Nat) (r : SummaryRow) : Bool :=
  r.at task generation && r.state == .interrupted && r.claimId == some request

def SummaryRow.regenerate (r : SummaryRow) : SummaryRow := { r with state := .generating }

/-- `claim_summary` on a request id the ledger knows. -/
def replaySummaryRequest (task request : String) (prior : SummaryRow) (db : Database) :
    Except StoreError (Option SummaryClaimResult × Database) := do
  ensure (prior.taskId = task) .summaryRequestConflict
  match prior.state with
  | .unheard | .leased | .heard | .superseded => .ok (some (.published task prior.generation), db)
  | .abandoned => .error .summaryRequestAbandoned
  | .interrupted =>
    let target := fun r : SummaryRow => r.requestId == some request &&
      r.interruptedAs request task prior.generation
    let changed := db.summaryLedger.countP target
    let tx ← db.putSummaries (Table.update target SummaryRow.regenerate db.summaryLedger)
    ensure (changed = 1) .summaryClaimChanged
    let claim ← loadSummaryClaim tx .replay request task prior.generation prior.previousGeneration
      prior.coversCompletions
    .ok (some (.claimed claim), tx)
  | .generating =>
    let claim ← loadSummaryClaim db .replay request task prior.generation prior.previousGeneration
      prior.coversCompletions
    .ok (some (.claimed claim), db)

/-- `SELECT COALESCE(MAX(generation), 0) … WHERE task_id = ?1`. -/
def maxGeneration (t : List SummaryRow) (task : String) : Nat :=
  (t.filter fun r => r.taskId == task).foldr (fun r m => max r.generation m) 0

/-- The `previous_generation` column of a claim made over `previousUnread`. -/
def previousColumn : Option UnreadSummary → Except StoreError (Option Nat)
  | none => .ok none
  | some summary => do
    let generation ← toI64 summary.generation
    .ok (some generation)

/-- The row a new claim inserts. -/
def claimRow (task request : String) (generation : Nat) (previous : Option Nat)
    (covers : List String) : SummaryRow where
  taskId := task
  generation := generation
  state := .generating
  coversCompletions := covers
  cacheObject := none
  requestId := some request
  claimId := some request
  previousGeneration := previous
  supersededBy := none

/-- `claim_summary` on a fresh request of a task without an active claim. -/
def insertSummaryClaim (env : Env P) (task request : String) (db : Database) :
    Except StoreError (Option SummaryClaimResult × Database) := do
  let previousUnread ← queryCurrentUnread db task
  let completions ← queryPendingSummaryCompletions env db task
  if completions = [] then .ok (none, db) else do
  let current := maxGeneration db.summaryLedger task
  ensure (current < i64Max) .summaryGenerationOutOfRange
  let generation := current + 1
  let previous ← previousColumn previousUnread
  let row := claimRow task request generation previous (completions.map (·.completionId))
  let tx ← db.putSummaries (db.summaryLedger ++ [row])
  .ok (some (.claimed ⟨.inserted, request, task, generation, previousUnread, completions⟩), tx)

def claimSummary (env : Env P) (task request : String) :
    Database → Except StoreError (Option SummaryClaimResult) × Database :=
  transaction fun db => do
    validateSummaryRequest env task request
    match db.summaryLedger.find? fun r => r.requestId == some request with
    | some prior => replaySummaryRequest task request prior db
    | none =>
      match db.summaryLedger.find? fun r => r.taskId == task && r.active with
      | some existing =>
        let claimId ← orThrow (.sqlite .fromSqlConversion) existing.claimId
        ensure (claimId = request) .summaryBusy
        let claim ← loadSummaryClaim db .replay request task existing.generation
          existing.previousGeneration existing.coversCompletions
        .ok (some (.claimed claim), db)
      | none => insertSummaryClaim env task request db

/-! ### Giving a claim up, or taking it up again -/

def SummaryRow.abandon (r : SummaryRow) : SummaryRow :=
  { r with state := .abandoned, claimId := none }

def Database.deleteTtsAttempts (db : Database) (task : String) (generation : Nat) : Database :=
  { db with summaryTtsAttempts := Table.delete (TtsAttemptRow.at task generation) db.summaryTtsAttempts }

def abandonSummaryClaim (env : Env P) (claim : SummaryClaim) :
    Database → Except StoreError Bool × Database :=
  transaction fun db => do
    validateSummaryClaim env claim
    let generation ← toI64 claim.generation
    let target := fun r : SummaryRow => r.at claim.taskId generation && r.active &&
      r.claimId == some claim.requestId
    let changed := db.summaryLedger.countP target
    let tx ← db.putSummaries (Table.update target SummaryRow.abandon db.summaryLedger)
    .ok (changed == 1, if changed = 1 then tx.deleteTtsAttempts claim.taskId generation else tx)

def abandonInterruptedSummaryForTask (env : Env P) (task : String) :
    Database → Except StoreError (Option Nat) × Database :=
  transaction fun db => do
    ensure (env.uuidOk task = true) .invalidSummaryRequest
    match db.summaryLedger.find? fun r => r.taskId == task && r.state == .interrupted with
    | none => .ok (none, db)
    | some row =>
      let target := fun r : SummaryRow => r.at task row.generation && r.state == .interrupted
      let changed := db.summaryLedger.countP target
      let tx ← db.putSummaries (Table.update target SummaryRow.abandon db.summaryLedger)
      ensure (changed = 1) .summaryClaimChanged
      .ok (some row.generation, tx.deleteTtsAttempts task row.generation)

def resumeInterruptedSummary (env : Env P) (task : String) :
    Database → Except StoreError (Option SummaryClaim) × Database :=
  transaction fun db => do
    ensure (env.uuidOk task = true) .invalidSummaryRequest
    match db.summaryLedger.find? fun r => r.taskId == task && r.state == .interrupted with
    | none => .ok (none, db)
    | some row =>
      let request ← orThrow (.sqlite .fromSqlConversion) row.claimId
      let target := SummaryRow.interruptedAs request task row.generation
      let changed := db.summaryLedger.countP target
      let tx ← db.putSummaries (Table.update target SummaryRow.regenerate db.summaryLedger)
      ensure (changed = 1) .summaryClaimChanged
      let claim ← loadSummaryClaim tx .replay request task row.generation row.previousGeneration
        row.coversCompletions
      .ok (some claim, tx)

/-! ### Speech synthesis attempts -/

/-- The claim is held by this request and still active. -/
def SummaryRow.heldBy (claim : SummaryClaim) (r : SummaryRow) : Bool :=
  r.at claim.taskId claim.generation && r.requestId == some claim.requestId &&
  r.claimId == some claim.requestId && r.active

/-- `summary_tts_attempt`. -/
def summaryTtsAttempt (env : Env P) (claim : SummaryClaim) (db : Database) :
    Except StoreError (Option SummaryTtsAttemptState) := do
  validateSummaryClaim env claim
  let _ ← toI64 claim.generation
  let joined := db.summaryTtsAttempts.find? fun a => a.at claim.taskId claim.generation &&
    db.summaryLedger.any fun r => r.at claim.taskId claim.generation &&
      r.requestId == some claim.requestId && r.active
  .ok (joined.map TtsAttemptRow.state)

def beginSummaryTtsAttempt (env : Env P) (claim : SummaryClaim) :
    Database → Except StoreError SummaryTtsAttemptState × Database :=
  transaction fun db => do
    validateSummaryClaim env claim
    let generation ← toI64 claim.generation
    ensure (db.summaryLedger.any (SummaryRow.heldBy claim) = true) .summaryTtsAttemptChanged
    match db.summaryTtsAttempts.find? (TtsAttemptRow.at claim.taskId generation) with
    | some attempt => .ok (attempt.state, db)
    | none =>
      let tx ← db.putTtsAttempts (db.summaryTtsAttempts ++ [⟨claim.taskId, generation, .started⟩])
      .ok (.started, tx)

def markSummaryTtsAmbiguous (env : Env P) (claim : SummaryClaim) :
    Database → Except StoreError Unit × Database :=
  committed fun db => do
    validateSummaryClaim env claim
    let generation ← toI64 claim.generation
    let target := fun a : TtsAttemptRow => a.at claim.taskId generation &&
      db.summaryLedger.any (SummaryRow.heldBy claim)
    let changed := db.summaryTtsAttempts.countP target
    let tx ← db.putTtsAttempts
      (Table.update target (fun a => { a with state := .ambiguous }) db.summaryTtsAttempts)
    .ok (ensure (changed = 1) .summaryTtsAttemptChanged, tx)

/-! ### Publishing -/

/-- The row a publication starts from: still generating, held by the claim's request. -/
def SummaryRow.publishable (claim : SummaryClaim) (r : SummaryRow) : Bool :=
  r.at claim.taskId claim.generation && r.state == .generating && r.claimId == some claim.requestId

/-- `SET state = CASE WHEN state = 'unheard' THEN 'superseded' ELSE state END, superseded_by = ?3`. -/
def SummaryRow.supersede (successor : Nat) (r : SummaryRow) : SummaryRow :=
  { r with state := if r.state = .unheard then .superseded else r.state, supersededBy := some successor }

def CompletionRow.cover (generation : Nat) (c : CompletionRow) : CompletionRow :=
  { c with summarizedGeneration := some generation }

def SummaryRow.publish (cacheObject : String) (r : SummaryRow) : SummaryRow :=
  { r with state := .unheard, cacheObject := some cacheObject, claimId := none }

/-- Supersede the unread generation the claim was made over and take its completions along. -/
def supersedePrevious (claim : SummaryClaim) (db : Database) : Except StoreError (Nat × Database) :=
  match claim.previousUnread with
  | some previous => do
    let current ← queryCurrentUnread db claim.taskId
    ensure (current = some previous) .summaryClaimChanged
    let target := fun r : SummaryRow => r.at claim.taskId previous.generation && r.currentUnread
    let changed := db.summaryLedger.countP target
    let tx ← db.putSummaries (Table.update target (SummaryRow.supersede claim.generation) db.summaryLedger)
    ensure (changed = 1) .summaryClaimChanged
    let covered := CompletionRow.coveredBy claim.taskId previous.generation
    let previousCoverage := tx.completionLedger.countP covered % 2 ^ 32
    let tx ← tx.putCompletions
      (Table.update covered (CompletionRow.cover claim.generation) tx.completionLedger)
    ensure (previousCoverage = previous.coverageCount) .summaryClaimChanged
    .ok (previousCoverage, tx)
  | none => do
    let current ← queryCurrentUnread db claim.taskId
    ensure (current = none) .summaryClaimChanged
    .ok (0, db)

/-- The pending row one listed completion stands for. -/
def CompletionRow.pendingAs (task : String) (completion : PendingSummaryCompletion)
    (c : CompletionRow) : Bool :=
  c.completionId == completion.completionId && c.taskId == task &&
  c.turnPack == completion.turnPack && c.summarizedGeneration == none

/-- Mark every listed completion as covered; each has to be pending still. -/
def coverCompletions (task : String) (generation : Nat) :
    List PendingSummaryCompletion → Database → Except StoreError Database
  | [], db => .ok db
  | completion :: rest, db => do
    let target := CompletionRow.pendingAs task completion
    let changed := db.completionLedger.countP target
    let tx ← db.putCompletions
      (Table.update target (CompletionRow.cover generation) db.completionLedger)
    ensure (changed = 1) .summaryClaimChanged
    coverCompletions task generation rest tx

def publishSummary (env : Env P) (claim : SummaryClaim) (cacheObject : String) :
    Database → Except StoreError UnreadSummary × Database :=
  transaction fun db => do
    validateSummaryClaim env claim
    let id ← orThrow .invalidSummaryCacheReference (CacheId.forTask env claim.taskId claim.generation)
    ensure (cacheObject = id.reference) .invalidSummaryCacheReference
    let generation ← toI64 claim.generation
    let stored ← orThrow .summaryClaimChanged
      (db.summaryLedger.find? (SummaryRow.publishable claim))
    let expectedPrevious ← previousColumn claim.previousUnread
    ensure (stored.previousGeneration = expectedPrevious ∧
      stored.coversCompletions = claim.completions.map (·.completionId)) .summaryClaimChanged
    let (previousCoverage, tx) ← supersedePrevious claim db
    let tx ← coverCompletions claim.taskId generation claim.completions tx
    let changed := tx.summaryLedger.countP (SummaryRow.publishable claim)
    let tx ← tx.putSummaries
      (Table.update (SummaryRow.publishable claim) (SummaryRow.publish cacheObject) tx.summaryLedger)
    ensure (changed = 1) .summaryClaimChanged
    let tx := tx.deleteTtsAttempts claim.taskId generation
    let coverageCount := previousCoverage + claim.completions.length
    ensure (coverageCount ≤ u32Max) .invalidSummaryState
    .ok (⟨claim.taskId, claim.generation, cacheObject, coverageCount⟩, tx)

/-! ### Reading the mailbox -/

def currentUnreadSummary (env : Env P) (db : Database) (task : String) :
    Except StoreError (Option UnreadSummary) := do
  ensure (env.uuidOk task = true) .invalidSummaryRequest
  queryCurrentUnread db task

structure MailboxStatusSnapshot where
  unreadSlots : Nat
  coverageBySlot : List Nat
  deriving DecidableEq, Repr

/-- The binding loop of `mailbox_status`: set the slot's bit and its capped coverage. -/
def collectMailbox (env : Env P) (db : Database) : List Binding → MailboxStatusSnapshot →
    Except StoreError MailboxStatusSnapshot
  | [], status => .ok status
  | binding :: rest, status => do
    let unread ← currentUnreadSummary env db binding.taskId
    match unread with
    | none => collectMailbox env db rest status
    | some unread =>
      let index := binding.slot - 1
      collectMailbox env db rest
        ⟨status.unreadSlots ||| 1 <<< index,
         status.coverageBySlot.set index (min unread.coverageCount 255)⟩

def mailboxStatus (env : Env P) (db : Database) : Except StoreError MailboxStatusSnapshot := do
  let status ← collectMailbox env db (queryBindings db) ⟨0, [0, 0, 0, 0]⟩
  ensure (status.coverageBySlot.zipIdx.all (fun (coverage, index) =>
    status.unreadSlots.testBit index == (coverage != 0)) = true) .invalidSummaryState
  .ok status

/-- `recover_interrupted_summaries`. -/
def recoverInterruptedSummaries : Database → Except StoreError Nat × Database :=
  transaction fun db => do
    let target := fun r : SummaryRow => r.state == .generating
    let recovered := db.summaryLedger.countP target
    let tx ← db.putSummaries
      (Table.update target (fun r => { r with state := .interrupted }) db.summaryLedger)
    .ok (recovered, tx)

end CodexKeyboard.Store
