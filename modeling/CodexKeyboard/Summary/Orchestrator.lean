import CodexKeyboard.Store.Claims

/-! The summary worker: `SummaryOrchestrator::run` and `resume`, one store transaction at a time.

    The worker shares the database with the daemon, so its program is a control state (`Pc`) and a
    step that makes one transaction or waits for one outside service. What the model, the cache and
    the speech synthesis answer is an argument of the step (`Choices`), free to be anything. -/

namespace CodexKeyboard.Summary

open Store Schemes Transact

variable {P : Type}

inductive SummaryDocumentError where
  | size | json | schema | text | coverage
  deriving DecidableEq, Repr

/-- `SummaryDocument`, less the quotes nothing here reads. -/
structure SummaryDocument where
  schema : Nat
  facts : List String
  pending : List String
  decisions : List String
  spokenText : String
  coversNewCompletions : List String
  deriving DecidableEq, Repr

def summarySchemaVersion : Nat := 1
def maxSummaryItemsPerSection : Nat := 32
def maxSummaryItemBytes : Nat := 1024
def maxSpokenTextBytes : Nat := 24 * 1024
def maxCoversNewCompletions : Nat := 32

/-- `char::is_control`: the general category Cc. -/
def isControl (c : Char) : Bool := c.val < 0x20 || (0x7f ≤ c.val && c.val ≤ 0x9f)

def validText (value : String) (maxBytes : Nat) : Bool :=
  !value.toList.all isWhitespace && decide (value.utf8ByteSize ≤ maxBytes) &&
  !value.toList.any isControl

def validateItems (items : List String) : Except SummaryDocumentError Unit :=
  ensure (items.length ≤ maxSummaryItemsPerSection ∧
    items.all (validText · maxSummaryItemBytes) = true) .text

/-- `SummaryDocument::validate`. -/
def SummaryDocument.validate (env : Env P) (document : SummaryDocument) :
    Except SummaryDocumentError Unit := do
  ensure (document.schema = summarySchemaVersion) .schema
  validateItems document.facts
  validateItems document.pending
  validateItems document.decisions
  ensure (validText document.spokenText maxSpokenTextBytes = true) .text
  ensure (document.coversNewCompletions ≠ [] ∧
    document.coversNewCompletions.length ≤ maxCoversNewCompletions) .coverage
  ensure (document.coversNewCompletions.all env.uuidOk = true ∧
    document.coversNewCompletions.Nodup) .coverage

def SummaryDocument.validateExpectedCovers (env : Env P) (document : SummaryDocument)
    (expected : List String) : Except SummaryDocumentError Unit := do
  document.validate env
  ensure (document.coversNewCompletions = expected) .coverage

def summaryTtsVoice : String := "longanfengyue"

inductive TtsError where
  | credential | invalidRequest | rejected | rateLimited | unavailable | ambiguousAfterCommit
  | protocol | audioLimit
  deriving DecidableEq, Repr

/-- What reading a generation from the cache comes to: no object, some other failure, or an
    authenticated bundle with its document. -/
inductive CacheRead where
  | missingObject
  | failed
  | loaded (summary : SummaryDocument)
  deriving DecidableEq, Repr

/-- `SummaryOrchestratorError`; of a failed service only its kind. -/
inductive SummaryOrchestratorError where
  | store (e : StoreError)
  | summary (e : SummaryDocumentError)
  | previousCache
  | spark
  | tts (e : TtsError)
  | cache
  deriving DecidableEq, Repr

inductive SummaryRunOutcome where
  | idle
  | alreadyPublished (generation : Nat)
  | published (unread : UnreadSummary) (recoveredFromCache : Bool)
  deriving DecidableEq, Repr

abbrev CallResult := Except SummaryOrchestratorError SummaryRunOutcome

/-- Where a call of the worker stands; each state is left by one `workerStep`. -/
inductive Pc where
  | idle
  | resuming
  | running (request : String)
  | recovering (claim : SummaryClaim) (again : Bool)
  | checkingAttempt (claim : SummaryClaim)
  | loadingPrevious (claim : SummaryClaim)
  | generating (claim : SummaryClaim)
  | beginning (claim : SummaryClaim)
  | synthesizing (claim : SummaryClaim)
  | publishing (claim : SummaryClaim)
  | abandoning (claim : SummaryClaim) (result : CallResult)
  | returned (result : CallResult)
  deriving DecidableEq, Repr

/-- The answers of the services outside, for the one a step asks. -/
structure Choices where
  cache : CacheRead := .missingObject
  generated : Except Unit SummaryDocument := .error ()
  synthesized : Except TtsError String := .error .unavailable
  cacheCommitted : Bool := false

def SummaryClaim.expected (claim : SummaryClaim) : List String :=
  claim.completions.map (·.completionId)

/-- `publish_summary` under the reference of the authenticated bundle. -/
def publishClaim (env : Env P) (claim : SummaryClaim) (db : Database) :
    Except SummaryOrchestratorError UnreadSummary × Database :=
  match CacheId.forTask env claim.taskId claim.generation with
  | none => (.error .cache, db)
  | some id =>
    match publishSummary env claim id.reference db with
    | (.error e, db) => (.error (.store e), db)
    | (.ok unread, db) => (.ok unread, db)

/-- `recover_authenticated_cache`. -/
def recoverAuthenticatedCache (env : Env P) (claim : SummaryClaim) (cache : CacheRead) (db : Database) :
    Except SummaryOrchestratorError (Option SummaryRunOutcome) × Database :=
  match cache with
  | .missingObject => (.ok none, db)
  | .failed => (.error .cache, db)
  | .loaded summary =>
    match summary.validateExpectedCovers env (SummaryClaim.expected claim) with
    | .error e => (.error (.summary e), db)
    | .ok _ =>
      match publishClaim env claim db with
      | (.error e, db) => (.error e, db)
      | (.ok unread, db) => (.ok (some (.published unread true)), db)

/-- `abandon`, then return `result`. -/
def abandonStep (env : Env P) (claim : SummaryClaim) (result : CallResult) (db : Database) :
    Database × Pc :=
  match abandonSummaryClaim env claim db with
  | (.error e, db) => (db, .returned (.error (.store e)))
  | (.ok true, db) => (db, .returned result)
  | (.ok false, db) => (db, .returned (.error (.store .summaryClaimChanged)))

/-- One step of a call on `task`. -/
def workerStep (env : Env P) (task : String) (choices : Choices) (db : Database) : Pc → Database × Pc
  | .idle => (db, .idle)
  | .returned result => (db, .returned result)
  | .resuming =>
    match resumeInterruptedSummary env task db with
    | (.error e, db) => (db, .returned (.error (.store e)))
    | (.ok none, db) => (db, .returned (.ok .idle))
    | (.ok (some claim), db) => (db, .recovering claim false)
  | .running request =>
    match claimSummary env task request db with
    | (.error e, db) => (db, .returned (.error (.store e)))
    | (.ok none, db) => (db, .returned (.ok .idle))
    | (.ok (some (.published _ generation)), db) => (db, .returned (.ok (.alreadyPublished generation)))
    | (.ok (some (.claimed claim)), db) => (db, .recovering claim false)
  -- the first look into the cache: a failure returns at once
  | .recovering claim false =>
    match recoverAuthenticatedCache env claim choices.cache db with
    | (.ok (some outcome), db) => (db, .returned (.ok outcome))
    | (.ok none, db) => (db, .checkingAttempt claim)
    | (.error e, db) => (db, .returned (.error e))
  -- the second one, after the cache refused the new bundle: a failure gives the claim up
  | .recovering claim true =>
    match recoverAuthenticatedCache env claim choices.cache db with
    | (.ok (some outcome), db) => (db, .returned (.ok outcome))
    | (.ok none, db) => (db, .abandoning claim (.ok .idle))
    | (.error e, db) => (db, .abandoning claim (.error e))
  | .checkingAttempt claim =>
    match summaryTtsAttempt env claim db with
    | .error e => (db, .returned (.error (.store e)))
    | .ok (some _) => (db, .abandoning claim (.ok .idle))
    | .ok none => (db, .loadingPrevious claim)
  | .loadingPrevious claim =>
    match claim.previousUnread, choices.cache with
    | none, _ => (db, .generating claim)
    | some _, .loaded _ => (db, .generating claim)
    | some _, _ => (db, .abandoning claim (.error .previousCache))
  | .generating claim =>
    match choices.generated with
    | .error _ => (db, .abandoning claim (.error .spark))
    | .ok summary =>
      match summary.validateExpectedCovers env (SummaryClaim.expected claim) with
      | .error e => (db, .abandoning claim (.error (.summary e)))
      | .ok _ => (db, .beginning claim)
  | .beginning claim =>
    match beginSummaryTtsAttempt env claim db with
    | (.error e, db) => (db, .returned (.error (.store e)))
    | (.ok .started, db) => (db, .synthesizing claim)
    | (.ok .ambiguous, db) => (db, .abandoning claim (.ok .idle))
  | .synthesizing claim =>
    match choices.synthesized with
    | .ok voice =>
      if voice = summaryTtsVoice then (db, .publishing claim) else (db, .abandoning claim (.ok .idle))
    | .error .ambiguousAfterCommit => (db, .abandoning claim (.ok .idle))
    | .error e => (db, .abandoning claim (.error (.tts e)))
  -- a refused publication returns at once
  | .publishing claim =>
    if choices.cacheCommitted then
      match publishClaim env claim db with
      | (.error e, db) => (db, .returned (.error e))
      | (.ok unread, db) => (db, .returned (.ok (.published unread false)))
    else (db, .recovering claim true)
  | .abandoning claim result => abandonStep env claim result db

/-! ### The worker next to the daemon -/

/-- The database, the task of the worker's current or last call, and where that call stands. -/
structure World where
  db : Database
  task : String
  pc : Pc

inductive Act (P : Type) where
  | resume (task : String)
  | run (task request : String)
  | worker (choices : Choices)
  | daemon (op : Op P)
  | restart

/-- The transactions of the daemon and the observer; all the others are the worker's. -/
def Op.byDaemon : Op P → Bool
  | .enqueue _ | .claimNextRunnable | .markCompleted .. | .markFailed .. | .setBinding ..
  | .commitRolloutCompletion .. | .commitBoundRolloutCompletion .. | .acquireSummaryPlayback ..
  | .cancelSummaryPlayback _ | .finishSummaryPlayback _ => true
  | _ => false

def Pc.inCall : Pc → Bool
  | .idle | .returned _ => false
  | _ => true

/-- One step of the whole; an act that is not possible changes nothing. A process whose store does
    not open does not come up. -/
def act (env : Env P) (w : World) : Act P → World
  | .resume task => if w.pc.inCall then w else ⟨w.db, task, .resuming⟩
  | .run task request => if w.pc.inCall then w else ⟨w.db, task, .running request⟩
  | .worker choices =>
    let (db, pc) := workerStep env w.task choices w.db w.pc
    ⟨db, w.task, pc⟩
  | .daemon op => if Op.byDaemon op then { w with db := Store.step env w.db op } else w
  | .restart =>
    match reopen w.db with
    | (.ok _, db) => ⟨db, w.task, .idle⟩
    | (.error _, _) => w

def acts (env : Env P) (w : World) (as : List (Act P)) : World := as.foldl (act env) w

def World.init : World := ⟨Database.empty, "", .idle⟩

@[simp] theorem acts_nil (env : Env P) (w : World) : acts env w [] = w := rfl

@[simp] theorem acts_cons (env : Env P) (w : World) (a : Act P) (as : List (Act P)) :
    acts env w (a :: as) = acts env (act env w a) as := rfl

end CodexKeyboard.Summary
