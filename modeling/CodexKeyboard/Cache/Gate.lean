import CodexKeyboard.Cache.Directory
import CodexKeyboard.Store.Ops

/-! The cache and the store together. One thread at a time is behind the gate of the cache, where it
    changes the directory step by step; transactions of the store commit at any moment in between.
    The process may stop after every step.

    The summary worker publishes behind the gate: first the bundle, then the ledger. The playback
    finisher reads the retained references behind the gate, and then removes what they do not name. -/

namespace CodexKeyboard.Cache

open Schemes Transact Schemes.Bytes Store Lan

variable {P : Type}

structure CacheLimits where
  maxTotalBytes : Nat
  maxGenerations : Nat

/-- What is fixed while the daemon runs. -/
structure Setup (P : Type) where
  env : Env P
  crypto : Crypto
  rootKey : List UInt8
  limits : CacheLimits

/-- A name `Uuid::new_v4` can return. -/
abbrev Uuid (env : Env P) := { uuid : String // env.uuidOk uuid = true }

/-- What one publication draws, and where the system cuts each of its writes. -/
structure Draw (env : Env P) where
  uuid : Uuid env
  seeds : ObjectKind → Seed
  cuts : ObjectKind → List Nat

/-! ### Steps on disk -/

/-- `write_all`: some first pieces, and the rest. -/
def writePieces (cuts : List Nat) (bytes : List UInt8) : List (List UInt8) :=
  chop bytes 0 cuts ++ [bytes.drop cuts.sum]

/-- `write_object`: create, write and sync one file. -/
def writeObject (task : Digest) (uuid name : String) (pieces : List (List UInt8)) : List FsStep :=
  .createFile task uuid name :: (pieces.map (.write task uuid name) ++ [.sync])

/-- One object of a publication. -/
def objectSteps (s : Setup P) (id : CacheId) (draw : Draw s.env) (kind : ObjectKind)
    (plaintext : List UInt8) : List FsStep :=
  writeObject id.taskHash draw.uuid kind.fileName (writePieces (draw.cuts kind)
    (encryptObject s.crypto s.rootKey id kind plaintext (draw.seeds kind)))

/-- The three objects, and the sync of their directory. -/
def fillSteps (s : Setup P) (id : CacheId) (bundle : CacheBundle) (draw : Draw s.env) : List FsStep :=
  objectSteps s id draw .manifest bundle.manifestJson ++
    objectSteps s id draw .qwenWav bundle.qwenWav ++
    objectSteps s id draw .deviceEiad bundle.deviceEiad ++ [.sync]

/-- `open_or_create_directory_at` for the task, and the temporary directory in it. -/
def prepareSteps (root : CacheRoot) (id : CacheId) (uuid : String) : List FsStep :=
  (if id.taskHash ∈ root.tasks then [] else [.createTask id.taskHash, .sync]) ++
    [.createTemporary id.taskHash uuid]

/-- `remove_flat_directory_at`. -/
def removeFlatDirectory (task : Digest) (uuid : String) (files : Files) : List FsStep :=
  files.names.map (.unlink task uuid) ++ [.sync, .removeTemporary task uuid]

def removeTemporary (root : CacheRoot) (t : Digest × String) : List FsStep :=
  match root.temporary t.1 t.2 with
  | none => []
  | some directory => removeFlatDirectory t.1 t.2 directory.files ++ [.sync]

/-- `remove_orphan_atomically`: out of the way first, under a fresh name, and then file by file. -/
def removeOrphanAtomically (root : CacheRoot) (id : CacheId) (uuid : String) : List FsStep :=
  match root.generation id with
  | none => []
  | some g =>
    [.retire id uuid, .sync] ++ removeFlatDirectory id.taskHash uuid g.files ++ [.sync]

/-- `reconcile_unlocked` up to its first removal. The gate is held, so every directory is removed as
    it was found here. -/
def reconcileUnlocked (s : Setup P) (root : CacheRoot) (references : List String)
    (uuids : CacheId → Uuid s.env) : Except CacheError (List FsStep) := do
  let expected ← references.mapM fun reference =>
    orThrow .invalidReference (CacheId.fromReference reference)
  let scan ← scanUnlocked s.env root
  ensure (∀ id ∈ expected, id ∈ scan.finalized) .missingReference
  let _ ← expected.mapM (readUnlocked s.crypto s.rootKey root)
  .ok (scan.temporaries.flatMap (removeTemporary root) ++
    (scan.finalized.filter (· ∉ expected)).flatMap fun id => removeOrphanAtomically root id (uuids id))

/-! ### Behind the gate -/

/-- A `publish_observed` that got as far as the disk. -/
structure Publishing where
  claim : SummaryClaim
  id : CacheId
  bundle : CacheBundle
  uuid : String
  fill : List FsStep

/-- Where the thread behind the gate is. -/
inductive Holder where
  | preparing (p : Publishing) (todo : List FsStep)
  /-- The objects are being written; once all are, the directory is renamed into place. -/
  | filling (p : Publishing) (todo : List FsStep)
  | settling (p : Publishing)
  /-- The bundle is about to be read back. After a publication it has to be the `expected` one. -/
  | authenticating (claim : SummaryClaim) (id : CacheId) (expected : Option CacheBundle)
  | committing (claim : SummaryClaim) (id : CacheId) (authenticated : CacheBundle)
  /-- The references are about to be read. -/
  | reconciling
  | removing (todo : List FsStep)

structure World where
  db : Database
  cache : CacheRoot
  gate : Option Holder
  /-- The bundle that was authenticated when a generation was published, the last one first. -/
  authenticated : List ((String × Nat) × CacheBundle)

def World.init : World := ⟨Database.empty, CacheRoot.empty, none, []⟩

/-- `CacheId::for_task` of a claim, whose generation is a `u64`. -/
def claimId (env : Env P) (claim : SummaryClaim) : Option CacheId :=
  if claim.generation ≤ u64Max then CacheId.forTask env claim.taskId claim.generation else none

/-- The checks of `publish_observed`. -/
def publishObserved (s : Setup P) (root : CacheRoot) (claim : SummaryClaim) (id : CacheId)
    (bundle : CacheBundle) (draw : Draw s.env) : Except CacheError Holder := do
  validateBundle bundle
  let scan ← scanUnlocked s.env root
  ensure (scan.audit.finalizedGenerations < s.limits.maxGenerations ∧
    scan.audit.encryptedBytes + encodedBundleBytes bundle ≤ s.limits.maxTotalBytes) .capacityExceeded
  ensure (root.generation id = none) .alreadyPublished
  .ok (.preparing ⟨claim, id, bundle, draw.uuid, fillSteps s id bundle draw⟩
    (prepareSteps root id draw.uuid))

/-- `publish_or_verify_with` up to its first step on disk, or up to reading back what is there. -/
def publishOrVerify (s : Setup P) (root : CacheRoot) (claim : SummaryClaim) (bundle : CacheBundle)
    (draw : Draw s.env) : Except CacheError Holder := do
  let id ← orThrow .invalidGeneration (claimId s.env claim)
  match readUnlocked s.crypto s.rootKey root id with
  | .ok existing =>
    ensure (existing = bundle) .alreadyPublished
    .ok (.authenticating claim id none)
  | .error .missingObject => publishObserved s root claim id bundle draw
  | .error e => .error e

/-- The next step on disk. -/
def Holder.fsStep : Holder → Option FsStep
  | .preparing _ (step :: _) | .filling _ (step :: _) | .removing (step :: _) => some step
  | .filling p [] => some (.finalize p.id p.uuid)
  | .settling _ => some .sync
  | _ => none

/-- Where the thread is once that step is done; `none` is out of the gate. -/
def Holder.advance : Holder → Option Holder
  | .preparing p (_ :: step :: rest) => some (.preparing p (step :: rest))
  | .preparing p _ => some (.filling p p.fill)
  | .filling p (_ :: rest) => some (.filling p rest)
  | .filling p [] => some (.settling p)
  | .settling p => some (.authenticating p.claim p.id (some p.bundle))
  | .removing (_ :: step :: rest) => some (.removing (step :: rest))
  | _ => none

/-- Where it is after a step that failed: a publication clears its directory away. -/
def Holder.fail (root : CacheRoot) : Holder → Option Holder
  | .filling p _ =>
    (root.temporary p.id.taskHash p.uuid).map fun directory =>
      .removing (removeFlatDirectory p.id.taskHash p.uuid directory.files)
  | _ => none

/-- What can happen next. -/
inductive Event (s : Setup P) where
  | store (op : Op P)
  /-- The worker enters `publish_or_verify_with` for a claim. -/
  | publish (claim : SummaryClaim) (bundle : CacheBundle) (draw : Draw s.env)
  /-- The worker enters `read_with` for a claim. -/
  | load (claim : SummaryClaim)
  /-- The finisher enters `reconcile_with`. -/
  | reconcile
  | references (uuids : CacheId → Uuid s.env)
  | proceed
  /-- The next step on disk reports an error, with or without having been applied. -/
  | fail (applied : Bool)
  /-- The bundle is read; `valid` is the verdict of the checks on manifest, WAV and EIAD. -/
  | authenticate (valid : Bool)
  /-- The transaction of `publish_summary`. -/
  | commit
  | crash

def publishes : Op P → Bool
  | .publishSummary .. => true
  | _ => false

/-- What an error of the checks leaves of a thread that was about to hold the gate. -/
def entered : Except CacheError Holder → Option Holder
  | .ok holder => some holder
  | .error _ => none

/-- An event that cannot happen changes nothing. -/
def next (s : Setup P) (w : World) : Event s → World
  -- the ledger is only ever published from behind the gate
  | .store op => if publishes op then w else { w with db := step s.env w.db op }
  | .publish claim bundle draw =>
    if w.gate.isNone then
      { w with gate := entered (publishOrVerify s w.cache claim bundle draw) }
    else w
  | .load claim =>
    if w.gate.isNone then
      { w with gate := (claimId s.env claim).map fun id => .authenticating claim id none }
    else w
  | .reconcile => if w.gate.isNone then { w with gate := some .reconciling } else w
  | .references uuids =>
    match w.gate with
    | some .reconciling =>
      match reconcileUnlocked s w.cache (retainedSummaryCacheReferences w.db) uuids with
      | .ok (step :: rest) => { w with gate := some (.removing (step :: rest)) }
      | _ => { w with gate := none }
    | _ => w
  | .proceed =>
    match w.gate with
    | none => w
    | some holder =>
      match holder.fsStep with
      | none => w
      | some step =>
        match step.perform w.cache with
        | some cache => { w with cache := cache, gate := holder.advance }
        | none => { w with gate := holder.fail w.cache }
  | .fail applied =>
    match w.gate with
    | none => w
    | some holder =>
      match holder.fsStep with
      | none => w
      | some step =>
        let cache := if applied then (step.perform w.cache).getD w.cache else w.cache
        { w with cache := cache, gate := holder.fail cache }
  | .authenticate valid =>
    match w.gate with
    | some (.authenticating claim id expected) =>
      match readUnlocked s.crypto s.rootKey w.cache id with
      | .ok bundle =>
        if expected.all (· == bundle) && valid then
          { w with gate := some (.committing claim id bundle) }
        else { w with gate := none }
      | .error _ => { w with gate := none }
    | _ => w
  | .commit =>
    match w.gate with
    | some (.committing claim id bundle) =>
      match publishSummary s.env claim id.reference w.db with
      | (.ok _, db) => { w with
          db := db
          gate := none
          authenticated := ((claim.taskId, claim.generation), bundle) :: w.authenticated }
      | (.error _, db) => { w with db := db, gate := none }
    | _ => w
  | .crash => { w with gate := none }

/-- The world after a sequence of events. -/
def World.run (s : Setup P) (w : World) (events : List (Event s)) : World := events.foldl (next s) w

end CodexKeyboard.Cache
