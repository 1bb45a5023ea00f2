import CodexKeyboard.Cache.Objects
import CodexKeyboard.Schemes.Table

/-! The cache directory: `{task}/{generation}` holds the three objects of a finalized generation,
    `{task}/.tmp-{uuid}` a generation on its way in or out. The two kinds of names cannot clash, so
    they are two tables here.

    A directory holds fewer than `2 ^ 64` entries and bytes; the checked sums of the scan are plain
    sums. -/

namespace CodexKeyboard.Cache

open Schemes Transact Store Lan

variable {P : Type}

/-- A flat directory: file names and contents. -/
abbrev Files := List (String × List UInt8)

def Files.names (files : Files) : List String := files.map Prod.fst

structure Temporary where
  task : Digest
  uuid : String
  files : Files
  deriving DecidableEq

structure Generation where
  id : CacheId
  files : Files
  deriving DecidableEq

structure CacheRoot where
  tasks : List Digest
  temporaries : List Temporary
  generations : List Generation
  deriving DecidableEq

def CacheRoot.empty : CacheRoot := ⟨[], [], []⟩

def Temporary.at (task : Digest) (uuid : String) (t : Temporary) : Bool :=
  t.task == task && t.uuid == uuid

def CacheRoot.temporary (root : CacheRoot) (task : Digest) (uuid : String) : Option Temporary :=
  root.temporaries.find? (Temporary.at task uuid)

def CacheRoot.generation (root : CacheRoot) (id : CacheId) : Option Generation :=
  root.generations.find? fun g => g.id == id

/-! ### Looking -/

def kindNamed (name : String) : Option ObjectKind :=
  ObjectKind.all.find? fun kind => kind.fileName == name

/-- The loop of `inspect_final_directory`, with the sizes by kind. -/
def inspectFinalLoop : Files → List (ObjectKind × Nat) → Except CacheError (List (ObjectKind × Nat))
  | [], sizes => .ok sizes
  | (name, bytes) :: rest, sizes => do
    let kind ← orThrow .corrupt (kindNamed name)
    ensure (headerBytes + tagBytes ≤ bytes.length ∧
      bytes.length ≤ kind.maxPlaintextBytes + headerBytes + tagBytes) .corrupt
    ensure (kind ∉ sizes.map Prod.fst) .corrupt
    inspectFinalLoop rest (sizes ++ [(kind, bytes.length)])

def inspectFinalDirectory (files : Files) : Except CacheError Nat := do
  let sizes ← inspectFinalLoop files []
  ensure (sizes.length = ObjectKind.all.length) .corrupt
  .ok (sizes.map Prod.snd).sum

/-- The loop of `inspect_temporary_directory`: some of the objects, each perhaps in part. -/
def inspectTemporaryLoop : Files → List String → Nat → Except CacheError Nat
  | [], _, total => .ok total
  | (name, bytes) :: rest, names, total => do
    let kind ← orThrow .corrupt (kindNamed name)
    ensure (name ∉ names) .corrupt
    ensure (bytes.length ≤ kind.maxPlaintextBytes + headerBytes + tagBytes) .capacityExceeded
    inspectTemporaryLoop rest (names ++ [name]) (total + bytes.length)

def inspectTemporaryDirectory (files : Files) : Except CacheError Nat :=
  inspectTemporaryLoop files [] 0

structure CacheAudit where
  finalizedGenerations : Nat
  temporaryGenerations : Nat
  encryptedBytes : Nat
  deriving DecidableEq, Repr

structure CacheScan where
  audit : CacheAudit
  finalized : List CacheId
  temporaries : List (Digest × String)
  deriving DecidableEq

def CacheScan.addTemporary (scan : CacheScan) (t : Temporary) (bytes : Nat) : CacheScan where
  audit := { scan.audit with
    temporaryGenerations := scan.audit.temporaryGenerations + 1
    encryptedBytes := scan.audit.encryptedBytes + bytes }
  finalized := scan.finalized
  temporaries := scan.temporaries ++ [(t.task, t.uuid)]

def CacheScan.addGeneration (scan : CacheScan) (id : CacheId) (bytes : Nat) : CacheScan where
  audit := { scan.audit with
    finalizedGenerations := scan.audit.finalizedGenerations + 1
    encryptedBytes := scan.audit.encryptedBytes + bytes }
  finalized := scan.finalized ++ [id]
  temporaries := scan.temporaries

def scanTemporary (env : Env P) (scan : CacheScan) (t : Temporary) : Except CacheError CacheScan := do
  ensure (env.uuidOk t.uuid = true) .corrupt
  let bytes ← inspectTemporaryDirectory t.files
  .ok (scan.addTemporary t bytes)

def scanGeneration (scan : CacheScan) (g : Generation) : Except CacheError CacheScan := do
  let id ← orThrow .corrupt (CacheId.fromReference g.id.reference)
  let bytes ← inspectFinalDirectory g.files
  ensure (id ∉ scan.finalized) .corrupt
  .ok (scan.addGeneration id bytes)

/-- The size of the key marker, which is in every cache that is open. -/
def keyMarkerBytes : Nat := headerBytes + ObjectKind.keyCheck.maxPlaintextBytes + tagBytes

def scanUnlocked (env : Env P) (root : CacheRoot) : Except CacheError CacheScan := do
  let scan ← root.temporaries.foldlM (scanTemporary env) ⟨⟨0, 0, keyMarkerBytes⟩, [], []⟩
  root.generations.foldlM scanGeneration scan

section Reading

variable (c : Crypto) (rootKey : List UInt8)

def readObject (files : Files) (id : CacheId) (kind : ObjectKind) : Except CacheError (List UInt8) :=
  match files.lookup kind.fileName with
  | none => .error .missingObject
  | some bytes => do
    ensure (bytes.length ≤ kind.maxPlaintextBytes + (headerBytes + tagBytes)) .objectTooLarge
    decryptObject c rootKey id kind bytes

def readUnlocked (root : CacheRoot) (id : CacheId) : Except CacheError CacheBundle := do
  ensure (id.taskHash ∈ root.tasks) .missingObject
  let directory ← orThrow .missingObject (root.generation id)
  let manifestJson ← readObject c rootKey directory.files id .manifest
  let qwenWav ← readObject c rootKey directory.files id .qwenWav
  let deviceEiad ← readObject c rootKey directory.files id .deviceEiad
  let _ ← inspectFinalDirectory directory.files
  .ok ⟨manifestJson, qwenWav, deviceEiad⟩

end Reading

/-! ### Changing -/

/-- One step on disk. The files that are written or unlinked are always in a `.tmp-` directory; the
    two renames move one into place and out of it. -/
inductive FsStep where
  | createTask (task : Digest)
  | createTemporary (task : Digest) (uuid : String)
  | createFile (task : Digest) (uuid name : String)
  | write (task : Digest) (uuid name : String) (bytes : List UInt8)
  | finalize (id : CacheId) (uuid : String)
  | retire (id : CacheId) (uuid : String)
  | unlink (task : Digest) (uuid name : String)
  | removeTemporary (task : Digest) (uuid : String)
  | sync
  deriving DecidableEq

/-- What creating, writing and unlinking do to the files of a directory. -/
def Files.create (name : String) (files : Files) : Files := files ++ [(name, [])]

def Files.write (name : String) (bytes : List UInt8) (files : Files) : Files :=
  files.map fun f => if f.1 = name then (f.1, f.2 ++ bytes) else f

def Files.unlink (name : String) (files : Files) : Files := files.filter fun f => f.1 != name

def CacheRoot.edit (root : CacheRoot) (task : Digest) (uuid : String) (f : Files → Files) : CacheRoot :=
  { root with
    temporaries := Table.update (Temporary.at task uuid) (fun t => { t with files := f t.files })
      root.temporaries }

/-- The directory after one step; `none` is the error of the system call. -/
def FsStep.perform (root : CacheRoot) : FsStep → Option CacheRoot
  | .createTask task =>
    if task ∈ root.tasks then none else some { root with tasks := root.tasks ++ [task] }
  | .createTemporary task uuid =>
    if task ∈ root.tasks ∧ root.temporary task uuid = none then
      some { root with temporaries := root.temporaries ++ [⟨task, uuid, []⟩] }
    else none
  | .createFile task uuid name =>
    match root.temporary task uuid with
    | none => none
    | some t => if name ∈ t.files.names then none else some (root.edit task uuid (Files.create name))
  | .write task uuid name bytes =>
    match root.temporary task uuid with
    | none => none
    | some t =>
      if name ∈ t.files.names then some (root.edit task uuid (Files.write name bytes)) else none
  | .finalize id uuid =>
    match root.temporary id.taskHash uuid with
    | none => none
    | some t =>
      if root.generation id = none then
        some { root with
          temporaries := Table.delete (Temporary.at id.taskHash uuid) root.temporaries
          generations := root.generations ++ [⟨id, t.files⟩] }
      else none
  | .retire id uuid =>
    match root.generation id with
    | none => none
    | some g =>
      if root.temporary id.taskHash uuid = none then
        some { root with
          temporaries := root.temporaries ++ [⟨id.taskHash, uuid, g.files⟩]
          generations := Table.delete (fun g => g.id == id) root.generations }
      else none
  | .unlink task uuid name =>
    match root.temporary task uuid with
    | none => none
    | some t =>
      if name ∈ t.files.names then some (root.edit task uuid (Files.unlink name)) else none
  | .removeTemporary task uuid =>
    match root.temporary task uuid with
    | none => none
    | some t =>
      if t.files = [] then
        some { root with temporaries := Table.delete (Temporary.at task uuid) root.temporaries }
      else none
  | .sync => some root

end CodexKeyboard.Cache
