import CodexKeyboard.Store.Schema

/-! Slot bindings and the completion ledger: `set_binding`, `rollout_cursor` and the one transaction
    that records an observed completion together with the rollout cursor behind it. -/

namespace CodexKeyboard.Store

open Schemes Transact

variable {P : Type}

structure RolloutCursor (P : Type) where
  taskId : String
  rolloutPath : P
  device : Nat
  inode : Nat
  offset : Nat
  generation : Nat
  anchor : Digest

inductive CompletionOutcome where
  | inserted | replay
  deriving DecidableEq, Repr

/-- The generation a changed binding gets. -/
def nextBindingGeneration : Option Nat → Except StoreError Nat
  | some value => do
    ensure (value < u64Max) .generationOutOfRange
    toI64 (value + 1)
  | none => toI64 1

/-- `set_binding`; `none` when another writer moved the generation. -/
def setBinding (slot : Nat) (expectedGeneration : Option Nat) (taskId : String) :
    Database → Except StoreError (Option Binding) × Database :=
  transaction fun db => do
    validateSlot slot
    let current := db.bindings.find? fun b => b.slot == slot
    if current.map Binding.generation ≠ expectedGeneration then .ok (none, db) else do
    let generation ← nextBindingGeneration expectedGeneration
    let row : Binding := ⟨slot, taskId, generation⟩
    let tx ← db.putBindings (if current.isSome
      then Table.update (fun b => b.slot == slot) (fun _ => row) db.bindings
      else db.bindings ++ [row])
    .ok (some row, tx)

/-- `query_bindings`: `ORDER BY slot ASC LIMIT 4`. -/
def queryBindings (db : Database) : List Binding := (Table.orderBy Binding.slot db.bindings).take 4

def mapRolloutCursor (env : Env P) (row : CursorRow) : Except StoreError (RolloutCursor P) := do
  let path ← orThrow (.sqlite .fromSqlConversion) (env.decodePath row.rolloutPath)
  if h : row.anchor.toArray.size = 32 then
    .ok ⟨row.taskId, path, row.device, row.inode, row.offset, row.generation, ⟨row.anchor.toArray, h⟩⟩
  else .error (.sqlite .fromSqlConversion)

/-- `query_rollout_cursor`. -/
def queryRolloutCursor (env : Env P) (db : Database) (task : String) :
    Except StoreError (Option (RolloutCursor P)) :=
  match db.rolloutCursors.find? fun c => c.taskId == task with
  | none => .ok none
  | some row => (mapRolloutCursor env row).map some

/-- The derived `==` of two cursors; paths compare by component. -/
def sameCursor (env : Env P) (a b : RolloutCursor P) : Bool :=
  a.taskId == b.taskId && env.samePath a.rolloutPath b.rolloutPath && a.device == b.device &&
  a.inode == b.inode && a.offset == b.offset && a.generation == b.generation && a.anchor == b.anchor

def sameCursor? (env : Env P) : Option (RolloutCursor P) → Option (RolloutCursor P) → Bool
  | none, none => true
  | some a, some b => sameCursor env a b
  | _, _ => false

def rolloutTransitionOk (env : Env P) (expected : Option (RolloutCursor P)) (next : RolloutCursor P) :
    Bool :=
  match expected with
  | none => next.generation == 1
  | some previous =>
    previous.taskId == next.taskId &&
    ((env.samePath previous.rolloutPath next.rolloutPath && previous.device == next.device &&
      previous.inode == next.inode && previous.generation == next.generation &&
      decide (previous.offset ≤ next.offset)) ||
     next.generation == min (previous.generation + 1) u64Max)

def rolloutCompletionOk (env : Env P) (expected : Option (RolloutCursor P)) (next : RolloutCursor P)
    (completionId turnPack : String) : Bool :=
  let path := env.encodePath next.rolloutPath
  let baseValid := env.uuidOk next.taskId && env.uuidOk completionId &&
    env.isAbsolute next.rolloutPath && !path.isEmpty && decide (path.length ≤ maxRolloutPathBytes) &&
    !env.containsNul next.rolloutPath && decide (0 < next.generation) &&
    next.anchor != Vector.replicate 32 0 && turnPack != "" &&
    decide (turnPack.utf8ByteSize ≤ maxTurnPackBytes) && env.jsonObject turnPack
  baseValid && rolloutTransitionOk env expected next

def validateRolloutCompletion (env : Env P) (expected : Option (RolloutCursor P))
    (next : RolloutCursor P) (completionId turnPack : String) : Except StoreError Unit :=
  ensure (rolloutCompletionOk env expected next completionId turnPack = true) .invalidCompletion

/-- The row an observed completion becomes. -/
def completionRow (next : RolloutCursor P) (completionId turnPack : String) (now : Int) :
    CompletionRow where
  completionId := completionId
  taskId := next.taskId
  rolloutCursor := (next.generation, next.offset)
  observedAt := now
  summarizedGeneration := none
  turnPack := turnPack

/-- The cursor row of `next`; every integer has to fit SQLite. -/
def cursorRow (env : Env P) (next : RolloutCursor P) : Except StoreError CursorRow := do
  let device ← toSqlI64 next.device
  let inode ← toSqlI64 next.inode
  let offset ← toSqlI64 next.offset
  let generation ← toSqlI64 next.generation
  .ok ⟨next.taskId, env.encodePath next.rolloutPath, device, inode, offset, generation,
    next.anchor.toList⟩

/-- `INSERT … ON CONFLICT(task_id) DO UPDATE` on `rollout_cursors`. -/
def upsertCursor (row : CursorRow) (t : List CursorRow) : List CursorRow :=
  if t.any (fun c => c.taskId == row.taskId)
  then Table.update (fun c => c.taskId == row.taskId) (fun _ => row) t
  else t ++ [row]

/-- The binding an observer worked under has to be unchanged when its completion is committed. -/
def checkBinding (binding : Option Binding) (db : Database) : Except StoreError Unit :=
  match binding with
  | none => .ok ()
  | some b => do
    let generation ← toI64 b.generation
    ensure (db.bindings.any (fun row => row.slot == b.slot && row.taskId == b.taskId &&
      row.generation == generation) = true) .bindingChanged

/-- Record the completion unless it is known already. -/
def insertCompletion (next : RolloutCursor P) (completionId turnPack : String) (now : Int)
    (db : Database) : Except StoreError (CompletionOutcome × Database) :=
  match db.completionLedger.find? fun c => c.completionId == completionId with
  | some existing => do
    ensure (existing.taskId = next.taskId) .completionConflict
    .ok (.replay, db)
  | none => do
    let tx ← db.putCompletions (db.completionLedger ++ [completionRow next completionId turnPack now])
    .ok (.inserted, tx)

/-- `commit_rollout_completion_on`; `now` is `unixepoch()`. -/
def commitRolloutCompletionOn (env : Env P) (binding : Option Binding)
    (expected : Option (RolloutCursor P)) (next : RolloutCursor P) (completionId turnPack : String)
    (now : Int) : Database → Except StoreError CompletionOutcome × Database :=
  transaction fun db => do
    validateRolloutCompletion env expected next completionId turnPack
    checkBinding binding db
    let current ← queryRolloutCursor env db next.taskId
    ensure (sameCursor? env current expected = true) .rolloutCursorChanged
    let (outcome, tx) ← insertCompletion next completionId turnPack now db
    let row ← cursorRow env next
    let tx ← tx.putCursors (upsertCursor row tx.rolloutCursors)
    .ok (outcome, tx)

def commitRolloutCompletion (env : Env P) (expected : Option (RolloutCursor P))
    (next : RolloutCursor P) (completionId turnPack : String) (now : Int) :
    Database → Except StoreError CompletionOutcome × Database :=
  commitRolloutCompletionOn env none expected next completionId turnPack now

def commitBoundRolloutCompletion (env : Env P) (binding : Binding)
    (expected : Option (RolloutCursor P)) (next : RolloutCursor P) (completionId turnPack : String)
    (now : Int) : Database → Except StoreError CompletionOutcome × Database :=
  commitRolloutCompletionOn env (some binding) expected next completionId turnPack now

end CodexKeyboard.Store
