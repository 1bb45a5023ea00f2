import CodexKeyboard.Store.Summary

/-! Playback leases: a summary is `leased` while the keyboard plays it, and becomes `heard` when the
    exact lease is finished. -/

namespace CodexKeyboard.Store

open Schemes Transact

variable {P : Type}

structure SummaryPlaybackLease where
  lease : Nat
  slot : Nat
  taskId : String
  summaryGeneration : Nat
  requestGeneration : Nat
  connectionGeneration : Nat
  cacheObject : String
  deriving DecidableEq, Repr

def playbackLeaseOk (env : Env P) (lease : SummaryPlaybackLease) : Bool :=
  let cacheMatches :=
    match CacheId.fromReference lease.cacheObject,
      CacheId.forTask env lease.taskId lease.summaryGeneration with
    | some actual, some expected => actual == expected
    | _, _ => false
  lease.lease != 0 && decide (lease.lease ≤ i64Max) && lease.summaryGeneration != 0 &&
  decide (lease.summaryGeneration ≤ i64Max) && lease.requestGeneration != 0 &&
  lease.connectionGeneration != 0 && env.uuidOk lease.taskId && cacheMatches

def validatePlaybackLease (env : Env P) (lease : SummaryPlaybackLease) : Except StoreError Unit := do
  validateSlot lease.slot
  ensure (playbackLeaseOk env lease = true) .invalidPlaybackLease

/-- The row of one exact lease: all six columns have to agree. -/
def LeaseRow.exact (lease : SummaryPlaybackLease) (l : LeaseRow) : Bool :=
  l.leaseId == lease.lease && l.taskId == lease.taskId &&
  l.summaryGeneration == lease.summaryGeneration && l.slot == lease.slot &&
  l.requestGeneration == lease.requestGeneration &&
  l.connectionGeneration == lease.connectionGeneration

def SummaryRow.lease (r : SummaryRow) : SummaryRow := { r with state := .leased }

/-- `CASE WHEN superseded_by IS NULL THEN 'unheard' ELSE 'superseded' END`. -/
def SummaryRow.release (r : SummaryRow) : SummaryRow :=
  { r with state := if r.supersededBy.isNone then .unheard else .superseded }

/-- Lease the unread generation that nobody plays yet. -/
def leaseUnread (slot requestGeneration connectionGeneration lease : Nat) (task : String)
    (row : SummaryRow) (cacheObject : String) (db : Database) :
    Except StoreError (Except StoreError (Option SummaryPlaybackLease) × Database) := do
  ensure (row.state = .unheard) .playbackBusy
  let target := fun r : SummaryRow => r.at task row.generation && r.state == .unheard &&
    r.supersededBy.isNone
  let changed := db.summaryLedger.countP target
  let tx ← db.putSummaries (Table.update target SummaryRow.lease db.summaryLedger)
  ensure (changed = 1) .playbackBusy
  let tx ← tx.putLeases (tx.summaryPlaybackLeases ++
    [⟨lease, task, row.generation, slot, requestGeneration, connectionGeneration⟩])
  .ok (.ok (some ⟨lease, slot, task, row.generation, requestGeneration, connectionGeneration,
    cacheObject⟩), tx)

/-- `acquire_summary_playback`. A lease that is there already is answered after the commit: again
    with the lease to its own holder, with `PlaybackBusy` to anybody else. -/
def acquireSummaryPlayback (slot requestGeneration connectionGeneration lease : Nat) :
    Database → Except StoreError (Option SummaryPlaybackLease) × Database :=
  committed fun db => do
    validateSlot slot
    ensure (requestGeneration ≠ 0 ∧ connectionGeneration ≠ 0 ∧ lease ≠ 0 ∧ lease ≤ i64Max)
      .invalidPlaybackLease
    match db.bindings.find? fun b => b.slot == slot with
    | none => .ok (.ok none, db)
    | some binding =>
      let task := binding.taskId
      match db.summaryLedger.find? fun r => r.taskId == task && r.currentUnread with
      | none => .ok (.ok none, db)
      | some row =>
        let cacheObject ← orThrow (.sqlite .fromSqlConversion) row.cacheObject
        match db.summaryPlaybackLeases.find? (LeaseRow.at task row.generation) with
        | some existing =>
          if existing.leaseId = lease ∧ existing.slot = slot ∧
              existing.requestGeneration = requestGeneration ∧
              existing.connectionGeneration = connectionGeneration then
            .ok (.ok (some ⟨lease, slot, task, row.generation, requestGeneration,
              connectionGeneration, cacheObject⟩), db)
          else .ok (.error .playbackBusy, db)
        | none =>
          leaseUnread slot requestGeneration connectionGeneration lease task row cacheObject db

def cancelSummaryPlayback (env : Env P) (lease : SummaryPlaybackLease) :
    Database → Except StoreError Bool × Database :=
  transaction fun db => do
    validatePlaybackLease env lease
    let removed := db.summaryPlaybackLeases.countP (LeaseRow.exact lease)
    let tx := { db with
      summaryPlaybackLeases := Table.delete (LeaseRow.exact lease) db.summaryPlaybackLeases }
    if removed = 1 then do
      let target := fun r : SummaryRow => r.at lease.taskId lease.summaryGeneration &&
        r.state == .leased
      let tx ← tx.putSummaries (Table.update target SummaryRow.release tx.summaryLedger)
      .ok (true, tx)
    else .ok (false, tx)

def finishSummaryPlayback (env : Env P) (lease : SummaryPlaybackLease) :
    Database → Except StoreError Bool × Database :=
  transaction fun db => do
    validatePlaybackLease env lease
    if db.summaryPlaybackLeases.any (LeaseRow.exact lease) then do
      let target := fun r : SummaryRow => r.at lease.taskId lease.summaryGeneration &&
        r.state == .leased && r.cacheObject == some lease.cacheObject
      let changed := db.summaryLedger.countP target
      let tx ← db.putSummaries
        (Table.update target (fun r => { r with state := .heard }) db.summaryLedger)
      ensure (changed = 1) .invalidSummaryState
      .ok (true, { tx with
        summaryPlaybackLeases := Table.delete (fun l => l.leaseId == lease.lease)
          tx.summaryPlaybackLeases })
    else .ok (false, db)

/-- `recover_interrupted_playback_leases`: no lease survives a restart. -/
def recoverInterruptedPlaybackLeases : Database → Except StoreError Unit × Database :=
  transaction fun db => do
    let tx ← db.putSummaries
      (Table.update (fun r => r.state == .leased) SummaryRow.release db.summaryLedger)
    .ok ((), { tx with summaryPlaybackLeases := [] })

/-- `retained_summary_cache_references`, before the set is sorted. -/
def retainedSummaryCacheReferences (db : Database) : List String :=
  (db.summaryLedger.filter fun r => r.state.unread).filterMap SummaryRow.cacheObject

end CodexKeyboard.Store
