import CodexKeyboard.Summary.Wedge

/-! `run_ready` of the summary worker: the loop around `resume` and `run`, with its waits.

    The clock is a number of milliseconds that only the environment moves. Every answer of the model,
    the cache, the speech synthesis and the database is the environment's, and the daemon's
    transactions may come between any two steps. What a call pays for is written down with its time. -/

namespace CodexKeyboard.Summary

open Store Schemes Transact

variable {P : Type}

def pollInterval : Nat := 250
def failureBackoff : Nat := 30 * 1000
def summaryWorkTaskLimit : Nat := 32

/-- `summary_work_tasks_after`. -/
def summaryWorkTasksAfter (env : Env P) (db : Database) (after : Option String) :
    Except StoreError (List String) := do
  let interrupted := (db.summaryLedger.filter (·.state == .interrupted)).map (·.taskId)
  let uncovered := (db.completionLedger.filter (·.summarizedGeneration == none)).map (·.taskId)
  let tasks := (((interrupted ++ uncovered).dedup.filter fun task =>
    after.all (· < task)).insertionSort (· ≤ ·)).take summaryWorkTaskLimit
  ensure (tasks.all env.uuidOk = true) .invalidSummaryState
  .ok tasks

/-- A billed synthesis, and a claim that was published. -/
inductive Entry
  | synthesize (task : String) (claim : SummaryClaim) (time : Nat)
  | publish (claim : SummaryClaim)
deriving DecidableEq

/-- Where the loop stands: at its head, asleep, before the next task of the scan, or in a call. -/
inductive LoopPc
  | scanning
  | sleeping (deadline : Nat)
  | next (tasks : List String)
  | calling (tasks : List String) (resuming : Bool)
  | done
deriving DecidableEq

/-- `world` is the store and the call being made; `scanAfter` and `retryAfter` are the loop's own. -/
structure Runner where
  world : World
  now : Nat := 0
  shutdown : Bool := false
  retryAfter : String → Option Nat := fun _ => none
  scanAfter : Option String := none
  pc : LoopPc := .scanning
  log : List Entry := []

/-- The answers of one step: those of the services, and a failure of the database, which may come
    before or after the transaction took effect. -/
structure Answers where
  choices : Choices := {}
  fault : Option (StoreError × Bool) := none
  request : String := ""

inductive RunnerAct (P : Type) where
  | wait (time : Nat)
  | daemon (op : Op P)
  | shutdown
  | work (answers : Answers)

theorem recoverAuthenticatedCache_some {env : Env P} {claim : SummaryClaim} {cache : CacheRead}
    {db db' : Database} {outcome : SummaryRunOutcome}
    (h : recoverAuthenticatedCache env claim cache db = (.ok (some outcome), db')) :
    ∃ unread, outcome = .published unread true := by
  unfold recoverAuthenticatedCache at h
  split at h
  · simp at h
  · simp at h
  · split at h
    · simp at h
    · split at h
      · simp at h
      · simp only [Prod.mk.injEq, Except.ok.injEq, Option.some.injEq] at h
        exact ⟨_, h.1.symm⟩

theorem recoverAuthenticatedCache_none {env : Env P} {claim : SummaryClaim} {cache : CacheRead}
    {db db' : Database} (h : recoverAuthenticatedCache env claim cache db = (.ok none, db')) :
    cache = .missingObject := by
  unfold recoverAuthenticatedCache at h
  split at h
  · rfl
  · simp at h
  · split at h
    · simp at h
    · split at h <;> simp at h

namespace Runner

/-- The step calls the store. -/
def callsStore (env : Env P) (choices : Choices) : Pc → Bool
  | .resuming | .running _ | .checkingAttempt _ | .beginning _ | .abandoning .. => true
  | .recovering claim _ =>
    match choices.cache with
    | .loaded summary => (summary.validateExpectedCovers env (SummaryClaim.expected claim)).isOk
    | _ => false
  | .publishing _ => choices.cacheCommitted
  | _ => false

/-- What a failed store call makes of the call it is in. -/
def faultPc (e : StoreError) : Pc → Pc
  | .recovering claim true => .abandoning claim (.error (.store e))
  | .resuming | .running _ | .recovering _ false | .checkingAttempt _ | .beginning _ | .publishing _
  | .abandoning .. => .returned (.error (.store e))
  | pc => pc

/-- One step of a call of the orchestrator. -/
def callStep (env : Env P) (answers : Answers) (w : World) : World :=
  let (db, pc) := workerStep env w.task answers.choices w.db w.pc
  match answers.fault with
  | some (e, committed) =>
    if callsStore env answers.choices w.pc then
      ⟨if committed then db else w.db, w.task, faultPc e w.pc⟩
    else ⟨db, w.task, pc⟩
  | none => ⟨db, w.task, pc⟩

/-- What a step of a call pays for, or publishes. -/
def entries (now : Nat) (w w' : World) : List Entry :=
  match w.pc with
  | .synthesizing claim => [.synthesize w.task claim now]
  | .publishing claim | .recovering claim _ =>
    match w'.pc with
    | .returned (.ok (.published ..)) => [.publish claim]
    | _ => []
  | _ => []

/-- What `run_ready` makes of the result of a call. -/
def settle (r : Runner) (task : String) : CallResult → String → Option Nat
  | .ok _ => Function.update r.retryAfter task none
  | .error _ => Function.update r.retryAfter task (some (r.now + failureBackoff))

/-- One step of `run_ready`. -/
def work (env : Env P) (r : Runner) (answers : Answers) : Runner :=
  match r.pc with
  | .scanning =>
    if r.shutdown then { r with pc := .done }
    else
      let tasks : Except StoreError (List String) := match answers.fault with
        | some (e, _) => .error e
        | none => summaryWorkTasksAfter env r.world.db r.scanAfter
      match tasks with
      | .error _ => { r with pc := .sleeping (r.now + failureBackoff) }
      | .ok [] => { r with scanAfter := none, pc := .sleeping (r.now + pollInterval) }
      | .ok tasks => { r with scanAfter := tasks.getLast?, pc := .next tasks }
  | .sleeping deadline => if r.shutdown ∨ deadline ≤ r.now then { r with pc := .scanning } else r
  | .next [] => { r with pc := .sleeping (r.now + pollInterval) }
  | .next (task :: tasks) =>
    if r.shutdown then { r with pc := .sleeping (r.now + pollInterval) }
    else if (r.retryAfter task).any (r.now < ·) then { r with pc := .next tasks }
    else { r with world := ⟨r.world.db, task, .resuming⟩, pc := .calling tasks true }
  | .calling tasks resuming =>
    match r.world.pc with
    | .returned (.ok .idle) =>
      if resuming then
        { r with world := ⟨r.world.db, r.world.task, .running answers.request⟩
                 pc := .calling tasks false }
      else { r with retryAfter := r.settle r.world.task (.ok .idle), pc := .next tasks }
    | .returned result => { r with retryAfter := r.settle r.world.task result, pc := .next tasks }
    | _ =>
      let world := callStep env answers r.world
      { r with world := world, log := r.log ++ entries r.now r.world world }
  | .done => r

def act (env : Env P) (r : Runner) : RunnerAct P → Runner
  | .wait time => { r with now := r.now + time }
  | .daemon op => { r with world := Summary.act env r.world (.daemon op) }
  | .shutdown => { r with shutdown := true }
  | .work answers => r.work env answers

def acts (env : Env P) (r : Runner) (as : List (RunnerAct P)) : Runner := as.foldl (act env) r

/-- A call of `run_ready` on some database; `run` enters it with an empty map. -/
def start (db : Database) : Runner := { world := ⟨db, "", .idle⟩ }

/-- After a synthesis whose claim was not published the task waits out the backoff. -/
def Spaced (log : List Entry) : Prop :=
  ∀ before task claim time between claim' time' after,
    log = before ++ .synthesize task claim time :: between ++ .synthesize task claim' time' :: after →
    .publish claim ∉ between → time + failureBackoff ≤ time'

/-- The audio comes back in the voice asked for, or its failure is a plain one. -/
def PlainAnswer : Except TtsError String → Prop
  | .ok voice => voice = summaryTtsVoice
  | .error e => e ≠ .ambiguousAfterCommit

/-- The answer to a synthesis, or to the second look into the cache, does not end the call idle. -/
def ReportedStep (choices : Choices) : Pc → Prop
  | .synthesizing _ => PlainAnswer choices.synthesized
  | .recovering _ true => choices.cache ≠ .missingObject
  | _ => True

def Reported (r : Runner) : RunnerAct P → Prop
  | .work answers => ReportedStep answers.choices r.world.pc
  | _ => True

/-- Every step of a run is. -/
def ReportedRun (env : Env P) : Runner → List (RunnerAct P) → Prop
  | _, [] => True
  | r, a :: as => r.Reported a ∧ ReportedRun env (act env r a) as

/-! ### What a call still owes after a synthesis -/

variable {env : Env P} {answers : Answers} {w : World} {r : Runner}

/-- A call that has paid for `claim` and neither published it nor ended idle. -/
inductive Owing (claim : SummaryClaim) : Pc → Prop
  | publishing : Owing claim (.publishing claim)
  | recovering : Owing claim (.recovering claim true)
  | abandoning (e : SummaryOrchestratorError) : Owing claim (.abandoning claim (.error e))
  | returned (e : SummaryOrchestratorError) : Owing claim (.returned (.error e))

theorem callStep_task (env : Env P) (answers : Answers) (w : World) :
    (callStep env answers w).task = w.task := by
  rcases hfault : answers.fault with _ | ⟨e, committed⟩ <;> simp only [callStep, hfault]
  split <;> rfl

/-- A step of a call ends where the worker's step does, or where the store's failure takes it. -/
theorem callStep_pc (env : Env P) (answers : Answers) (w : World) :
    (callStep env answers w).pc = (workerStep env w.task answers.choices w.db w.pc).2 ∨
    ∃ e, callsStore env answers.choices w.pc = true ∧ (callStep env answers w).pc = faultPc e w.pc := by
  rcases hfault : answers.fault with _ | ⟨e, committed⟩ <;> simp only [callStep, hfault]
  · exact Or.inl trivial
  · split
    next hcalls => exact Or.inr ⟨e, hcalls, rfl⟩
    next => exact Or.inl rfl

/-- Once paid for, a bundle is published, or the call keeps owing it. -/
theorem Owing.step {claim : SummaryClaim} (now : Nat) (h : Owing claim w.pc)
    (hreturned : ∀ result, w.pc ≠ .returned result)
    (hlook : ReportedStep answers.choices w.pc) :
    Owing claim (callStep env answers w).pc ∨
      entries now w (callStep env answers w) = [.publish claim] := by
  have hpc := callStep_pc env answers w
  generalize callStep env answers w = w' at hpc ⊢
  obtain ⟨db, task, pc⟩ := w
  simp only at h hreturned hlook hpc ⊢
  cases h with
  | publishing =>
    rcases hpc with hpc | ⟨e, -, hpc⟩
    · simp only [workerStep] at hpc
      split at hpc
      · split at hpc
        · exact Or.inl (hpc ▸ .returned _)
        · exact Or.inr (by simp [entries, hpc])
      · exact Or.inl (hpc ▸ .recovering)
    · exact Or.inl (hpc ▸ .returned _)
  | recovering =>
    rcases hpc with hpc | ⟨e, -, hpc⟩
    · simp only [workerStep] at hpc
      split at hpc
      next outcome db' hres =>
        obtain ⟨unread, rfl⟩ := recoverAuthenticatedCache_some hres
        exact Or.inr (by simp [entries, hpc])
      next db' hres => exact absurd (recoverAuthenticatedCache_none hres) hlook
      next e db' hres => exact Or.inl (hpc ▸ .abandoning _)
    · exact Or.inl (hpc ▸ .abandoning _)
  | abandoning e =>
    rcases hpc with hpc | ⟨e', -, hpc⟩
    · simp only [workerStep, abandonStep] at hpc
      split at hpc <;> exact Or.inl (hpc ▸ .returned _)
    · exact Or.inl (hpc ▸ .returned _)
  | returned e => exact absurd rfl (hreturned _)

/-- A synthesis that is answered neither ambiguously nor in another voice leaves its claim owing. -/
theorem owing_of_synthesizing {claim : SummaryClaim} (hpc : w.pc = .synthesizing claim)
    (hanswer : PlainAnswer answers.choices.synthesized) :
    Owing claim (callStep env answers w).pc := by
  rcases callStep_pc env answers w with hstep | ⟨e, hcalls, -⟩
  · rw [hstep, hpc]
    simp only [workerStep]
    split
    next voice hok =>
      rw [hok] at hanswer
      have hvoice : voice = summaryTtsVoice := hanswer
      rw [if_pos hvoice]
      exact .publishing
    next herror =>
      rw [herror] at hanswer
      exact absurd rfl hanswer
    next e herror hne => exact .abandoning _
  · rw [hpc] at hcalls
    cases hcalls

/-- A call writes at most one line, and a synthesis only from where it is asked for. -/
theorem entries_cases (now : Nat) (w w' : World) :
    entries now w w' = [] ∨
    (∃ claim, w.pc = .synthesizing claim ∧ entries now w w' = [.synthesize w.task claim now]) ∨
    ∃ claim, entries now w w' = [.publish claim] := by
  unfold entries
  split
  next claim hpc => exact Or.inr (Or.inl ⟨claim, hpc, rfl⟩)
  next claim hpc =>
    split
    · exact Or.inr (Or.inr ⟨claim, rfl⟩)
    · exact Or.inl rfl
  next claim again hpc =>
    split
    · exact Or.inr (Or.inr ⟨claim, rfl⟩)
    · exact Or.inl rfl
  · exact Or.inl rfl

/-! ### The invariant of a run -/

/-- The task of an unpublished synthesis made at `time` is still in the call, or may not be called
    before the backoff is over, or the backoff is over. -/
def Delayed (r : Runner) (task : String) (claim : SummaryClaim) (time : Nat) : Prop :=
  ((∃ tasks resuming, r.pc = .calling tasks resuming) ∧ r.world.task = task ∧ Owing claim r.world.pc) ∨
  (∃ deadline, r.retryAfter task = some deadline ∧ time + failureBackoff ≤ deadline) ∨
  time + failureBackoff ≤ r.now

structure Paced (r : Runner) : Prop where
  past : ∀ task claim time, .synthesize task claim time ∈ r.log → time ≤ r.now
  ready : ∀ tasks resuming, r.pc = .calling tasks resuming →
    ∀ deadline, r.retryAfter r.world.task = some deadline → deadline ≤ r.now
  delayed : ∀ before task claim time later, r.log = before ++ .synthesize task claim time :: later →
    .publish claim ∉ later → Delayed r task claim time
  spaced : Spaced r.log

theorem paced_start (db : Database) : Paced (start db) :=
  ⟨by simp [start], by simp [start], by simp [start], by simp [Spaced, start]⟩

/-- A step that writes nothing keeps the pace when it keeps what delays the unpublished ones. -/
theorem Paced.of_log {r' : Runner} (h : Paced r) (hlog : r'.log = r.log) (hnow : r.now ≤ r'.now)
    (hready : ∀ tasks resuming, r'.pc = .calling tasks resuming →
      ∀ deadline, r'.retryAfter r'.world.task = some deadline → deadline ≤ r'.now)
    (hdelayed : ∀ task claim time, .synthesize task claim time ∈ r.log → Delayed r task claim time →
      Delayed r' task claim time) : Paced r' where
  past task claim time hmem := Nat.le_trans (h.past task claim time (hlog ▸ hmem)) hnow
  ready := hready
  delayed before task claim time later hsplit hnot := by
    rw [hlog] at hsplit
    exact hdelayed task claim time (by simp [hsplit]) (h.delayed before task claim time later hsplit hnot)
  spaced := hlog ▸ h.spaced

/-- Between two calls only the map and the clock count. -/
theorem Delayed.between {r' : Runner} {task : String} {claim : SummaryClaim} {time : Nat}
    (h : Delayed r task claim time)
    (hcall : ∀ tasks resuming, r.pc = .calling tasks resuming → ∀ claim, ¬ Owing claim r.world.pc)
    (hretry : r'.retryAfter = r.retryAfter) (hnow : r.now ≤ r'.now) : Delayed r' task claim time := by
  rcases h with ⟨⟨tasks, resuming, hpc⟩, -, howing⟩ | hdeadline | hover
  · exact absurd howing (hcall tasks resuming hpc claim)
  · exact Or.inr (Or.inl (by rwa [hretry]))
  · exact Or.inr (Or.inr (Nat.le_trans hover hnow))

/-- The end of a call: an error delays the task, and without one nothing is owed. -/
theorem Paced.settled {tasks : List String} {resuming : Bool} {result : CallResult} (h : Paced r)
    (hpc : r.pc = .calling tasks resuming) (hreturned : r.world.pc = .returned result) :
    Paced { r with retryAfter := r.settle r.world.task result, pc := .next tasks } := by
  refine h.of_log rfl (Nat.le_refl _) (by simp) ?_
  rintro task claim time hmem (⟨-, htask, howing⟩ | ⟨deadline, hdeadline, hle⟩ | hover)
  · rw [hreturned] at howing
    cases howing with
    | returned e =>
      refine Or.inr (Or.inl ⟨r.now + failureBackoff, ?_, ?_⟩)
      · simp [settle, htask]
      · exact Nat.add_le_add_right (h.past task claim time hmem) _
  · by_cases htask : task = r.world.task
    · subst htask
      exact Or.inr (Or.inr (Nat.le_trans hle (h.ready tasks resuming hpc deadline hdeadline)))
    · refine Or.inr (Or.inl ⟨deadline, ?_, hle⟩)
      cases result <;> simp only [settle, Function.update_of_ne htask, hdeadline]
  · exact Or.inr (Or.inr hover)

/-- A line of the log, and what is before and after it once another line was written. -/
theorem append_split {α : Type} {log before later : List α} {x y : α}
    (h : log ++ [x] = before ++ y :: later) :
    (later = [] ∧ before = log ∧ x = y) ∨ ∃ later', later = later' ++ [x] ∧ log = before ++ y :: later' := by
  rcases List.eq_nil_or_concat later with rfl | ⟨later', z, rfl⟩
  · obtain ⟨hlog, hx⟩ := List.append_inj' h rfl
    exact Or.inl ⟨rfl, hlog.symm, by simpa using hx⟩
  · rw [List.concat_eq_append, ← List.cons_append, ← List.append_assoc] at h
    obtain ⟨hlog, hx⟩ := List.append_inj' h rfl
    obtain rfl : x = z := by simpa using hx
    exact Or.inr ⟨later', List.concat_eq_append, hlog⟩

/-- A log stays spaced under a line that is no synthesis, or comes late enough after every
    unpublished one. -/
theorem Spaced.append {log : List Entry} {x : Entry} (h : Spaced log)
    (hx : ∀ task claim' time', x = .synthesize task claim' time' → ∀ before claim time later,
      log = before ++ .synthesize task claim time :: later → .publish claim ∉ later →
      time + failureBackoff ≤ time') : Spaced (log ++ [x]) := by
  rintro before task claim time between claim' time' after hsplit hnot
  rcases append_split hsplit with ⟨-, hlog, hlast⟩ | ⟨after', -, hlog⟩
  · exact hx task claim' time' hlast before claim time between hlog.symm hnot
  · exact h before task claim time between claim' time' after' hlog hnot

/-- A step of a call that has not returned. -/
theorem Paced.call {tasks : List String} {resuming : Bool} (h : Paced r)
    (hpc : r.pc = .calling tasks resuming) (hreturned : ∀ result, r.world.pc ≠ .returned result)
    (hrep : r.Reported (.work answers : RunnerAct P)) :
    Paced { r with world := callStep env answers r.world
                   log := r.log ++ entries r.now r.world (callStep env answers r.world) } := by
  have htask := callStep_task env answers r.world
  have hready : ∀ tasks' resuming', r.pc = .calling tasks' resuming' →
      ∀ deadline, r.retryAfter (callStep env answers r.world).task = some deadline →
        deadline ≤ r.now := by
    rintro tasks' resuming' hpc' deadline hdeadline
    rw [htask] at hdeadline
    exact h.ready tasks' resuming' hpc' deadline hdeadline
  -- what was delayed stays so, unless this step publishes it
  have hkept : ∀ task claim time, Delayed r task claim time →
      entries r.now r.world (callStep env answers r.world) ≠ [.publish claim] →
      Delayed { r with world := callStep env answers r.world
                       log := r.log ++ entries r.now r.world (callStep env answers r.world) }
        task claim time := by
    rintro task claim time (⟨hcall, rfl, howing⟩ | hdeadline | hover) hnot
    · refine Or.inl ⟨hcall, htask, ?_⟩
      rcases @Owing.step P env answers r.world claim r.now howing hreturned hrep with hstill | hpub
      · exact hstill
      · exact absurd hpub hnot
    · exact Or.inr (Or.inl hdeadline)
    · exact Or.inr (Or.inr hover)
  rcases entries_cases r.now r.world (callStep env answers r.world) with
    hnone | ⟨claim, hsynth, hline⟩ | ⟨claim, hline⟩
  · refine h.of_log (by simp [hnone]) (Nat.le_refl _) hready ?_
    rintro task claim time - hdelayed
    exact hkept task claim time hdelayed (by simp [hnone])
  · -- nothing is owed where a synthesis is asked for, so what is unpublished has waited
    have hwaited : ∀ claim' time, Delayed r r.world.task claim' time → time + failureBackoff ≤ r.now := by
      rintro claim' time (⟨-, -, howing⟩ | ⟨deadline, hdeadline, hle⟩ | hover)
      · rw [hsynth] at howing
        cases howing
      · exact Nat.le_trans hle (h.ready tasks resuming hpc deadline hdeadline)
      · exact hover
    refine ⟨?_, hready, ?_, ?_⟩
    · rintro task claim' time hmem
      simp only [hline, List.mem_append, List.mem_singleton] at hmem
      rcases hmem with hmem | hmem
      · exact h.past task claim' time hmem
      · cases hmem
        exact Nat.le_refl _
    · rintro before task claim' time later hsplit hnot
      simp only [hline] at hsplit
      rcases append_split hsplit with ⟨-, -, hnew⟩ | ⟨later', rfl, hlog⟩
      · cases hnew
        have hanswer : ReportedStep answers.choices r.world.pc := hrep
        rw [hsynth] at hanswer
        exact Or.inl ⟨⟨tasks, resuming, hpc⟩, htask, owing_of_synthesizing hsynth hanswer⟩
      · refine hkept task claim' time (h.delayed before task claim' time later' hlog ?_) (by simp [hline])
        exact fun hmem => hnot (List.mem_append_left _ hmem)
    · simp only [hline]
      refine h.spaced.append ?_
      rintro task claim' time' hnew before claim₀ time later hlog hnot
      cases hnew
      exact hwaited claim₀ time (h.delayed before _ claim₀ time later hlog hnot)
  · refine ⟨?_, hready, ?_, ?_⟩
    · rintro task claim' time hmem
      simp only [hline, List.mem_append, List.mem_singleton, reduceCtorEq, or_false] at hmem
      exact h.past task claim' time hmem
    · rintro before task claim' time later hsplit hnot
      simp only [hline] at hsplit
      rcases append_split hsplit with ⟨-, -, hnew⟩ | ⟨later', rfl, hlog⟩
      · cases hnew
      · refine hkept task claim' time (h.delayed before task claim' time later' hlog ?_) ?_
        · exact fun hmem => hnot (List.mem_append_left _ hmem)
        · rintro hpub
          rw [hline] at hpub
          exact hnot (by simp [List.cons.inj hpub])
    · simp only [hline]
      refine h.spaced.append ?_
      rintro task claim' time' hnew
      cases hnew

/-- One step of `run_ready`. -/
theorem Paced.work (h : Paced r) (hrep : r.Reported (.work answers : RunnerAct P)) :
    Paced (r.work env answers) := by
  -- a step that is no call's leaves the world's call, the map and the clock
  have hkeep : ∀ pc scanAfter, (∀ tasks resuming, r.pc ≠ .calling tasks resuming) →
      (∀ tasks resuming, pc ≠ .calling tasks resuming) →
      Paced { r with scanAfter := scanAfter, pc := pc } := by
    intro pc scanAfter hbefore hafter
    refine h.of_log rfl (Nat.le_refl _) ?_ ?_
    · intro tasks resuming hpc
      exact absurd hpc (hafter tasks resuming)
    · intro task claim time _ hdelayed
      refine hdelayed.between ?_ rfl (Nat.le_refl _)
      intro tasks resuming hpc
      exact absurd hpc (hbefore tasks resuming)
  cases hpc : r.pc with
  | scanning =>
    simp only [Runner.work, hpc]
    split
    · exact hkeep _ _ (by simp [hpc]) (by simp)
    · split <;> exact hkeep _ _ (by simp [hpc]) (by simp)
  | sleeping deadline =>
    simp only [Runner.work, hpc]
    split
    · exact hkeep _ _ (by simp [hpc]) (by simp)
    · exact h
  | next tasks =>
    cases tasks with
    | nil =>
      simp only [Runner.work, hpc]
      exact hkeep _ _ (by simp [hpc]) (by simp)
    | cons task tasks =>
      simp only [Runner.work, hpc]
      split
      · exact hkeep _ _ (by simp [hpc]) (by simp)
      split
      · exact hkeep _ _ (by simp [hpc]) (by simp)
      next hwait =>
        refine h.of_log rfl (Nat.le_refl _) ?_ ?_
        · rintro _ _ - deadline hdeadline
          have hretry : r.retryAfter task = some deadline := hdeadline
          rw [hretry] at hwait
          simpa using hwait
        · intro task' claim time _ hdelayed
          exact hdelayed.between (by simp [hpc]) rfl (Nat.le_refl _)
  | calling tasks resuming =>
    simp only [Runner.work, hpc]
    split
    next hreturned =>
      split
      · refine h.of_log rfl (Nat.le_refl _) ?_ ?_
        · intro _ _ _ deadline hdeadline
          exact h.ready tasks resuming hpc deadline hdeadline
        · intro task claim time _ hdelayed
          refine hdelayed.between ?_ rfl (Nat.le_refl _)
          rintro _ _ - claim howing
          rw [hreturned] at howing
          cases howing
      · exact h.settled hpc hreturned
    next result _ hreturned => exact h.settled hpc hreturned
    next hother =>
      rw [← hpc]
      exact h.call hpc hother hrep
  | done =>
    simp only [Runner.work, hpc]
    exact h

theorem Paced.act {a : RunnerAct P} (h : Paced r) (hrep : r.Reported a) : Paced (act env r a) := by
  cases a with
  | work answers => exact h.work hrep
  | wait time =>
    have hlater : r.now ≤ r.now + time := Nat.le_add_right ..
    refine h.of_log rfl hlater ?_ ?_
    · intro tasks resuming hpc deadline hdeadline
      exact Nat.le_trans (h.ready tasks resuming hpc deadline hdeadline) hlater
    · rintro task claim time - (hcall | hdeadline | hover)
      · exact Or.inl hcall
      · exact Or.inr (Or.inl hdeadline)
      · exact Or.inr (Or.inr (Nat.le_trans hover hlater))
  | daemon op =>
    -- a transaction of the daemon touches neither the task nor the place of the call
    have hcall : (Summary.act env r.world (.daemon op)).task = r.world.task ∧
        (Summary.act env r.world (.daemon op)).pc = r.world.pc := by
      simp only [Summary.act]
      split <;> exact ⟨rfl, rfl⟩
    refine h.of_log rfl (Nat.le_refl _) ?_ ?_
    · intro tasks resuming hpc deadline hdeadline
      refine h.ready tasks resuming hpc deadline ?_
      rw [← hcall.1]
      exact hdeadline
    · rintro task claim time - (⟨hpc, htask, howing⟩ | hdeadline | hover)
      · exact Or.inl ⟨hpc, hcall.1.trans htask, hcall.2.symm ▸ howing⟩
      · exact Or.inr (Or.inl hdeadline)
      · exact Or.inr (Or.inr hover)
  | shutdown => exact h.of_log rfl (Nat.le_refl _) h.ready fun _ _ _ _ hdelayed => hdelayed

theorem Paced.acts {as : List (RunnerAct P)} (h : Paced r) (has : ReportedRun env r as) :
    Paced (acts env r as) := by
  induction as generalizing r with
  | nil => exact h
  | cons a as ih => exact ih (h.act has.1) has.2

/-! ### Speech is not bought again in a tight loop -/

/-- In every run of one call of `run_ready` whose syntheses are answered plainly: a task whose last
    synthesis was not published waits out the backoff before the next one. -/
theorem run_ready_spaces_synthesis (env : Env P) (db : Database) (as : List (RunnerAct P))
    (has : ReportedRun env (start db) as) : Spaced (acts env (start db) as).log :=
  ((paced_start db).acts has).spaced

instance : (answer : Except TtsError String) → Decidable (PlainAnswer answer)
  | .ok _ => inferInstanceAs (Decidable (_ = _))
  | .error _ => inferInstanceAs (Decidable (_ ≠ _))

instance (choices : Choices) : (pc : Pc) → Decidable (ReportedStep choices pc)
  | .synthesizing _ => inferInstanceAs (Decidable (PlainAnswer _))
  | .recovering _ true => inferInstanceAs (Decidable (_ ≠ _))
  | .recovering _ false | .idle | .resuming | .running _ | .checkingAttempt _ | .loadingPrevious _
  | .generating _ | .beginning _ | .publishing _ | .abandoning .. | .returned _ => .isTrue trivial

instance (r : Runner) : (a : RunnerAct P) → Decidable (r.Reported a)
  | .work answers => inferInstanceAs (Decidable (ReportedStep answers.choices r.world.pc))
  | .wait _ | .daemon _ | .shutdown => .isTrue trivial

instance decidableReportedRun (env : Env P) :
    (r : Runner) → (as : List (RunnerAct P)) → Decidable (ReportedRun env r as)
  | _, [] => .isTrue trivial
  | r, a :: as =>
    have := decidableReportedRun env (Runner.act env r a) as
    inferInstanceAs (Decidable (_ ∧ _))

/-- A scan that calls the one task there is, up to the answer of the synthesis, and the end of the
    call after a failure. -/
def scanAndBuy (request : String) (answer : Except TtsError String) : List (RunnerAct (List UInt8)) :=
  [.work {}, .work {}, .work {}, .work { request := request }, .work {}, .work {}, .work {}, .work {},
   .work { choices := { generated := .ok (sampleDocument firstCompletion) } }, .work {},
   .work { choices := { synthesized := answer } }, .work {}, .work {}, .work {}]

/-- The sleep after a scan, the empty scan behind the last task, and the sleep after that. -/
def sleepTwice : List (RunnerAct (List UInt8)) :=
  [.wait pollInterval, .work {}, .work {}, .wait pollInterval, .work {}]

def oneCompletion : Database :=
  Store.step sampleEnv Database.empty
    (.commitRolloutCompletion none (sampleCursor 10) firstCompletion "\x7b\x7d" 1)

def firstClaim (request : String) (generation : Nat) : SummaryClaim :=
  ⟨.inserted, request, sampleTask, generation, none, [⟨firstCompletion, "\x7b\x7d"⟩]⟩

/-- A plain failure: the backoff passes before the second purchase. -/
theorem run_ready_spaces_two :
    let as := scanAndBuy "auto-1" (.error .unavailable) ++ [.wait failureBackoff] ++ sleepTwice ++
      scanAndBuy "auto-2" (.error .unavailable)
    (acts sampleEnv (start oneCompletion) as).log =
      [.synthesize sampleTask (firstClaim "auto-1" 1) 0,
       .synthesize sampleTask (firstClaim "auto-2" 2) 30500] ∧
    Spaced (acts sampleEnv (start oneCompletion) as).log := by
  refine ⟨by decide +kernel, ?_⟩
  exact run_ready_spaces_synthesis sampleEnv oneCompletion _ (by decide +kernel)

/-- An ambiguous answer ends the call idle, which clears the task's delay: the same completion is
    bought again two polls later. -/
theorem run_ready_buys_again :
    ¬ Spaced (acts sampleEnv (start oneCompletion)
      (scanAndBuy "auto-1" (.error .ambiguousAfterCommit) ++ sleepTwice ++
        scanAndBuy "auto-2" (.error .ambiguousAfterCommit))).log := by
  have hlog : (acts sampleEnv (start oneCompletion)
      (scanAndBuy "auto-1" (.error .ambiguousAfterCommit) ++ sleepTwice ++
        scanAndBuy "auto-2" (.error .ambiguousAfterCommit))).log =
      [.synthesize sampleTask (firstClaim "auto-1" 1) 0,
       .synthesize sampleTask (firstClaim "auto-2" 2) 500] := by
    decide +kernel
  rw [hlog]
  intro hspaced
  have hle := hspaced [] sampleTask (firstClaim "auto-1" 1) 0 [] (firstClaim "auto-2" 2) 500 [] rfl
    (by simp)
  simp [failureBackoff] at hle

end Runner

end CodexKeyboard.Summary
