import CodexKeyboard.Cache.Intact
import CodexKeyboard.Cache.Retained

/-! An unread summary always has its audio: in whatever order the worker, the finisher and the store
    take their steps, and wherever the process stops, what the ledger retains is in the cache. -/

namespace CodexKeyboard.Cache

open Schemes Transact Schemes.Bytes Store Lan

variable {P : Type} {s : Setup P}

/-! ### Filling a directory -/

/-- What a step does to the files of the directory it writes. -/
def FsStep.onFiles : FsStep → Files → Files
  | .createFile _ _ name, files => files.create name
  | .write _ _ name bytes, files => files.write name bytes
  | _, files => files

/-- The files once all the steps are done. -/
def replay (todo : List FsStep) (files : Files) : Files :=
  todo.foldl (fun files step => step.onFiles files) files

/-- A step that fills one directory. -/
def FsStep.Fills (task : Digest) (uuid : String) : FsStep → Prop
  | .createFile t u _ | .write t u _ _ => t = task ∧ u = uuid
  | .sync => True
  | _ => False

theorem replay_append (todo rest : List FsStep) (files : Files) :
    replay (todo ++ rest) files = replay rest (replay todo files) := List.foldl_append

theorem flatten_writePieces (cuts : List Nat) (bytes : List UInt8) :
    (writePieces cuts bytes).flatten = bytes := by
  rw [writePieces, List.flatten_append, flatten_chop, slice, List.drop_zero, List.flatten_singleton,
    List.take_append_drop]

theorem write_last {files : Files} {name : String} {before bytes : List UInt8}
    (hnew : name ∉ files.names) :
    Files.write name bytes (files ++ [(name, before)]) = files ++ [(name, before ++ bytes)] := by
  have hold : Files.write name bytes files = files := by
    rw [Files.write, List.map_congr_left (g := id), List.map_id]
    intro f hf
    have hne : f.1 ≠ name := by
      rintro rfl
      exact hnew (List.mem_map_of_mem hf)
    simp [hne]
  rw [Files.write, List.map_append]
  rw [Files.write] at hold
  rw [hold]
  simp

theorem replay_writes {task : Digest} {uuid name : String} {files : Files} (hnew : name ∉ files.names)
    (pieces : List (List UInt8)) (before : List UInt8) :
    replay (pieces.map (.write task uuid name)) (files ++ [(name, before)]) =
      files ++ [(name, before ++ pieces.flatten)] := by
  induction pieces generalizing before with
  | nil => simp [replay]
  | cons piece pieces ih =>
    have hstep : (FsStep.write task uuid name piece).onFiles (files ++ [(name, before)]) =
        files ++ [(name, before ++ piece)] := write_last hnew
    simp only [replay] at ih ⊢
    rw [List.map_cons, List.foldl_cons, hstep, ih, List.flatten_cons, List.append_assoc]

theorem replay_writeObject {task : Digest} {uuid name : String} {files : Files}
    (hnew : name ∉ files.names) (pieces : List (List UInt8)) :
    replay (writeObject task uuid name pieces) files = files ++ [(name, pieces.flatten)] := by
  have hcreate : (FsStep.createFile task uuid name).onFiles files = files ++ [(name, [])] := rfl
  have hwrites := @replay_writes task uuid _ _ hnew pieces []
  rw [replay] at hwrites ⊢
  rw [writeObject, List.foldl_cons, List.foldl_append, hcreate, hwrites]
  rfl

theorem replay_objectSteps {id : CacheId} {draw : Draw s.env} {kind : ObjectKind}
    {plaintext : List UInt8} {files : Files} (hnew : kind.fileName ∉ files.names) :
    replay (objectSteps s id draw kind plaintext) files = files ++ [(kind.fileName,
      encryptObject s.crypto s.rootKey id kind plaintext (draw.seeds kind))] := by
  rw [objectSteps, replay_writeObject hnew, flatten_writePieces]

/-- A publication fills its empty directory with the sealed objects. -/
theorem replay_fillSteps (id : CacheId) (bundle : CacheBundle) (draw : Draw s.env) :
    replay (fillSteps s id bundle draw) [] =
      sealedFiles s.crypto s.rootKey id bundle draw.seeds := by
  have hmanifest : replay (objectSteps s id draw .manifest bundle.manifestJson) [] =
      [(ObjectKind.manifest.fileName,
        encryptObject s.crypto s.rootKey id .manifest bundle.manifestJson (draw.seeds .manifest))] :=
    replay_objectSteps (by decide)
  have hwav : ∀ e, replay (objectSteps s id draw .qwenWav bundle.qwenWav)
      [(ObjectKind.manifest.fileName, e)] = [(ObjectKind.manifest.fileName, e),
        (ObjectKind.qwenWav.fileName,
          encryptObject s.crypto s.rootKey id .qwenWav bundle.qwenWav (draw.seeds .qwenWav))] :=
    fun e => replay_objectSteps (by simp only [Files.names, List.map_cons, List.map_nil]; decide)
  rw [fillSteps, replay_append, replay_append, replay_append, hmanifest, hwav, replay_objectSteps]
  · rfl
  · simp only [Files.names, List.map_cons, List.map_nil]
    decide

theorem fills_writeObject {task : Digest} {uuid name : String} {pieces : List (List UInt8)} :
    ∀ step ∈ writeObject task uuid name pieces, step.Fills task uuid := by
  intro step hstep
  simp only [writeObject, List.mem_cons, List.mem_append, List.mem_map, List.not_mem_nil,
    or_false] at hstep
  rcases hstep with rfl | ⟨piece, _, rfl⟩ | rfl
  · exact ⟨rfl, rfl⟩
  · exact ⟨rfl, rfl⟩
  · trivial

theorem fills_fillSteps {id : CacheId} {bundle : CacheBundle} {draw : Draw s.env} :
    ∀ step ∈ fillSteps s id bundle draw, step.Fills id.taskHash draw.uuid := by
  intro step hstep
  simp only [fillSteps, List.mem_append, List.mem_singleton] at hstep
  rcases hstep with ((hstep | hstep) | hstep) | rfl
  all_goals first | exact fills_writeObject step hstep | trivial

/-- Files on their way to a directory in order are in order: files only grow, names only join. -/
theorem partial_of_onFiles {step : FsStep} {files : Files} (h : (step.onFiles files).Partial) :
    files.Partial := by
  cases step with
  | createFile task uuid name =>
    refine ⟨?_, fun f hf => h.objects f (List.mem_append_left _ hf)⟩
    have hnames := h.names
    rw [FsStep.onFiles, Files.create, Files.names, List.map_append] at hnames
    exact hnames.of_append_left
  | write task uuid name bytes =>
    have hsame : (files.write name bytes).names = files.names := by
      rw [Files.names, Files.names, Files.write, List.map_map]
      refine List.map_congr_left fun f _ => ?_
      simp only [Function.comp]
      split <;> rfl
    refine ⟨hsame ▸ h.names, fun f hf => ?_⟩
    obtain ⟨kind, hkind, hname, hsize⟩ := h.objects _ (List.mem_map_of_mem hf)
    refine ⟨kind, hkind, ?_, ?_⟩
    · rw [← hname]
      split <;> rfl
    · split at hsize
      · rw [List.length_append] at hsize
        omega
      · exact hsize
  | _ => exact h

theorem partial_of_replay {todo : List FsStep} {files : Files} (h : (replay todo files).Partial) :
    files.Partial := by
  induction todo generalizing files with
  | nil => exact h
  | cons step todo ih => exact partial_of_onFiles (ih h)

/-! ### Where the thread behind the gate stands -/

/-- A publication that got as far as the disk. -/
structure Publishing.Sound (s : Setup P) (p : Publishing) : Prop where
  id : claimId s.env p.claim = some p.id
  valid : validateBundle p.bundle = .ok ()
  uuid : s.env.uuidOk p.uuid = true
  fills : ∀ step ∈ p.fill, step.Fills p.id.taskHash p.uuid
  sealed : ∃ seeds, replay p.fill [] = sealedFiles s.crypto s.rootKey p.id p.bundle seeds

/-- A step that removes only what nothing refers to. -/
def FsStep.Removes (s : Setup P) (db : Database) : FsStep → Prop
  | .retire id uuid => s.env.uuidOk uuid = true ∧ ¬ Retained db id
  | .unlink .. | .removeTemporary .. | .sync => True
  | _ => False

/-- What is left to do before a temporary directory is there. -/
def Prepares (p : Publishing) (todo : List FsStep) : Prop :=
  ∃ before, todo = before ++ [.createTemporary p.id.taskHash p.uuid] ∧
    ∀ step ∈ before, step = .createTask p.id.taskHash ∨ step = .sync

/-- What is left to do before the temporary directory is complete. -/
structure Completes (s : Setup P) (root : CacheRoot) (p : Publishing) (todo : List FsStep) : Prop where
  fills : ∀ step ∈ todo, step.Fills p.id.taskHash p.uuid
  sealed : ∀ t ∈ root.temporaries, t.at p.id.taskHash p.uuid = true →
    ∃ seeds, replay todo t.files = sealedFiles s.crypto s.rootKey p.id p.bundle seeds

def Holder.Ok (s : Setup P) (db : Database) (root : CacheRoot) : Holder → Prop
  | .preparing p todo => p.Sound s ∧ Prepares p todo
  | .filling p todo => p.Sound s ∧ Completes s root p todo
  | .settling p => p.Sound s
  | .authenticating claim id _ => claimId s.env claim = some id
  | .committing claim id bundle => claimId s.env claim = some id ∧
      readUnlocked s.crypto s.rootKey root id = .ok bundle
  | .reconciling => True
  | .removing todo => ∀ step ∈ todo, step.Removes s db

theorem claimId_some {env : Env P} {claim : SummaryClaim} {id : CacheId}
    (h : claimId env claim = some id) :
    id = ⟨env.sha256 claim.taskId, claim.generation⟩ ∧ 0 < claim.generation ∧
      claim.generation ≤ u64Max := by
  simp only [claimId, CacheId.forTask] at h
  split at h
  next hmax =>
    split at h
    · cases h
    next hzero =>
      cases h
      exact ⟨rfl, Nat.pos_of_ne_zero hzero, hmax⟩
  next => cases h

theorem prepares_prepareSteps {root : CacheRoot} {p : Publishing} :
    Prepares p (prepareSteps root p.id p.uuid) := by
  refine ⟨_, rfl, fun step hstep => ?_⟩
  split at hstep
  · cases hstep
  · simpa using hstep

theorem publishOrVerify_ok {db : Database} {root : CacheRoot} {claim : SummaryClaim}
    {bundle : CacheBundle} {draw : Draw s.env} {holder : Holder}
    (h : publishOrVerify s root claim bundle draw = .ok holder) : holder.Ok s db root := by
  simp only [publishOrVerify, bind_ok, orThrow_ok] at h
  obtain ⟨id, hid, h⟩ := h
  split at h
  · simp only [bind_ok, ensure_ok, Except.ok.injEq] at h
    obtain ⟨_, _, rfl⟩ := h
    exact hid
  · simp only [publishObserved, bind_ok, ensure_ok, Except.ok.injEq] at h
    obtain ⟨_, hvalid, _, _, _, _, _, _, rfl⟩ := h
    refine ⟨⟨hid, hvalid, draw.uuid.2, fills_fillSteps, draw.seeds, ?_⟩, prepares_prepareSteps⟩
    exact replay_fillSteps id bundle draw
  · cases h

theorem removes_removeFlatDirectory {db : Database} {task : Digest} {uuid : String} {files : Files} :
    ∀ step ∈ removeFlatDirectory task uuid files, step.Removes s db := by
  intro step hstep
  simp only [removeFlatDirectory, List.mem_append, List.mem_map, List.mem_cons, List.not_mem_nil,
    or_false] at hstep
  rcases hstep with ⟨name, _, rfl⟩ | rfl | rfl <;> trivial

theorem mapM_orThrow {e : CacheError} {f : String → Option CacheId} {references : List String}
    {ids : List CacheId} (h : references.mapM (fun r => orThrow e (f r)) = .ok ids) :
    ∀ r ∈ references, ∀ id, f r = some id → id ∈ ids := by
  induction references generalizing ids with
  | nil => simp
  | cons r references ih =>
    simp only [List.mapM_cons, bind_ok, orThrow_ok] at h
    obtain ⟨head, hhead, tail, htail, h⟩ := h
    cases h
    intro r' hr' id hid
    rcases List.mem_cons.1 hr' with rfl | hr'
    · obtain rfl := Option.some.inj (hhead.symm.trans hid)
      exact List.mem_cons_self
    · exact List.mem_cons_of_mem _ (ih htail r' hr' id hid)

/-- A reconciliation retires no generation that a retained reference names. -/
theorem reconcileUnlocked_ok {db : Database} {root : CacheRoot} {uuids : CacheId → Uuid s.env}
    {todo : List FsStep}
    (h : reconcileUnlocked s root (retainedSummaryCacheReferences db) uuids = .ok todo) :
    ∀ step ∈ todo, step.Removes s db := by
  simp only [reconcileUnlocked, bind_ok, ensure_ok, Except.ok.injEq] at h
  obtain ⟨expected, hexpected, scan, _, _, _, _, _, rfl⟩ := h
  intro step hstep
  rcases List.mem_append.1 hstep with hstep | hstep
  · obtain ⟨t, _, hstep⟩ := List.mem_flatMap.1 hstep
    rw [removeTemporary] at hstep
    split at hstep
    · cases hstep
    · rcases List.mem_append.1 hstep with hstep | hstep
      · exact removes_removeFlatDirectory step hstep
      · obtain rfl := List.mem_singleton.1 hstep
        trivial
  · obtain ⟨id, hid, hstep⟩ := List.mem_flatMap.1 hstep
    have horphan : ¬ Retained db id := by
      rintro ⟨reference, hmem, hback⟩
      simp only [List.mem_filter, decide_not, Bool.not_eq_true', decide_eq_false_iff_not] at hid
      exact hid.2 (mapM_orThrow hexpected reference hmem id hback)
    rw [removeOrphanAtomically] at hstep
    split at hstep
    · cases hstep
    · simp only [List.mem_append, List.mem_cons, List.not_mem_nil, or_false] at hstep
      rcases hstep with ((rfl | rfl) | hstep) | rfl
      · exact ⟨(uuids id).2, horphan⟩
      · trivial
      · exact removes_removeFlatDirectory step hstep
      · trivial

/-! ### One step on disk -/

section Proceed

variable {db : Database} {root root' : CacheRoot} {holder : Holder} {step : FsStep}

/-- The thread behind the gate leaves the directory in order, and what is retained in place. -/
theorem Holder.Ok.allowed (h : holder.Ok s db root) (hstep : holder.fsStep = some step) :
    step.Allowed s.crypto s.rootKey s.env root ∧
      ∀ id uuid, step = .retire id uuid → ¬ Retained db id := by
  unfold Holder.fsStep at hstep
  split at hstep <;> cases hstep
  next p rest =>
    obtain ⟨hsound, before, htodo, hbefore⟩ := h
    have hcases : step = .createTask p.id.taskHash ∨ step = .sync ∨
        step = .createTemporary p.id.taskHash p.uuid := by
      cases before with
      | nil =>
        rw [List.nil_append, List.cons.injEq] at htodo
        exact Or.inr (Or.inr htodo.1)
      | cons first before =>
        rw [List.cons_append, List.cons.injEq] at htodo
        rcases hbefore first List.mem_cons_self with hfirst | hfirst
        · exact Or.inl (htodo.1.trans hfirst)
        · exact Or.inr (Or.inl (htodo.1.trans hfirst))
    rcases hcases with rfl | rfl | rfl
    · exact ⟨trivial, by simp⟩
    · exact ⟨trivial, by simp⟩
    · exact ⟨hsound.uuid, by simp⟩
  next p rest =>
    obtain ⟨hsound, hcompletes⟩ := h
    have hfills := hcompletes.fills step List.mem_cons_self
    have hparts : ∀ t ∈ root.temporaries, t.at p.id.taskHash p.uuid = true →
        (step.onFiles t.files).Partial := by
      intro t ht hat
      obtain ⟨seeds, hsealed⟩ := hcompletes.sealed t ht hat
      have hrest : (replay rest (step.onFiles t.files)).Partial := by
        rw [replay, List.foldl_cons] at hsealed
        rw [replay, hsealed]
        exact partial_sealedFiles hsound.valid
      exact partial_of_replay hrest
    cases step with
    | createFile task uuid name | write task uuid name bytes =>
      obtain ⟨rfl, rfl⟩ := hfills
      exact ⟨hparts, by simp⟩
    | sync => exact ⟨trivial, by simp⟩
    | _ => cases hfills
  next rest =>
    have hremoves := h step List.mem_cons_self
    cases step with
    | retire id uuid =>
      refine ⟨hremoves.1, fun id' uuid' heq => ?_⟩
      cases heq
      exact hremoves.2
    | unlink task uuid name | removeTemporary task uuid | sync => exact ⟨trivial, by simp⟩
    | _ => cases hremoves
  next p =>
    obtain ⟨hsound, hcompletes⟩ := h
    obtain ⟨hid, hpos, hmax⟩ := claimId_some hsound.id
    refine ⟨⟨by rwa [hid], by rwa [hid], fun t ht hat => ?_⟩, by simp⟩
    obtain ⟨seeds, hsealed⟩ := hcompletes.sealed t ht hat
    exact ⟨p.bundle, seeds, hsound.valid, hsealed⟩
  next p => exact ⟨trivial, by simp⟩

theorem Completes.start {p : Publishing} (hsound : p.Sound s)
    (hstep : (FsStep.createTemporary p.id.taskHash p.uuid).perform root = some root') :
    Completes s root' p p.fill := by
  simp only [FsStep.perform] at hstep
  split at hstep
  next hfree =>
    cases hstep
    refine ⟨hsound.fills, fun t ht hat => ?_⟩
    rcases List.mem_append.1 ht with hold | hnew
    · have hnone := List.find?_eq_none.1 hfree.2 t hold
      rw [hat] at hnone
      exact absurd rfl hnone
    · obtain rfl := List.mem_singleton.1 hnew
      exact hsound.sealed
  next => cases hstep

/-- Editing the directory by a step is doing that step. -/
theorem Completes.edit {p : Publishing} {rest : List FsStep} (h : Completes s root p (step :: rest)) :
    Completes s (root.edit p.id.taskHash p.uuid step.onFiles) p rest := by
  refine ⟨fun step hstep => h.fills step (List.mem_cons_of_mem _ hstep), fun t ht hat => ?_⟩
  rcases Table.mem_update_cases ht with ⟨_, hother⟩ | ⟨t, hold, hat', rfl⟩
  · rw [hat] at hother
    cases hother
  · exact h.sealed t hold hat'

theorem Completes.tail {p : Publishing} {rest : List FsStep} (h : Completes s root p (step :: rest))
    (hstep : step.perform root = some root') : Completes s root' p rest := by
  have hfills := h.fills step List.mem_cons_self
  cases step with
  | createFile task uuid name =>
    obtain ⟨rfl, rfl⟩ := hfills
    simp only [FsStep.perform] at hstep
    split at hstep
    · cases hstep
    · split at hstep <;> cases hstep
      exact h.edit
  | write task uuid name bytes =>
    obtain ⟨rfl, rfl⟩ := hfills
    simp only [FsStep.perform] at hstep
    split at hstep
    · cases hstep
    · split at hstep <;> cases hstep
      exact h.edit
  | sync =>
    cases hstep
    exact ⟨fun step hstep => h.fills step (List.mem_cons_of_mem _ hstep), h.sealed⟩
  | _ => cases hfills

theorem Prepares.tail {p : Publishing} {first second : FsStep} {rest : List FsStep}
    (h : Prepares p (first :: second :: rest)) : Prepares p (second :: rest) := by
  obtain ⟨before, htodo, hbefore⟩ := h
  cases before with
  | nil => cases htodo
  | cons head before =>
    rw [List.cons_append, List.cons.injEq] at htodo
    exact ⟨before, htodo.2, fun step hstep => hbefore step (List.mem_cons_of_mem _ hstep)⟩

theorem Prepares.last {p : Publishing} {first : FsStep} (h : Prepares p [first]) :
    first = .createTemporary p.id.taskHash p.uuid := by
  obtain ⟨before, htodo, _⟩ := h
  cases before with
  | nil => simpa using htodo
  | cons head before => simp at htodo

theorem Holder.Ok.advance (h : holder.Ok s db root) (hstep : holder.fsStep = some step)
    (hperform : step.perform root = some root') {after : Holder}
    (hafter : holder.advance = some after) : after.Ok s db root' := by
  cases holder with
  | preparing p todo =>
    obtain ⟨hsound, hprepares⟩ := h
    match todo, hstep, hafter with
    | [_], rfl, rfl =>
      rw [hprepares.last] at hperform
      exact ⟨hsound, Completes.start hsound hperform⟩
    | _ :: _ :: _, _, rfl => exact ⟨hsound, hprepares.tail⟩
  | filling p todo =>
    obtain ⟨hsound, hcompletes⟩ := h
    match todo, hstep, hafter with
    | [], _, rfl => exact hsound
    | _ :: _, rfl, rfl => exact ⟨hsound, hcompletes.tail hperform⟩
  | settling p =>
    cases hafter
    exact h.id
  | removing todo =>
    match todo, hafter with
    | _ :: _ :: _, rfl => exact fun step hstep => h step (List.mem_cons_of_mem _ hstep)
  | authenticating claim id expected => cases hstep
  | committing claim id bundle => cases hstep
  | reconciling => cases hstep

/-- After a failed step the thread is out, or clears its own directory away. -/
theorem Holder.fail_ok {after : Holder} (h : holder.fail root = some after) :
    after.Ok s db root' := by
  cases holder with
  | filling p todo =>
    rw [Holder.fail, Option.map_eq_some_iff] at h
    obtain ⟨t, _, rfl⟩ := h
    exact removes_removeFlatDirectory
  | _ => cases h

end Proceed

/-! ### Every event -/

/-- The bundle that was authenticated when this generation was published. -/
def World.authenticatedAs (w : World) (key : String × Nat) : Option CacheBundle :=
  w.authenticated.lookup key

structure World.Ok (s : Setup P) (w : World) : Prop where
  ledger : LedgerOk s.env w.db
  root : w.cache.Ok s.crypto s.rootKey s.env
  /-- What is unread is in the cache, as it was authenticated. -/
  kept : ∀ r ∈ w.db.summaryLedger, r.state.unread = true →
    ∃ bundle, w.authenticatedAs r.key = some bundle ∧
      readUnlocked s.crypto s.rootKey w.cache (cacheIdOf s.env r) = .ok bundle
  gate : ∀ holder, w.gate = some holder → holder.Ok s w.db w.cache

theorem Holder.Ok.mono {db db' : Database} {root : CacheRoot} {holder : Holder}
    (h : holder.Ok s db root) (hretained : ∀ id, Retained db' id → Retained db id) :
    holder.Ok s db' root := by
  cases holder with
  | removing todo =>
    intro step hstep
    have hremoves := h step hstep
    cases step with
    | retire id uuid => exact ⟨hremoves.1, fun hid => hremoves.2 (hretained id hid)⟩
    | _ => exact hremoves
  | _ => exact h

theorem retained_mono {env : Env P} {db db' : Database} (h : LedgerOk env db) (h' : LedgerOk env db')
    (hunread : UnreadFrom db db') {id : CacheId} (hid : Retained db' id) : Retained db id := by
  obtain ⟨r', hr', hu', rfl⟩ := (retained_iff h').1 hid
  obtain ⟨r, hr, hkey, hu⟩ := hunread r' hr' hu'
  exact (retained_iff h).2 ⟨r, hr, hu, cacheIdOf_key hkey⟩

variable {w : World}

theorem World.Ok.store (h : w.Ok s) {op : Op P} (hop : publishes op = false) :
    World.Ok s { w with db := step s.env w.db op } := by
  have hledger := h.ledger.step op
  have hunread := unreadFrom_step h.ledger hop
  refine ⟨hledger, h.root, fun r' hr' hu' => ?_, fun holder hholder => ?_⟩
  · obtain ⟨r, hr, hkey, hu⟩ := hunread r' hr' hu'
    obtain ⟨bundle, hauth, hread⟩ := h.kept r hr hu
    exact ⟨bundle, hkey ▸ hauth, cacheIdOf_key hkey ▸ hread⟩
  · exact (h.gate holder hholder).mono fun id => retained_mono h.ledger hledger hunread

/-- A new holder of the gate changes nothing else. -/
theorem World.Ok.hold (h : w.Ok s) {gate : Option Holder}
    (hgate : ∀ holder, gate = some holder → holder.Ok s w.db w.cache) :
    World.Ok s { w with gate := gate } := ⟨h.ledger, h.root, h.kept, hgate⟩

theorem World.Ok.release (h : w.Ok s) : World.Ok s { w with gate := none } :=
  h.hold (by simp)

/-- A step on disk by the thread behind the gate. -/
theorem World.Ok.perform (h : w.Ok s) {holder : Holder} (hholder : w.gate = some holder)
    {step : FsStep} (hstep : holder.fsStep = some step) {cache : CacheRoot}
    (hperform : step.perform w.cache = some cache) {gate : Option Holder}
    (hgate : ∀ after, gate = some after → after.Ok s w.db cache) :
    World.Ok s { w with cache := cache, gate := gate } := by
  obtain ⟨hallowed, hretire⟩ := (h.gate holder hholder).allowed hstep
  refine ⟨h.ledger, h.root.perform hallowed hperform, fun r hr hu => ?_, hgate⟩
  obtain ⟨bundle, hauth, hread⟩ := h.kept r hr hu
  refine ⟨bundle, hauth, FsStep.perform_read hperform hread fun uuid heq => ?_⟩
  exact hretire _ uuid heq ((retained_iff h.ledger).2 ⟨r, hr, hu, rfl⟩)

/-- The ledger is published over the bundle that was just authenticated. -/
theorem World.Ok.commit (h : w.Ok s) {claim : SummaryClaim} {id : CacheId} {bundle : CacheBundle}
    (hid : claimId s.env claim = some id)
    (hread : readUnlocked s.crypto s.rootKey w.cache id = .ok bundle) {unread : UnreadSummary}
    {db : Database} (hpublish : publishSummary s.env claim id.reference w.db = (.ok unread, db)) :
    World.Ok s { w with
      db := db
      gate := none
      authenticated := ((claim.taskId, claim.generation), bundle) :: w.authenticated } := by
  have hpublication := publishSummary_ok hpublish
  refine ⟨h.ledger.published hpublication, h.root, fun r' hr' hu' => ?_, by simp⟩
  by_cases hkey : r'.key = (claim.taskId, claim.generation)
  · refine ⟨bundle, by simp [World.authenticatedAs, hkey], ?_⟩
    have hsame : cacheIdOf s.env r' = id := by
      rw [(claimId_some hid).1, cacheIdOf]
      simp only [SummaryRow.key, Prod.mk.injEq] at hkey
      rw [hkey.1, hkey.2]
    rw [hsame]
    exact hread
  · rcases unread_published hpublication r' hr' hu' with hown | ⟨r, hr, hsame, hu⟩
    · exact absurd hown hkey
    · obtain ⟨old, hauth, hold⟩ := h.kept r hr hu
      refine ⟨old, ?_, cacheIdOf_key hsame ▸ hold⟩
      have hne : (r'.key == (claim.taskId, claim.generation)) = false := by simpa using hkey
      rw [World.authenticatedAs, hsame] at hauth
      rw [World.authenticatedAs, List.lookup_cons, hne]
      exact hauth

theorem World.Ok.next (h : w.Ok s) (event : Event s) : (next s w event).Ok s := by
  cases event with
  | store op =>
    simp only [Cache.next]
    split
    · exact h
    next hop => exact h.store (by simpa using hop)
  | publish claim bundle draw =>
    simp only [Cache.next]
    split
    · refine h.hold fun holder hholder => ?_
      cases hentered : publishOrVerify s w.cache claim bundle draw with
      | error e => simp [hentered, entered] at hholder
      | ok entry =>
        rw [hentered, entered, Option.some.injEq] at hholder
        exact hholder ▸ publishOrVerify_ok hentered
    · exact h
  | load claim =>
    simp only [Cache.next]
    split
    · refine h.hold fun holder hholder => ?_
      obtain ⟨id, hid, rfl⟩ := Option.map_eq_some_iff.1 hholder
      exact hid
    · exact h
  | reconcile =>
    simp only [Cache.next]
    split
    · refine h.hold fun holder hholder => ?_
      cases hholder
      trivial
    · exact h
  | references uuids =>
    simp only [Cache.next]
    split
    · split
      next step rest hplan =>
        refine h.hold fun holder hholder => ?_
        cases hholder
        exact reconcileUnlocked_ok hplan
      next => exact h.release
    · exact h
  | proceed =>
    simp only [Cache.next]
    split
    · exact h
    next holder hholder =>
      split
      · exact h
      next step hstep =>
        split
        next cache hperform =>
          exact h.perform hholder hstep hperform fun after hafter =>
            (h.gate holder hholder).advance hstep hperform hafter
        next => exact h.hold fun after hafter => Holder.fail_ok hafter
  | fail applied =>
    simp only [Cache.next]
    split
    · exact h
    next holder hholder =>
      split
      · exact h
      next step hstep =>
        cases applied with
        | false => exact h.hold fun after hafter => Holder.fail_ok hafter
        | true =>
          simp only [if_true]
          cases hperform : step.perform w.cache with
          | none => exact h.hold fun after hafter => Holder.fail_ok hafter
          | some cache =>
            exact h.perform hholder hstep hperform fun after hafter => Holder.fail_ok hafter
  | authenticate valid =>
    simp only [Cache.next]
    split
    next claim id expected hholder =>
      split
      next bundle hread =>
        split
        · refine h.hold fun holder hcommitting => ?_
          cases hcommitting
          exact ⟨h.gate _ hholder, hread⟩
        · exact h.release
      next => exact h.release
    · exact h
  | commit =>
    simp only [Cache.next]
    split
    next claim id bundle hholder =>
      obtain ⟨hid, hread⟩ := h.gate _ hholder
      split
      next unread db hpublish => exact h.commit hid hread hpublish
      next e db hpublish =>
        rw [publishSummary_error hpublish]
        exact h.release
    · exact h
  | crash => exact h.release

theorem World.ok_init : World.Ok s World.init := by
  refine ⟨ledgerOk_empty s.env, ?_, ?_, ?_⟩
  · constructor <;> simp [World.init, CacheRoot.empty]
  · simp [World.init, Database.empty]
  · simp [World.init]

theorem World.ok_run (s : Setup P) (events : List (Event s)) : (World.init.run s events).Ok s := by
  induction events using List.reverseRecOn with
  | nil => exact World.ok_init
  | append_singleton events event ih =>
    rw [World.run, List.foldl_append]
    exact ih.next event

/-! ### What a state in order gives -/

theorem mapM_ok {α β : Type} {f : α → Except CacheError β} {q : β → Prop} {l : List α}
    (h : ∀ a ∈ l, ∃ b, f a = .ok b ∧ q b) : ∃ bs, l.mapM f = .ok bs ∧ ∀ b ∈ bs, q b := by
  induction l with
  | nil => exact ⟨[], rfl, by simp⟩
  | cons a l ih =>
    obtain ⟨b, hb, hq⟩ := h a List.mem_cons_self
    obtain ⟨bs, hbs, hqs⟩ := ih fun a ha => h a (List.mem_cons_of_mem _ ha)
    refine ⟨b :: bs, ?_, ?_⟩
    · rw [List.mapM_cons, hb]
      simp only [bind, Except.bind, hbs]
      rfl
    · simpa using ⟨hq, hqs⟩

theorem World.Ok.read (h : w.Ok s) {id : CacheId} (hid : Retained w.db id) :
    ∃ bundle, readUnlocked s.crypto s.rootKey w.cache id = .ok bundle := by
  obtain ⟨r, hr, hu, rfl⟩ := (retained_iff h.ledger).1 hid
  obtain ⟨bundle, _, hread⟩ := h.kept r hr hu
  exact ⟨bundle, hread⟩

/-- A reconciliation finds every retained generation, and none of them damaged. -/
theorem World.Ok.reconcile (h : w.Ok s) (uuids : CacheId → Uuid s.env) :
    ∃ todo, reconcileUnlocked s w.cache (retainedSummaryCacheReferences w.db) uuids = .ok todo := by
  obtain ⟨expected, hexpected, hretained⟩ := mapM_ok (q := Retained w.db)
    (l := retainedSummaryCacheReferences w.db)
    (f := fun reference => orThrow CacheError.invalidReference (CacheId.fromReference reference))
    fun reference hmem => by
      obtain ⟨r, hr, hu, hcache⟩ := mem_retained.1 hmem
      obtain ⟨hown, hback⟩ := reference_of_unread h.ledger hr hu
      obtain rfl := Option.some.inj (hcache.symm.trans hown)
      exact ⟨cacheIdOf s.env r, orThrow_ok.2 hback, _, hmem, hback⟩
  obtain ⟨scan, hscan, hfinal, _⟩ := h.root.scanUnlocked
  have hsubset : ∀ id ∈ expected, id ∈ scan.finalized := by
    intro id hid
    obtain ⟨bundle, hread⟩ := h.read (hretained id hid)
    obtain ⟨_, g, hg⟩ := readUnlocked_generation hread
    obtain ⟨hmem, rfl⟩ := generation_some hg
    rw [hfinal]
    exact List.mem_map_of_mem hmem
  obtain ⟨bundles, hbundles, _⟩ := mapM_ok (q := fun _ => True) (l := expected)
    (f := readUnlocked s.crypto s.rootKey w.cache) fun id hid => by
      obtain ⟨bundle, hread⟩ := h.read (hretained id hid)
      exact ⟨bundle, hread, trivial⟩
  simp only [reconcileUnlocked, hexpected, hscan, ensure_of hsubset, hbundles, bind, Except.bind]
  exact ⟨_, rfl⟩

/-- The directory changes only by the next step of the thread behind the gate. -/
theorem next_cache (w : World) (event : Event s) : (next s w event).cache = w.cache ∨
    ∃ holder step, w.gate = some holder ∧ holder.fsStep = some step ∧
      step.perform w.cache = some (next s w event).cache := by
  cases event with
  | proceed =>
    simp only [next]
    split
    · exact Or.inl rfl
    next holder hholder =>
      split
      · exact Or.inl rfl
      next step hstep =>
        split
        next cache hperform => exact Or.inr ⟨holder, step, hholder, hstep, hperform⟩
        next => exact Or.inl rfl
  | fail applied =>
    simp only [next]
    split
    · exact Or.inl rfl
    next holder hholder =>
      split
      · exact Or.inl rfl
      next step hstep =>
        cases applied with
        | false => exact Or.inl rfl
        | true =>
          simp only [if_true]
          cases hperform : step.perform w.cache with
          | none => exact Or.inl rfl
          | some cache => exact Or.inr ⟨holder, step, hholder, hstep, hperform⟩
  | store op | publish claim bundle draw | load claim | reconcile =>
    simp only [next]
    split <;> exact Or.inl rfl
  | crash => exact Or.inl rfl
  | references uuids | authenticate valid | commit =>
    simp only [next]
    split
    · split
      · first | exact Or.inl rfl | split <;> exact Or.inl rfl
      · exact Or.inl rfl
    · exact Or.inl rfl

theorem World.Ok.undisturbed (h : w.Ok s) (event : Event s) {id : CacheId} (hid : Retained w.db id) :
    (Cache.next s w event).cache.generation id = w.cache.generation id := by
  rcases next_cache w event with heq | ⟨holder, step, hholder, hstep, hperform⟩
  · rw [heq]
  · obtain ⟨bundle, hread⟩ := h.read hid
    obtain ⟨_, g, hg⟩ := readUnlocked_generation hread
    rw [hg]
    refine FsStep.perform_generation hperform hg fun uuid heq => ?_
    exact ((h.gate holder hholder).allowed hstep).2 id uuid heq hid

/-- What holds whenever nothing is retained without its audio. -/
structure AudioKept (s : Setup P) (w : World) : Prop where
  /-- A retained reference names a complete generation, which reads back as it was authenticated
      when the summaries with that reference were published. -/
  audio : ∀ reference ∈ retainedSummaryCacheReferences w.db, ∃ id g bundle,
    CacheId.fromReference reference = some id ∧ w.cache.generation id = some g ∧
    g.files.names = ObjectKind.all.map ObjectKind.fileName ∧
    readUnlocked s.crypto s.rootKey w.cache id = .ok bundle ∧
    ∀ r ∈ w.db.summaryLedger, r.state.unread = true → r.cacheObject = some reference →
      w.authenticatedAs r.key = some bundle
  /-- Nothing that happens next removes or changes such a generation. -/
  undisturbed : ∀ event id, Retained w.db id →
    (next s w event).cache.generation id = w.cache.generation id
  /-- The next reconciliation finds them all. -/
  reconcile : ∀ uuids, ∃ todo,
    reconcileUnlocked s w.cache (retainedSummaryCacheReferences w.db) uuids = .ok todo
  rescan : ∃ scan, scanUnlocked s.env w.cache = .ok scan
  whole : ∀ g ∈ w.cache.generations, g.files.names = ObjectKind.all.map ObjectKind.fileName ∧
    ∃ bytes, inspectFinalDirectory g.files = .ok bytes

/-- In every state that can be reached, by any steps in any order and through any crash, each
    reference the ledger retains has its audio in the cache. -/
theorem unread_summary_has_audio (s : Setup P) (events : List (Event s)) :
    AudioKept s (World.init.run s events) := by
  have h := World.ok_run s events
  generalize World.init.run s events = w at h
  refine ⟨fun reference hmem => ?_, fun event id hid => h.undisturbed event hid, h.reconcile, ?_, ?_⟩
  · obtain ⟨r, hr, hu, hcache⟩ := mem_retained.1 hmem
    obtain ⟨hown, hback⟩ := reference_of_unread h.ledger hr hu
    obtain ⟨bundle, _, hread⟩ := h.kept r hr hu
    obtain ⟨_, g, hg⟩ := readUnlocked_generation hread
    obtain ⟨⟨_, _, _, hfiles⟩, _⟩ := h.root.generations g (generation_some hg).1
    refine ⟨cacheIdOf s.env r, g, bundle, ?_, hg, by rw [hfiles, names_sealedFiles], hread, ?_⟩
    · rw [← hback]
      exact congrArg _ (Option.some.inj (hcache.symm.trans hown))
    · intro r' hr' hu' hcache'
      -- two rows with one reference share the generation of the cache, so they read the same bundle
      obtain ⟨hown', hback'⟩ := reference_of_unread h.ledger hr' hu'
      have hreference : (cacheIdOf s.env r').reference = (cacheIdOf s.env r).reference :=
        Option.some.inj (hown'.symm.trans (hcache'.trans (hcache.symm.trans hown)))
      have hid : cacheIdOf s.env r' = cacheIdOf s.env r := by
        rw [hreference] at hback'
        exact Option.some.inj (hback'.symm.trans hback)
      obtain ⟨bundle', hauth', hread'⟩ := h.kept r' hr' hu'
      rw [hid, hread] at hread'
      rw [hauth', Except.ok.inj hread']
  · obtain ⟨scan, hscan, _⟩ := h.root.scanUnlocked
    exact ⟨scan, hscan⟩
  · intro g hg
    obtain ⟨⟨bundle, seeds, hvalid, hfiles⟩, _⟩ := h.root.generations g hg
    rw [hfiles]
    exact ⟨names_sealedFiles, inspectFinalDirectory_sealed hvalid⟩

end CodexKeyboard.Cache
