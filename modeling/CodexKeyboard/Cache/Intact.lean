import CodexKeyboard.Cache.Directory

/-! What keeps a cache directory readable: every finalized generation is complete and sealed for its
    name, and everything unfinished is in a `.tmp-` directory. No step on disk breaks it. -/

namespace CodexKeyboard.Cache

open Schemes Transact Store Lan

variable {P : Type} {c : Crypto} {rootKey : List UInt8} {env : Env P}

/-! ### Complete and incomplete directories -/

/-- The three objects of a bundle, sealed for one generation. -/
def sealedFiles (c : Crypto) (rootKey : List UInt8) (id : CacheId) (bundle : CacheBundle)
    (seeds : ObjectKind → Seed) : Files :=
  [(ObjectKind.manifest.fileName,
      encryptObject c rootKey id .manifest bundle.manifestJson (seeds .manifest)),
    (ObjectKind.qwenWav.fileName,
      encryptObject c rootKey id .qwenWav bundle.qwenWav (seeds .qwenWav)),
    (ObjectKind.deviceEiad.fileName,
      encryptObject c rootKey id .deviceEiad bundle.deviceEiad (seeds .deviceEiad))]

/-- A finalized directory: the objects of some bundle within its bounds. -/
def Generation.Sealed (c : Crypto) (rootKey : List UInt8) (g : Generation) : Prop :=
  ∃ bundle seeds, validateBundle bundle = .ok () ∧ g.files = sealedFiles c rootKey g.id bundle seeds

/-- An unfinished directory: some of the three names, each with at most a whole object. -/
structure Files.Partial (files : Files) : Prop where
  names : files.names.Nodup
  objects : ∀ f ∈ files, ∃ kind ∈ ObjectKind.all, f.1 = kind.fileName ∧
    f.2.length ≤ kind.maxPlaintextBytes + headerBytes + tagBytes

structure CacheRoot.Ok (c : Crypto) (rootKey : List UInt8) (env : Env P) (root : CacheRoot) : Prop where
  temporaries : ∀ t ∈ root.temporaries, env.uuidOk t.uuid = true ∧ t.files.Partial
  generations : ∀ g ∈ root.generations, g.Sealed c rootKey ∧ g.id.taskHash ∈ root.tasks ∧
    0 < g.id.generation ∧ g.id.generation ≤ u64Max
  distinct : (root.generations.map Generation.id).Nodup
  parents : ∀ t ∈ root.temporaries, t.task ∈ root.tasks

theorem kindNamed_fileName {kind : ObjectKind} (h : kind ∈ ObjectKind.all) :
    kindNamed kind.fileName = some kind := by
  fin_cases h <;> decide

theorem validateBundle_ok {bundle : CacheBundle} (h : validateBundle bundle = .ok ()) :
    bundle.manifestJson.length ≤ ObjectKind.manifest.maxPlaintextBytes ∧
      bundle.qwenWav.length ≤ ObjectKind.qwenWav.maxPlaintextBytes ∧
      bundle.deviceEiad.length ≤ ObjectKind.deviceEiad.maxPlaintextBytes := by
  simp only [validateBundle, bind_ok, ensure_ok] at h
  obtain ⟨_, hsizes, _⟩ := h
  exact hsizes

section Sealed

variable {id : CacheId} {bundle : CacheBundle} {seeds : ObjectKind → Seed}

theorem names_sealedFiles : (sealedFiles c rootKey id bundle seeds).names =
    ObjectKind.all.map ObjectKind.fileName := rfl

theorem partial_sealedFiles (h : validateBundle bundle = .ok ()) :
    (sealedFiles c rootKey id bundle seeds).Partial := by
  obtain ⟨hmanifest, hwav, heiad⟩ := validateBundle_ok h
  refine ⟨by rw [names_sealedFiles]; decide, fun f hf => ?_⟩
  simp only [sealedFiles, List.mem_cons, List.not_mem_nil, or_false] at hf
  rcases hf with rfl | rfl | rfl
  · refine ⟨.manifest, by decide, rfl, ?_⟩
    rw [length_encryptObject]
    omega
  · refine ⟨.qwenWav, by decide, rfl, ?_⟩
    rw [length_encryptObject]
    omega
  · refine ⟨.deviceEiad, by decide, rfl, ?_⟩
    rw [length_encryptObject]
    omega

theorem inspectFinalLoop_cons {kind : ObjectKind} {bytes : List UInt8} {rest : Files}
    {sizes : List (ObjectKind × Nat)} (hkind : kind ∈ ObjectKind.all)
    (hlow : headerBytes + tagBytes ≤ bytes.length)
    (hhigh : bytes.length ≤ kind.maxPlaintextBytes + headerBytes + tagBytes)
    (hnew : kind ∉ sizes.map Prod.fst) :
    inspectFinalLoop ((kind.fileName, bytes) :: rest) sizes =
      inspectFinalLoop rest (sizes ++ [(kind, bytes.length)]) := by
  rw [inspectFinalLoop, kindNamed_fileName hkind]
  simp only [orThrow, bind, Except.bind, ensure_of (And.intro hlow hhigh), ensure_of hnew]

theorem inspectFinalDirectory_sealed (h : validateBundle bundle = .ok ()) :
    ∃ bytes, inspectFinalDirectory (sealedFiles c rootKey id bundle seeds) = .ok bytes := by
  obtain ⟨hmanifest, hwav, heiad⟩ := validateBundle_ok h
  have hloop : ∃ sizes, inspectFinalLoop (sealedFiles c rootKey id bundle seeds) [] = .ok sizes ∧
      sizes.length = ObjectKind.all.length := by
    rw [sealedFiles, inspectFinalLoop_cons (by decide) ?_ ?_ (by simp),
      inspectFinalLoop_cons (by decide) ?_ ?_ (by simp),
      inspectFinalLoop_cons (by decide) ?_ ?_ (by simp)]
    · exact ⟨_, rfl, rfl⟩
    all_goals
      rw [length_encryptObject]
      omega
  obtain ⟨sizes, hsizes, hthree⟩ := hloop
  refine ⟨(sizes.map Prod.snd).sum, ?_⟩
  simp only [inspectFinalDirectory, bind_ok, ensure_ok]
  exact ⟨sizes, hsizes, (), hthree, rfl⟩

theorem readObject_sealed {files : Files} {kind : ObjectKind} {plaintext : List UInt8} {seed : Seed}
    (hfile : files.lookup kind.fileName = some (encryptObject c rootKey id kind plaintext seed))
    (hsize : plaintext.length ≤ kind.maxPlaintextBytes) :
    readObject c rootKey files id kind = .ok plaintext := by
  rw [readObject, hfile]
  simp only [bind_ok, ensure_ok]
  refine ⟨(), ?_, decryptObject_encryptObject c rootKey id kind plaintext seed hsize⟩
  rw [length_encryptObject]
  omega

/-- A sealed generation reads back as its bundle. -/
theorem readUnlocked_sealed {root : CacheRoot} {g : Generation} (hg : root.generation id = some g)
    (htask : id.taskHash ∈ root.tasks) (hvalid : validateBundle bundle = .ok ())
    (hfiles : g.files = sealedFiles c rootKey id bundle seeds) :
    readUnlocked c rootKey root id = .ok bundle := by
  obtain ⟨hmanifest, hwav, heiad⟩ := validateBundle_ok hvalid
  obtain ⟨bytes, hbytes⟩ := @inspectFinalDirectory_sealed c rootKey id _ seeds hvalid
  have hmanifestFile : g.files.lookup ObjectKind.manifest.fileName =
      some (encryptObject c rootKey id .manifest bundle.manifestJson (seeds .manifest)) := by
    rw [hfiles]
    rfl
  have hwavFile : g.files.lookup ObjectKind.qwenWav.fileName =
      some (encryptObject c rootKey id .qwenWav bundle.qwenWav (seeds .qwenWav)) := by
    rw [hfiles]
    rfl
  have heiadFile : g.files.lookup ObjectKind.deviceEiad.fileName =
      some (encryptObject c rootKey id .deviceEiad bundle.deviceEiad (seeds .deviceEiad)) := by
    rw [hfiles]
    rfl
  simp only [readUnlocked, bind_ok, ensure_ok, orThrow_ok]
  exact ⟨(), htask, g, hg, _, readObject_sealed hmanifestFile hmanifest, _,
    readObject_sealed hwavFile hwav, _, readObject_sealed heiadFile heiad, bytes,
    hfiles ▸ hbytes, rfl⟩

end Sealed

theorem generation_some {root : CacheRoot} {id : CacheId} {g : Generation}
    (h : root.generation id = some g) : g ∈ root.generations ∧ g.id = id :=
  ⟨List.mem_of_find?_eq_some h, by simpa using List.find?_some h⟩

theorem generation_none {root : CacheRoot} {id : CacheId} (h : root.generation id = none) :
    id ∉ root.generations.map Generation.id := by
  rintro hid
  obtain ⟨g, hg, rfl⟩ := List.mem_map.1 hid
  simpa using List.find?_eq_none.1 h g hg

theorem temporary_some {root : CacheRoot} {task : Digest} {uuid : String} {t : Temporary}
    (h : root.temporary task uuid = some t) :
    t ∈ root.temporaries ∧ t.task = task ∧ t.uuid = uuid := by
  refine ⟨List.mem_of_find?_eq_some h, ?_⟩
  simpa [Temporary.at] using List.find?_some h

/-- What reads at all is there. -/
theorem readUnlocked_generation {root : CacheRoot} {id : CacheId} {bundle : CacheBundle}
    (h : readUnlocked c rootKey root id = .ok bundle) :
    id.taskHash ∈ root.tasks ∧ ∃ g, root.generation id = some g := by
  simp only [readUnlocked, bind_ok, ensure_ok, orThrow_ok] at h
  obtain ⟨_, htask, g, hg, _⟩ := h
  exact ⟨htask, g, hg⟩

/-- Reading looks at one directory only. -/
theorem readUnlocked_congr {root root' : CacheRoot} {id : CacheId}
    (hgeneration : root'.generation id = root.generation id)
    (htask : id.taskHash ∈ root'.tasks ↔ id.taskHash ∈ root.tasks) :
    readUnlocked c rootKey root' id = readUnlocked c rootKey root id := by
  rw [readUnlocked, readUnlocked, hgeneration]
  simp only [htask]

/-! ### The scan goes through -/

theorem inspectTemporaryLoop_ok {files : Files} {names : List String} {total : Nat}
    (h : files.Partial) (hnames : ∀ name ∈ files.names, name ∉ names) :
    ∃ bytes, inspectTemporaryLoop files names total = .ok bytes := by
  induction files generalizing names total with
  | nil => exact ⟨total, rfl⟩
  | cons f files ih =>
    obtain ⟨name, bytes⟩ := f
    obtain ⟨kind, hkind, hname, hsize⟩ := h.objects _ List.mem_cons_self
    simp only at hname hsize
    subst hname
    have hnodup := h.names
    rw [Files.names, List.map_cons, List.nodup_cons] at hnodup
    have htail : Files.Partial files :=
      ⟨hnodup.2, fun f hf => h.objects f (List.mem_cons_of_mem _ hf)⟩
    obtain ⟨total', htotal⟩ := @ih (names ++ [kind.fileName]) (total + bytes.length)
      htail fun name hmem => by
        rw [List.mem_append, List.mem_singleton]
        rintro (hold | rfl)
        · exact hnames name (List.mem_cons_of_mem _ hmem) hold
        · exact hnodup.1 hmem
    refine ⟨total', ?_⟩
    simp only [inspectTemporaryLoop, bind_ok, orThrow_ok, ensure_ok]
    exact ⟨kind, kindNamed_fileName hkind, (), hnames _ List.mem_cons_self, (), hsize, htotal⟩

theorem scanTemporaries_ok {temporaries : List Temporary} (scan : CacheScan)
    (h : ∀ t ∈ temporaries, env.uuidOk t.uuid = true ∧ t.files.Partial) :
    ∃ scan', temporaries.foldlM (scanTemporary env) scan = .ok scan' ∧
      scan'.finalized = scan.finalized ∧
      scan'.temporaries = scan.temporaries ++ temporaries.map fun t => (t.task, t.uuid) := by
  induction temporaries generalizing scan with
  | nil => exact ⟨scan, rfl, rfl, by simp⟩
  | cons t temporaries ih =>
    obtain ⟨huuid, hparts⟩ := h t List.mem_cons_self
    obtain ⟨bytes, hbytes⟩ :=
      @inspectTemporaryLoop_ok _ [] 0 hparts (by simp)
    have hstep : scanTemporary env scan t = .ok (scan.addTemporary t bytes) := by
      simp only [scanTemporary, bind_ok, ensure_ok]
      exact ⟨(), huuid, bytes, hbytes, rfl⟩
    obtain ⟨scan', hscan, hfinal, htemps⟩ := ih (scan.addTemporary t bytes)
      fun t ht => h t (List.mem_cons_of_mem _ ht)
    refine ⟨scan', ?_, hfinal, ?_⟩
    · rw [List.foldlM_cons, hstep]
      exact hscan
    · rw [htemps, CacheScan.addTemporary, List.map_cons, List.append_assoc, List.singleton_append]

theorem scanGenerations_ok {generations : List Generation} (scan : CacheScan)
    (h : ∀ g ∈ generations, g.Sealed c rootKey ∧ 0 < g.id.generation ∧ g.id.generation ≤ u64Max)
    (hdistinct : (scan.finalized ++ generations.map Generation.id).Nodup) :
    ∃ scan', generations.foldlM scanGeneration scan = .ok scan' ∧
      scan'.finalized = scan.finalized ++ generations.map Generation.id ∧
      scan'.temporaries = scan.temporaries := by
  induction generations generalizing scan with
  | nil => exact ⟨scan, rfl, by simp, rfl⟩
  | cons g generations ih =>
    obtain ⟨⟨bundle, seeds, hvalid, hfiles⟩, hpos, hmax⟩ := h g List.mem_cons_self
    obtain ⟨bytes, hbytes⟩ := @inspectFinalDirectory_sealed c rootKey g.id _ seeds hvalid
    rw [← hfiles] at hbytes
    have hnew : g.id ∉ scan.finalized := fun hmem =>
      (List.nodup_append.1 hdistinct).2.2 _ hmem g.id (by simp) rfl
    have hstep : scanGeneration scan g = .ok (scan.addGeneration g.id bytes) := by
      simp only [scanGeneration, bind_ok, orThrow_ok, ensure_ok]
      exact ⟨g.id, fromReference_reference g.id hpos hmax, bytes, hbytes, (), hnew, rfl⟩
    obtain ⟨scan', hscan, hfinal, htemps⟩ := ih (scan.addGeneration g.id bytes)
      (fun g hg => h g (List.mem_cons_of_mem _ hg))
      (by simpa [CacheScan.addGeneration] using hdistinct)
    refine ⟨scan', ?_, ?_, htemps⟩
    · rw [List.foldlM_cons, hstep]
      exact hscan
    · rw [hfinal, CacheScan.addGeneration, List.map_cons, List.append_assoc, List.singleton_append]

/-- A directory in order scans, and the scan lists what is there. -/
theorem CacheRoot.Ok.scanUnlocked {root : CacheRoot} (h : root.Ok c rootKey env) :
    ∃ scan, scanUnlocked env root = .ok scan ∧
      scan.finalized = root.generations.map Generation.id ∧
      scan.temporaries = root.temporaries.map fun t => (t.task, t.uuid) := by
  obtain ⟨scan, hscan, hfinal, htemps⟩ :=
    scanTemporaries_ok ⟨⟨0, 0, keyMarkerBytes⟩, [], []⟩ h.temporaries
  obtain ⟨scan', hscan', hfinal', htemps'⟩ := @scanGenerations_ok c rootKey root.generations scan
    (fun g hg => ⟨(h.generations g hg).1, (h.generations g hg).2.2⟩)
    (by rw [hfinal, List.nil_append]; exact h.distinct)
  refine ⟨scan', ?_, ?_, ?_⟩
  · rw [Cache.scanUnlocked, hscan]
    exact hscan'
  · rw [hfinal', hfinal, List.nil_append]
  · rw [htemps', htemps, List.nil_append]

/-! ### What one step keeps -/

/-- When a step leaves the directory in order. -/
def FsStep.Allowed (c : Crypto) (rootKey : List UInt8) (env : Env P) (root : CacheRoot) :
    FsStep → Prop
  | .createTemporary _ uuid | .retire _ uuid => env.uuidOk uuid = true
  | .createFile task uuid name => ∀ t ∈ root.temporaries, t.at task uuid = true →
      (t.files.create name).Partial
  | .write task uuid name bytes => ∀ t ∈ root.temporaries, t.at task uuid = true →
      (t.files.write name bytes).Partial
  | .finalize id uuid => 0 < id.generation ∧ id.generation ≤ u64Max ∧
      ∀ t ∈ root.temporaries, t.at id.taskHash uuid = true → Generation.Sealed c rootKey ⟨id, t.files⟩
  | _ => True

theorem Files.Partial.unlink {files : Files} (h : files.Partial) (name : String) :
    (files.unlink name).Partial := by
  refine ⟨h.names.sublist (List.filter_sublist.map _), fun f hf => ?_⟩
  exact h.objects f (List.mem_of_mem_filter hf)

theorem CacheRoot.Ok.edit {root : CacheRoot} (h : root.Ok c rootKey env) {task : Digest}
    {uuid : String} {f : Files → Files}
    (hf : ∀ t ∈ root.temporaries, t.at task uuid = true → (f t.files).Partial) :
    (root.edit task uuid f).Ok c rootKey env := by
  refine ⟨fun t ht => ?_, h.generations, h.distinct, fun t ht => ?_⟩
  · rcases Table.mem_update_cases ht with ⟨hold, _⟩ | ⟨t, hold, hat, rfl⟩
    · exact h.temporaries t hold
    · exact ⟨(h.temporaries t hold).1, hf t hold hat⟩
  · rcases Table.mem_update_cases ht with ⟨hold, _⟩ | ⟨t, hold, _, rfl⟩
    · exact h.parents t hold
    · exact h.parents t hold

theorem CacheRoot.Ok.perform {root root' : CacheRoot} (h : root.Ok c rootKey env) {step : FsStep}
    (hallowed : step.Allowed c rootKey env root) (hstep : step.perform root = some root') :
    root'.Ok c rootKey env := by
  cases step with
  | createTask task =>
    simp only [FsStep.perform] at hstep
    split at hstep
    · cases hstep
    · cases hstep
      refine ⟨h.temporaries, fun g hg => ?_, h.distinct, fun t ht => ?_⟩
      · obtain ⟨hsealed, htask, hrange⟩ := h.generations g hg
        exact ⟨hsealed, List.mem_append_left _ htask, hrange⟩
      · exact List.mem_append_left _ (h.parents t ht)
  | createTemporary task uuid =>
    simp only [FsStep.perform] at hstep
    split at hstep
    next hfree =>
      cases hstep
      have hempty : Files.Partial [] := ⟨List.nodup_nil, by simp⟩
      refine ⟨fun t ht => ?_, h.generations, h.distinct, fun t ht => ?_⟩
      · rcases List.mem_append.1 ht with hold | hnew
        · exact h.temporaries t hold
        · obtain rfl := List.mem_singleton.1 hnew
          exact ⟨hallowed, hempty⟩
      · rcases List.mem_append.1 ht with hold | hnew
        · exact h.parents t hold
        · obtain rfl := List.mem_singleton.1 hnew
          exact hfree.1
    next => cases hstep
  | createFile task uuid name =>
    simp only [FsStep.perform] at hstep
    split at hstep
    · cases hstep
    · split at hstep
      · cases hstep
      · cases hstep
        exact h.edit hallowed
  | write task uuid name bytes =>
    simp only [FsStep.perform] at hstep
    split at hstep
    · cases hstep
    · split at hstep
      · cases hstep
        exact h.edit hallowed
      · cases hstep
  | finalize id uuid =>
    simp only [FsStep.perform] at hstep
    split at hstep
    · cases hstep
    next t ht =>
      split at hstep
      next hnone =>
        cases hstep
        obtain ⟨hmem, htask, huuid⟩ := temporary_some ht
        obtain ⟨hpos, hmax, hsealed⟩ := hallowed
        have hat : t.at id.taskHash uuid = true := by simp [Temporary.at, htask, huuid]
        refine ⟨fun t ht => ?_, fun g hg => ?_, ?_, fun t ht => ?_⟩
        · exact h.temporaries t (Table.mem_delete.1 ht).1
        · rcases List.mem_append.1 hg with hold | hnew
          · exact h.generations g hold
          · obtain rfl := List.mem_singleton.1 hnew
            exact ⟨hsealed t hmem hat, htask ▸ h.parents t hmem, hpos, hmax⟩
        · rw [List.map_append, List.nodup_append]
          refine ⟨h.distinct, by simp, fun a ha b hb => ?_⟩
          rw [List.map_singleton, List.mem_singleton] at hb
          rintro rfl
          rw [hb] at ha
          exact generation_none hnone ha
        · exact h.parents t (Table.mem_delete.1 ht).1
      next => cases hstep
  | retire id uuid =>
    simp only [FsStep.perform] at hstep
    split at hstep
    · cases hstep
    next g hg =>
      split at hstep
      · cases hstep
        obtain ⟨hmem, hid⟩ := generation_some hg
        obtain ⟨⟨bundle, seeds, hvalid, hfiles⟩, htask, _⟩ := h.generations g hmem
        refine ⟨fun t ht => ?_, fun g hg => ?_, ?_, fun t ht => ?_⟩
        · rcases List.mem_append.1 ht with hold | hnew
          · exact h.temporaries t hold
          · obtain rfl := List.mem_singleton.1 hnew
            exact ⟨hallowed, hfiles ▸ partial_sealedFiles hvalid⟩
        · exact h.generations g (Table.mem_delete.1 hg).1
        · exact h.distinct.sublist (List.filter_sublist.map _)
        · rcases List.mem_append.1 ht with hold | hnew
          · exact h.parents t hold
          · obtain rfl := List.mem_singleton.1 hnew
            exact hid ▸ htask
      · cases hstep
  | unlink task uuid name =>
    simp only [FsStep.perform] at hstep
    split at hstep
    · cases hstep
    · split at hstep
      · cases hstep
        exact h.edit fun t ht _ => (h.temporaries t ht).2.unlink name
      · cases hstep
  | removeTemporary task uuid =>
    simp only [FsStep.perform] at hstep
    split at hstep
    · cases hstep
    · split at hstep
      · cases hstep
        exact ⟨fun t ht => h.temporaries t (Table.mem_delete.1 ht).1, h.generations, h.distinct,
          fun t ht => h.parents t (Table.mem_delete.1 ht).1⟩
      · cases hstep
  | sync =>
    cases hstep
    exact h

/-- Only its own retirement takes a finalized directory away, and nothing changes it. -/
theorem FsStep.perform_generation {root root' : CacheRoot} {step : FsStep}
    (hstep : step.perform root = some root') {id : CacheId} {g : Generation}
    (hg : root.generation id = some g) (hkept : ∀ uuid, step ≠ .retire id uuid) :
    root'.generation id = some g := by
  cases step with
  | finalize other uuid =>
    simp only [FsStep.perform] at hstep
    split at hstep
    · cases hstep
    · split at hstep
      · cases hstep
        rw [CacheRoot.generation, List.find?_append]
        rw [CacheRoot.generation] at hg
        rw [hg, Option.some_or]
      · cases hstep
  | retire other uuid =>
    simp only [FsStep.perform] at hstep
    split at hstep
    · cases hstep
    · split at hstep
      · cases hstep
        have hne : other ≠ id := by
          rintro rfl
          exact hkept uuid rfl
        rw [CacheRoot.generation, Table.delete, List.find?_filter]
        rw [CacheRoot.generation] at hg
        rw [← hg]
        congr 1
        funext x
        by_cases hx : x.id = id
        · simp [hx, hne.symm]
        · simp [hx]
      · cases hstep
  | createTask task =>
    simp only [FsStep.perform] at hstep
    split at hstep <;> cases hstep
    exact hg
  | createTemporary task uuid =>
    simp only [FsStep.perform] at hstep
    split at hstep <;> cases hstep
    exact hg
  | createFile task uuid name | write task uuid name bytes | unlink task uuid name
    | removeTemporary task uuid =>
    simp only [FsStep.perform] at hstep
    split at hstep
    · cases hstep
    · split at hstep <;> cases hstep
      exact hg
  | sync =>
    cases hstep
    exact hg

theorem FsStep.perform_tasks {root root' : CacheRoot} {step : FsStep}
    (hstep : step.perform root = some root') {task : Digest} (h : task ∈ root.tasks) :
    task ∈ root'.tasks := by
  unfold FsStep.perform at hstep
  repeat' split at hstep
  all_goals cases hstep
  all_goals first | exact h | exact List.mem_append_left _ h

/-- What can be read stays as it is, through every step but its own retirement. -/
theorem FsStep.perform_read {root root' : CacheRoot} {step : FsStep}
    (hstep : step.perform root = some root') {id : CacheId} {bundle : CacheBundle}
    (hread : readUnlocked c rootKey root id = .ok bundle) (hkept : ∀ uuid, step ≠ .retire id uuid) :
    readUnlocked c rootKey root' id = .ok bundle := by
  obtain ⟨htask, g, hg⟩ := readUnlocked_generation hread
  have hg' := perform_generation hstep hg hkept
  rw [← hread]
  refine readUnlocked_congr (hg'.trans hg.symm) ?_
  exact ⟨fun _ => htask, fun _ => perform_tasks hstep htask⟩

end CodexKeyboard.Cache
