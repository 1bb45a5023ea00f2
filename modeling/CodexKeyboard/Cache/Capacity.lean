import CodexKeyboard.Cache.Kept
import CodexKeyboard.Summary.Wedge

/-! What fills the cache. `publish_observed` counts every directory it finds, but only the generations
    that a retained reference names are still of use. The others do no harm as long as all that is on
    disk leaves room; beyond that they are in the way until the next reconciliation, which the finisher
    runs and nobody else. -/

namespace CodexKeyboard.Cache

open Schemes Transact Store Lan

variable {P : Type} {s : Setup P} {w : World}

def Files.bytes (files : Files) : Nat := (files.map fun f => f.2.length).sum

/-- The directories the retained references name. -/
def World.retainedGenerations (w : World) : List Generation :=
  w.cache.generations.filter fun g => g.id.reference ∈ retainedSummaryCacheReferences w.db

def World.retainedBytes (w : World) : Nat := (w.retainedGenerations.map fun g => g.files.bytes).sum

/-- All that is on disk: the key marker, what is on its way in or out, and the generations. -/
def CacheRoot.bytes (root : CacheRoot) : Nat :=
  keyMarkerBytes + (root.temporaries.map fun t => t.files.bytes).sum +
    (root.generations.map fun g => g.files.bytes).sum

/-- There is no room for `bundle` beside the generations that are still of use. -/
def RetainedFull (limits : CacheLimits) (w : World) (bundle : CacheBundle) : Prop :=
  limits.maxGenerations ≤ w.retainedGenerations.length ∨
  limits.maxTotalBytes < w.retainedBytes + encodedBundleBytes bundle

/-- A publication is refused for lack of room only where those generations leave none. -/
def FullOnlyIfRetained (s : Setup P) (w : World) : Event s → Prop
  | .publish claim bundle draw =>
    publishOrVerify s w.cache claim bundle draw = .error .capacityExceeded →
      RetainedFull s.limits w bundle
  | _ => True

/-- Nothing is on disk but what a retained reference names. -/
structure Swept (w : World) : Prop where
  temporaries : w.cache.temporaries = []
  generations : ∀ g ∈ w.cache.generations, g.id.reference ∈ retainedSummaryCacheReferences w.db

/-- The bundle does not end in the last bytes below the limit, which the key marker takes. -/
def BesideMarker (limits : CacheLimits) (w : World) (bundle : CacheBundle) : Prop :=
  w.retainedBytes + encodedBundleBytes bundle ≤ limits.maxTotalBytes →
    keyMarkerBytes + w.retainedBytes + encodedBundleBytes bundle ≤ limits.maxTotalBytes

/-- All that is on disk, dead or alive, leaves room for the bundle. -/
structure Fits (limits : CacheLimits) (root : CacheRoot) (bundle : CacheBundle) : Prop where
  generations : root.generations.length < limits.maxGenerations
  bytes : root.bytes + encodedBundleBytes bundle ≤ limits.maxTotalBytes

/-- A publication finds room, or nothing dead beside what is still of use. -/
def Tidy (s : Setup P) (w : World) : Event s → Prop
  | .publish _ bundle _ =>
    Fits s.limits w.cache bundle ∨ (Swept w ∧ BesideMarker s.limits w bundle)
  | _ => True

def TidyRun (s : Setup P) : World → List (Event s) → Prop
  | _, [] => True
  | w, event :: events => Tidy s w event ∧ TidyRun s (next s w event) events

/-! ### What the scan counts -/

theorem inspectFinalLoop_sizes {files : Files} {sizes sizes' : List (ObjectKind × Nat)}
    (h : inspectFinalLoop files sizes = .ok sizes') :
    (sizes'.map Prod.snd).sum = (sizes.map Prod.snd).sum + files.bytes := by
  induction files generalizing sizes with
  | nil =>
    cases h
    simp [Files.bytes]
  | cons f files ih =>
    simp only [inspectFinalLoop, bind_ok, orThrow_ok, ensure_ok] at h
    obtain ⟨kind, -, -, -, -, -, hrest⟩ := h
    rw [ih hrest]
    simp [Files.bytes, Nat.add_assoc]

theorem inspectFinalDirectory_bytes {files : Files} {bytes : Nat}
    (h : inspectFinalDirectory files = .ok bytes) : bytes = files.bytes := by
  simp only [inspectFinalDirectory, bind_ok, ensure_ok] at h
  obtain ⟨sizes, hsizes, -, -, hsum⟩ := h
  have htotal := inspectFinalLoop_sizes hsizes
  cases hsum
  simpa using htotal

theorem inspectTemporaryLoop_bytes {files : Files} {names : List String} {total bytes : Nat}
    (h : inspectTemporaryLoop files names total = .ok bytes) : bytes = total + files.bytes := by
  induction files generalizing names total with
  | nil =>
    cases h
    simp [Files.bytes]
  | cons f files ih =>
    simp only [inspectTemporaryLoop, bind_ok, orThrow_ok, ensure_ok] at h
    obtain ⟨kind, -, -, -, -, -, hrest⟩ := h
    rw [ih hrest]
    simp [Files.bytes, Nat.add_assoc]

theorem scanTemporaries_audit {temporaries : List Temporary} {scan scan' : CacheScan}
    (h : temporaries.foldlM (scanTemporary s.env) scan = .ok scan') :
    scan'.audit.finalizedGenerations = scan.audit.finalizedGenerations ∧
    scan'.audit.encryptedBytes =
      scan.audit.encryptedBytes + (temporaries.map fun t => t.files.bytes).sum := by
  induction temporaries generalizing scan with
  | nil =>
    cases h
    simp
  | cons t temporaries ih =>
    rw [List.foldlM_cons, bind_ok] at h
    obtain ⟨next, hnext, hrest⟩ := h
    simp only [scanTemporary, bind_ok, ensure_ok] at hnext
    obtain ⟨-, -, bytes, hbytes, hadd⟩ := hnext
    cases hadd
    have hsize : bytes = t.files.bytes := by simpa using inspectTemporaryLoop_bytes hbytes
    obtain ⟨hcount, hsum⟩ := ih hrest
    rw [hcount, hsum, hsize]
    simp [CacheScan.addTemporary, Nat.add_assoc]

theorem scanGenerations_audit {generations : List Generation} {scan scan' : CacheScan}
    (h : generations.foldlM scanGeneration scan = .ok scan') :
    scan'.audit.finalizedGenerations = scan.audit.finalizedGenerations + generations.length ∧
    scan'.audit.encryptedBytes =
      scan.audit.encryptedBytes + (generations.map fun g => g.files.bytes).sum := by
  induction generations generalizing scan with
  | nil =>
    cases h
    simp
  | cons g generations ih =>
    rw [List.foldlM_cons, bind_ok] at h
    obtain ⟨next, hnext, hrest⟩ := h
    simp only [scanGeneration, bind_ok, orThrow_ok, ensure_ok] at hnext
    obtain ⟨id, -, bytes, hbytes, -, -, hadd⟩ := hnext
    cases hadd
    rw [inspectFinalDirectory_bytes hbytes] at hrest
    obtain ⟨hcount, hsum⟩ := ih hrest
    rw [hcount, hsum]
    simp [CacheScan.addGeneration, Nat.add_assoc, Nat.add_comm 1]

/-- The scan counts all that is on disk. -/
theorem scanUnlocked_audit {root : CacheRoot} {scan : CacheScan} (h : scanUnlocked s.env root = .ok scan) :
    scan.audit.finalizedGenerations = root.generations.length ∧ scan.audit.encryptedBytes = root.bytes := by
  rw [scanUnlocked, bind_ok] at h
  obtain ⟨first, hfirst, hrest⟩ := h
  obtain ⟨hcount, hbytes⟩ := scanTemporaries_audit hfirst
  obtain ⟨hcount', hbytes'⟩ := scanGenerations_audit hrest
  rw [hcount', hbytes', hcount, hbytes, CacheRoot.bytes]
  exact ⟨Nat.zero_add _, rfl⟩

/-- In a swept cache that is the retained generations, and the key marker. -/
theorem Swept.disk (hswept : Swept w) : w.cache.generations.length = w.retainedGenerations.length ∧
    w.cache.bytes = keyMarkerBytes + w.retainedBytes := by
  have hall : w.retainedGenerations = w.cache.generations := by
    refine List.filter_eq_self.2 ?_
    rintro g hg
    exact decide_eq_true (hswept.generations g hg)
  rw [World.retainedBytes, hall, CacheRoot.bytes, hswept.temporaries]
  exact ⟨rfl, rfl⟩

/-! ### Where a publication is refused for lack of room -/

theorem ne_bind {α β : Type} {e : CacheError} {x : Except CacheError α} {f : α → Except CacheError β}
    (hx : x ≠ .error e) (hf : ∀ a, f a ≠ .error e) : (x >>= f) ≠ .error e := by
  rw [Ne, bind_error]
  rintro (h | ⟨a, -, h⟩)
  · exact hx h
  · exact hf a h

theorem ensure_ne {p : Prop} [Decidable p] {e e' : CacheError} (h : e ≠ e') :
    ensure p e ≠ .error e' := fun herror => h (ensure_error.1 herror).2

theorem orThrow_ne {α : Type} {o : Option α} {e e' : CacheError} (h : e ≠ e') :
    orThrow e o ≠ .error e' := fun herror => h (orThrow_error.1 herror).2

theorem inspectFinalLoop_ne {files : Files} {sizes : List (ObjectKind × Nat)} :
    inspectFinalLoop files sizes ≠ .error .capacityExceeded := by
  induction files generalizing sizes with
  | nil => simp [inspectFinalLoop]
  | cons f files ih =>
    refine ne_bind (orThrow_ne (by decide)) fun kind => ?_
    refine ne_bind (ensure_ne (by decide)) fun _ => ?_
    exact ne_bind (ensure_ne (by decide)) fun _ => ih

theorem readObject_ne {c : Crypto} {rootKey : List UInt8} {files : Files} {id : CacheId}
    {kind : ObjectKind} : readObject c rootKey files id kind ≠ .error .capacityExceeded := by
  unfold readObject
  split
  · simp
  · refine ne_bind (ensure_ne (by decide)) fun _ => ?_
    refine ne_bind (ensure_ne (by decide)) fun _ => ne_bind ?_ fun header => ?_
    · refine ne_bind (ensure_ne (by decide)) fun _ => ?_
      exact ne_bind (orThrow_ne (by decide)) fun kind => by simp
    · refine ne_bind (ensure_ne (by decide)) fun _ => ?_
      refine ne_bind (ensure_ne (by decide)) fun _ => ?_
      refine ne_bind (orThrow_ne (by decide)) fun plaintext => ?_
      exact ne_bind (ensure_ne (by decide)) fun _ => by simp

theorem readUnlocked_ne {c : Crypto} {rootKey : List UInt8} {root : CacheRoot} {id : CacheId} :
    readUnlocked c rootKey root id ≠ .error .capacityExceeded := by
  refine ne_bind (ensure_ne (by decide)) fun _ => ?_
  refine ne_bind (orThrow_ne (by decide)) fun directory => ?_
  refine ne_bind readObject_ne fun manifestJson => ne_bind readObject_ne fun qwenWav => ?_
  refine ne_bind readObject_ne fun deviceEiad => ne_bind ?_ fun _ => by simp
  refine ne_bind inspectFinalLoop_ne fun sizes => ?_
  exact ne_bind (ensure_ne (by decide)) fun _ => by simp

/-- Once the directory scans, a bundle that fits is not refused for lack of room. -/
theorem Fits.not_full {root : CacheRoot} {scan : CacheScan} {claim : SummaryClaim}
    {bundle : CacheBundle} {draw : Draw s.env} (hfits : Fits s.limits root bundle)
    (hscan : scanUnlocked s.env root = .ok scan) :
    publishOrVerify s root claim bundle draw ≠ .error .capacityExceeded := by
  intro h
  refine absurd h (ne_bind (orThrow_ne (by decide)) fun id => ?_)
  split
  · exact ne_bind (ensure_ne (by decide)) fun _ => by simp
  · refine ne_bind ?_ fun _ => ?_
    · refine ne_bind (ensure_ne (by decide)) fun _ => ensure_ne (by decide)
    rw [hscan]
    have hroom : scan.audit.finalizedGenerations < s.limits.maxGenerations ∧
        scan.audit.encryptedBytes + encodedBundleBytes bundle ≤ s.limits.maxTotalBytes := by
      obtain ⟨hcount, hbytes⟩ := scanUnlocked_audit hscan
      rw [hcount, hbytes]
      exact ⟨hfits.generations, hfits.bytes⟩
    have hbound : ∀ f : CacheScan → Except CacheError Holder, (Except.ok scan >>= f) = f scan :=
      fun _ => rfl
    rw [hbound, ensure_of hroom]
    exact ne_bind (by simp) fun _ => ne_bind (ensure_ne (by decide)) fun _ => by simp
  next e hother hread =>
    rintro herror
    cases herror
    exact readUnlocked_ne hread

/-! ### Dead audio and the next publication -/

theorem FullOnlyIfRetained.of_tidy (h : w.Ok s) {event : Event s} (htidy : Tidy s w event) :
    FullOnlyIfRetained s w event := by
  cases event with
  | publish claim bundle draw =>
    intro hfull
    obtain ⟨scan, hscan, -⟩ := h.root.scanUnlocked
    have hnot : ¬ Fits s.limits w.cache bundle := fun hfits => hfits.not_full hscan hfull
    obtain ⟨hswept, hmarker⟩ := htidy.resolve_left hnot
    obtain ⟨hcount, hbytes⟩ := hswept.disk
    by_contra hroom
    obtain ⟨hfew, hsmall⟩ := not_or.1 hroom
    refine hnot ⟨hcount ▸ Nat.lt_of_not_le hfew, ?_⟩
    rw [hbytes]
    exact hmarker (Nat.le_of_not_lt hsmall)
  | _ => trivial

theorem TidyRun.at {before after : List (Event s)} {event : Event s}
    (h : TidyRun s w (before ++ event :: after)) : Tidy s (w.run s before) event := by
  induction before generalizing w with
  | nil => exact h.1
  | cons first before ih => exact ih h.2

/-- In every run whose publications all find room or a cache that is swept, each of them that is
    refused for lack of room is refused because of generations that are still of use. -/
theorem capacity_exceeded_only_by_retained (s : Setup P) (events : List (Event s))
    (htidy : TidyRun s World.init events) : ∀ before event after, events = before ++ event :: after →
    FullOnlyIfRetained s (World.init.run s before) event := by
  rintro before event after rfl
  exact .of_tidy (World.ok_run s before) htidy.at

instance (limits : CacheLimits) (w : World) (bundle : CacheBundle) :
    Decidable (RetainedFull limits w bundle) := inferInstanceAs (Decidable (_ ∨ _))

instance (w : World) : Decidable (Swept w) :=
  decidable_of_iff (w.cache.temporaries = [] ∧
      ∀ g ∈ w.cache.generations, g.id.reference ∈ retainedSummaryCacheReferences w.db)
    ⟨fun h => ⟨h.1, h.2⟩, fun h => ⟨h.temporaries, h.generations⟩⟩

instance (limits : CacheLimits) (root : CacheRoot) (bundle : CacheBundle) : Decidable (Fits limits root bundle) :=
  decidable_of_iff (root.generations.length < limits.maxGenerations ∧
      root.bytes + encodedBundleBytes bundle ≤ limits.maxTotalBytes)
    ⟨fun h => ⟨h.1, h.2⟩, fun h => ⟨h.generations, h.bytes⟩⟩

instance (s : Setup P) (w : World) : (event : Event s) → Decidable (Tidy s w event)
  | .publish .. => inferInstanceAs (Decidable (_ ∨ Swept w ∧ (_ → _)))
  | .store _ | .load _ | .reconcile | .references _ | .proceed | .fail _ | .authenticate _ | .commit
  | .crash => .isTrue trivial

instance decidableTidyRun (s : Setup P) :
    (w : World) → (events : List (Event s)) → Decidable (TidyRun s w events)
  | _, [] => .isTrue trivial
  | w, event :: events =>
    have := decidableTidyRun s (next s w event) events
    inferInstanceAs (Decidable (_ ∧ _))

section Examples

open Summary

def smallCache (maxGenerations : Nat) : Setup (List UInt8) :=
  ⟨sampleEnv, default, [], ⟨2 ^ 20, maxGenerations⟩⟩

def sampleBundle : CacheBundle := ⟨[1], [2], [3]⟩

def sampleDraw : Draw sampleEnv :=
  ⟨⟨sampleTask, by decide +kernel⟩, fun _ => ⟨Vector.replicate 16 0, Vector.replicate 12 0⟩,
    fun _ => []⟩

def completionIds : List String :=
  [firstCompletion, secondCompletion, "019fa972-5cfa-75e1-9008-0b17ade9a350"]

/-- The claim over the `n`-th completion, while the generation before it is unread. -/
def claimOf (n : Nat) : SummaryClaim where
  outcome := .inserted
  requestId := completionIds.getD n ""
  taskId := sampleTask
  generation := n + 1
  previousUnread :=
    if n = 0 then none else some ⟨sampleTask, n, cacheReference sampleEnv sampleTask n, n⟩
  completions := [⟨completionIds.getD n "", "\x7b\x7d"⟩]

/-- The task completes a turn, and the worker claims it. -/
def claimTurn (limit n : Nat) : List (Event (smallCache limit)) :=
  [.store (.commitRolloutCompletion (if n = 0 then none else some (sampleCursor (10 * n)))
     (sampleCursor (10 * (n + 1))) (completionIds.getD n "") "\x7b\x7d" n),
   .store (.claimSummary sampleTask (completionIds.getD n ""))]

def publishTurn (limit n : Nat) : Event (smallCache limit) := .publish (claimOf n) sampleBundle sampleDraw

/-- The claim is published, on disk and in the ledger. -/
def publishWhole (limit n : Nat) : List (Event (smallCache limit)) :=
  claimTurn limit n ++ publishTurn limit n :: List.replicate 15 .proceed ++ [.authenticate true, .commit]

/-- The error of a failed call, to compare by. -/
def failure {α : Type} : Except CacheError α → Option CacheError
  | .error e => some e
  | .ok _ => none

theorem error_of_failure {α : Type} {x : Except CacheError α} {e : CacheError}
    (h : failure x = some e) : x = .error e := by
  cases x with
  | error e' => rw [Option.some.inj h]
  | ok a => cases h

/-- One generation fills the cache: while it is unread, the next one is refused. -/
theorem capacity_exceeded_by_unread :
    let w := World.init.run (smallCache 1) (publishWhole 1 0 ++ claimTurn 1 1)
    publishOrVerify (smallCache 1) w.cache (claimOf 1) sampleBundle sampleDraw =
      .error .capacityExceeded ∧
    FullOnlyIfRetained (smallCache 1) w (publishTurn 1 1) := by
  refine ⟨error_of_failure (by decide +kernel), ?_⟩
  exact capacity_exceeded_only_by_retained (smallCache 1)
    (publishWhole 1 0 ++ claimTurn 1 1 ++ [publishTurn 1 1]) (by decide +kernel) _ _ [] rfl

/-- With room for two generations and one unread, the third one is refused: the first, which the
    second superseded, is still on disk. -/
theorem capacity_exceeded_by_superseded :
    ¬ FullOnlyIfRetained (smallCache 2) (World.init.run (smallCache 2)
      (publishWhole 2 0 ++ publishWhole 2 1 ++ claimTurn 2 2)) (publishTurn 2 2) := by
  have hrun :
      let w := World.init.run (smallCache 2) (publishWhole 2 0 ++ publishWhole 2 1 ++ claimTurn 2 2)
      failure (publishOrVerify (smallCache 2) w.cache (claimOf 2) sampleBundle sampleDraw) =
        some .capacityExceeded ∧ ¬ RetainedFull (smallCache 2).limits w sampleBundle := by
    decide +kernel
  rintro h
  exact hrun.2 (h (error_of_failure hrun.1))

end Examples

end CodexKeyboard.Cache
