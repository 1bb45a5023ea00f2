import CodexKeyboard.Store.Completions
import CodexKeyboard.Store.WellFormed

/-! Active summary claims: what their rows promise, and why a worker that holds one can load it,
    publish it and give it up.

    A claim is made over the pending completions and the unread generation of its moment. The
    completions stay pending until it is published; the unread generation stays what it was, unless
    the keyboard plays it to the end in between. -/

namespace CodexKeyboard.Store

open Schemes Transact

variable {P : Type} {env : Env P} {db db' : Database} {op : Op P}

/-! ### Active rows -/

/-- The pending rows a list of completion identifiers stands for, within the limits of a claim. -/
structure ClaimCovers (t : List CompletionRow) (task : String) (covers : List String)
    (rows : List CompletionRow) : Prop where
  pending : ∀ c ∈ rows, c ∈ t ∧ c.taskId = task ∧ c.summarizedGeneration = none
  ids : covers = rows.map (·.completionId)
  nodup : covers.Nodup
  nonempty : rows ≠ []
  bounded : rows.length ≤ maxSummaryCompletionsPerClaim
  size : (rows.map (·.turnPack.utf8ByteSize)).sum ≤ maxSummaryTurnPackBytes

structure ActiveOk (env : Env P) (db : Database) (r : SummaryRow) : Prop where
  request : ∃ request, r.requestId = some request ∧ r.claimId = some request ∧
    summaryRequestOk env r.taskId request = true
  inRange : r.generation ≤ i64Max
  covers : ∃ rows, ClaimCovers db.completionLedger r.taskId r.coversCompletions rows
  previousNone : r.previousGeneration = none →
    ∀ u ∈ db.summaryLedger, u.taskId = r.taskId → u.currentUnread = false
  previousSome : ∀ p, r.previousGeneration = some p → p ≤ i64Max ∧
    ∃ u ∈ db.summaryLedger, u.key = (r.taskId, p) ∧ u.Carries

def ClaimsOk (env : Env P) (db : Database) : Prop :=
  ∀ r ∈ db.summaryLedger, r.active = true → ActiveOk env db r

theorem ClaimCovers.mono {t t' : List CompletionRow} {task : String} {covers : List String}
    {rows : List CompletionRow} (h : ClaimCovers t task covers rows) (hsub : t ⊆ t') :
    ClaimCovers t' task covers rows :=
  { h with pending := fun c hc => ⟨hsub (h.pending c hc).1, (h.pending c hc).2⟩ }

/-- The columns of an active row that a claim rests on. -/
def SummaryRow.SameClaim (r' r : SummaryRow) : Prop :=
  r.active = true ∧ r'.requestId = r.requestId ∧ r'.claimId = r.claimId ∧
  r'.coversCompletions = r.coversCompletions ∧ r'.previousGeneration = r.previousGeneration

theorem ClaimsOk.relabel (h : ClaimsOk env db) {f : SummaryRow → SummaryRow}
    (hledger : db'.summaryLedger = db.summaryLedger.map f)
    (hcompletions : db.completionLedger ⊆ db'.completionLedger)
    (hkey : ∀ r, (f r).key = r.key) (hclaim : ∀ r, (f r).active = true → (f r).SameClaim r)
    (hcarries : ∀ r, r.Carries → (f r).Carries)
    (hunread : ∀ r, (f r).currentUnread = true → r.currentUnread = true) : ClaimsOk env db' := by
  intro r' hr' hactive
  rw [hledger] at hr'
  obtain ⟨r, hr, rfl⟩ := List.mem_map.1 hr'
  obtain ⟨hact, hrequest, hclaimId, hcovers, hprevious⟩ := hclaim r hactive
  have hok := h r hr hact
  have htask := taskId_of_key (hkey r)
  refine ⟨?_, ?_, ?_, ?_, ?_⟩
  · obtain ⟨request, h₁, h₂, h₃⟩ := hok.request
    exact ⟨request, hrequest.trans h₁, hclaimId.trans h₂, by rwa [htask]⟩
  · rw [generation_of_key (hkey r)]
    exact hok.inRange
  · obtain ⟨rows, hrows⟩ := hok.covers
    rw [htask, hcovers]
    exact ⟨rows, hrows.mono hcompletions⟩
  · intro hnone u' hu' hsame
    rw [hledger] at hu'
    obtain ⟨u, hu, rfl⟩ := List.mem_map.1 hu'
    rw [Bool.eq_false_iff]
    intro hun
    rw [taskId_of_key (hkey u), htask] at hsame
    rw [hprevious] at hnone
    exact absurd (hunread u hun) (by simp [hok.previousNone hnone u hu hsame])
  · intro p hp
    rw [hprevious] at hp
    obtain ⟨hrange, u, hu, hukey, hucarries⟩ := hok.previousSome p hp
    refine ⟨hrange, f u, ?_, ?_, hcarries u hucarries⟩
    · rw [hledger]
      exact List.mem_map_of_mem hu
    · rw [hkey, hukey, htask]

/-- Rewriting some rows, when an active row that results was active with the same claim before. -/
theorem ClaimsOk.update (h : ClaimsOk env db) {target : SummaryRow → Bool}
    {g : SummaryRow → SummaryRow} (hledger : db'.summaryLedger = Table.update target g db.summaryLedger)
    (hcompletions : db.completionLedger ⊆ db'.completionLedger) (hkey : ∀ r, (g r).key = r.key)
    (hclaim : ∀ r, target r = true → (g r).active = true → (g r).SameClaim r)
    (hcarries : ∀ r, target r = true → r.Carries → (g r).Carries)
    (hunread : ∀ r, target r = true → (g r).currentUnread = true → r.currentUnread = true) :
    ClaimsOk env db' := by
  refine h.relabel (f := fun r => if target r then g r else r) hledger hcompletions ?_ ?_ ?_ ?_
  · intro r
    split <;> simp [hkey]
  · intro r hact
    split at hact
    next ht =>
      rw [if_pos ht]
      exact hclaim r ht hact
    next ht =>
      rw [if_neg ht]
      exact ⟨hact, rfl, rfl, rfl, rfl⟩
  · intro r hc
    split
    next ht => exact hcarries r ht hc
    next => exact hc
  · intro r hu
    split at hu
    next ht => exact hunread r ht hu
    next => exact hu

theorem not_carries_of_active {r : SummaryRow} (h : r.active = true) : ¬ r.Carries := by
  rintro ⟨_, hs | hs | hs⟩ <;> simp [SummaryRow.active, hs, SummaryState.active] at h

/-! ### A new claim -/

theorem claimBytes_of_collect {rows : List CompletionRow} {acc result : List PendingSummaryCompletion}
    {total : Nat} (h : collectPending env rows acc total = .ok result)
    (htotal : (acc.map (·.turnPack.utf8ByteSize)).sum = total)
    (hacc : acc ≠ [] → total ≤ maxSummaryTurnPackBytes) :
    result ≠ [] → (result.map (·.turnPack.utf8ByteSize)).sum ≤ maxSummaryTurnPackBytes := by
  induction rows generalizing acc total with
  | nil =>
    simp only [collectPending, Except.ok.injEq] at h
    subst h
    rw [htotal]
    exact hacc
  | cons row rows ih =>
    rw [collectPending] at h
    split at h
    next =>
      simp only [Except.ok.injEq] at h
      subst h
      rw [htotal]
      exact hacc
    next =>
      simp only [bind_ok, ensure_ok, Bool.and_eq_true] at h
      obtain ⟨_, ⟨_, hpack⟩, h⟩ := h
      split at h
      next =>
        simp only [Except.ok.injEq] at h
        subst h
        rw [htotal]
        exact hacc
      next hfits =>
        refine ih h ?_ ?_
        · rw [List.map_append, List.sum_append, htotal]
          simp
        · intro _
          rcases Classical.em (acc = []) with rfl | hne
          · -- the first turn pack is within its own, smaller bound
            simp only [turnPackOk, Bool.and_eq_true, decide_eq_true_eq] at hpack
            have hzero : total = 0 := by simpa using htotal.symm
            have := hpack.2
            simp only [maxTurnPackBytes, maxSummaryTurnPackBytes] at this ⊢
            omega
          · by_contra hover
            exact hfits ⟨hne, Nat.lt_of_not_le hover⟩

/-- The pending rows of a task, in the order they are taken, are rows of their own. -/
theorem pendingRows_nodup (h : CompletionSchema db.completionLedger) (task : String) :
    ((pendingRows db task).map (·.completionId)).Nodup := by
  have hfilter : (db.completionLedger.filter (CompletionRow.pending task)).Pairwise
      fun a b => a.completionId ≠ b.completionId :=
    (h.imp fun hab => hab rfl rfl).filter _
  have hsorted : (Table.orderBy CompletionRow.observedAt
      (db.completionLedger.filter (CompletionRow.pending task))).Pairwise
      fun a b => a.completionId ≠ b.completionId :=
    (List.perm_insertionSort _ _).symm.pairwise hfilter Ne.symm
  exact List.pairwise_map.2 (hsorted.sublist (List.take_sublist _ _))

theorem NewClaim.covers (h : LedgerOk env db) {task request : String} {claim : SummaryClaim}
    (hnew : NewClaim env db task request claim) :
    ∃ rows, ClaimCovers db.completionLedger task (claim.completions.map (·.completionId)) rows ∧
      claim.completions = rows.map fun c => ⟨c.completionId, c.turnPack⟩ := by
  obtain ⟨taken, hpre, hres, _, hbound⟩ := collectPending_ok hnew.pending
  rw [List.nil_append] at hres
  have hids : claim.completions.map (·.completionId) = taken.map (·.completionId) := by
    rw [hres, List.map_map]
    rfl
  have hsize := claimBytes_of_collect hnew.pending rfl (fun hne => absurd rfl hne) hnew.nonempty
  refine ⟨taken, ⟨?_, hids, ?_, ?_, ?_, ?_⟩, hres⟩
  · intro c hc
    exact mem_pendingRows (hpre.subset hc)
  · rw [hids]
    exact (pendingRows_nodup h.completions task).sublist (hpre.sublist.map _)
  · rintro rfl
    exact hnew.nonempty (by simpa using hres)
  · have := hbound (by simp [maxSummaryCompletionsPerClaim])
    rwa [hres, List.length_map] at this
  · rwa [hres, List.map_map] at hsize

theorem carries_of_unread {r : SummaryRow} (h : r.currentUnread = true) : r.Carries := by
  obtain ⟨hs | hs, hsup⟩ := SummaryRow.currentUnread_iff.1 h
  · exact ⟨hsup, Or.inl hs⟩
  · exact ⟨hsup, Or.inr (Or.inl hs)⟩

theorem ClaimsOk.claimed (hc : ClaimsOk env db) (h : LedgerOk env db) {task request : String}
    {claim : SummaryClaim} (hrequest : summaryRequestOk env task request = true)
    (hnew : NewClaim env db task request claim) :
    ClaimsOk env { db with summaryLedger := db.summaryLedger ++ [claim.row] } := by
  have hnewTask : claim.row.taskId = task := hnew.taskId
  have hquiet : claim.row.currentUnread = false := rfl
  intro r hr hactive
  rcases List.mem_append.1 hr with hr | hr
  · have hok := hc r hr hactive
    refine { hok with
      previousNone := ?_
      previousSome := ?_ }
    · intro hnone u hu htask
      rcases List.mem_append.1 hu with hu | hu
      · exact hok.previousNone hnone u hu htask
      · rw [List.mem_singleton] at hu
        subst hu
        exact hquiet
    · intro p hp
      obtain ⟨hle, u, hu, hrow⟩ := hok.previousSome p hp
      exact ⟨hle, u, List.mem_append_left _ hu, hrow⟩
  · rw [List.mem_singleton] at hr
    subst hr
    refine ⟨⟨request, ?_, ?_, by rwa [hnewTask]⟩, hnew.inRange, ?_, ?_, ?_⟩
    · exact congrArg some hnew.requestId
    · exact congrArg some hnew.requestId
    · obtain ⟨rows, hrows, _⟩ := hnew.covers h
      rw [hnewTask]
      exact ⟨rows, hrows⟩
    · intro hnone u hu htask
      rcases List.mem_append.1 hu with hu | hu
      · have hprev : claim.previousUnread = none := by
          simpa [SummaryClaim.row, claimRow] using hnone
        have hquery := hnew.previous
        rw [hprev] at hquery
        exact queryCurrentUnread_none hquery u hu (htask.trans hnewTask)
      · rw [List.mem_singleton] at hu
        subst hu
        exact hquiet
    · intro p hp
      have hquery := hnew.previous
      cases hprev : claim.previousUnread with
      | none => simp [SummaryClaim.row, claimRow, hprev] at hp
      | some unread =>
        rw [hprev] at hquery
        obtain ⟨u, hu, htask, hunread, _, hgen, _⟩ := queryCurrentUnread_some hquery
        have hpgen : p = u.generation := by
          have : unread.generation = p := by simpa [SummaryClaim.row, claimRow, hprev] using hp
          rw [← this, hgen]
        refine ⟨hpgen ▸ h.inRange u hu, u, List.mem_append_left _ hu, ?_, carries_of_unread hunread⟩
        rw [hnewTask, hpgen, SummaryRow.key, htask]

/-! ### Every effect keeps active rows in order -/

theorem ClaimsOk.published (hc : ClaimsOk env db) (h : LedgerOk env db) {claim : SummaryClaim}
    {cacheObject : String} (hp : Publication env db claim cacheObject db') : ClaimsOk env db' := by
  have hledger : db'.summaryLedger = db.summaryLedger.map (claim.republish cacheObject) := by
    rw [hp.commits]
    exact publishing_eq_map
  obtain ⟨stored, hstored, hpub⟩ := hp.held
  obtain ⟨hskey, hsstate, _⟩ := SummaryRow.publishable_iff.1 hpub
  have hsactive : stored.active = true := SummaryRow.active_iff.2 (Or.inl hsstate)
  -- a row of another task is not touched
  have hother : ∀ r : SummaryRow, r.taskId ≠ claim.taskId → claim.republish cacheObject r = r := by
    intro r hne
    rcases republish_cases claim cacheObject r with ⟨hpr, _⟩ | ⟨hsr, _⟩ | ⟨_, _, heq⟩
    · exact absurd (congrArg Prod.fst (SummaryRow.publishable_iff.1 hpr).1) hne
    · obtain ⟨_, _, hkey, _⟩ := SummaryClaim.supersedes_iff.1 hsr
      exact absurd (congrArg Prod.fst hkey) hne
    · exact heq
  intro r' hr' hactive
  rw [hledger] at hr'
  obtain ⟨r, hr, rfl⟩ := List.mem_map.1 hr'
  have hact := active_republish hactive
  have hne : r.taskId ≠ claim.taskId := by
    intro htask
    have hsame : r = stored := h.schema.2.2.1.eq_of_mem hr hstored hact hsactive
      (htask.trans (congrArg Prod.fst hskey).symm)
    rw [hsame] at hactive
    simp [SummaryClaim.republish, hpub, SummaryRow.publish, SummaryRow.active,
      SummaryState.active] at hactive
  rw [hother r hne]
  have hok := hc r hr hact
  refine ⟨hok.request, hok.inRange, ?_, ?_, ?_⟩
  · obtain ⟨rows, hrows⟩ := hok.covers
    refine ⟨rows, { hrows with pending := fun c hcr => ?_ }⟩
    obtain ⟨hmem, htask, hnone⟩ := hrows.pending c hcr
    refine ⟨?_, htask, hnone⟩
    rw [hp.commits]
    refine Table.mem_update_of_not hmem ?_
    rw [Bool.eq_false_iff]
    intro ht
    exact hne (htask.symm.trans (takes_task ht))
  · intro hnone u' hu' htask
    rw [hledger] at hu'
    obtain ⟨u, hu, rfl⟩ := List.mem_map.1 hu'
    rw [taskId_of_key (key_republish ..)] at htask
    rw [hother u (htask ▸ hne)]
    exact hok.previousNone hnone u hu htask
  · intro p hprev
    obtain ⟨hle, u, hu, hkey, hcarries⟩ := hok.previousSome p hprev
    refine ⟨hle, u, ?_, hkey, hcarries⟩
    rw [hledger, ← hother u (by rw [show u.taskId = r.taskId from congrArg Prod.fst hkey]; exact hne)]
    exact List.mem_map_of_mem hu

theorem ClaimsOk.effect (hc : ClaimsOk env db) (h : LedgerOk env db) (he : Effect env op db db') :
    ClaimsOk env db' := by
  have hsame : db.completionLedger ⊆ db.completionLedger := List.Subset.refl _
  cases he with
  | same => exact hc
  | queue jobs sequence onQueue =>
    exact fun r hr ha => { hc r hr ha with }
  | bound t schema => exact fun r hr ha => { hc r hr ha with }
  | attempted onClaims t schema => exact fun r hr ha => { hc r hr ha with }
  | observed cursors schema => exact fun r hr ha => { hc r hr ha with }
  | recorded cursors schema row =>
    intro r hr ha
    obtain ⟨rows, hrows⟩ := (hc r hr ha).covers
    exact { hc r hr ha with covers := ⟨rows, hrows.mono (List.subset_append_left _ _)⟩ }
  | claimed onClaims claim valid new schema => exact hc.claimed h valid new
  | resumed onClaims target interrupted schema =>
    have hact : ∀ r, target r = true → r.active = true := fun r ht =>
      SummaryRow.active_iff.2 (Or.inr (interrupted r ht))
    refine hc.update rfl hsame (fun _ => rfl) (fun r ht _ => ⟨hact r ht, rfl, rfl, rfl, rfl⟩) ?_ ?_
    · intro r ht hcar
      exact absurd hcar (not_carries_of_active (hact r ht))
    · intro r _ hu
      simp [SummaryRow.currentUnread, SummaryRow.regenerate, SummaryState.unread] at hu
  | abandoned onClaims target attempts active schema =>
    refine hc.update rfl hsame (fun _ => rfl) ?_ ?_ ?_
    · intro r _ ha
      simp [SummaryRow.active, SummaryRow.abandon, SummaryState.active] at ha
    · intro r ht hcar
      exact absurd hcar (not_carries_of_active (active r ht))
    · intro r _ hu
      simp [SummaryRow.currentUnread, SummaryRow.abandon, SummaryState.unread] at hu
  | published publication => exact hc.published h publication
  | acquired lease acquisition =>
    rw [acquisition.commits]
    refine hc.update rfl hsame (fun _ => rfl) ?_ ?_ ?_
    · intro r _ ha
      simp [SummaryRow.active, SummaryRow.lease, SummaryState.active] at ha
    · intro r ht _
      exact ⟨(SummaryRow.leasable_iff.1 ht).2.2, Or.inr (Or.inl rfl)⟩
    · intro r ht _
      obtain ⟨_, hs, hsup⟩ := SummaryRow.leasable_iff.1 ht
      exact SummaryRow.currentUnread_iff.2 ⟨Or.inl hs, hsup⟩
  | released lease release =>
    rw [release.commits]
    refine hc.update rfl hsame (fun _ => rfl) ?_ ?_ ?_
    · intro r _ ha
      simp only [SummaryRow.active, SummaryRow.release] at ha
      split at ha <;> simp [SummaryState.active] at ha
    · intro r _ hcar
      simp [SummaryRow.Carries, SummaryRow.release, hcar.1]
    · intro r ht hu
      simp only [Bool.and_eq_true, beq_iff_eq] at ht
      exact SummaryRow.currentUnread_iff.2 ⟨Or.inr ht.2, (SummaryRow.currentUnread_iff.1 hu).2⟩
  | finished finish =>
    rw [finish.commits]
    refine hc.update rfl hsame (fun _ => rfl) ?_ ?_ ?_
    · intro r _ ha
      simp [SummaryRow.active, SummaryRow.hear, SummaryState.active] at ha
    · intro r _ hcar
      exact ⟨hcar.1, Or.inr (Or.inr rfl)⟩
    · intro r _ hu
      simp [SummaryRow.currentUnread, SummaryRow.hear, SummaryState.unread] at hu
  | interrupted schema =>
    refine hc.update rfl hsame (fun _ => rfl) (fun r ht _ => ⟨?_, rfl, rfl, rfl, rfl⟩) ?_ ?_
    · exact SummaryRow.active_iff.2 (Or.inl (beq_iff_eq.1 ht))
    · intro r ht hcar
      exact absurd hcar (not_carries_of_active (SummaryRow.active_iff.2 (Or.inl (beq_iff_eq.1 ht))))
    · intro r _ hu
      simp [SummaryRow.currentUnread, SummaryState.unread] at hu
  | leasesDropped schema =>
    refine hc.update rfl hsame (fun _ => rfl) ?_ ?_ ?_
    · intro r _ ha
      simp only [SummaryRow.active, SummaryRow.release] at ha
      split at ha <;> simp [SummaryState.active] at ha
    · intro r _ hcar
      simp [SummaryRow.Carries, SummaryRow.release, hcar.1]
    · intro r ht hu
      exact SummaryRow.currentUnread_iff.2
        ⟨Or.inr (beq_iff_eq.1 ht), (SummaryRow.currentUnread_iff.1 hu).2⟩

/-- The two invariants of the ledger, together. -/
structure StoreOk (env : Env P) (db : Database) : Prop where
  ledger : LedgerOk env db
  claims : ClaimsOk env db

theorem storeOk_empty (env : Env P) : StoreOk env Database.empty :=
  ⟨ledgerOk_empty env, fun _ hr => by cases hr⟩

theorem StoreOk.effect (h : StoreOk env db) (he : Effect env op db db') : StoreOk env db' :=
  ⟨h.ledger.effect he, h.claims.effect h.ledger he⟩

theorem StoreOk.effects (h : StoreOk env db) (he : Effects env op db db') : StoreOk env db' := by
  induction he with
  | refl => exact h
  | tail _ hlast ih => exact ih.effect hlast

theorem StoreOk.step (h : StoreOk env db) (op : Op P) : StoreOk env (Store.step env db op) :=
  h.effects (h.ledger.step_effects op)

/-! ### A claim in the hands of a worker -/

/-- The claim a worker holds is the generating row it was read from, over the same completions and,
    while nobody hears it, the same unread generation. -/
structure Holds (env : Env P) (db : Database) (claim : SummaryClaim) : Prop where
  row : ∃ r ∈ db.summaryLedger, r.key = (claim.taskId, claim.generation) ∧ r.state = .generating ∧
    r.requestId = some claim.requestId ∧ r.claimId = some claim.requestId ∧
    r.previousGeneration = claim.previousUnread.map (·.generation) ∧
    r.coversCompletions = claim.completions.map (·.completionId)
  covers : ∃ rows, ClaimCovers db.completionLedger claim.taskId
      (claim.completions.map (·.completionId)) rows ∧
    claim.completions = rows.map fun c => ⟨c.completionId, c.turnPack⟩
  previous : ∀ u, claim.previousUnread = some u → u.taskId = claim.taskId ∧
    u.cacheObject = cacheReference env claim.taskId u.generation ∧
    u.coverageCount = db.completionLedger.countP (CompletionRow.coveredBy claim.taskId u.generation)

/-- The previous generation of a claim has not been played to its end. -/
def Unplayed (db : Database) (task : String) (previous : Option Nat) : Prop :=
  ∀ p, previous = some p → ∀ u ∈ db.summaryLedger, u.key = (task, p) → u.state ≠ .heard

theorem ActiveOk.previous_unread {r : SummaryRow} (h : ActiveOk env db r)
    (hunplayed : Unplayed db r.taskId r.previousGeneration) {p : Nat}
    (hp : r.previousGeneration = some p) :
    ∃ u ∈ db.summaryLedger, u.key = (r.taskId, p) ∧ u.currentUnread = true := by
  obtain ⟨_, u, hu, hkey, hcarries⟩ := h.previousSome p hp
  refine ⟨u, hu, hkey, SummaryRow.currentUnread_iff.2 ⟨?_, hcarries.1⟩⟩
  rcases hcarries.2 with hs | hs | hs
  · exact Or.inl hs
  · exact Or.inr hs
  · exact absurd hs (hunplayed p hp u hu hkey)

/-- The unread summary that an unread row reads as. -/
theorem LedgerOk.queryCurrentUnread_row (h : LedgerOk env db) {r : SummaryRow}
    (hr : r ∈ db.summaryLedger) (hunread : r.currentUnread = true) :
    queryCurrentUnread db r.taskId = .ok (some ⟨r.taskId, r.generation,
      cacheReference env r.taskId r.generation,
      db.completionLedger.countP (CompletionRow.coveredBy r.taskId r.generation)⟩) := by
  rcases h.queryCurrentUnread_total r.taskId with ⟨_, hnone⟩ | ⟨u, hu, htask, huu, hquery⟩
  · rw [hnone r hr rfl] at hunread
    cases hunread
  · have hsame : u = r := h.schema.2.2.2.2.eq_of_mem hu hr huu hunread htask
    rwa [hsame] at hquery

theorem loadCompletions_total (h : LedgerOk env db) {task : String} {rows : List CompletionRow}
    {total : Nat} (hrows : ∀ c ∈ rows, c ∈ db.completionLedger ∧ c.taskId = task ∧
      c.summarizedGeneration = none)
    (hsize : total + (rows.map (·.turnPack.utf8ByteSize)).sum ≤ maxSummaryTurnPackBytes) :
    loadCompletions db task (rows.map (·.completionId)) total =
      .ok (rows.map fun c => ⟨c.completionId, c.turnPack⟩) := by
  induction rows generalizing total with
  | nil => rfl
  | cons c rows ih =>
    obtain ⟨hmem, htask, hnone⟩ := hrows c (List.mem_cons_self ..)
    simp only [List.map_cons, List.sum_cons] at hsize
    have hfind : db.completionLedger.find?
        (fun x => x.completionId == c.completionId && x.taskId == task) = some c := by
      refine Table.find_eq_some_of_unique hmem (by simp [htask]) fun s hs hq => ?_
      simp only [Bool.and_eq_true, beq_iff_eq] at hq
      exact Table.Unique.eq_of_mem h.completions hs hmem rfl rfl hq.1
    have hrest := @ih (total + c.turnPack.utf8ByteSize)
      (fun c hc => hrows c (List.mem_cons_of_mem _ hc)) (by omega)
    simp only [List.map_cons, loadCompletions, hfind, bind_ok, orThrow_ok, ensure_ok]
    exact ⟨c, rfl, (), hnone, (), ⟨(h.observed c hmem).2, by omega⟩, _, hrest, rfl⟩

/-- An active row whose previous generation is unplayed loads as the claim it stands for. -/
theorem StoreOk.loadSummaryClaim_total (h : StoreOk env db) {r : SummaryRow} {request : String}
    (hr : r ∈ db.summaryLedger) (hgen : r.state = .generating) (hrequest : r.claimId = some request)
    (hunplayed : Unplayed db r.taskId r.previousGeneration) (outcome : SummaryClaimOutcome) :
    ∃ claim, loadSummaryClaim db outcome request r.taskId r.generation r.previousGeneration
      r.coversCompletions = .ok claim ∧ Holds env db claim ∧ claim.taskId = r.taskId ∧
      claim.generation = r.generation := by
  have hok := h.claims r hr (SummaryRow.active_iff.2 (Or.inl hgen))
  obtain ⟨rows, hrows⟩ := hok.covers
  have hload := @loadCompletions_total _ _ _ h.ledger _ _ 0 hrows.pending (by
    rw [Nat.zero_add]
    exact hrows.size)
  obtain ⟨hpos, hprevPos, _⟩ := check_columns (h.ledger.schema.1 r hr)
  have hfirst : 0 < r.generation ∧ r.previousGeneration ≠ some 0 := by
    refine ⟨hpos, fun hzero => ?_⟩
    simp [hzero] at hprevPos
  have hsecond : r.coversCompletions ≠ [] ∧
      r.coversCompletions.length ≤ maxSummaryCompletionsPerClaim := by
    rw [hrows.ids, List.length_map]
    exact ⟨by simpa using hrows.nonempty, hrows.bounded⟩
  have hids : r.coversCompletions = (rows.map fun c =>
      (⟨c.completionId, c.turnPack⟩ : PendingSummaryCompletion)).map (·.completionId) := by
    rw [List.map_map]
    exact hrows.ids
  obtain ⟨request', hreq', hclaim', _⟩ := hok.request
  obtain rfl : request' = request := by simpa [hrequest] using hclaim'.symm
  -- the unread generation the row names, as it reads now
  have hprevious : ∃ previous, loadPrevious db r.taskId r.previousGeneration = .ok previous ∧
      r.previousGeneration = previous.map (·.generation) ∧ ∀ u, previous = some u →
        u.taskId = r.taskId ∧ u.cacheObject = cacheReference env r.taskId u.generation ∧
        u.coverageCount = db.completionLedger.countP (CompletionRow.coveredBy r.taskId u.generation) := by
    cases hp : r.previousGeneration with
    | none => exact ⟨none, rfl, rfl, by simp⟩
    | some p =>
      obtain ⟨u, hu, hkey, hunread⟩ := hok.previous_unread hunplayed hp
      rw [SummaryRow.key, Prod.mk.injEq] at hkey
      have hquery := h.ledger.queryCurrentUnread_row hu hunread
      rw [hkey.1, hkey.2] at hquery
      refine ⟨some ⟨r.taskId, p, cacheReference env r.taskId p,
        db.completionLedger.countP (CompletionRow.coveredBy r.taskId p)⟩, ?_, rfl, ?_⟩
      · simp only [loadPrevious, hquery, bind_ok]
        exact ⟨_, rfl, if_pos rfl⟩
      · rintro _ ⟨⟩
        exact ⟨rfl, rfl, rfl⟩
  obtain ⟨previous, hloadPrev, hmap, hprops⟩ := hprevious
  refine ⟨⟨outcome, request', r.taskId, r.generation, previous,
    rows.map fun c => ⟨c.completionId, c.turnPack⟩⟩, ?_, ⟨?_, ?_, hprops⟩, rfl, rfl⟩
  · simp only [loadSummaryClaim, bind_ok, ensure_ok]
    refine ⟨(), hfirst, (), hsecond, _, ?_, previous, hloadPrev, rfl⟩
    rw [hrows.ids]
    exact hload
  · exact ⟨r, hr, rfl, hgen, hreq', hclaim', hmap, hids⟩
  · refine ⟨rows, ?_, rfl⟩
    simp only
    rw [← hids]
    exact hrows

theorem claimCompletionsOk_rows (h : LedgerOk env db) {rows : List CompletionRow} {total : Nat}
    (hrows : ∀ c ∈ rows, c ∈ db.completionLedger)
    (hsize : total + (rows.map (·.turnPack.utf8ByteSize)).sum ≤ maxSummaryTurnPackBytes) :
    claimCompletionsOk env (rows.map fun c => ⟨c.completionId, c.turnPack⟩) total = true := by
  induction rows generalizing total with
  | nil => rfl
  | cons c rows ih =>
    have hmem := hrows c (List.mem_cons_self ..)
    simp only [List.map_cons, List.sum_cons] at hsize
    have hrest := @ih (total + c.turnPack.utf8ByteSize)
      (fun c hc => hrows c (List.mem_cons_of_mem _ hc)) (by omega)
    have hfits : total + c.turnPack.utf8ByteSize ≤ maxSummaryTurnPackBytes := by omega
    simp [claimCompletionsOk, hrest, (h.observed c hmem).1, (h.observed c hmem).2, hfits]

/-- A claim that is held passes its own validation. -/
theorem Holds.valid {claim : SummaryClaim} (hh : Holds env db claim) (h : StoreOk env db) :
    validateSummaryClaim env claim = .ok () ∧ claim.generation ≤ i64Max ∧ 0 < claim.generation := by
  obtain ⟨r, hr, hkey, hstate, hrequest, hclaim, _, _⟩ := hh.row
  rw [SummaryRow.key, Prod.mk.injEq] at hkey
  have hok := h.claims r hr (SummaryRow.active_iff.2 (Or.inl hstate))
  obtain ⟨request, hreq, _, hvalid⟩ := hok.request
  obtain rfl : request = claim.requestId := by simpa [hrequest] using hreq.symm
  have hpos := (check_columns (h.ledger.schema.1 r hr)).1
  rw [hkey.2] at hpos
  obtain ⟨rows, hrows, hcompletions⟩ := hh.covers
  refine ⟨?_, hkey.2 ▸ hok.inRange, hpos⟩
  simp only [validateSummaryClaim, validateSummaryRequest, bind_ok, ensure_ok]
  refine ⟨(), by rwa [← hkey.1], ?_⟩
  have hcomp := @claimCompletionsOk_rows _ _ _ h.ledger _ 0 (fun c hc => (hrows.pending c hc).1)
    (by rw [Nat.zero_add]; exact hrows.size)
  rw [← hcompletions] at hcomp
  have hne : claim.completions ≠ [] := by
    rw [hcompletions]
    simpa using hrows.nonempty
  have hlen : claim.completions.length ≤ maxSummaryCompletionsPerClaim := by
    rw [hcompletions, List.length_map]
    exact hrows.bounded
  have hprev : claim.previousUnread.all (fun previous => previous.taskId == claim.taskId) = true := by
    cases hp : claim.previousUnread with
    | none => rfl
    | some u => simpa using (hh.previous u hp).1
  simp [summaryClaimOk, hcomp, hne, hlen, hprev, Nat.pos_iff_ne_zero.1 hpos]

/-- The row a held claim is published from, by lookup. -/
theorem Holds.find_publishable {claim : SummaryClaim} (hh : Holds env db claim) (h : LedgerOk env db) :
    ∃ r ∈ db.summaryLedger, r.publishable claim = true ∧
      db.summaryLedger.find? (SummaryRow.publishable claim) = some r ∧
      r.previousGeneration = claim.previousUnread.map (·.generation) ∧
      r.coversCompletions = claim.completions.map (·.completionId) := by
  obtain ⟨r, hr, hkey, hstate, _, hclaim, hprev, hcovers⟩ := hh.row
  have hpub := SummaryRow.publishable_iff.2 ⟨hkey, hstate, hclaim⟩
  refine ⟨r, hr, hpub, Table.find_eq_some_of_unique hr hpub fun s hs hq => ?_, hprev, hcovers⟩
  exact h.eq_of_key hs hr ((SummaryRow.publishable_iff.1 hq).1.trans hkey.symm)

/-- The unread generation under a held claim is what the claim says, while it is unplayed. -/
theorem Holds.queryCurrentUnread {claim : SummaryClaim} (hh : Holds env db claim) (h : StoreOk env db)
    (hunplayed : Unplayed db claim.taskId (claim.previousUnread.map (·.generation))) :
    queryCurrentUnread db claim.taskId = .ok claim.previousUnread := by
  obtain ⟨r, hr, hkey, hstate, _, _, hprev, _⟩ := hh.row
  have htask : r.taskId = claim.taskId := congrArg Prod.fst hkey
  have hok := h.claims r hr (SummaryRow.active_iff.2 (Or.inl hstate))
  cases hp : claim.previousUnread with
  | none =>
    have hnone := hok.previousNone (by rw [hprev, hp]; rfl)
    rcases h.ledger.queryCurrentUnread_total claim.taskId with ⟨hq, _⟩ | ⟨u, hu, hut, huu, _⟩
    · exact hq
    · rw [hnone u hu (hut.trans htask.symm)] at huu
      cases huu
  | some p =>
    rw [← hprev, ← htask] at hunplayed
    have hrp : r.previousGeneration = some p.generation := by rw [hprev, hp]; rfl
    obtain ⟨u, hu, hukey, hunread⟩ := hok.previous_unread hunplayed hrp
    rw [SummaryRow.key, Prod.mk.injEq] at hukey
    obtain ⟨h₁, h₂, h₃⟩ := hh.previous p hp
    rw [← htask, ← hukey.1, h.ledger.queryCurrentUnread_row hu hunread, hukey.1, hukey.2, htask]
    obtain ⟨ptask, pgen, pcache, pcount⟩ := p
    simp only at h₁ h₂ h₃
    rw [h₁, h₂, h₃]

theorem supersedePrevious_total (h : LedgerOk env db) {claim : SummaryClaim}
    (hheld : ∃ stored ∈ db.summaryLedger, stored.publishable claim = true)
    (hquery : queryCurrentUnread db claim.taskId = .ok claim.previousUnread) :
    ∃ result, supersedePrevious claim db = .ok result := by
  unfold supersedePrevious
  cases hprev : claim.previousUnread with
  | none =>
    rw [hprev] at hquery
    simp only [bind_ok, ensure_ok]
    exact ⟨_, _, hquery, (), rfl, rfl⟩
  | some previous =>
    rw [hprev] at hquery
    obtain ⟨row, hrow, htask, hunread, _, hgen, _, _, hcount, _, hmax⟩ := queryCurrentUnread_some hquery
    have hsup : claim.supersedes =
        fun r => r.at claim.taskId previous.generation && r.currentUnread := by
      funext r
      simp [SummaryClaim.supersedes, hprev]
    have hschema := h.superseding_schema hheld
    rw [SummaryClaim.superseding, hsup] at hschema
    have hone : db.summaryLedger.countP
        (fun r => r.at claim.taskId previous.generation && r.currentUnread) = 1 := by
      refine h.schema.2.1.countP_eq_one (k := (claim.taskId, previous.generation)) ?_ hrow ?_
      · intro r _ hr
        simp only [Bool.and_eq_true] at hr
        exact ⟨rfl, SummaryRow.at_iff.1 hr.1⟩
      · simp only [Bool.and_eq_true]
        exact ⟨SummaryRow.at_iff.2 (by rw [SummaryRow.key, htask, hgen]), hunread⟩
    have hmod : db.completionLedger.countP (CompletionRow.coveredBy claim.taskId previous.generation)
        % 2 ^ 32 = previous.coverageCount := by
      rw [hgen, ← hcount]
      exact Nat.mod_eq_of_lt (by simp only [u32Max] at hmax; omega)
    simp only [bind_ok, ensure_ok, Database.putSummaries_ok, Database.putCompletions_ok]
    exact ⟨_, _, hquery, (), rfl, _, ⟨hschema, rfl⟩, (), hone, _,
      ⟨cover_schema h.completions, rfl⟩, (), hmod, rfl⟩

theorem coverCompletions_total {task : String} {generation : Nat}
    {listed : List PendingSummaryCompletion} (hschema : CompletionSchema db.completionLedger)
    (hlisted : ∀ p ∈ listed, ∃ c ∈ db.completionLedger, c.pendingAs task p = true)
    (hnodup : (listed.map (·.completionId)).Nodup) :
    ∃ db', coverCompletions task generation listed db = .ok db' := by
  induction listed generalizing db with
  | nil => exact ⟨db, rfl⟩
  | cons p rest ih =>
    obtain ⟨c, hc, hpend⟩ := hlisted p (List.mem_cons_self ..)
    rw [List.map_cons, List.nodup_cons] at hnodup
    have hone : db.completionLedger.countP (CompletionRow.pendingAs task p) = 1 := by
      refine Table.Unique.countP_eq_one hschema (k := p.completionId) ?_ hc hpend
      intro r _ hr
      simp only [CompletionRow.pendingAs, Bool.and_eq_true, beq_iff_eq] at hr
      exact ⟨rfl, hr.1.1.1⟩
    have hcovered := @cover_schema _ hschema (CompletionRow.pendingAs task p) generation
    obtain ⟨db', hrest⟩ := @ih ({ db with
        completionLedger := Table.update (CompletionRow.pendingAs task p)
          (CompletionRow.cover generation) db.completionLedger }) hcovered (by
      intro p' hp'
      obtain ⟨c', hc', hpend'⟩ := hlisted p' (List.mem_cons_of_mem _ hp')
      refine ⟨c', Table.mem_update_of_not hc' ?_, hpend'⟩
      -- the other completion has an identifier of its own
      rw [Bool.eq_false_iff]
      intro hboth
      simp only [CompletionRow.pendingAs, Bool.and_eq_true, beq_iff_eq] at hboth hpend'
      exact hnodup.1 (List.mem_map.2 ⟨p', hp', hpend'.1.1.1.symm.trans hboth.1.1.1⟩)) hnodup.2
    refine ⟨db', ?_⟩
    simp only [coverCompletions, bind_ok, Database.putCompletions_ok, ensure_ok]
    exact ⟨_, ⟨hcovered, rfl⟩, (), hone, hrest⟩

/-- A held claim publishes, while the generation before it is unplayed and the coverage fits. -/
theorem Holds.publishSummary_total {claim : SummaryClaim} (hh : Holds env db claim)
    (h : StoreOk env db)
    (hunplayed : Unplayed db claim.taskId (claim.previousUnread.map (·.generation)))
    (hfits : claim.previousCoverage + claim.completions.length ≤ u32Max) :
    ∃ unread db', publishSummary env claim (cacheReference env claim.taskId claim.generation) db =
      (.ok unread, db') := by
  obtain ⟨hvalid, hrange, hpos⟩ := hh.valid h
  obtain ⟨r, hr, hpub, hfind, hprev, hcovers⟩ := hh.find_publishable h.ledger
  have hheld : ∃ stored ∈ db.summaryLedger, stored.publishable claim = true := ⟨r, hr, hpub⟩
  have hquery := hh.queryCurrentUnread h hunplayed
  have hcolumn : previousColumn claim.previousUnread = .ok (claim.previousUnread.map (·.generation)) := by
    have hok := h.claims r hr (SummaryRow.active_iff.2 (Or.inl (SummaryRow.publishable_iff.1 hpub).2.1))
    cases hp : claim.previousUnread with
    | none => rfl
    | some p =>
      have hle := (hok.previousSome p.generation (by rw [hprev, hp]; rfl)).1
      simp only [previousColumn, bind_ok, toI64_ok]
      exact ⟨_, ⟨hle, rfl⟩, rfl⟩
  obtain ⟨⟨coverage, tx⟩, hsup⟩ := supersedePrevious_total h.ledger hheld hquery
  obtain ⟨_, rfl, rfl⟩ := supersedePrevious_ok hsup
  obtain ⟨rows, hrows, hcompletions⟩ := hh.covers
  obtain ⟨tx', hcover⟩ := @coverCompletions_total ({ db with
      summaryLedger := claim.superseding db.summaryLedger
      completionLedger := Table.update (CompletionRow.inherited claim)
        (CompletionRow.cover claim.generation) db.completionLedger })
    claim.taskId claim.generation claim.completions (cover_schema h.ledger.completions) (by
      intro p hp
      rw [hcompletions] at hp
      obtain ⟨c, hc, rfl⟩ := List.mem_map.1 hp
      obtain ⟨hmem, htask, hnone⟩ := hrows.pending c hc
      refine ⟨c, Table.mem_update_of_not hmem ?_, by simp [CompletionRow.pendingAs, htask, hnone]⟩
      simp [CompletionRow.inherited, CompletionRow.coveredBy, hnone]) hrows.nodup
  obtain ⟨rfl, _⟩ := coverCompletions_ok hcover
  have hone : (claim.superseding db.summaryLedger).countP (SummaryRow.publishable claim) = 1 := by
    have hschema := h.ledger.superseding_schema hheld
    have hkeep : r ∈ claim.superseding db.summaryLedger := by
      refine Table.mem_update_of_not hr ?_
      rw [Bool.eq_false_iff]
      intro hs
      obtain ⟨_, _, _, hunread⟩ := SummaryClaim.supersedes_iff.1 hs
      exact not_unread_of_active
        (SummaryRow.active_iff.2 (Or.inl (SummaryRow.publishable_iff.1 hpub).2.1)) hunread
    exact hschema.2.1.countP_eq_one (k := (claim.taskId, claim.generation))
      (fun s _ hs => ⟨rfl, (SummaryRow.publishable_iff.1 hs).1⟩) hkeep hpub
  have hid : CacheId.forTask env claim.taskId claim.generation =
      some ⟨env.sha256 claim.taskId, claim.generation⟩ := by
    simp [CacheId.forTask, Nat.pos_iff_ne_zero.1 hpos]
  simp only [publishSummary, transaction_eq_ok, bind_ok, ensure_ok, orThrow_ok, toI64_ok]
  exact ⟨_, _, (), hvalid, _, hid, (), rfl, _, ⟨hrange, rfl⟩, r, hfind, _, hcolumn, (),
    ⟨hprev, hcovers⟩, _, hsup, _, hcover, _,
    Database.putSummaries_ok.2 ⟨h.ledger.publish_schema hheld hquery, rfl⟩, (), hone, (), hfits, rfl⟩

/-- A held claim is given up when the worker says so. -/
theorem Holds.abandonSummaryClaim_total {claim : SummaryClaim} (hh : Holds env db claim)
    (h : StoreOk env db) : ∃ db', abandonSummaryClaim env claim db = (.ok true, db') ∧
      ∀ r ∈ db'.summaryLedger, r.taskId = claim.taskId → r.active = false := by
  obtain ⟨hvalid, hrange, hpos⟩ := hh.valid h
  obtain ⟨r, hr, hkey, hstate, _, hclaim, _⟩ := hh.row
  have hactive : r.active = true := SummaryRow.active_iff.2 (Or.inl hstate)
  have htarget : (r.at claim.taskId claim.generation && r.active &&
      r.claimId == some claim.requestId) = true := by
    simp [SummaryRow.at_iff.2 hkey, hactive, hclaim]
  have hone : db.summaryLedger.countP (fun r => r.at claim.taskId claim.generation && r.active &&
      r.claimId == some claim.requestId) = 1 := by
    refine h.ledger.schema.2.1.countP_eq_one (k := (claim.taskId, claim.generation)) ?_ hr htarget
    intro s _ hs
    simp only [Bool.and_eq_true] at hs
    exact ⟨rfl, SummaryRow.at_iff.1 hs.1.1⟩
  have hschema : SummarySchema (Table.update (fun r : SummaryRow => r.at claim.taskId claim.generation &&
      r.active && r.claimId == some claim.requestId) SummaryRow.abandon db.summaryLedger) := by
    refine h.ledger.abandon_schema fun s hs => ?_
    simp only [Bool.and_eq_true] at hs
    exact hs.1.2
  have hres : abandonSummaryClaim env claim db = (.ok true, Database.deleteTtsAttempts { db with
      summaryLedger := Table.update (fun r : SummaryRow => r.at claim.taskId claim.generation &&
        r.active && r.claimId == some claim.requestId) SummaryRow.abandon db.summaryLedger }
      claim.taskId claim.generation) := by
    simp only [abandonSummaryClaim, transaction_eq_ok, bind_ok, toI64_ok, Database.putSummaries_ok]
    refine ⟨(), hvalid, _, ⟨hrange, rfl⟩, _, ⟨hschema, rfl⟩, ?_⟩
    rw [hone, if_pos rfl]
    rfl
  refine ⟨_, hres, ?_⟩
  · intro s' hs' htask
    rw [Bool.eq_false_iff]
    intro hact
    simp only [Database.deleteTtsAttempts] at hs'
    rcases Table.mem_update_cases hs' with ⟨hs, hnot⟩ | ⟨s, _, _, rfl⟩
    · have hsame : s' = r := h.ledger.schema.2.2.1.eq_of_mem hs hr hact hactive
        (htask.trans (congrArg Prod.fst hkey).symm)
      rw [hsame, htarget] at hnot
      cases hnot
    · simp [SummaryRow.active, SummaryRow.abandon, SummaryState.active] at hact

/-- After its publication the task of a claim has no active row. -/
theorem Publication.idle {claim : SummaryClaim} {cacheObject : String}
    (hp : Publication env db claim cacheObject db') (h : LedgerOk env db) :
    ∀ r ∈ db'.summaryLedger, r.taskId = claim.taskId → r.active = false := by
  intro r' hr' htask
  rw [Bool.eq_false_iff]
  intro hactive
  rw [hp.commits] at hr'
  simp only [publishing_eq_map] at hr'
  obtain ⟨r, hr, rfl⟩ := List.mem_map.1 hr'
  obtain ⟨stored, hstored, hpub⟩ := hp.held
  obtain ⟨hskey, hsstate, _⟩ := SummaryRow.publishable_iff.1 hpub
  rw [taskId_of_key (key_republish ..)] at htask
  have hsame : r = stored := h.schema.2.2.1.eq_of_mem hr hstored (active_republish hactive)
    (SummaryRow.active_iff.2 (Or.inl hsstate)) (htask.trans (congrArg Prod.fst hskey).symm)
  rw [hsame] at hactive
  simp [SummaryClaim.republish, hpub, SummaryRow.publish, SummaryRow.active,
    SummaryState.active] at hactive

/-- The two calls around a synthesis attempt succeed on a held claim. -/
theorem Holds.summaryTtsAttempt_total {claim : SummaryClaim} (hh : Holds env db claim)
    (h : StoreOk env db) : ∃ state, summaryTtsAttempt env claim db = .ok state := by
  obtain ⟨hvalid, hrange, _⟩ := hh.valid h
  simp only [summaryTtsAttempt, bind_ok, toI64_ok]
  exact ⟨_, (), hvalid, _, ⟨hrange, rfl⟩, rfl⟩

theorem Holds.beginSummaryTtsAttempt_total {claim : SummaryClaim} (hh : Holds env db claim)
    (h : StoreOk env db) : ∃ state db', beginSummaryTtsAttempt env claim db = (.ok state, db') := by
  obtain ⟨hvalid, hrange, hpos⟩ := hh.valid h
  obtain ⟨r, hr, hkey, hstate, hrequest, hclaim, _⟩ := hh.row
  have hheld : db.summaryLedger.any (SummaryRow.heldBy claim) = true := by
    refine List.any_eq_true.2 ⟨r, hr, ?_⟩
    simp [SummaryRow.heldBy, SummaryRow.at_iff.2 hkey, hrequest, hclaim, SummaryRow.active, hstate,
      SummaryState.active]
  rcases hres : beginSummaryTtsAttempt env claim db with ⟨e | state, db'⟩
  · exfalso
    have havoid := h.ledger.beginSummaryTtsAttempt_avoids claim
    rw [hres] at havoid
    simp only [beginSummaryTtsAttempt, transaction_eq_error] at hres
    obtain ⟨hres, _⟩ := hres
    simp only [bind_error, hvalid, reduceCtorEq, false_or, toI64_error,
      ensure_error, hheld, not_true_eq_false, false_and, ensure_ok, toI64_ok] at hres
    obtain ⟨_, -, ⟨hover, _⟩ | ⟨_, ⟨_, rfl⟩, _, _, hres⟩⟩ := hres
    · omega
    · split at hres
      · cases hres
      · simp only [bind_error, Database.putTtsAttempts_error, reduceCtorEq, and_false, exists_false,
          or_false] at hres
        exact havoid (by rw [← hres.2])
  · exact ⟨state, db', rfl⟩

end CodexKeyboard.Store
