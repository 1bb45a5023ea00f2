import CodexKeyboard.Store.Ledger

/-! No completion is lost or counted twice: once recorded, a completion keeps its identity, and what
    happens to it is pending, covered by a published generation, and then only ever taken along by
    the generation that supersedes that one. -/

namespace CodexKeyboard.Store

open Schemes Transact

variable {P : Type} {env : Env P} {db db' : Database} {op : Op P}

/-- How one call may change what covers a completion. -/
inductive Moved (op : Op P) (db db' : Database) (c c' : CompletionRow) : Prop
  | kept (same : c'.summarizedGeneration = c.summarizedGeneration)
  /-- A pending completion is covered by a publication whose claim lists it. -/
  | covered (claim : SummaryClaim) (cacheObject : String)
      (call : op = .publishSummary claim cacheObject) (pending : c.summarizedGeneration = none)
      (listed : ∃ completion ∈ claim.completions, completion.completionId = c.completionId)
      (now : c'.summarizedGeneration = some claim.generation)
  /-- A covered completion is taken over by the generation that supersedes its own, in that call. -/
  | inherited (claim : SummaryClaim) (cacheObject : String) (generation : Nat)
      (call : op = .publishSummary claim cacheObject)
      (before : c.summarizedGeneration = some generation)
      (current : ∃ r ∈ db.summaryLedger, r.key = (c.taskId, generation) ∧ r.supersededBy = none)
      (superseded : ∃ r ∈ db'.summaryLedger,
        r.key = (c.taskId, generation) ∧ r.supersededBy = some claim.generation)
      (now : c'.summarizedGeneration = some claim.generation)

/-- The completion `id` is covered by the current unread generation of its task. -/
def CoveredUnread (db : Database) (id : String) : Prop :=
  ∃ c ∈ db.completionLedger, c.completionId = id ∧ ∃ r ∈ db.summaryLedger,
    r.currentUnread = true ∧ c.coveredBy r.taskId r.generation = true

/-- A call that finishes the lease on the generation covering `id`, and leaves it heard. -/
def FinishedOver (op : Op P) (db db' : Database) (id : String) : Prop :=
  ∃ lease, op = .finishSummaryPlayback lease ∧ ∃ c ∈ db.completionLedger, c.completionId = id ∧
    c.coveredBy lease.taskId lease.summaryGeneration = true ∧
    ∃ r ∈ db'.summaryLedger, r.key = (lease.taskId, lease.summaryGeneration) ∧ r.state = .heard

/-- What one call may do to the completions. -/
structure CompletionStep (op : Op P) (db db' : Database) : Prop where
  kept : ∀ c ∈ db.completionLedger, ∃ c' ∈ db'.completionLedger,
    c'.completionId = c.completionId ∧ c'.taskId = c.taskId ∧ c'.turnPack = c.turnPack ∧
    Moved op db db' c c'
  unread : ∀ id, CoveredUnread db id → CoveredUnread db' id ∨ FinishedOver op db db' id

/-! ### Effects -/

/-- Calls that leave the completions alone, and current unread rows current and unread. -/
theorem CompletionStep.of_frame (hsub : db.completionLedger ⊆ db'.completionLedger)
    (hunread : ∀ r ∈ db.summaryLedger, r.currentUnread = true →
      ∃ r' ∈ db'.summaryLedger, r'.key = r.key ∧ r'.currentUnread = true) :
    CompletionStep op db db' := by
  refine ⟨fun c hc => ⟨c, hsub hc, rfl, rfl, rfl, .kept rfl⟩, ?_⟩
  rintro id ⟨c, hc, hid, r, hr, hu, hcov⟩
  obtain ⟨r', hr', hkey, hu'⟩ := hunread r hr hu
  refine Or.inl ⟨c, hsub hc, hid, r', hr', hu', ?_⟩
  rwa [taskId_of_key hkey, generation_of_key hkey]

/-- The same, for a relabelling of the ledger rows. -/
theorem CompletionStep.of_update {target : SummaryRow → Bool} {g : SummaryRow → SummaryRow}
    (hcompletions : db'.completionLedger = db.completionLedger)
    (hledger : db'.summaryLedger = Table.update target g db.summaryLedger)
    (hkey : ∀ r, (g r).key = r.key)
    (hunread : ∀ r, target r = true → r.currentUnread = true → (g r).currentUnread = true) :
    CompletionStep op db db' := by
  refine .of_frame (by rw [hcompletions]; exact List.Subset.refl _) fun r hr hu => ?_
  rw [hledger]
  cases ht : target r with
  | false => exact ⟨r, Table.mem_update_of_not hr ht, rfl, hu⟩
  | true => exact ⟨g r, Table.mem_update_of hr ht, hkey r, hunread r ht hu⟩

theorem not_unread_of_active {r : SummaryRow} (h : r.active = true) : ¬ r.currentUnread = true := by
  rw [SummaryRow.currentUnread_iff]
  rintro ⟨hs | hs, _⟩ <;> simp [SummaryRow.active, hs, SummaryState.active] at h

theorem CompletionStep.of_publication (h : LedgerOk env db) {claim : SummaryClaim}
    {cacheObject : String} (hp : Publication env db claim cacheObject db') :
    CompletionStep (.publishSummary claim cacheObject : Op P) db db' := by
  obtain ⟨s, hs, hspub, hnew, hnewKey, hnewCarries, _⟩ := Publication.published_row h hp
  have hcompletions : db'.completionLedger =
      Table.update claim.takes (CompletionRow.cover claim.generation) db.completionLedger := by
    rw [hp.commits]
  have hmem' : ∀ r ∈ db.summaryLedger, claim.republish cacheObject r ∈ db'.summaryLedger := by
    intro r hr
    rw [hp.commits]
    simp only [publishing_eq_map]
    exact List.mem_map_of_mem hr
  constructor
  · intro c hc
    rw [hcompletions]
    cases ht : claim.takes c with
    | false => exact ⟨c, Table.mem_update_of_not hc ht, rfl, rfl, rfl, .kept rfl⟩
    | true =>
      refine ⟨c.cover claim.generation, Table.mem_update_of hc ht, rfl, rfl, rfl, ?_⟩
      simp only [SummaryClaim.takes, Bool.or_eq_true] at ht
      rcases ht with hinh | hlist
      · simp only [CompletionRow.inherited, Option.any_eq_true] at hinh
        obtain ⟨previous, hprev, hcov⟩ := hinh
        simp only [CompletionRow.coveredBy, Bool.and_eq_true, beq_iff_eq] at hcov
        have hquery := hp.previous
        rw [hprev] at hquery
        obtain ⟨row, hrow, htask, hunread, _, hgen, _⟩ := queryCurrentUnread_some hquery
        have hkey : row.key = (c.taskId, previous.generation) := by
          rw [SummaryRow.key, htask, hcov.1, hgen]
        have hsup : claim.supersedes row = true :=
          h.supersedes_current hp.previous hrow htask hunread
        refine .inherited claim cacheObject previous.generation rfl hcov.2
          ⟨row, hrow, hkey, (SummaryRow.currentUnread_iff.1 hunread).2⟩
          ⟨_, hmem' row hrow, (key_republish ..).trans hkey, ?_⟩ rfl
        rcases republish_cases claim cacheObject row with ⟨hpub, _⟩ | ⟨_, heq⟩ | ⟨_, hno, _⟩
        · have hactive : row.active = true := by
            simp [SummaryRow.active, (SummaryRow.publishable_iff.1 hpub).2.1, SummaryState.active]
          exact absurd hunread (not_unread_of_active hactive)
        · rw [heq]
          rfl
        · simp [hno] at hsup
      · obtain ⟨_, hnone, hlisted⟩ := pending_of_listedIn hlist
        exact .covered claim cacheObject rfl hnone hlisted rfl
  · rintro id ⟨c, hc, hid, r, hr, hu, hcov⟩
    simp only [CompletionRow.coveredBy, Bool.and_eq_true, beq_iff_eq] at hcov
    left
    by_cases htask : r.taskId = claim.taskId
    · -- the completion moves to the generation published here, which is now current
      have hsup := h.supersedes_current hp.previous hr htask hu
      obtain ⟨previous, hprev, hkey, _⟩ := SummaryClaim.supersedes_iff.1 hsup
      rw [SummaryRow.key, Prod.mk.injEq] at hkey
      have ht : claim.takes c = true := by
        simp [SummaryClaim.takes, CompletionRow.inherited, hprev, CompletionRow.coveredBy,
          hcov.1, hcov.2, hkey.1, hkey.2]
      refine ⟨c.cover claim.generation, by rw [hcompletions]; exact Table.mem_update_of hc ht, hid,
        _, hnew, ?_, ?_⟩
      · rw [SummaryRow.currentUnread_iff]
        have heq : claim.republish cacheObject s = s.publish cacheObject := by
          simp [SummaryClaim.republish, hspub]
        exact ⟨Or.inl (by rw [heq]; rfl), hnewCarries.1⟩
      · rw [SummaryRow.key, Prod.mk.injEq] at hnewKey
        simp [CompletionRow.coveredBy, CompletionRow.cover, hnewKey.1, hnewKey.2, hcov.1, htask]
    · have ht : claim.takes c = false := by
        rw [Bool.eq_false_iff]
        intro ht
        exact htask (hcov.1.symm.trans (takes_task ht))
      refine ⟨c, by rw [hcompletions]; exact Table.mem_update_of_not hc ht, hid, r, ?_, hu, ?_⟩
      · have heq : claim.republish cacheObject r = r := by
          rcases republish_cases claim cacheObject r with ⟨hpub, _⟩ | ⟨hsup, _⟩ | ⟨_, _, heq⟩
          · exact absurd (congrArg Prod.fst (SummaryRow.publishable_iff.1 hpub).1) htask
          · obtain ⟨_, _, hkey, _⟩ := SummaryClaim.supersedes_iff.1 hsup
            exact absurd (congrArg Prod.fst hkey) htask
          · exact heq
        rw [← heq]
        exact hmem' r hr
      · simp [CompletionRow.coveredBy, hcov.1, hcov.2]

theorem CompletionStep.of_finish {lease : SummaryPlaybackLease} (hf : Finish db lease db') :
    CompletionStep (.finishSummaryPlayback lease : Op P) db db' := by
  have hcompletions : db'.completionLedger = db.completionLedger := by rw [hf.commits]
  have hledger : db'.summaryLedger =
      Table.update (SummaryRow.playedBy lease) SummaryRow.hear db.summaryLedger := by rw [hf.commits]
  refine ⟨fun c hc => ⟨c, hcompletions ▸ hc, rfl, rfl, rfl, .kept rfl⟩, ?_⟩
  rintro id ⟨c, hc, hid, r, hr, hu, hcov⟩
  cases hplayed : r.playedBy lease with
  | false =>
    refine Or.inl ⟨c, hcompletions ▸ hc, hid, r, ?_, hu, hcov⟩
    rw [hledger]
    exact Table.mem_update_of_not hr hplayed
  | true =>
    obtain ⟨hkey, _⟩ := SummaryRow.playedBy_iff.1 hplayed
    refine Or.inr ⟨lease, rfl, c, hc, hid, ?_, r.hear, ?_, hkey, rfl⟩
    · rw [SummaryRow.key, Prod.mk.injEq] at hkey
      rwa [← hkey.1, ← hkey.2]
    · rw [hledger]
      exact Table.mem_update_of hr hplayed

theorem LedgerOk.completionStep (h : LedgerOk env db) (he : Effect env op db db') :
    CompletionStep op db db' := by
  have hkeep : ∀ r ∈ db.summaryLedger, r.currentUnread = true →
      ∃ r' ∈ db.summaryLedger, r'.key = r.key ∧ r'.currentUnread = true :=
    fun r hr hu => ⟨r, hr, rfl, hu⟩
  cases he with
  | same => exact .of_frame (List.Subset.refl _) hkeep
  | queue jobs sequence onQueue => exact .of_frame (List.Subset.refl _) hkeep
  | bound t schema => exact .of_frame (List.Subset.refl _) hkeep
  | attempted onClaims t schema => exact .of_frame (List.Subset.refl _) hkeep
  | observed cursors schema => exact .of_frame (List.Subset.refl _) hkeep
  | recorded cursors schema row => exact .of_frame (List.subset_append_left _ _) hkeep
  | claimed onClaims claim valid new schema =>
    exact .of_frame (List.Subset.refl _) fun r hr hu => ⟨r, List.mem_append_left _ hr, rfl, hu⟩
  | resumed onClaims target interrupted schema =>
    refine .of_update rfl rfl (fun _ => rfl) fun r ht hu => ?_
    refine absurd hu (not_unread_of_active ?_)
    simp [SummaryRow.active, interrupted r ht, SummaryState.active]
  | abandoned onClaims target attempts active schema =>
    exact .of_update rfl rfl (fun _ => rfl) fun r ht hu => absurd hu (not_unread_of_active (active r ht))
  | published publication => exact .of_publication h publication
  | acquired lease acquisition =>
    rw [acquisition.commits]
    refine .of_update rfl rfl (fun _ => rfl) fun r ht _ => ?_
    rw [SummaryRow.currentUnread_iff]
    exact ⟨Or.inr rfl, (SummaryRow.leasable_iff.1 ht).2.2⟩
  | released lease release =>
    rw [release.commits]
    refine .of_update rfl rfl (fun _ => rfl) fun r _ hu => ?_
    rw [SummaryRow.currentUnread_iff] at hu ⊢
    exact ⟨Or.inl (by simp [SummaryRow.release, hu.2]), hu.2⟩
  | finished finish => exact .of_finish finish
  | interrupted schema =>
    refine .of_update rfl rfl (fun _ => rfl) fun r ht hu => ?_
    refine absurd hu (not_unread_of_active ?_)
    simp only [beq_iff_eq] at ht
    simp [SummaryRow.active, ht, SummaryState.active]
  | leasesDropped schema =>
    refine .of_update rfl rfl (fun _ => rfl) fun r _ hu => ?_
    rw [SummaryRow.currentUnread_iff] at hu ⊢
    exact ⟨Or.inl (by simp [SummaryRow.release, hu.2]), hu.2⟩

/-! ### Calls and runs -/

theorem Moved.of_reopen {c c' : CompletionRow} (h : Moved (.reopen : Op P) db db' c c') :
    c'.summarizedGeneration = c.summarizedGeneration := by
  cases h with
  | kept same => exact same
  | covered _ _ call => cases call
  | inherited _ _ _ call => cases call

/-- A reopen makes several effects, but none of them moves a completion. -/
theorem LedgerOk.completionStep_reopen (h : LedgerOk env db) (he : Effects env .reopen db db') :
    CompletionStep (.reopen : Op P) db db' := by
  induction he with
  | refl => exact h.completionStep .same
  | @tail mid last hfirst hlast ih =>
    have hstep := (h.effects hfirst).completionStep hlast
    constructor
    · intro c hc
      obtain ⟨c₁, hc₁, hid₁, htask₁, hpack₁, hmoved₁⟩ := ih.kept c hc
      obtain ⟨c₂, hc₂, hid₂, htask₂, hpack₂, hmoved₂⟩ := hstep.kept c₁ hc₁
      exact ⟨c₂, hc₂, hid₂.trans hid₁, htask₂.trans htask₁, hpack₂.trans hpack₁,
        .kept (hmoved₂.of_reopen.trans hmoved₁.of_reopen)⟩
    · intro id hid
      rcases ih.unread id hid with hmid | ⟨_, hcall, _⟩
      · rcases hstep.unread id hmid with hlast | ⟨_, hcall, _⟩
        · exact Or.inl hlast
        · cases hcall
      · cases hcall

theorem LedgerOk.completionStep_step (h : LedgerOk env db) (op : Op P) :
    CompletionStep op db (Store.step env db op) := by
  by_cases hop : op = .reopen
  · subst hop
    exact h.completionStep_reopen (h.step_effects .reopen)
  · exact h.completionStep (step_effect env op hop h.leases.2.1 h.attempts.2)

/-- A recorded completion survives every later call. -/
theorem completion_survives (h : LedgerOk env db) (ops : List (Op P)) {c : CompletionRow}
    (hc : c ∈ db.completionLedger) : ∃ c' ∈ (run env db ops).completionLedger,
      c'.completionId = c.completionId ∧ c'.taskId = c.taskId ∧ c'.turnPack = c.turnPack := by
  induction ops generalizing db c with
  | nil => exact ⟨c, hc, rfl, rfl, rfl⟩
  | cons op ops ih =>
    obtain ⟨c₁, hc₁, hid, htask, hpack, _⟩ := (h.completionStep_step op).kept c hc
    obtain ⟨c₂, hc₂, hid₂, htask₂, hpack₂⟩ := ih (h.step op) hc₁
    exact ⟨c₂, hc₂, hid₂.trans hid, htask₂.trans htask, hpack₂.trans hpack⟩

/-- From the empty schema, through any calls and reopens: a recorded completion is still there with
    its task and turn pack, it is pending or covered by a row that is published, not superseded and
    unheard, leased or heard, and the next call moves it only as `CompletionStep` allows. -/
theorem completions_never_lost (env : Env P) (earlier later : List (Op P)) :
    let past := run env Database.empty earlier
    let now := run env Database.empty (earlier ++ later)
    (∀ c ∈ past.completionLedger, ∃ c' ∈ now.completionLedger,
      c'.completionId = c.completionId ∧ c'.taskId = c.taskId ∧ c'.turnPack = c.turnPack) ∧
    (∀ c ∈ now.completionLedger, ∀ c' ∈ now.completionLedger,
      c.completionId = c'.completionId → c = c') ∧
    (∀ c ∈ now.completionLedger, c.summarizedGeneration = none ∨
      ∃ g, c.summarizedGeneration = some g ∧ ∃ r ∈ now.summaryLedger,
        r.taskId = c.taskId ∧ r.generation = g ∧ r.supersededBy = none ∧
        (r.state = .unheard ∨ r.state = .leased ∨ r.state = .heard)) ∧
    ∀ op, CompletionStep op now (step env now op) := by
  intro past now
  have hnow : LedgerOk env now := ledgerOk_run env (earlier ++ later)
  refine ⟨?_, ?_, ?_, hnow.completionStep_step⟩
  · intro c hc
    have := completion_survives (ledgerOk_run env earlier) later hc
    rwa [← run_append] at this
  · intro c hc c' hc' hid
    exact Table.Unique.eq_of_mem hnow.completions hc hc' rfl rfl hid
  · intro c hc
    cases hg : c.summarizedGeneration with
    | none => exact Or.inl rfl
    | some g =>
      obtain ⟨r, hr, hkey, hsup, hstate⟩ := hnow.covered c hc g hg
      rw [SummaryRow.key, Prod.mk.injEq] at hkey
      exact Or.inr ⟨g, rfl, r, hr, hkey.1, hkey.2, hsup, hstate⟩

end CodexKeyboard.Store
