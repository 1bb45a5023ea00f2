import CodexKeyboard.Cache.Gate
import CodexKeyboard.Store.WellFormed

/-! The references the ledger retains. Only a publication adds one, and only its own: everything else
    the store commits keeps the unread generations or takes some away. -/

namespace CodexKeyboard.Cache

open Schemes Transact Store

variable {P : Type} {env : Env P} {db db' : Database} {op : Op P}

/-- A retained reference names this generation. -/
def Retained (db : Database) (id : CacheId) : Prop :=
  ∃ reference ∈ retainedSummaryCacheReferences db, CacheId.fromReference reference = some id

/-- The generation of the cache a row of the ledger stands for. -/
def cacheIdOf (env : Env P) (r : SummaryRow) : CacheId := ⟨env.sha256 r.taskId, r.generation⟩

theorem mem_retained {reference : String} : reference ∈ retainedSummaryCacheReferences db ↔
    ∃ r ∈ db.summaryLedger, r.state.unread = true ∧ r.cacheObject = some reference := by
  simp [retainedSummaryCacheReferences, and_assoc]

theorem published_of_unread {r : SummaryRow} (h : r.state.unread = true) :
    r.state.published = true := by
  cases hs : r.state <;> simp [hs, SummaryState.unread] at h <;> rfl

/-- The reference of an unread row is that of its own generation. -/
theorem reference_of_unread (h : LedgerOk env db) {r : SummaryRow} (hr : r ∈ db.summaryLedger)
    (hunread : r.state.unread = true) :
    r.cacheObject = some (cacheIdOf env r).reference ∧
      CacheId.fromReference (cacheIdOf env r).reference = some (cacheIdOf env r) := by
  have hpos : 0 < r.generation := (check_columns (h.schema.1 r hr)).1
  have hmax : r.generation ≤ u64Max := Nat.le_trans (h.inRange r hr) (by decide)
  exact ⟨(h.shape r hr).cache (published_of_unread hunread),
    fromReference_reference (cacheIdOf env r) hpos hmax⟩

theorem retained_iff (h : LedgerOk env db) {id : CacheId} :
    Retained db id ↔ ∃ r ∈ db.summaryLedger, r.state.unread = true ∧ cacheIdOf env r = id := by
  constructor
  · rintro ⟨reference, hmem, hid⟩
    obtain ⟨r, hr, hunread, hcache⟩ := mem_retained.1 hmem
    obtain ⟨hown, hback⟩ := reference_of_unread h hr hunread
    obtain rfl := Option.some.inj (hcache.symm.trans hown)
    exact ⟨r, hr, hunread, Option.some.inj (hback.symm.trans hid)⟩
  · rintro ⟨r, hr, hunread, rfl⟩
    obtain ⟨hown, hback⟩ := reference_of_unread h hr hunread
    exact ⟨_, mem_retained.2 ⟨r, hr, hunread, hown⟩, hback⟩

/-- Every unread row was one before, under the same key. -/
def UnreadFrom (db db' : Database) : Prop :=
  ∀ r' ∈ db'.summaryLedger, r'.state.unread = true →
    ∃ r ∈ db.summaryLedger, r.key = r'.key ∧ r.state.unread = true

theorem unreadFrom_ledger (h : db'.summaryLedger = db.summaryLedger) : UnreadFrom db db' :=
  fun r hr hunread => ⟨r, h ▸ hr, rfl, hunread⟩

theorem unreadFrom_update {target : SummaryRow → Bool} {f : SummaryRow → SummaryRow}
    (h : db'.summaryLedger = Table.update target f db.summaryLedger) (hkey : ∀ r, (f r).key = r.key)
    (hunread : ∀ r, target r = true → (f r).state.unread = true → r.state.unread = true) :
    UnreadFrom db db' := by
  intro r' hr' hu
  rw [h] at hr'
  rcases Table.mem_update_cases hr' with ⟨hr, _⟩ | ⟨r, hr, htarget, rfl⟩
  · exact ⟨r', hr, rfl, hu⟩
  · exact ⟨r, hr, (hkey r).symm, hunread r htarget hu⟩

/-- Only a publication makes a generation unread. -/
theorem unreadFrom_effect (he : Effect env op db db') (hop : publishes op = false) :
    UnreadFrom db db' := by
  cases he with
  | same => exact unreadFrom_ledger rfl
  | queue jobs sequence onQueue => exact unreadFrom_ledger rfl
  | bound t schema => exact unreadFrom_ledger rfl
  | attempted onClaims t schema => exact unreadFrom_ledger rfl
  | observed cursors schema => exact unreadFrom_ledger rfl
  | recorded cursors schema row pending id turnPack completions => exact unreadFrom_ledger rfl
  | claimed onClaims claim valid new schema =>
    intro r hr hunread
    rcases List.mem_append.1 hr with hold | hnew
    · exact ⟨r, hold, rfl, hunread⟩
    · obtain rfl := List.mem_singleton.1 hnew
      cases hunread
  | resumed onClaims target interrupted schema =>
    refine unreadFrom_update rfl (fun _ => rfl) fun r _ hu => ?_
    cases hu
  | abandoned onClaims target attempts active schema =>
    refine unreadFrom_update rfl (fun _ => rfl) fun r _ hu => ?_
    cases hu
  | published publication => cases hop
  | acquired lease acquisition =>
    rw [acquisition.commits]
    refine unreadFrom_update rfl (fun _ => rfl) fun r ht _ => ?_
    rw [(SummaryRow.leasable_iff.1 ht).2.1]
    rfl
  | released lease release =>
    rw [release.commits]
    refine unreadFrom_update rfl (fun _ => rfl) fun r ht _ => ?_
    simp only [Bool.and_eq_true, beq_iff_eq] at ht
    rw [ht.2]
    rfl
  | finished finish =>
    rw [finish.commits]
    refine unreadFrom_update rfl (fun _ => rfl) fun r _ hu => ?_
    cases hu
  | interrupted schema =>
    refine unreadFrom_update rfl (fun _ => rfl) fun r _ hu => ?_
    cases hu
  | leasesDropped schema =>
    refine unreadFrom_update rfl (fun _ => rfl) fun r ht _ => ?_
    rw [beq_iff_eq.1 ht]
    rfl

theorem unreadFrom_step (h : LedgerOk env db) (hop : publishes op = false) :
    UnreadFrom db (step env db op) := by
  have heffects := h.step_effects op
  generalize step env db op = after at heffects
  induction heffects with
  | refl => exact unreadFrom_ledger rfl
  | tail _ heffect ih =>
    intro r hr hunread
    obtain ⟨r₁, hr₁, hkey₁, hunread₁⟩ := unreadFrom_effect heffect hop r hr hunread
    obtain ⟨r₀, hr₀, hkey₀, hunread₀⟩ := ih r₁ hr₁ hunread₁
    exact ⟨r₀, hr₀, hkey₀.trans hkey₁, hunread₀⟩

/-- A publication adds its own generation to the unread ones. -/
theorem unread_published {claim : SummaryClaim} {cacheObject : String}
    (hp : Store.Publication env db claim cacheObject db') :
    ∀ r' ∈ db'.summaryLedger, r'.state.unread = true →
      r'.key = (claim.taskId, claim.generation) ∨
      ∃ r ∈ db.summaryLedger, r.key = r'.key ∧ r.state.unread = true := by
  intro r' hr' hunread
  rw [hp.commits] at hr'
  simp only [publishing_eq_map] at hr'
  obtain ⟨r, hr, rfl⟩ := List.mem_map.1 hr'
  have hkey := key_republish claim cacheObject r
  rcases republish_cases claim cacheObject r with ⟨hpub, _⟩ | ⟨hsup, _⟩ | ⟨_, _, heq⟩
  · exact Or.inl (hkey.trans (SummaryRow.publishable_iff.1 hpub).1)
  · obtain ⟨_, _, _, hcurrent⟩ := SummaryClaim.supersedes_iff.1 hsup
    refine Or.inr ⟨r, hr, hkey.symm, ?_⟩
    rcases (SummaryRow.currentUnread_iff.1 hcurrent).1 with hs | hs <;> rw [hs] <;> rfl
  · exact Or.inr ⟨r, hr, hkey.symm, heq ▸ hunread⟩

theorem cacheIdOf_key {r r' : SummaryRow} (h : r.key = r'.key) : cacheIdOf env r = cacheIdOf env r' := by
  rw [cacheIdOf, cacheIdOf, taskId_of_key h, generation_of_key h]

end CodexKeyboard.Cache
