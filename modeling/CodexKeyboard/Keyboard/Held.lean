import Mathlib.Data.Finset.Card
import Mathlib.Data.List.Dedup
import Mathlib.Tactic

/-! The held keyboard state of the firmware (`held_keyboard_state.cpp`).

    Every physical source keeps the report captured when it was pressed; the state sent to a host is
    composed of all of them: the modifiers and the Fn flag united, and the keycodes, each once, in the
    six places of a boot keyboard report. A press that would need a seventh place is rejected. -/

namespace CodexKeyboard.Keyboard

/-- The report of one source (`hid_keycode.h`). -/
structure HidKeyboardReport where
  valid : Bool
  appleFn : Bool
  modifier : UInt8
  keycode : UInt8
  keycodes : Vector UInt8 6
deriving DecidableEq

/-- A complete keyboard state; the empty one releases every usage. -/
structure HidKeyboardSnapshot where
  modifier : UInt8 := 0
  appleFn : Bool := false
  keycodes : Vector UInt8 6 := Vector.replicate 6 0
deriving DecidableEq

def HidKeyboardSnapshot.empty (s : HidKeyboardSnapshot) : Bool :=
  s.modifier == 0 && !s.appleFn && s.keycodes.toList.all (· == 0)

/-- `InputId::Count`: eight keys, and the encoder turned left, turned right and pressed. -/
def kSourceCount : ℕ := 11

inductive HeldKeyboardUpdateStatus
  | applied
  | noChange
  | invalidSource
  | invalidReport
  | rollover
deriving DecidableEq

structure HeldKeyboardUpdate where
  status : HeldKeyboardUpdateStatus
  snapshot : HidKeyboardSnapshot
  stateChanged : Bool
  reportChanged : Bool
  becameEmpty : Bool

def HeldKeyboardUpdate.accepted (u : HeldKeyboardUpdate) : Bool :=
  u.status == .applied || u.status == .noChange

/-- The held sources with their captured reports, the state composed of them, and their number. -/
structure HeldKeyboardState where
  sources : Vector (Option HidKeyboardReport) kSourceCount
  current : HidKeyboardSnapshot
  activeSourceCount : ℕ

def HeldKeyboardState.init : HeldKeyboardState := ⟨Vector.replicate kSourceCount none, {}, 0⟩

/-- A candidate snapshot and the number of its keycode places in use. -/
abbrev Candidate := HidKeyboardSnapshot × ℕ

/-- `add_keycode`; `none` when all six places are in use. -/
def addKeycode (c : Candidate) (keycode : UInt8) : Option Candidate :=
  if keycode = 0 ∨ keycode ∈ c.1.keycodes.toList then some c
  else if 6 ≤ c.2 then none
  else some ({ c.1 with keycodes := c.1.keycodes.setIfInBounds c.2 keycode }, c.2 + 1)

def HidKeyboardReport.containsKeycode (r : HidKeyboardReport) : Bool :=
  r.keycodes.toList.any (· != 0)

/-- One source's share of the composition. The single `keycode` counts only when `keycodes` is all
    zero. -/
def addReport (c : Candidate) (r : HidKeyboardReport) : Option Candidate := do
  let c : Candidate :=
    ({ c.1 with modifier := c.1.modifier ||| r.modifier, appleFn := c.1.appleFn || r.appleFn }, c.2)
  let c ← r.keycodes.toList.foldlM (fun c k => if k = 0 then some c else addKeycode c k) c
  if r.containsKeycode then some c else addKeycode c r.keycode

/-- An inactive source adds nothing. -/
def addSource (c : Candidate) : Option HidKeyboardReport → Option Candidate
  | none => some c
  | some r => addReport c r

/-- `compose`: the sources in order; `none` is a rollover. -/
def compose (sources : List (Option HidKeyboardReport)) : Option HidKeyboardSnapshot :=
  (sources.foldlM addSource ({}, 0)).map Prod.fst

def usableReport (r : HidKeyboardReport) : Bool :=
  r.valid && (r.modifier != 0 || r.appleFn || r.keycode != 0 || r.containsKeycode)

def HeldKeyboardState.active (s : HeldKeyboardState) (source : ℕ) : Bool :=
  match s.sources[source]? with
  | some (some _) => true
  | _ => false

/-- An update that leaves the state as it is. -/
def HeldKeyboardState.unchanged (s : HeldKeyboardState) (status : HeldKeyboardUpdateStatus) :
    HeldKeyboardUpdate := ⟨status, s.current, false, false, false⟩

def HeldKeyboardState.press (s : HeldKeyboardState) (source : ℕ) (report : HidKeyboardReport) :
    HeldKeyboardUpdate × HeldKeyboardState :=
  if ¬ source < kSourceCount then (s.unchanged .invalidSource, s)
  else if ¬ usableReport report then (s.unchanged .invalidReport, s)
  else if s.active source then (s.unchanged .noChange, s)
  else
    let candidate := s.sources.setIfInBounds source (some report)
    match compose candidate.toList with
    | none => (s.unchanged .rollover, s)
    | some snapshot =>
      (⟨.applied, snapshot, true, snapshot ≠ s.current, false⟩,
        ⟨candidate, snapshot, s.activeSourceCount + 1⟩)

def HeldKeyboardState.release (s : HeldKeyboardState) (source : ℕ) :
    HeldKeyboardUpdate × HeldKeyboardState :=
  if ¬ source < kSourceCount then (s.unchanged .invalidSource, s)
  else if ¬ s.active source then (s.unchanged .noChange, s)
  else
    let candidate := s.sources.setIfInBounds source none
    match compose candidate.toList with
    | none => (s.unchanged .rollover, s)
    | some snapshot =>
      (⟨.applied, snapshot, true, snapshot ≠ s.current, snapshot.empty⟩,
        ⟨candidate, snapshot, s.activeSourceCount - 1⟩)

def HeldKeyboardState.clear (s : HeldKeyboardState) : HeldKeyboardUpdate × HeldKeyboardState :=
  if s.activeSourceCount = 0 then (s.unchanged .noChange, s)
  else (⟨.applied, {}, true, ({} : HidKeyboardSnapshot) ≠ s.current, true⟩, .init)

/-! ### What a composition is -/

/-- The keycodes a report holds down. -/
def HidKeyboardReport.codes (r : HidKeyboardReport) : List UInt8 :=
  (if r.containsKeycode then r.keycodes.toList else [r.keycode]).filter (· ≠ 0)

/-- The reports of the held sources. -/
def heldReports (sources : List (Option HidKeyboardReport)) : List HidKeyboardReport :=
  sources.filterMap id

/-- `codes` stand in the front places of the candidate, each once, and nothing behind them. -/
structure Rep (c : Candidate) (codes : List UInt8) : Prop where
  places : c.1.keycodes.toList = codes ++ List.replicate (6 - codes.length) 0
  count : c.2 = codes.length
  room : codes.length ≤ 6
  once : codes.Nodup
  nonzero : 0 ∉ codes

theorem rep_init : Rep ({}, 0) [] :=
  ⟨rfl, rfl, by decide, List.nodup_nil, by simp⟩

variable {c c' : Candidate} {codes : List UInt8} {k : UInt8} {r : HidKeyboardReport}

theorem Rep.mem (h : Rep c codes) (hk : k ≠ 0) : k ∈ c.1.keycodes.toList ↔ k ∈ codes := by
  rw [h.places, List.mem_append, List.mem_replicate]
  simp [hk]

/-- A new keycode takes the first free place. -/
theorem Rep.append (h : Rep c codes) (hk : k ≠ 0) (hnew : k ∉ codes) (hroom : codes.length < 6) :
    Rep ({ c.1 with keycodes := c.1.keycodes.setIfInBounds c.2 k }, c.2 + 1) (codes ++ [k]) := by
  refine ⟨?_, by simp [h.count], by simp; omega, ?_, by simp [h.nonzero, hk.symm]⟩
  · obtain ⟨n, hn⟩ : ∃ n, 6 - codes.length = n + 1 := ⟨5 - codes.length, by omega⟩
    have hn' : 6 - (codes ++ [k]).length = n := by
      simp only [List.length_append, List.length_cons, List.length_nil]
      omega
    rw [Vector.toList_setIfInBounds, h.places, h.count, hn, hn', List.set_append_right _ _ le_rfl,
      Nat.sub_self, List.replicate_succ, List.set_cons_zero]
    simp
  · rw [List.nodup_append]
    exact ⟨h.once, by simp, by simpa using fun a ha (hak : a = k) => hnew (hak ▸ ha)⟩

/-- `add_keycode` adds a keycode to the represented set, or has no place for it. -/
theorem addKeycode_some (h : Rep c codes) (hadd : addKeycode c k = some c') :
    c'.1.modifier = c.1.modifier ∧ c'.1.appleFn = c.1.appleFn ∧
      ∃ codes', Rep c' codes' ∧ codes'.toFinset = codes.toFinset ∪ ([k].filter (· ≠ 0)).toFinset := by
  unfold addKeycode at hadd
  split_ifs at hadd with hin hfull
  · cases hadd
    refine ⟨rfl, rfl, codes, h, ?_⟩
    by_cases hk : k = 0
    · simp [hk]
    · have hmem := (h.mem hk).1 (hin.resolve_left hk)
      simp [hk, hmem]
  · cases hadd
    push Not at hin
    have hroom : codes.length < 6 := by
      rw [h.count] at hfull
      omega
    refine ⟨rfl, rfl, codes ++ [k], h.append hin.1 (fun hm => hin.2 ((h.mem hin.1).2 hm)) hroom, ?_⟩
    simp [hin.1]

theorem addKeycode_none (h : Rep c codes) (hadd : addKeycode c k = none) :
    6 < (codes.toFinset ∪ ([k].filter (· ≠ 0)).toFinset).card := by
  unfold addKeycode at hadd
  split_ifs at hadd with hin hfull
  push Not at hin
  have hnew : k ∉ codes.toFinset := fun hm => hin.2 ((h.mem hin.1).2 (List.mem_toFinset.1 hm))
  have hcard : codes.toFinset.card = 6 := by
    rw [List.toFinset_card_of_nodup h.once]
    have := h.room
    rw [h.count] at hfull
    omega
  have hunion : codes.toFinset ∪ ([k].filter (· ≠ 0)).toFinset = insert k codes.toFinset := by
    simp [hin.1]
  rw [hunion, Finset.card_insert_of_notMem hnew, hcard]
  decide

theorem toFinset_filter_cons (k : UInt8) (ks : List UInt8) :
    ((k :: ks).filter (· ≠ 0)).toFinset =
      ([k].filter (· ≠ 0)).toFinset ∪ (ks.filter (· ≠ 0)).toFinset := by
  by_cases hk : k = 0 <;> simp [hk]

theorem addCodes_some {ks : List UInt8} (h : Rep c codes) (hadd : ks.foldlM addKeycode c = some c') :
    c'.1.modifier = c.1.modifier ∧ c'.1.appleFn = c.1.appleFn ∧
      ∃ codes', Rep c' codes' ∧ codes'.toFinset = codes.toFinset ∪ (ks.filter (· ≠ 0)).toFinset := by
  induction ks generalizing c codes with
  | nil =>
    cases hadd
    exact ⟨rfl, rfl, codes, h, by simp⟩
  | cons k ks ih =>
    rw [List.foldlM_cons] at hadd
    obtain ⟨c₁, hc₁, hrest⟩ := Option.bind_eq_some_iff.1 hadd
    obtain ⟨hmod, hfn, codes₁, h₁, hset⟩ := addKeycode_some h hc₁
    obtain ⟨hmod', hfn', codes', h', hset'⟩ := ih h₁ hrest
    refine ⟨hmod'.trans hmod, hfn'.trans hfn, codes', h', ?_⟩
    rw [hset', hset, toFinset_filter_cons k ks, Finset.union_assoc]

theorem addCodes_none {ks : List UInt8} (h : Rep c codes) (hadd : ks.foldlM addKeycode c = none) :
    6 < (codes.toFinset ∪ (ks.filter (· ≠ 0)).toFinset).card := by
  induction ks generalizing c codes with
  | nil => cases hadd
  | cons k ks ih =>
    rw [List.foldlM_cons] at hadd
    rw [toFinset_filter_cons k ks, ← Finset.union_assoc]
    cases hc₁ : addKeycode c k with
    | none => exact (addKeycode_none h hc₁).trans_le (Finset.card_le_card Finset.subset_union_left)
    | some c₁ =>
      obtain ⟨-, -, codes₁, h₁, hset⟩ := addKeycode_some h hc₁
      rw [← hset]
      exact ih h₁ (by simpa [hc₁] using hadd)

/-- The modifiers and the Fn flag of a report united into the candidate. -/
def addModifiers (c : Candidate) (r : HidKeyboardReport) : Candidate :=
  ({ c.1 with modifier := c.1.modifier ||| r.modifier, appleFn := c.1.appleFn || r.appleFn }, c.2)

theorem Rep.addModifiers (h : Rep c codes) (r : HidKeyboardReport) : Rep (addModifiers c r) codes :=
  ⟨h.places, h.count, h.room, h.once, h.nonzero⟩

theorem addKeycode_zero : addKeycode c 0 = some c := by
  simp [addKeycode]

/-- A source's share is its keycodes, one after the other. -/
theorem addReport_eq (c : Candidate) (r : HidKeyboardReport) :
    addReport c r = (if r.containsKeycode then r.keycodes.toList else [r.keycode]).foldlM addKeycode
      (addModifiers c r) := by
  have hfun : (fun (c : Candidate) (k : UInt8) => if k = 0 then some c else addKeycode c k) =
      addKeycode := by
    funext c k
    split_ifs with hk
    · rw [hk, addKeycode_zero]
    · rfl
  unfold addReport
  rw [hfun]
  cases hc : r.containsKeycode with
  | true => simp [addModifiers]
  | false =>
    -- all places of the report are zero, so the first pass adds nothing
    have hzero : ∀ (ks : List UInt8) (c : Candidate), ks.any (· != 0) = false →
        ks.foldlM addKeycode c = some c := by
      intro ks c hks
      induction ks with
      | nil => rfl
      | cons k ks ih =>
        simp only [List.any_cons, Bool.or_eq_false_iff, bne_eq_false_iff_eq] at hks
        rw [List.foldlM_cons, hks.1, addKeycode_zero]
        exact ih hks.2
    simp only [hzero _ _ hc, addModifiers]
    simp [List.foldlM_cons]

theorem compose_eq (sources : List (Option HidKeyboardReport)) :
    compose sources = ((heldReports sources).foldlM addReport (({}, 0) : Candidate)).map Prod.fst := by
  have h : ∀ (l : List (Option HidKeyboardReport)) (c : Candidate),
      l.foldlM addSource c = (heldReports l).foldlM addReport c := by
    intro l
    induction l with
    | nil => exact fun c => rfl
    | cons source l ih =>
      intro c
      cases source with
      | none => simpa [heldReports, addSource] using ih c
      | some r => simp [heldReports, addSource, List.foldlM_cons, ih]
  rw [compose, h]

/-- The snapshot that unites the held reports: their modifiers, their Fn flags and, in at most six
    places, their keycodes, each once. -/
structure Unites (held : List HidKeyboardReport) (s : HidKeyboardSnapshot) : Prop where
  modifier : s.modifier = held.foldl (fun m r => m ||| r.modifier) 0
  appleFn : s.appleFn = held.any (·.appleFn)
  keycodes : ∃ codes : List UInt8, s.keycodes.toList = codes ++ List.replicate (6 - codes.length) 0 ∧
    codes.length ≤ 6 ∧ codes.Nodup ∧ ∀ k, k ∈ codes ↔ ∃ r ∈ held, k ∈ r.codes

theorem addReports_some {held : List HidKeyboardReport} (h : Rep c codes)
    (hadd : held.foldlM addReport c = some c') :
    c'.1.modifier = held.foldl (fun m r => m ||| r.modifier) c.1.modifier ∧
      c'.1.appleFn = (c.1.appleFn || held.any (·.appleFn)) ∧
      ∃ codes', Rep c' codes' ∧
        codes'.toFinset = codes.toFinset ∪ (held.flatMap HidKeyboardReport.codes).toFinset := by
  induction held generalizing c codes with
  | nil =>
    cases hadd
    exact ⟨rfl, by simp, codes, h, by simp⟩
  | cons r held ih =>
    rw [List.foldlM_cons] at hadd
    obtain ⟨c₁, hc₁, hrest⟩ := Option.bind_eq_some_iff.1 hadd
    rw [addReport_eq] at hc₁
    obtain ⟨hmod, hfn, codes₁, h₁, hset⟩ := addCodes_some (h.addModifiers r) hc₁
    obtain ⟨hmod', hfn', codes', h', hset'⟩ := ih h₁ hrest
    refine ⟨by rw [hmod', hmod]; rfl, ?_, codes', h', ?_⟩
    · rw [hfn', hfn, List.any_cons, ← Bool.or_assoc]
      rfl
    · rw [hset', hset, Finset.union_assoc, List.flatMap_cons, List.toFinset_append]
      rfl

theorem addReports_none {held : List HidKeyboardReport} (h : Rep c codes)
    (hadd : held.foldlM addReport c = none) :
    6 < (codes.toFinset ∪ (held.flatMap HidKeyboardReport.codes).toFinset).card := by
  induction held generalizing c codes with
  | nil => cases hadd
  | cons r held ih =>
    rw [List.foldlM_cons] at hadd
    rw [List.flatMap_cons, List.toFinset_append, ← Finset.union_assoc]
    cases hc₁ : addReport c r with
    | none =>
      rw [addReport_eq] at hc₁
      exact (addCodes_none (h.addModifiers r) hc₁).trans_le
        (Finset.card_le_card Finset.subset_union_left)
    | some c₁ =>
      have hc₁' := hc₁
      rw [addReport_eq] at hc₁'
      obtain ⟨-, -, codes₁, h₁, hset⟩ := addCodes_some (h.addModifiers r) hc₁'
      have hset' : codes₁.toFinset = codes.toFinset ∪ r.codes.toFinset := hset
      rw [← hset']
      exact ih h₁ (by simpa [hc₁] using hadd)

/-- `compose` unites the held reports -/
theorem compose_some {sources : List (Option HidKeyboardReport)} {s : HidKeyboardSnapshot}
    (h : compose sources = some s) : Unites (heldReports sources) s := by
  rw [compose_eq, Option.map_eq_some_iff] at h
  obtain ⟨c, hc, rfl⟩ := h
  obtain ⟨hmod, hfn, codes, hrep, hset⟩ := addReports_some rep_init hc
  refine ⟨hmod, by simpa using hfn, codes, hrep.places, hrep.room, hrep.once, fun k => ?_⟩
  rw [← List.mem_toFinset, hset]
  simp

/-- and fails exactly when they hold more than six keycodes. -/
theorem compose_isSome {sources : List (Option HidKeyboardReport)} :
    (compose sources).isSome = true ↔
      ((heldReports sources).flatMap HidKeyboardReport.codes).toFinset.card ≤ 6 := by
  constructor
  · intro h
    obtain ⟨s, hs⟩ := Option.isSome_iff_exists.1 h
    rw [compose_eq, Option.map_eq_some_iff] at hs
    obtain ⟨c, hc, -⟩ := hs
    obtain ⟨-, -, codes, hrep, hset⟩ := addReports_some rep_init hc
    have hcard : codes.toFinset.card ≤ 6 := (List.toFinset_card_le codes).trans hrep.room
    rw [hset] at hcard
    simpa using hcard
  · intro h
    cases hc : (heldReports sources).foldlM addReport (({}, 0) : Candidate) with
    | none =>
      have hlt := addReports_none rep_init hc
      simp only [List.toFinset_nil, Finset.empty_union] at hlt
      omega
    | some c => simp [compose_eq, hc]

/-! ### The state -/

/-- The composed state is the union of the held sources, which are counted and all usable. -/
structure HeldInv (s : HeldKeyboardState) : Prop where
  composed : compose s.sources.toList = some s.current
  counted : s.activeSourceCount = (heldReports s.sources.toList).length
  usable : ∀ r ∈ heldReports s.sources.toList, usableReport r = true

variable {s : HeldKeyboardState} {source : ℕ} {report : HidKeyboardReport}

theorem heldInv_init : HeldInv .init :=
  ⟨by decide, by decide, by decide⟩

theorem length_heldReports (l : List (Option HidKeyboardReport)) :
    (heldReports l).length = l.countP Option.isSome := by
  rw [heldReports, List.length_filterMap_eq_countP]
  rfl

theorem active_iff (hsource : source < kSourceCount) :
    s.active source = (s.sources.toList.get ⟨source, by simpa using hsource⟩).isSome := by
  have hlt : source < s.sources.size := hsource
  simp only [HeldKeyboardState.active, Vector.getElem?_eq_getElem hlt, List.get_eq_getElem,
    Vector.getElem_toList]
  cases s.sources[source] <;> rfl

theorem heldReports_set_some {l : List (Option HidKeyboardReport)} {i : ℕ} :
    ∀ r ∈ heldReports (l.set i (some report)), r = report ∨ r ∈ heldReports l := by
  intro r hr
  rw [heldReports, List.mem_filterMap] at hr
  obtain ⟨o, ho, rfl⟩ := hr
  rcases List.mem_or_eq_of_mem_set ho with hold | hnew
  · exact Or.inr (List.mem_filterMap.2 ⟨_, hold, rfl⟩)
  · exact Or.inl (Option.some.inj hnew)

theorem heldReports_set_none {l : List (Option HidKeyboardReport)} {i : ℕ} :
    ∀ r ∈ heldReports (l.set i none), r ∈ heldReports l := by
  intro r hr
  rw [heldReports, List.mem_filterMap] at hr
  obtain ⟨o, ho, rfl⟩ := hr
  rcases List.mem_or_eq_of_mem_set ho with hold | hnew
  · exact List.mem_filterMap.2 ⟨_, hold, rfl⟩
  · cases hnew

/-- What a press can do: nothing, or hold one more source. -/
theorem press_cases (s : HeldKeyboardState) (source : ℕ) (report : HidKeyboardReport) :
    (∃ status, s.press source report = (s.unchanged status, s)) ∨
      ∃ snapshot, source < kSourceCount ∧ usableReport report = true ∧ s.active source = false ∧
        compose (s.sources.setIfInBounds source (some report)).toList = some snapshot ∧
        s.press source report =
          (⟨.applied, snapshot, true, snapshot ≠ s.current, false⟩,
            ⟨s.sources.setIfInBounds source (some report), snapshot, s.activeSourceCount + 1⟩) := by
  by_cases hsource : source < kSourceCount
  swap
  · exact Or.inl ⟨.invalidSource, by simp [HeldKeyboardState.press, hsource]⟩
  by_cases husable : usableReport report = true
  swap
  · exact Or.inl ⟨.invalidReport, by simp [HeldKeyboardState.press, hsource, husable]⟩
  cases hactive : s.active source with
  | true => exact Or.inl ⟨.noChange, by simp [HeldKeyboardState.press, hsource, husable, hactive]⟩
  | false =>
    cases hc : compose (s.sources.setIfInBounds source (some report)).toList with
    | none =>
      refine Or.inl ⟨.rollover, ?_⟩
      simp only [HeldKeyboardState.press, hsource, husable, hactive, not_true_eq_false, if_false,
        Bool.false_eq_true, hc]
    | some snapshot =>
      refine Or.inr ⟨snapshot, hsource, husable, rfl, rfl, ?_⟩
      simp only [HeldKeyboardState.press, hsource, husable, hactive, not_true_eq_false, if_false,
        Bool.false_eq_true, hc]

/-- Releasing a source cannot need more places than there were. -/
theorem compose_release (hs : HeldInv s) :
    ∃ snapshot, compose (s.sources.setIfInBounds source none).toList = some snapshot := by
  refine Option.isSome_iff_exists.1 (compose_isSome.2 ?_)
  have hle := compose_isSome.1 (show (compose s.sources.toList).isSome = true by rw [hs.composed]; rfl)
  refine le_trans (Finset.card_le_card fun k hk => ?_) hle
  rw [List.mem_toFinset, List.mem_flatMap] at hk ⊢
  obtain ⟨r, hr, hk⟩ := hk
  rw [Vector.toList_setIfInBounds] at hr
  exact ⟨r, heldReports_set_none r hr, hk⟩

/-- What a release can do: nothing to a source that is not held, and let go of one that is. -/
theorem release_cases (hs : HeldInv s) (source : ℕ) :
    ((¬ source < kSourceCount ∨ s.active source = false) ∧
      ∃ status, s.release source = (s.unchanged status, s)) ∨
      ∃ snapshot, source < kSourceCount ∧ s.active source = true ∧
        compose (s.sources.setIfInBounds source none).toList = some snapshot ∧
        s.release source = (⟨.applied, snapshot, true, snapshot ≠ s.current, snapshot.empty⟩,
          ⟨s.sources.setIfInBounds source none, snapshot, s.activeSourceCount - 1⟩) := by
  by_cases hsource : source < kSourceCount
  swap
  · exact Or.inl ⟨Or.inl hsource, .invalidSource, by simp [HeldKeyboardState.release, hsource]⟩
  cases hactive : s.active source with
  | false =>
    exact Or.inl ⟨Or.inr rfl, .noChange, by simp [HeldKeyboardState.release, hsource, hactive]⟩
  | true =>
    obtain ⟨snapshot, hc⟩ := @compose_release _ source hs
    refine Or.inr ⟨snapshot, hsource, rfl, hc, ?_⟩
    simp only [HeldKeyboardState.release, hsource, hactive, not_true_eq_false, if_false, hc]

theorem heldInv_press (hs : HeldInv s) : HeldInv (s.press source report).2 := by
  rcases press_cases s source report with ⟨status, h⟩ | ⟨snapshot, hsource, husable, hactive, hc, h⟩
  · rw [h]
    exact hs
  · rw [h]
    have hlen : source < s.sources.toList.length := by simpa using hsource
    refine ⟨hc, ?_, ?_⟩
    · rw [active_iff hsource, List.get_eq_getElem] at hactive
      rw [Vector.toList_setIfInBounds, length_heldReports, List.countP_set hlen, hactive,
        ← length_heldReports, ← hs.counted]
      simp
    · intro r hr
      rw [Vector.toList_setIfInBounds] at hr
      rcases heldReports_set_some r hr with rfl | hold
      · exact husable
      · exact hs.usable r hold

theorem heldInv_release (hs : HeldInv s) : HeldInv (s.release source).2 := by
  rcases release_cases hs source with ⟨-, status, h⟩ | ⟨snapshot, hsource, hactive, hc, h⟩
  · rw [h]
    exact hs
  · rw [h]
    have hlen : source < s.sources.toList.length := by simpa using hsource
    refine ⟨hc, ?_, fun r hr => hs.usable r ?_⟩
    · rw [active_iff hsource, List.get_eq_getElem] at hactive
      rw [Vector.toList_setIfInBounds, length_heldReports, List.countP_set hlen, hactive,
        ← length_heldReports, ← hs.counted]
      simp
    · rw [Vector.toList_setIfInBounds] at hr
      exact heldReports_set_none r hr

theorem heldInv_clear (hs : HeldInv s) : HeldInv s.clear.2 := by
  unfold HeldKeyboardState.clear
  split_ifs
  · exact hs
  · exact heldInv_init

theorem HeldInv.unites (hs : HeldInv s) : Unites (heldReports s.sources.toList) s.current :=
  compose_some hs.composed

/-! ### The empty snapshot -/

theorem foldl_or_eq_zero {held : List HidKeyboardReport} {m : UInt8}
    (h : held.foldl (fun m r => m ||| r.modifier) m = 0) : m = 0 ∧ ∀ r ∈ held, r.modifier = 0 := by
  induction held generalizing m with
  | nil => exact ⟨h, by simp⟩
  | cons r held ih =>
    obtain ⟨hm, hrest⟩ := ih h
    rw [UInt8.or_eq_zero_iff] at hm
    exact ⟨hm.1, by simpa using ⟨hm.2, hrest⟩⟩

theorem eq_default_of_empty {snapshot : HidKeyboardSnapshot} (h : snapshot.empty = true) :
    snapshot = {} := by
  simp only [HidKeyboardSnapshot.empty, Bool.and_eq_true, beq_iff_eq, Bool.not_eq_true',
    List.all_eq_true] at h
  obtain ⟨⟨hmod, hfn⟩, hkeys⟩ := h
  have hvec : snapshot.keycodes = Vector.replicate 6 0 := by
    apply Vector.toList_inj.1
    rw [Vector.toList_replicate]
    exact List.eq_replicate_iff.2 ⟨by simp, hkeys⟩
  cases snapshot
  simp_all

theorem codes_eq_nil (h : r.codes = []) : r.containsKeycode = false ∧ r.keycode = 0 := by
  cases hc : r.containsKeycode with
  | true =>
    obtain ⟨k, hk, hne⟩ := List.any_eq_true.1 hc
    simp only [HidKeyboardReport.codes, hc, if_true, List.filter_eq_nil_iff] at h
    have := h k hk
    simp_all
  | false =>
    simp only [HidKeyboardReport.codes, hc, Bool.false_eq_true, if_false, List.filter_eq_nil_iff] at h
    exact ⟨rfl, by simpa using h r.keycode (by simp)⟩

/-- The state is empty exactly when no source is held. -/
theorem current_empty_iff (hs : HeldInv s) :
    s.current.empty = true ↔ heldReports s.sources.toList = [] := by
  obtain ⟨hmod, hfn, codes, hplaces, -, -, hcodes⟩ := hs.unites
  constructor
  · intro h
    have hdefault := eq_default_of_empty h
    rw [hdefault] at hmod hfn hplaces
    have hnil : codes = [] := by
      cases codes with
      | nil => rfl
      | cons k codes =>
        have hk : k ∈ (Vector.replicate 6 (0 : UInt8)).toList := by
          rw [show (Vector.replicate 6 (0 : UInt8)).toList = _ from hplaces]
          simp
        have hzero : k = 0 := by simpa using hk
        obtain ⟨r, -, hr⟩ := (hcodes k).1 (by simp)
        rw [hzero] at hr
        simp [HidKeyboardReport.codes] at hr
    by_contra hne
    obtain ⟨r, hr⟩ := List.exists_mem_of_ne_nil _ hne
    -- a held report is usable, so it holds a modifier, the Fn key or a keycode
    have husable := hs.usable r hr
    have hm := (foldl_or_eq_zero hmod.symm).2 r hr
    have hf : r.appleFn = false := by
      have := List.any_eq_false.1 hfn.symm r hr
      simpa using this
    have hk : r.codes = [] := by
      by_contra hk
      obtain ⟨k, hk⟩ := List.exists_mem_of_ne_nil _ hk
      have := (hcodes k).2 ⟨r, hr, hk⟩
      rw [hnil] at this
      simp at this
    obtain ⟨hc, hkey⟩ := codes_eq_nil hk
    simp [usableReport, hm, hf, hc, hkey] at husable
  · intro h
    rw [h] at hmod hfn hcodes
    have hnil : codes = [] := List.eq_nil_iff_forall_not_mem.2 fun k hk => by
      simpa using (hcodes k).1 hk
    rw [hnil] at hplaces
    simp only [HidKeyboardSnapshot.empty, hmod, hfn, hplaces]
    decide

end CodexKeyboard.Keyboard
