import Mathlib.Tactic

/-! `DebouncedInput`, and what its samples have shown when it changes its state. The differences of times
    wrap around at 32 bits. -/

namespace CodexKeyboard.Keyboard

structure DebounceResult where
  changed : Bool := false
  state : Bool
  filteredTransition : Bool := false
  deriving DecidableEq, Repr

structure DebouncedInput where
  pressIntervalMs : UInt32
  releaseIntervalMs : UInt32
  initialized : Bool := false
  stableState : Bool := false
  candidateState : Bool := false
  candidateSinceMs : UInt32 := 0
  deriving DecidableEq, Repr

namespace DebouncedInput

def intervalFor (d : DebouncedInput) (state : Bool) : UInt32 := if state then d.pressIntervalMs else d.releaseIntervalMs

def reset (d : DebouncedInput) (rawState : Bool) (nowMs : UInt32) : DebouncedInput :=
  { d with initialized := true, stableState := rawState, candidateState := rawState, candidateSinceMs := nowMs }

/-- The candidate was there for its interval. -/
def elapsed (d : DebouncedInput) (nowMs : UInt32) : Bool := d.intervalFor d.candidateState ≤ nowMs - d.candidateSinceMs

def update (d : DebouncedInput) (rawState : Bool) (nowMs : UInt32) : DebounceResult × DebouncedInput :=
  if !d.initialized then ({ state := rawState }, d.reset rawState nowMs)
  else if rawState ≠ d.candidateState then
    let next := { d with candidateState := rawState, candidateSinceMs := nowMs }
    if d.candidateState ≠ d.stableState then
      if d.elapsed nowMs then
        ({ changed := true, state := d.candidateState }, { next with stableState := d.candidateState })
      else ({ state := d.stableState, filteredTransition := true }, next)
    else ({ state := d.stableState }, next)
  else if d.candidateState = d.stableState then ({ state := d.stableState }, d)
  else if !d.elapsed nowMs then ({ state := d.stableState }, d)
  else ({ changed := true, state := d.candidateState }, { d with stableState := d.candidateState })

end DebouncedInput

/-! ### Samples -/

/-- A level of an input at a time of the clock. -/
structure Sample where
  time : Nat
  level : Bool
  deriving DecidableEq, Repr

/-- What the firmware has of a time of the clock. -/
def stamp (time : Nat) : UInt32 := .ofNat time

def Chronological (samples : List Sample) : Prop := samples.Pairwise fun a b => a.time ≤ b.time

/-- The last samples showed a level, over an interval before a time. -/
def Held (samples : List Sample) (level : Bool) (interval now : Nat) : Prop :=
  ∃ before first block, samples = before ++ first :: block ∧ (∀ sample ∈ first :: block, sample.level = level) ∧
    first.time + interval ≤ now

namespace DebouncedInput

/-- The candidate of a debouncer is what its samples showed from the first sample of the block on. -/
structure Tracks (d : DebouncedInput) (before : List Sample) (first : Sample) (block : List Sample) : Prop where
  initialized : d.initialized = true
  since : d.candidateSinceMs = stamp first.time
  level : ∀ sample ∈ first :: block, sample.level = d.candidateState
  fresh : ∀ sample ∈ before.getLast?, sample.level ≠ d.candidateState

/-- A debouncer after these samples. -/
def Follows (d : DebouncedInput) (samples : List Sample) : Prop :=
  ∃ before first block, samples = before ++ first :: block ∧ Tracks d before first block

variable {d : DebouncedInput} {samples before block : List Sample} {first sample : Sample} {time : Nat}

theorem toNat_stamp_sub {a b : Nat} (h : a ≤ b) : (stamp b - stamp a).toNat = (b - a) % 2 ^ 32 := by
  rw [UInt32.toNat_sub, stamp, stamp, UInt32.toNat_ofNat', UInt32.toNat_ofNat']
  omega

/-- What has elapsed by the stamps has elapsed by the clock. -/
theorem elapsed_time (h : Tracks d before first block) (hpast : first.time ≤ time)
    (helapsed : d.elapsed (stamp time) = true) :
    first.time + (d.intervalFor d.candidateState).toNat ≤ time := by
  rw [elapsed, decide_eq_true_iff, UInt32.le_iff_toNat_le, h.since, toNat_stamp_sub hpast] at helapsed
  have hmod := Nat.mod_le (time - first.time) (2 ^ 32)
  omega

theorem elapsed_of_time (h : Tracks d before first block) (hnear : time < first.time + 2 ^ 32)
    (htime : first.time + (d.intervalFor d.candidateState).toNat ≤ time) : d.elapsed (stamp time) = true := by
  rw [elapsed, decide_eq_true_iff, UInt32.le_iff_toNat_le, h.since, toNat_stamp_sub (by omega),
    Nat.mod_eq_of_lt (by omega)]
  omega

/-- The cases of a sample: the candidate goes on or a new one begins, and the state changes to a candidate that
    has elapsed and stays as it is otherwise. -/
structure Updated (d : DebouncedInput) (sample : Sample) (result : DebounceResult) (next : DebouncedInput) : Prop where
  intervals : next.intervalFor = d.intervalFor
  candidate : next.candidateState = sample.level
  since : next.candidateSinceMs = if sample.level = d.candidateState then d.candidateSinceMs else stamp sample.time
  initialized : next.initialized = true
  state : result.state = next.stableState
  changed : result.changed = (decide (d.candidateState ≠ d.stableState) && d.elapsed (stamp sample.time))
  stable : next.stableState = if result.changed then d.candidateState else d.stableState

theorem update_cases (hinitialized : d.initialized = true) (sample : Sample) :
    Updated d sample (d.update sample.level (stamp sample.time)).1 (d.update sample.level (stamp sample.time)).2 := by
  rw [update, if_neg (by rw [hinitialized]; decide)]
  by_cases hlevel : sample.level = d.candidateState
  · rw [if_neg (not_not.2 hlevel)]
    by_cases hstable : d.candidateState = d.stableState
    · rw [if_pos hstable]
      exact ⟨rfl, hlevel.symm, (if_pos hlevel).symm, hinitialized, rfl, by simp [hstable], rfl⟩
    · rw [if_neg hstable]
      cases helapsed : d.elapsed (stamp sample.time) with
      | false => exact ⟨rfl, hlevel.symm, (if_pos hlevel).symm, hinitialized, rfl, by simp [helapsed], rfl⟩
      | true => exact ⟨rfl, hlevel.symm, (if_pos hlevel).symm, hinitialized, rfl, by simp [hstable, helapsed], rfl⟩
  · rw [if_pos hlevel]
    by_cases hstable : d.candidateState = d.stableState
    · rw [if_neg (not_not.2 hstable)]
      exact ⟨rfl, rfl, (if_neg hlevel).symm, hinitialized, rfl, by simp [hstable], rfl⟩
    · rw [if_pos hstable]
      cases helapsed : d.elapsed (stamp sample.time) with
      | false => exact ⟨rfl, rfl, (if_neg hlevel).symm, hinitialized, rfl, by simp [helapsed], rfl⟩
      | true => exact ⟨rfl, rfl, (if_neg hlevel).symm, hinitialized, rfl, by simp [hstable, helapsed], rfl⟩

/-! ### One sample -/

theorem tracks_same (h : Tracks d before first block) (hlevel : sample.level = d.candidateState) :
    Tracks (d.update sample.level (stamp sample.time)).2 before first (block ++ [sample]) := by
  have hupdate := update_cases h.initialized sample
  refine ⟨hupdate.initialized, ?_, ?_, ?_⟩
  · rw [hupdate.since, if_pos hlevel]
    exact h.since
  · rintro other hother
    rw [hupdate.candidate, hlevel]
    rw [← List.cons_append, List.mem_append, List.mem_singleton] at hother
    rcases hother with hold | rfl
    · exact h.level other hold
    · exact hlevel
  · rintro other hother
    rw [hupdate.candidate, hlevel]
    exact h.fresh other hother

theorem tracks_other (h : Tracks d before first block) (hlevel : sample.level ≠ d.candidateState) :
    Tracks (d.update sample.level (stamp sample.time)).2 (before ++ first :: block) sample [] := by
  have hupdate := update_cases h.initialized sample
  refine ⟨hupdate.initialized, ?_, ?_, ?_⟩
  · rw [hupdate.since, if_neg hlevel]
  · rintro other hother
    rw [List.mem_singleton.1 hother, hupdate.candidate]
  · rintro other hother
    have hlast : other ∈ first :: block := by
      rw [List.getLast?_append_of_ne_nil _ (List.cons_ne_nil _ _)] at hother
      exact List.mem_of_getLast? hother
    rw [hupdate.candidate, h.level other hlast]
    exact hlevel.symm

theorem Follows.initialized (h : Follows d samples) : d.initialized = true := by
  obtain ⟨before, first, block, -, htracks⟩ := h
  exact htracks.initialized

theorem Follows.update (h : Follows d samples) (sample : Sample) :
    Follows (d.update sample.level (stamp sample.time)).2 (samples ++ [sample]) := by
  obtain ⟨before, first, block, rfl, h⟩ := h
  by_cases hlevel : sample.level = d.candidateState
  · exact ⟨before, first, block ++ [sample], by simp, tracks_same h hlevel⟩
  · exact ⟨before ++ first :: block, sample, [], rfl, tracks_other h hlevel⟩

/-- A state changes to what the samples showed over its interval. -/
theorem Follows.held (h : Follows d samples) (hpast : ∀ other ∈ samples, other.time ≤ sample.time)
    (hchanged : (d.update sample.level (stamp sample.time)).1.changed = true) :
    Held samples (d.update sample.level (stamp sample.time)).1.state
      (d.intervalFor (d.update sample.level (stamp sample.time)).1.state).toNat sample.time := by
  obtain ⟨before, first, block, rfl, h⟩ := h
  have hupdate := update_cases h.initialized sample
  have hstate : (d.update sample.level (stamp sample.time)).1.state = d.candidateState := by
    rw [hupdate.state, hupdate.stable, if_pos hchanged]
  rw [hupdate.changed, Bool.and_eq_true] at hchanged
  rw [hstate]
  exact ⟨before, first, block, rfl, h.level, elapsed_time h (hpast first (by simp)) hchanged.2⟩

/-- A change leads to the other state. -/
theorem changed_state (h : d.initialized = true) (sample : Sample) :
    (d.update sample.level (stamp sample.time)).2.stableState =
      if (d.update sample.level (stamp sample.time)).1.changed then !d.stableState else d.stableState := by
  have hupdate := update_cases h sample
  rw [hupdate.stable]
  cases hchanged : (d.update sample.level (stamp sample.time)).1.changed with
  | false => rfl
  | true =>
    rw [hupdate.changed, Bool.and_eq_true, decide_eq_true_iff] at hchanged
    rw [if_pos rfl, if_pos rfl]
    exact Bool.eq_not_of_ne hchanged.1

/-! ### Samples that stay at a level -/

/-- A candidate that is not the state yet has not been there for its interval. -/
def Waits (d : DebouncedInput) (samples : List Sample) : Prop :=
  ∃ before first block last, samples = before ++ first :: block ∧ samples.getLast? = some last ∧
    Tracks d before first block ∧
    (d.candidateState ≠ d.stableState → last.time < first.time + (d.intervalFor d.candidateState).toNat)

theorem Waits.follows (h : Waits d samples) : Follows d samples := by
  obtain ⟨before, first, block, -, hsamples, -, htracks, -⟩ := h
  exact ⟨before, first, block, hsamples, htracks⟩

/-- The intervals of a debouncer are not zero, and have a bound. -/
def Bounded (d : DebouncedInput) (bound : Nat) : Prop :=
  ∀ state, 0 < (d.intervalFor state).toNat ∧ (d.intervalFor state).toNat ≤ bound

theorem Bounded.update {bound : Nat} (h : Bounded d bound) (hinitialized : d.initialized = true) (sample : Sample) :
    Bounded (d.update sample.level (stamp sample.time)).2 bound := by
  rintro state
  rw [(update_cases hinitialized sample).intervals]
  exact h state

/-- A candidate is confirmed in time where no two samples are so far apart that their stamps wrap around. -/
theorem Waits.update {bound : Nat} (h : Waits d samples) (hbounded : Bounded d bound)
    (hpast : ∀ other ∈ samples, other.time ≤ sample.time)
    (hnear : ∀ last ∈ samples.getLast?, sample.time + bound ≤ last.time + 2 ^ 32) :
    Waits (d.update sample.level (stamp sample.time)).2 (samples ++ [sample]) := by
  obtain ⟨before, first, block, last, rfl, hlast, htracks, hwaits⟩ := h
  have hupdate := update_cases htracks.initialized sample
  by_cases hlevel : sample.level = d.candidateState
  · refine ⟨before, first, block ++ [sample], sample, by simp, List.getLast?_concat, tracks_same htracks hlevel,
      fun hpending => ?_⟩
    have hcandidate := hupdate.candidate.trans hlevel
    rw [hupdate.intervals, hcandidate]
    rw [hcandidate, hupdate.stable] at hpending
    cases hchanged : (d.update sample.level (stamp sample.time)).1.changed with
    | true =>
      rw [hchanged] at hpending
      exact absurd rfl hpending
    | false =>
      rw [hchanged, if_neg Bool.false_ne_true] at hpending
      rw [hupdate.changed, decide_eq_true hpending, Bool.true_and] at hchanged
      have hbefore := hwaits hpending
      have hgap := hnear last hlast
      have hbound := (hbounded d.candidateState).2
      by_contra hlate
      rw [elapsed_of_time htracks (by omega) (Nat.not_lt.1 hlate)] at hchanged
      cases hchanged
  · refine ⟨before ++ first :: block, sample, [], sample, rfl, List.getLast?_concat, tracks_other htracks hlevel,
      fun _ => ?_⟩
    rw [hupdate.intervals]
    have hpositive := (hbounded (d.update sample.level (stamp sample.time)).2.candidateState).1
    omega

/-- Samples that show the candidate do not begin before the block of the candidate. -/
theorem Tracks.begins {before block pre later : List Sample} {first p : Sample} (h : Tracks d before first block)
    (hsplit : before ++ first :: block = pre ++ p :: later)
    (hlevel : ∀ other ∈ p :: later, other.level = d.candidateState)
    (hchronological : Chronological (before ++ first :: block)) : first.time ≤ p.time := by
  rcases List.append_eq_append_iff.1 hsplit with ⟨more, rfl, hblock⟩ | ⟨more, rfl, hlater⟩
  · have hpairs := (List.pairwise_append.1 hchronological).2.1
    rw [hblock] at hpairs
    cases more with
    | nil =>
      obtain ⟨rfl, -⟩ := List.cons.inj hblock
      exact le_rfl
    | cons other more =>
      obtain ⟨rfl, -⟩ := List.cons.inj hblock
      exact (List.pairwise_cons.1 hpairs).1 p (by simp)
  · cases hmore : more.getLast? with
    | none =>
      rw [List.getLast?_eq_none_iff.1 hmore, List.nil_append] at hlater
      obtain ⟨rfl, -⟩ := List.cons.inj hlater
      exact le_rfl
    | some last =>
      have hmem : last ∈ p :: later := by
        rw [hlater]
        exact List.mem_append_left _ (List.mem_of_getLast? hmore)
      refine absurd (hlevel last hmem) (h.fresh last ?_)
      rw [List.getLast?_append, hmore]
      rfl

/-- A level that was there for the longer interval is the state. -/
theorem Waits.settles {bound : Nat} {level : Bool} {pre later : List Sample} {p : Sample}
    (h : Waits d (pre ++ p :: later)) (hbounded : Bounded d bound) (hlevel : ∀ other ∈ p :: later, other.level = level)
    (hchronological : Chronological (pre ++ p :: later)) (htime : p.time + bound ≤ sample.time)
    (hnear : ∀ last ∈ (pre ++ p :: later).getLast?, sample.time + bound ≤ last.time + 2 ^ 32) :
    (d.update sample.level (stamp sample.time)).2.stableState = level := by
  obtain ⟨before, first, block, last, hsplit, hlast, htracks, hwaits⟩ := h
  have hupdate := update_cases htracks.initialized sample
  have hcandidate : d.candidateState = level := by
    have hlater : last ∈ p :: later := by
      rw [List.getLast?_append_of_ne_nil _ (List.cons_ne_nil _ _)] at hlast
      exact List.mem_of_getLast? hlast
    have hblock : last ∈ first :: block := by
      rw [hsplit, List.getLast?_append_of_ne_nil _ (List.cons_ne_nil _ _)] at hlast
      exact List.mem_of_getLast? hlast
    rw [← hlevel last hlater, htracks.level last hblock]
  rw [hupdate.stable, ← hcandidate]
  by_cases hstable : d.candidateState = d.stableState
  · split
    · rfl
    · exact hstable.symm
  · have hfirst : first.time ≤ p.time := by
      rw [hsplit] at hchronological
      exact htracks.begins hsplit.symm (by rwa [hcandidate]) hchronological
    have hwait := hwaits hstable
    have hgap := hnear last hlast
    have hbound := (hbounded d.candidateState).2
    have helapsed : d.elapsed (stamp sample.time) = true := elapsed_of_time htracks (by omega) (by omega)
    rw [if_pos]
    rw [hupdate.changed, decide_eq_true hstable, helapsed]
    rfl

/-- A state that is the candidate stays while the samples show it. -/
theorem Follows.stays {level : Bool} (h : Follows d samples) (hstable : d.stableState = level)
    (hcandidate : d.candidateState = level)
    (sample : Sample) : (d.update sample.level (stamp sample.time)).2.stableState = level := by
  obtain ⟨before, first, block, -, htracks⟩ := h
  rw [(update_cases htracks.initialized sample).stable, hcandidate, hstable]
  split
  · rfl
  · rfl

end DebouncedInput

end CodexKeyboard.Keyboard
