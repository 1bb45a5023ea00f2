import CodexKeyboard.Keyboard.Debounce

/-! The runs of a debouncer over samples at any times: what it reports was held, and what is held it reports. -/

namespace CodexKeyboard.Keyboard.DebouncedInput

variable {d : DebouncedInput} {samples : List Sample} {sample : Sample} {level : Bool}

def feed (d : DebouncedInput) (samples : List Sample) : DebouncedInput :=
  samples.foldl (fun d sample => (d.update sample.level (stamp sample.time)).2) d

/-- The states of the changes that are reported, one after the other. -/
def reported : DebouncedInput → List Sample → List Bool
  | _, [] => []
  | d, sample :: samples =>
    let (result, next) := d.update sample.level (stamp sample.time)
    (if result.changed then [result.state] else []) ++ reported next samples

/-- Samples in the order of the clock, the next less than 2^31 ms behind the last. -/
def Close (samples : List Sample) : Prop :=
  samples.IsChain fun a b => a.time ≤ b.time ∧ b.time < a.time + 2 ^ 31

theorem Close.chronological (h : Close samples) : Chronological samples :=
  List.isChain_iff_pairwise.1 (h.imp fun _ _ hab => hab.1)

/-- The first sample initialises it as a reset does. -/
theorem update_uninitialised (h : d.initialized = false) (raw : Bool) (now : UInt32) :
    d.update raw now = ({ state := raw }, d.reset raw now) := by
  rw [update, if_pos (by rw [h]; rfl)]

theorem reset_tracks (d : DebouncedInput) (start : Sample) :
    Tracks (d.reset start.level (stamp start.time)) [] start [] where
  initialized := rfl
  since := rfl
  level sample hsample := by
    rw [List.mem_singleton.1 hsample]
    rfl
  fresh sample hsample := nomatch hsample

theorem reset_follows (d : DebouncedInput) (start : Sample) :
    Follows (d.reset start.level (stamp start.time)) [start] :=
  ⟨[], start, [], rfl, reset_tracks d start⟩

theorem Follows.feed (h : Follows d samples) (later : List Sample) : Follows (d.feed later) (samples ++ later) := by
  induction later generalizing d samples with
  | nil =>
    rw [List.append_nil]
    exact h
  | cons sample later ih =>
    have hnext := ih (h.update sample)
    rw [List.append_assoc] at hnext
    exact hnext

theorem feed_intervals (h : d.initialized = true) (samples : List Sample) :
    (d.feed samples).intervalFor = d.intervalFor := by
  induction samples generalizing d with
  | nil => rfl
  | cons sample samples ih =>
    have hupdate := update_cases h sample
    exact (ih hupdate.initialized).trans hupdate.intervals

/-! ### What is reported -/

theorem reported_alternate (h : d.initialized = true) (samples : List Sample) :
    (d.stableState :: d.reported samples).IsChain (· ≠ ·) := by
  induction samples generalizing d with
  | nil => exact List.isChain_singleton _
  | cons sample samples ih =>
    have hupdate := update_cases h sample
    have hnext := ih hupdate.initialized
    have hstate := changed_state h sample
    rw [reported]
    dsimp only
    split
    next hchanged =>
      rw [if_pos hchanged] at hstate
      rw [List.singleton_append, hupdate.state]
      refine List.isChain_cons_cons.2 ⟨?_, hnext⟩
      rw [hstate]
      exact Bool.self_ne_not _
    next hchanged =>
      rw [if_neg hchanged] at hstate
      rw [List.nil_append, ← hstate]
      exact hnext

/-- A change that is reported has its sample. -/
theorem mem_reported (h : level ∈ d.reported samples) : ∃ before sample later, samples = before ++ sample :: later ∧
    (((d.feed before).update sample.level (stamp sample.time)).1.changed = true) ∧
    ((d.feed before).update sample.level (stamp sample.time)).1.state = level := by
  induction samples generalizing d with
  | nil => cases h
  | cons sample samples ih =>
    rw [reported] at h
    dsimp only at h
    rcases List.mem_append.1 h with hfirst | hlater
    · split at hfirst
      next hchanged => exact ⟨[], sample, samples, rfl, hchanged, (List.mem_singleton.1 hfirst).symm⟩
      next => cases hfirst
    · obtain ⟨before, other, later, rfl, hchanged, hstate⟩ := ih hlater
      exact ⟨sample :: before, other, later, rfl, hchanged, hstate⟩

/-- A block that ends a run of samples begins in the last ones that show its level. -/
theorem held_within {before block : List Sample} {interval now : Nat} (h : Held (before ++ block) level interval now)
    (hfresh : ∀ last ∈ before.getLast?, last.level ≠ level) (hchronological : Chronological (before ++ block)) :
    ∃ first ∈ block.head?, first.time + interval ≤ now := by
  obtain ⟨pre, first, held, hsplit, hlevel, htime⟩ := h
  rcases List.append_eq_append_iff.1 hsplit.symm with ⟨more, rfl, hheld⟩ | ⟨more, rfl, hblock⟩
  · cases hmore : more.getLast? with
    | none =>
      rw [List.getLast?_eq_none_iff.1 hmore, List.nil_append] at hheld
      exact ⟨first, by rw [← hheld]; rfl, htime⟩
    | some last =>
      have hmem : last ∈ first :: held := by
        rw [hheld]
        exact List.mem_append_left _ (List.mem_of_getLast? hmore)
      refine absurd (hlevel last hmem) (hfresh last ?_)
      rw [List.getLast?_append, hmore]
      rfl
  · rw [hblock] at hchronological ⊢
    have hpairs := (List.pairwise_append.1 hchronological).2.1
    cases more with
    | nil => exact ⟨first, rfl, htime⟩
    | cons other more =>
      have hearlier := (List.pairwise_cons.1 hpairs).1 first (by simp)
      exact ⟨other, rfl, by omega⟩

/-! ### What is held -/

/-- A candidate of a level that is not the state yet is new, or was not there for its interval. -/
def Pending (level : Bool) (d : DebouncedInput) (samples : List Sample) : Prop :=
  ∃ before first block last, samples = before ++ first :: block ∧ (first :: block).getLast? = some last ∧
    Tracks d before first block ∧
    (d.candidateState = level → d.stableState ≠ level → block = [] ∨
      last.time < first.time + (d.intervalFor level).toNat)

theorem reset_pending (d : DebouncedInput) (start : Sample) (level : Bool) :
    Pending level (d.reset start.level (stamp start.time)) [start] :=
  ⟨[], start, [], start, rfl, rfl, reset_tracks d start, fun _ _ => .inl rfl⟩

theorem Pending.update (h : Pending level d samples) (hinterval : (d.intervalFor level).toNat ≤ 2 ^ 31 + 1)
    (hnear : ∀ last ∈ samples.getLast?, last.time ≤ sample.time ∧ sample.time < last.time + 2 ^ 31) :
    Pending level (d.update sample.level (stamp sample.time)).2 (samples ++ [sample]) := by
  obtain ⟨before, first, block, last, rfl, hlast, htracks, hpending⟩ := h
  have hupdate := update_cases htracks.initialized sample
  by_cases hsame : sample.level = d.candidateState
  · refine ⟨before, first, block ++ [sample], sample, by simp, by rw [← List.cons_append, List.getLast?_concat],
      tracks_same htracks hsame, fun hcandidate hstable => .inr ?_⟩
    rw [hupdate.intervals]
    rw [hupdate.candidate, hsame] at hcandidate
    have hunchanged : ¬ (d.update sample.level (stamp sample.time)).1.changed = true := by
      rintro hchanged
      rw [hupdate.stable, if_pos hchanged] at hstable
      exact hstable hcandidate
    rw [hupdate.stable, if_neg hunchanged] at hstable
    have hother : d.candidateState ≠ d.stableState := by
      rw [hcandidate]
      exact hstable.symm
    obtain ⟨hpast, hsoon⟩ := hnear last (by rw [List.getLast?_append_of_ne_nil _ (List.cons_ne_nil _ _)]; exact hlast)
    have hwindow : sample.time < first.time + 2 ^ 32 := by
      rcases hpending hcandidate hstable with rfl | hwaits
      · have honly : first = last := Option.some.inj hlast
        rw [honly]
        omega
      · omega
    by_contra hlate
    have helapsed := elapsed_of_time htracks hwindow (by rw [hcandidate]; omega)
    refine hunchanged ?_
    rw [hupdate.changed, decide_eq_true hother, helapsed]
    rfl
  · exact ⟨before ++ first :: block, sample, [], sample, rfl, rfl, tracks_other htracks hsame, fun _ _ => .inl rfl⟩

theorem Pending.feed {later : List Sample} (h : Pending level d samples) (hinitialized : d.initialized = true)
    (hinterval : (d.intervalFor level).toNat ≤ 2 ^ 31 + 1) (hclose : Close (samples ++ later)) :
    Pending level (d.feed later) (samples ++ later) := by
  induction later generalizing d samples with
  | nil =>
    rw [List.append_nil]
    exact h
  | cons sample later ih =>
    have hupdate := update_cases hinitialized sample
    have hnear : ∀ last ∈ samples.getLast?, last.time ≤ sample.time ∧ sample.time < last.time + 2 ^ 31 :=
      fun last hlast => (List.isChain_append.1 hclose).2.2 last hlast sample rfl
    rw [List.append_cons] at hclose ⊢
    exact ih (h.update hinterval hnear) hupdate.initialized (hupdate.intervals ▸ hinterval) hclose

/-- What two samples or more showed over the interval is the state. -/
theorem Pending.settles {pre block : List Sample} {first last : Sample}
    (h : Pending level d (pre ++ first :: block)) (hchronological : Chronological (pre ++ first :: block))
    (hlevel : ∀ sample ∈ first :: block, sample.level = level) (hblock : block.getLast? = some last)
    (htime : first.time + (d.intervalFor level).toNat ≤ last.time) : d.stableState = level := by
  obtain ⟨before, start, shown, latest, hsplit, hlatest, htracks, hpending⟩ := h
  have hends : latest = last := by
    have hleft : (pre ++ first :: block).getLast? = some last := by
      rw [List.getLast?_append_of_ne_nil _ (List.cons_ne_nil _ _), List.getLast?_cons, hblock]
      rfl
    rw [hsplit, List.getLast?_append_of_ne_nil _ (List.cons_ne_nil _ _), hlatest] at hleft
    exact Option.some.inj hleft
  subst hends
  have hcandidate : d.candidateState = level := by
    rw [← htracks.level latest (List.mem_of_getLast? hlatest)]
    exact hlevel latest (List.mem_cons_of_mem _ (List.mem_of_getLast? hblock))
  by_contra hstable
  rcases hpending hcandidate hstable with rfl | hwaits
  · -- the only sample of the block would be the last, but there is one of its level before it
    obtain ⟨middle, hmiddle⟩ := List.getLast?_eq_some_iff.1 hblock
    have hbefore : before = pre ++ first :: middle := by
      rw [hmiddle, ← List.cons_append, ← List.append_assoc] at hsplit
      exact (List.append_inj_left' hsplit rfl).symm
    obtain ⟨prior, hprior⟩ : ∃ prior, (first :: middle).getLast? = some prior :=
      Option.isSome_iff_exists.1 (by rw [List.getLast?_isSome]; exact List.cons_ne_nil _ _)
    refine htracks.fresh prior ?_ ?_
    · rw [hbefore, List.getLast?_append_of_ne_nil _ (List.cons_ne_nil _ _)]
      exact hprior
    · rw [hcandidate]
      refine hlevel prior ?_
      rw [hmiddle, ← List.cons_append]
      exact List.mem_append_left _ (List.mem_of_getLast? hprior)
  · rw [hsplit] at hchronological
    have hbegins := htracks.begins hsplit.symm (by rwa [hcandidate]) hchronological
    omega

/-! ### The debouncer -/

theorem le_last {last : Sample} (h : Chronological (samples ++ [last])) (hsample : sample ∈ samples ++ [last]) :
    sample.time ≤ last.time := by
  rcases List.mem_append.1 hsample with hearlier | hlast
  · exact (List.pairwise_append.1 h).2.2 sample hearlier last (List.mem_singleton.2 rfl)
  · rw [List.mem_singleton.1 hlast]

/-- A press that is over within its interval is not reported. -/
theorem short_press (d : DebouncedInput) (start : Sample) {before press : List Sample} {first release : Sample}
    (hchronological : Chronological (start :: (before ++ first :: (press ++ [release]))))
    (hup : ∀ last ∈ (start :: before).getLast?, last.level = false)
    (hshort : release.time < first.time + (d.intervalFor true).toNat) :
    true ∉ ((d.reset start.level (stamp start.time)).feed before).reported (first :: (press ++ [release])) := by
  rintro hreported
  obtain ⟨soFar, sample, later, hsplit, hchanged, hstate⟩ := mem_reported hreported
  have hends : sample.time ≤ release.time := by
    have hall : start :: (before ++ first :: (press ++ [release])) =
        (start :: (before ++ first :: press)) ++ [release] := by
      simp
    have hmem : sample ∈ start :: (before ++ first :: (press ++ [release])) := by
      rw [hsplit]
      simp
    rw [hall] at hchronological hmem
    exact le_last hchronological hmem
  have hfollows := (reset_follows d start).feed (before ++ soFar)
  have hfed : (d.reset start.level (stamp start.time)).feed (before ++ soFar) =
      ((d.reset start.level (stamp start.time)).feed before).feed soFar := by
    rw [feed, List.foldl_append]
    rfl
  have hsamples : start :: (before ++ first :: (press ++ [release])) =
      (start :: (before ++ soFar)) ++ sample :: later := by
    rw [hsplit, ← List.append_assoc, List.cons_append]
  rw [hsamples] at hchronological
  obtain ⟨hearlier, -, hpast⟩ := List.pairwise_append.1 hchronological
  have hheld := hfollows.held (fun other hother => hpast other hother sample List.mem_cons_self) (hfed ▸ hchanged)
  rw [feed_intervals rfl, hfed, hstate] at hheld
  rw [← List.append_assoc] at hheld
  obtain ⟨head, hhead, htime⟩ := held_within hheld
    (fun last hlast => by rw [hup last hlast]; exact Bool.false_ne_true) hearlier
  have hfirst : head = first := by
    cases soFar with
    | nil => cases hhead
    | cons other soFar =>
      cases hhead
      exact (List.cons.inj hsplit).1.symm
  have hinterval : (d.reset start.level (stamp start.time)).intervalFor true = d.intervalFor true := rfl
  rw [hfirst, hinterval] at htime
  omega

/-- After initialisation changes alternate, a change was held before it, what at least two samples held is the
    state, and a short press is no change. -/
theorem debounces (d : DebouncedInput) (start : Sample) (samples : List Sample) (hclose : Close (start :: samples)) :
    (start.level :: (d.reset start.level (stamp start.time)).reported samples).IsChain (· ≠ ·) ∧
    (∀ before sample later, samples = before ++ sample :: later →
      (((d.reset start.level (stamp start.time)).feed before).update sample.level
        (stamp sample.time)).1.changed = true →
      Held (start :: before)
        (((d.reset start.level (stamp start.time)).feed before).update sample.level (stamp sample.time)).1.state
        (d.intervalFor
          (((d.reset start.level (stamp start.time)).feed before).update sample.level
            (stamp sample.time)).1.state).toNat
        sample.time) ∧
    (∀ soFar, soFar <+: samples → ∀ level pre first block last, start :: soFar = pre ++ first :: block →
      block.getLast? = some last → (∀ sample ∈ first :: block, sample.level = level) →
      (d.intervalFor level).toNat ≤ 2 ^ 31 + 1 → first.time + (d.intervalFor level).toNat ≤ last.time →
      ((d.reset start.level (stamp start.time)).feed soFar).stableState = level) ∧
    ∀ before first press release later, samples = before ++ first :: (press ++ release :: later) →
      (∀ last ∈ (start :: before).getLast?, last.level = false) → (∀ sample ∈ first :: press, sample.level = true) →
      release.level = false → release.time < first.time + (d.intervalFor true).toNat →
      true ∉ ((d.reset start.level (stamp start.time)).feed before).reported (first :: (press ++ [release])) := by
  have halternate := reported_alternate (d := d.reset start.level (stamp start.time)) rfl samples
  refine ⟨halternate, ?_, ?_, ?_⟩
  · rintro before sample later rfl hchanged
    have hchronological := hclose.chronological
    rw [← List.cons_append] at hchronological
    have hpast := (List.pairwise_append.1 hchronological).2.2
    have hheld := ((reset_follows d start).feed before).held
      (fun other hother => hpast other hother sample List.mem_cons_self) hchanged
    rw [feed_intervals rfl] at hheld
    exact hheld
  · rintro soFar hprefix level pre first block last hsplit hlast hlevel hinterval htime
    have hsoFar : Close (start :: soFar) := by
      obtain ⟨later, rfl⟩ := hprefix
      rw [← List.cons_append] at hclose
      exact (List.isChain_append.1 hclose).1
    have hpending := (reset_pending d start level).feed rfl hinterval hsoFar
    have hintervals : ((d.reset start.level (stamp start.time)).feed soFar).intervalFor = d.intervalFor :=
      feed_intervals rfl soFar
    have hchronological := hsoFar.chronological
    rw [List.singleton_append, hsplit] at hpending
    rw [hsplit] at hchronological
    exact hpending.settles hchronological hlevel hlast (by rw [hintervals]; exact htime)
  · rintro before first press release later rfl hup - - hshort
    refine short_press d start ?_ hup hshort
    have hall : start :: (before ++ first :: (press ++ release :: later)) =
        start :: (before ++ first :: (press ++ [release])) ++ later := by simp
    have hchronological := hclose.chronological
    rw [hall] at hchronological
    exact (List.pairwise_append.1 hchronological).1

/-- A press of 10 ms with intervals of 5 ms and 3 ms, behind a bounce. -/
theorem debounces_press :
    (reset ⟨5, 3, false, false, false, 0⟩ false (stamp 0)).reported
      [⟨1, true⟩, ⟨2, false⟩, ⟨10, true⟩, ⟨20, true⟩, ⟨21, false⟩] = [true] ∧
    ((reset ⟨5, 3, false, false, false, 0⟩ false (stamp 0)).feed
      [⟨1, true⟩, ⟨2, false⟩, ⟨10, true⟩, ⟨20, true⟩]).stableState = true := by
  have hclose : Close [⟨0, false⟩, ⟨1, true⟩, ⟨2, false⟩, ⟨10, true⟩, ⟨20, true⟩, ⟨21, false⟩] := by
    simp [Close]
  obtain ⟨-, -, hsettles, -⟩ := debounces ⟨5, 3, false, false, false, 0⟩ ⟨0, false⟩ _ hclose
  exact ⟨by decide, hsettles _ ⟨[⟨21, false⟩], rfl⟩ true [⟨0, false⟩, ⟨1, true⟩, ⟨2, false⟩] ⟨10, true⟩
    [⟨20, true⟩] ⟨20, true⟩
    rfl rfl (by decide) (by decide) (by decide)⟩

/-- What every sample of a span has shown is the state at its end, of the debouncers and levels that meet a
    condition. -/
def Settles (cond : DebouncedInput → Bool → Prop) : Prop :=
  ∀ d start samples, Close (start :: samples) → ∀ level pre first block last, cond d level →
    start :: samples = pre ++ first :: block → (first :: block).getLast? = some last →
    (∀ sample ∈ first :: block, sample.level = level) → first.time + (d.intervalFor level).toNat ≤ last.time →
    ((d.reset start.level (stamp start.time)).feed samples).stableState = level

/-- It is not after the first sample, with an interval of 0, and not where the elapsed time wraps around at 2^32
    before it is looked at, with an interval over 2^31 + 1. -/
theorem debounces_late : ¬ Settles (fun _ _ => True) ∧ ¬ Settles (fun d level => 0 < d.intervalFor level) := by
  constructor
  · intro hsettles
    have hstate := hsettles ⟨0, 0, false, false, false, 0⟩ ⟨0, false⟩ [⟨1, true⟩] (by simp [Close]) true [⟨0, false⟩]
      ⟨1, true⟩ [] ⟨1, true⟩ trivial rfl rfl (by decide) (by decide)
    exact absurd hstate (by decide)
  · intro hsettles
    have hstate := hsettles ⟨2147483650, 3, false, false, false, 0⟩ ⟨0, false⟩
      [⟨0, true⟩, ⟨2147483647, true⟩, ⟨2147483649, true⟩, ⟨4294967296, true⟩] (by simp [Close])
      true [⟨0, false⟩] ⟨0, true⟩
      [⟨2147483647, true⟩, ⟨2147483649, true⟩, ⟨4294967296, true⟩] ⟨4294967296, true⟩ (by decide) rfl rfl (by decide)
      (by decide)
    exact absurd hstate (by decide)

end CodexKeyboard.Keyboard.DebouncedInput
