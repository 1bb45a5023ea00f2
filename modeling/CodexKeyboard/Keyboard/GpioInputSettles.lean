import CodexKeyboard.Keyboard.GpioInputRuns

/-! Levels that stay become the states of the debouncers, where no two polls are so far apart that their stamps
    wrap around. -/

namespace CodexKeyboard.Keyboard.GpioInputScanner

open DebouncedInput

variable {s t : GpioInputScanner} {label : Step} {frontier now : Nat} {levels : Mask}

/-- The time a poll was called with. -/
def Phase.calledAt : Phase → Option Nat
  | .idle => none
  | .draining now | .sampling now | .processing now _ _ _ => some now

/-- Candidates wait no longer than their interval, and the next samples come in time. -/
structure Prompt (s : GpioInputScanner) : Prop where
  waits : ∀ key, Waits (s.debouncers key) (s.samples key)
  polled : ∀ key, ∀ last ∈ (s.samples key).getLast?, s.polledAt ≤ last.time
  called : ∀ now ∈ Phase.calledAt s.phase, now + 5 ≤ s.polledAt + 2 ^ 32
  settled : ∀ now snapshot keys, s.phase = .processing now snapshot keys true → ∀ key ∉ keys,
    ∀ last ∈ (s.samples key).getLast?, now ≤ last.time

theorem boot_prompt (now : Nat) (levels : Mask) : Prompt (boot now levels) where
  waits key := by
    obtain ⟨before, first, block, hsplit, htracks⟩ := (boot_watched now levels).follows key
    exact ⟨before, first, block, ⟨now, levels key⟩, hsplit, rfl, htracks, fun hpending => absurd rfl hpending⟩
  polled key last hlast := by
    cases hlast
    exact le_rfl
  called now hnow := nomatch hnow
  settled now snapshot keys hphase := nomatch hphase

theorem bounded (h : Watched levels s) (key : Key) : Bounded (s.debouncers key) 5 := by
  rintro state
  rw [h.intervals key state]
  cases state with
  | false => decide
  | true => decide

/-- A sample comes in time behind the last one of its key. -/
theorem Prompt.near (h : Prompt s) (hordered : Ordered s frontier) {snapshot : InputEdgeSnapshot} {keys : List Key}
    {settle : Bool} (hphase : s.phase = .processing now snapshot keys settle) (key : Key) :
    (∀ other ∈ s.samples key, other.time ≤ snapshot.time) ∧
      ∀ last ∈ (s.samples key).getLast?, snapshot.time + 5 ≤ last.time + 2 ^ 32 := by
  have horder := hordered.phase
  rw [hphase] at horder
  obtain ⟨htime, hnow, -, -⟩ := horder
  refine ⟨fun other hother => (hordered.samples key other hother).trans htime.ge, fun last hlast => ?_⟩
  have hcalled := h.called now (by rw [hphase]; rfl)
  have hpolled := h.polled key last hlast
  omega

theorem samples_updateKey (s : GpioInputScanner) (snapshot : InputEdgeSnapshot) (key other : Key) :
    (s.updateKey snapshot key).samples other =
      if other = key then s.samples key ++ [⟨snapshot.time, snapshot.activeMask key⟩] else s.samples other :=
  Function.update_apply _ _ _ _

theorem debouncers_updateKey (s : GpioInputScanner) (snapshot : InputEdgeSnapshot) (key other : Key) :
    (s.updateKey snapshot key).debouncers other =
      if other = key then ((s.debouncers key).update (snapshot.activeMask key) (stamp snapshot.time)).2
      else s.debouncers other :=
  Function.update_apply _ _ _ _

theorem Prompt.step (h : Prompt s) (hwatched : Watched levels s) (hordered : Ordered s frontier)
    (hmoves : Moves s label t) (hinTime : InTime s label) : Prompt t := by
  cases hmoves with
  | poll phase =>
    refine ⟨h.waits, h.polled, fun now hnow => ?_, fun now snapshot keys hphase => nomatch hphase⟩
    cases hnow
    exact hinTime
  | empty phase queue =>
    refine ⟨h.waits, h.polled, fun now hnow => h.called now ?_, fun now snapshot keys hphase => nomatch hphase⟩
    rw [phase]
    exact hnow
  | take phase queue =>
    refine ⟨h.waits, h.polled, fun now hnow => h.called now ?_, fun now snapshot keys hphase => ?_⟩
    · rw [phase]
      exact hnow
    · cases hphase
  | readMask phase =>
    refine ⟨h.waits, h.polled, fun now hnow => h.called now ?_, fun now snapshot keys hphase key hkey => ?_⟩
    · rw [phase]
      exact hnow
    · cases hphase
      exact absurd (List.mem_finRange key) hkey
  | @update now snapshot key keys settle phase =>
    have horder := hordered.phase
    rw [phase] at horder
    obtain ⟨hpast, hnear⟩ := h.near hordered phase key
    have hpolled : s.polledAt ≤ snapshot.time := by
      obtain ⟨-, -, -, last, -, hlast, -, -⟩ := h.waits key
      exact (h.polled key last hlast).trans (hpast last (List.mem_of_getLast? hlast))
    refine ⟨fun other => ?_, fun other => ?_, fun now' hnow => h.called now' ?_,
      fun now' snapshot' keys' hphase other hother => ?_⟩
    · show Waits ((s.updateKey snapshot key).debouncers other) ((s.updateKey snapshot key).samples other)
      rw [debouncers_updateKey, samples_updateKey]
      split
      · exact @Waits.update _ _ ⟨snapshot.time, snapshot.activeMask key⟩ _ (h.waits key)
          (bounded hwatched key) hpast hnear
      · exact h.waits other
    · show ∀ last ∈ ((s.updateKey snapshot key).samples other).getLast?, s.polledAt ≤ last.time
      rw [samples_updateKey]
      split
      · rintro last hlast
        rw [List.getLast?_concat] at hlast
        cases hlast
        exact hpolled
      · exact h.polled other
    · rw [phase]
      exact hnow
    · cases hphase
      show ∀ last ∈ ((s.updateKey snapshot key).samples other).getLast?, now ≤ last.time
      rw [samples_updateKey]
      split
      · rintro last hlast
        rw [List.getLast?_concat] at hlast
        cases hlast
        have hsettle := horder.2.2.2 rfl
        exact (hsettle.symm.trans horder.1.symm).le
      next hne =>
        refine h.settled now snapshot _ phase other ?_
        rintro hmem
        rcases List.mem_cons.1 hmem with heq | hrest
        · exact hne heq
        · exact hother hrest
  | @finish now snapshot settle phase =>
    cases settle with
    | true =>
      exact ⟨h.waits, fun key => h.settled now snapshot [] phase key List.not_mem_nil, fun now' hnow => (nomatch hnow),
        fun now' snapshot' keys hphase => nomatch hphase⟩
    | false =>
      refine ⟨h.waits, h.polled, fun now' hnow => h.called now' ?_, fun now' snapshot' keys hphase => nomatch hphase⟩
      rw [phase]
      exact hnow
  | _ => exact ⟨h.waits, h.polled, h.called, h.settled⟩

/-! ### Quiet runs -/

/-- From a sample not later than a time on, the samples of a key show a level. -/
def Shows (s : GpioInputScanner) (now : Nat) (key : Key) (level : Bool) : Prop :=
  ∃ pre p later, s.samples key = pre ++ p :: later ∧ p.time ≤ now ∧ ∀ sample ∈ p :: later, sample.level = level

/-- The snapshots in the queue have the levels. -/
def QueueShows (s : GpioInputScanner) (levels : Mask) : Prop := ∀ snapshot ∈ s.queue, snapshot.activeMask = levels

/-- The key is settled for a poll at a time. -/
def SettledAt (s : GpioInputScanner) (levels : Mask) (first at_ : Nat) (key : Key) : Prop :=
  first + 5 ≤ at_ → (s.debouncers key).stableState = levels key

/-- Where the later polls are. -/
def PhaseSettles (s : GpioInputScanner) (levels : Mask) (first : Nat) : Phase → Prop
  | .idle => ∀ key, SettledAt s levels first s.polledAt key
  | .draining _ | .sampling _ => True
  | .processing now snapshot keys settle =>
    snapshot.activeMask = levels ∧ (settle = true → ∀ key ∉ keys, SettledAt s levels first now key)

/-- A run behind the call of the first poll at levels that do not change any more. -/
inductive Settles (levels : Mask) (first : Nat) (s : GpioInputScanner) : Prop
  | draining (phase : s.phase = .draining first ∨ ∃ snapshot keys, s.phase = .processing first snapshot keys false)
  | sampling (phase : s.phase = .sampling first) (queue : QueueShows s levels)
  | settling {keys : List Key} (phase : s.phase = .processing first ⟨first, levels⟩ keys true)
      (queue : QueueShows s levels)
    (shows : ∀ key ∉ keys, Shows s first key (levels key))
  | after (queue : QueueShows s levels) (shows : ∀ key, Shows s first key (levels key))
    (phase : PhaseSettles s levels first s.phase)

variable {first : Nat}

theorem QueueShows.edge (h : QueueShows s levels) (hlevels : s.levels = levels) :
    QueueShows s.handleInputEdgeFromIsr levels := by
  rintro snapshot hsnapshot
  rcases mem_edge hsnapshot with hold | rfl
  · exact h snapshot hold
  · exact hlevels

/-- A sample of the level goes on showing it. -/
theorem Shows.updateKey {key other : Key} {snapshot : InputEdgeSnapshot} (hmask : snapshot.activeMask = levels)
    (h : Shows s first other (levels other)) : Shows (s.updateKey snapshot key) first other (levels other) := by
  obtain ⟨pre, p, later, hsplit, htime, hlevel⟩ := h
  rw [Shows, samples_updateKey]
  split
  next heq =>
    subst heq
    refine ⟨pre, p, later ++ [⟨snapshot.time, snapshot.activeMask other⟩], by rw [hsplit]; simp, htime, ?_⟩
    rintro sample hsample
    rw [← List.cons_append, List.mem_append, List.mem_singleton] at hsample
    rcases hsample with hold | rfl
    · exact hlevel sample hold
    · exact congrFun hmask other
  next => exact ⟨pre, p, later, hsplit, htime, hlevel⟩

/-- The settle sample of the first poll begins to show the levels. -/
theorem shows_first (s : GpioInputScanner) (first : Nat) (levels : Mask) (key : Key) :
    Shows (s.updateKey ⟨first, levels⟩ key) first key (levels key) := by
  refine ⟨s.samples key, ⟨first, levels key⟩, [], ?_, le_rfl, fun sample hsample => ?_⟩
  · rw [samples_updateKey, if_pos rfl]
  · rw [List.mem_singleton.1 hsample]

/-- A settle sample of a later poll settles its key. -/
theorem settles_updateKey {boot : Mask} (hprompt : Prompt s) (hwatched : Watched boot s) (hordered : Ordered s frontier)
    {snapshot : InputEdgeSnapshot} {key : Key} {keys : List Key}
    (hphase : s.phase = .processing now snapshot (key :: keys) true)
    (hshows : Shows s first key (levels key)) : SettledAt (s.updateKey snapshot key) levels first now key := by
  rintro hlater
  obtain ⟨-, hnear⟩ := hprompt.near hordered hphase key
  have horder := hordered.phase
  rw [hphase] at horder
  have htime : snapshot.time = now := horder.1.trans (horder.2.2.2 rfl)
  obtain ⟨pre, p, later, hsplit, hp, hlevel⟩ := hshows
  have hwaits := hprompt.waits key
  have hchronological := hordered.chronological key
  rw [hsplit] at hwaits hchronological hnear
  rw [debouncers_updateKey, if_pos rfl]
  exact @Waits.settles _ ⟨snapshot.time, snapshot.activeMask key⟩ _ _ _ _ _ hwaits (bounded hwatched key)
    hlevel hchronological
    (by dsimp only; omega) hnear

/-- Behind the first poll the keys stay at the levels, and settle by the settle samples. -/
theorem after_step {boot : Mask} (hqueue : QueueShows s levels) (hshows : ∀ key, Shows s first key (levels key))
    (hphase : PhaseSettles s levels first s.phase) (hlevels : s.levels = levels) (hprompt : Prompt s)
    (hwatched : Watched boot s) (hordered : Ordered s frontier) (hmoves : Moves s label t) (hquiet : Quiet s label) :
    Settles levels first t := by
  cases hmoves with
  | pass ms => exact .after hqueue hshows hphase
  | level key down => exact hquiet.elim
  | edge => exact .after (hqueue.edge hlevels) hshows hphase
  | poll phase => exact .after hqueue hshows trivial
  | empty phase queue => exact .after hqueue hshows trivial
  | @take now snapshot rest phase queue =>
    rw [QueueShows, queue] at hqueue
    exact .after (fun other hother => hqueue other (List.mem_cons_of_mem _ hother)) hshows
      ⟨hqueue snapshot List.mem_cons_self, fun hsettle => nomatch hsettle⟩
  | readMask phase => exact .after hqueue hshows ⟨hlevels, fun _ key hkey => absurd (List.mem_finRange key) hkey⟩
  | @update now snapshot key keys settle phase =>
    rw [phase] at hphase
    obtain ⟨hmask, hsettled⟩ := hphase
    refine .after hqueue (fun other => (hshows other).updateKey hmask) ⟨hmask, ?_⟩
    rintro rfl other hother
    by_cases hkey : other = key
    · subst hkey
      exact settles_updateKey hprompt hwatched hordered phase (hshows other)
    · show first + 5 ≤ now → ((s.updateKey snapshot key).debouncers other).stableState = levels other
      rw [debouncers_updateKey, if_neg hkey]
      refine hsettled rfl other ?_
      rintro hmem
      exact (List.mem_cons.1 hmem).elim hkey hother
  | @finish now snapshot settle phase =>
    rw [phase] at hphase
    cases settle with
    | true => exact .after hqueue hshows fun key => hphase.2 rfl key List.not_mem_nil
    | false => exact .after hqueue hshows trivial

theorem Settles.step {boot : Mask} (h : Settles levels first s) (hlevels : s.levels = levels) (hprompt : Prompt s)
    (hwatched : Watched boot s) (hordered : Ordered s frontier) (hmoves : Moves s label t) (hquiet : Quiet s label) :
    Settles levels first t := by
  cases h with
  | draining hphase =>
    cases hmoves with
    | pass ms => exact .draining hphase
    | level key down => exact hquiet.elim
    | edge => exact .draining hphase
    | poll phase => simp [phase] at hphase
    | @empty now phase queue =>
      obtain rfl : now = first := by simpa [phase] using hphase
      exact .sampling rfl fun snapshot hsnapshot => by simp [queue] at hsnapshot
    | @take now snapshot rest phase queue =>
      obtain rfl : now = first := by simpa [phase] using hphase
      exact .draining (.inr ⟨snapshot, _, rfl⟩)
    | readMask phase => simp [phase] at hphase
    | @update now snapshot key keys settle phase =>
      obtain ⟨rfl, rfl⟩ : now = first ∧ settle = false := by simpa [phase] using hphase
      exact .draining (.inr ⟨snapshot, keys, rfl⟩)
    | @finish now snapshot settle phase =>
      obtain ⟨rfl, rfl⟩ : now = first ∧ settle = false := by simpa [phase] using hphase
      exact .draining (.inl rfl)
  | sampling hphase hqueue =>
    cases hmoves with
    | pass ms => exact .sampling hphase hqueue
    | level key down => exact hquiet.elim
    | edge => exact .sampling hphase (hqueue.edge hlevels)
    | @readMask now phase =>
      obtain rfl : now = first := by simpa [phase] using hphase
      subst hlevels
      exact .settling rfl hqueue fun key hkey => absurd (List.mem_finRange key) hkey
    | poll phase => simp [phase] at hphase
    | empty phase queue => simp [phase] at hphase
    | take phase queue => simp [phase] at hphase
    | update phase => simp [phase] at hphase
    | finish phase => simp [phase] at hphase
  | @settling keys hphase hqueue hshows =>
    cases hmoves with
    | pass ms => exact .settling hphase hqueue hshows
    | level key down => exact hquiet.elim
    | edge => exact .settling hphase (hqueue.edge hlevels) hshows
    | @update now snapshot key keys' settle phase =>
      rw [hphase] at phase
      cases phase
      refine .settling rfl hqueue fun other hother => ?_
      by_cases hkey : other = key
      · subst hkey
        exact shows_first s first levels other
      · refine (hshows other ?_).updateKey rfl
        rintro hmem
        exact (List.mem_cons.1 hmem).elim hkey hother
    | @finish now snapshot settle phase =>
      rw [hphase] at phase
      cases phase
      refine .after hqueue (fun key => hshows key List.not_mem_nil) fun key hlater => ?_
      exact absurd hlater (by show ¬ first + 5 ≤ first; omega)
    | poll phase => simp [phase] at hphase
    | empty phase queue => simp [phase] at hphase
    | take phase queue => simp [phase] at hphase
    | readMask phase => simp [phase] at hphase
  | after hqueue hshows hphase => exact after_step hqueue hshows hphase hlevels hprompt hwatched hordered hmoves hquiet

/-! ### Runs -/

/-- The conditions under which the times stay in order and do not wrap around. -/
def Timely (s : GpioInputScanner) (label : Step) : Prop := InOrder s label ∧ InTime s label

/-- Timely steps at levels that do not change. -/
def TimelyQuiet (s : GpioInputScanner) (label : Step) : Prop := Timely s label ∧ Quiet s label

/-- What holds of the states of a run. -/
structure Kept (boot : Mask) (s : GpioInputScanner) : Prop where
  ordered : ∃ frontier, Ordered s frontier
  watched : Watched boot s
  prompt : Prompt s

theorem Kept.step {boot : Mask} (h : Kept boot s) (hmoves : Moves s label t) (htimely : Timely s label) :
    Kept boot t := by
  obtain ⟨frontier, hordered⟩ := h.ordered
  exact ⟨hordered.step hmoves htimely.1, h.watched.step hmoves, h.prompt.step h.watched hordered hmoves htimely.2⟩

theorem Run.kept {boot : Mask} (h : Run Timely s t) (hkept : Kept boot s) : Kept boot t := by
  induction h with
  | refl => exact hkept
  | step run label meets next ih => exact ih.step (step_moves next) meets

theorem moves_levels (h : Moves s label t) (hquiet : Quiet s label) : t.levels = s.levels := by
  cases h with
  | level key down => exact hquiet.elim
  | finish phase =>
    rw [GpioInputScanner.finish]
    split
    · rfl
    · rfl
  | _ => rfl

/-- Over a quiet run the levels settle. -/
theorem Run.settles {boot : Mask} (h : Run TimelyQuiet s t) (hkept : Kept boot s)
    (hsettles : Settles s.levels first s) :
    Kept boot t ∧ t.levels = s.levels ∧ Settles s.levels first t := by
  induction h with
  | refl => exact ⟨hkept, rfl, hsettles⟩
  | step run label meets next ih =>
    obtain ⟨hkept, hlevels, hsettles⟩ := ih
    obtain ⟨frontier, hordered⟩ := hkept.ordered
    have hmoves := step_moves next
    exact ⟨hkept.step hmoves meets.1, (moves_levels hmoves meets.2).trans hlevels,
      hsettles.step hlevels hkept.prompt hkept.watched hordered hmoves meets.2⟩

/-- The debouncers get their times in order, and an event of a key follows samples that showed its level over
    its interval and is not the event before it. -/
structure Debounced (boot : Mask) (s : GpioInputScanner) : Prop where
  chronological : ∀ key, Chronological (s.samples key)
  held : ∀ label t key down, s.step label = some t → t.emitted = s.emitted ++ [(key, down)] →
    ∃ sample, t.samples key = s.samples key ++ [sample] ∧ Held (s.samples key) down (intervalMs down) sample.time
  alternate : ∀ key, (boot key :: s.eventsOf key).IsChain (· ≠ ·)

/-- A poll behind the longer interval of an earlier one leaves the levels as the states, if they have not changed
    since the call of the earlier one. -/
def Converges (cond quiet : GpioInputScanner → Step → Prop) (now : Nat) (levels : Mask) : Prop :=
  ∀ s first, Run cond (boot now levels) s → s.phase = .draining first → ∀ t, Run quiet s t → t.phase = .idle →
    first + 5 ≤ t.polledAt → ∀ key, (t.debouncers key).stableState = t.levels key

/-- Where no poll takes a snapshot that is later than itself, a bounce is no event; where also no poll comes so
    late that the stamps wrap around, levels that stay become the states. -/
theorem bounce_no_event (now : Nat) (levels : Mask) :
    (∀ s, Run InOrder (boot now levels) s → Debounced levels s) ∧ Converges Timely TimelyQuiet now levels := by
  constructor
  · rintro s hrun
    obtain ⟨frontier, hordered⟩ := hrun.ordered (fun _ _ h => h) ⟨now, boot_ordered now levels⟩
    have hwatched := hrun.watched (boot_watched now levels)
    exact ⟨hordered.chronological, fun label t key down hstep hemits =>
      emits_held hwatched hordered (step_moves hstep) hemits, hwatched.alternate⟩
  · rintro s first hrun hphase t hquiet hidle hlater key
    have hkept := hrun.kept ⟨⟨now, boot_ordered now levels⟩, boot_watched now levels, boot_prompt now levels⟩
    obtain ⟨-, hlevels, hsettles⟩ := hquiet.settles hkept (.draining (.inl hphase))
    rw [hlevels]
    cases hsettles with
    | draining hphase =>
      rcases hphase with hphase | ⟨snapshot, keys, hphase⟩
      · exact nomatch hidle.symm.trans hphase
      · exact nomatch hidle.symm.trans hphase
    | sampling hphase hqueue => exact nomatch hidle.symm.trans hphase
    | settling hphase hqueue hshows => exact nomatch hidle.symm.trans hphase
    | after hqueue hshows hphase =>
      rw [hidle] at hphase
      exact hphase key hlater

namespace ScannerSample

/-- A run of given steps that meet a test. -/
def follow (test : GpioInputScanner → Step → Bool) : GpioInputScanner → List Step → Option GpioInputScanner
  | s, [] => some s
  | s, label :: labels =>
    if test s label then
      match s.step label with
      | some next => follow test next labels
      | none => none
    else none

theorem follow_run {test : GpioInputScanner → Step → Bool} {cond : GpioInputScanner → Step → Prop}
    (htest : ∀ u label, test u label = true → cond u label) {labels : List Step} {start : GpioInputScanner}
    (hrun : Run cond start s) (h : follow test s labels = some t) : Run cond start t := by
  induction labels generalizing s with
  | nil =>
    cases h
    exact hrun
  | cons label labels ih =>
    rw [follow] at h
    split at h
    next hmeets =>
      split at h
      next next hnext => exact ih (.step hrun label (htest _ _ hmeets) hnext) h
      next => cases h
    next => cases h

def timely (s : GpioInputScanner) (label : Step) : Bool :=
  match label with
  | .take =>
    match s.phase, s.queue with
    | .draining now, snapshot :: _ => snapshot.time ≤ now
    | _, _ => true
  | .poll => s.clock + 5 ≤ s.polledAt + 2 ^ 32
  | _ => true

theorem timely_of (u : GpioInputScanner) (label : Step) (h : timely u label = true) : Timely u label := by
  cases label with
  | take =>
    refine ⟨fun now snapshot rest hphase hqueue => ?_, trivial⟩
    rw [timely, hphase, hqueue] at h
    exact of_decide_eq_true h
  | poll =>
    rw [timely, decide_eq_true_iff] at h
    exact ⟨trivial, h⟩
  | _ => exact ⟨trivial, trivial⟩

def isLevel : Step → Bool
  | .level _ _ => true
  | _ => false

def timelyQuiet (s : GpioInputScanner) (label : Step) : Bool := timely s label && !isLevel label

theorem timelyQuiet_of (u : GpioInputScanner) (label : Step) (h : timelyQuiet u label = true) :
    TimelyQuiet u label := by
  rw [timelyQuiet, Bool.and_eq_true] at h
  refine ⟨timely_of u label h.1, ?_⟩
  cases label with
  | level key down => exact absurd h.2 Bool.false_ne_true
  | _ => trivial

def up : Mask := fun _ => false

/-- The first key goes down, and its interrupt comes before the call of a poll. -/
def press : List Step := [.pass 100, .level 0 true, .edge, .poll]

/-- What a poll does that takes some snapshots. -/
def polling (snapshots : Nat) : List Step :=
  (List.replicate snapshots (.take :: List.replicate 10 .update)).flatten ++ [.take, .readMask] ++
    List.replicate 10 .update

def settling : List Step := polling 1 ++ [.pass 5, .poll] ++ polling 0

theorem bounce_no_event_pressed : ∃ s t, Run Timely (boot 0 up) s ∧ Run TimelyQuiet s t ∧ t.emitted = [(0, true)] ∧
    ∀ key, (t.debouncers key).stableState = t.levels key := by
  have hruns : ((follow timely (boot 0 up) press).any fun s => decide (s.phase = .draining 100) &&
      (follow timelyQuiet s settling).any fun t =>
        decide (t.phase = .idle ∧ t.polledAt = 105 ∧ t.emitted = [(0, true)])) = true := by
    decide +kernel
  obtain ⟨hs, hrest⟩ := (Option.any_eq_true_iff_get _ _).1 hruns
  obtain ⟨hphase, hrest⟩ := Bool.and_eq_true_iff.1 hrest
  obtain ⟨ht, hend⟩ := (Option.any_eq_true_iff_get _ _).1 hrest
  obtain ⟨hidle, hpolled, hemitted⟩ := of_decide_eq_true hend
  have hrun := follow_run timely_of .refl (Option.some_get hs).symm
  have hquiet := follow_run timelyQuiet_of .refl (Option.some_get ht).symm
  exact ⟨_, _, hrun, hquiet, hemitted,
    (bounce_no_event 0 up).2 _ 100 hrun (of_decide_eq_true hphase) _ hquiet hidle (by omega)⟩

/-- The interrupt comes between the read of the clock for the poll and its first snapshot. -/
def bounce : List Step :=
  [.pass 100, .poll, .pass 1, .level 0 true, .edge, .take] ++ List.replicate 10 .update ++ [.take, .readMask]

/-- A poll that takes a snapshot later than itself gives its time behind that of the snapshot, and a press is an
    event at once. -/
theorem bounce_event :
    (¬ ∀ now levels s, Run (fun _ _ => True) (boot now levels) s → ∀ key, Chronological (s.samples key)) ∧
    ¬ ∀ now levels s label t key down, Run (fun _ _ => True) (boot now levels) s → s.step label = some t →
      t.emitted = s.emitted ++ [(key, down)] →
      ∃ sample, t.samples key = s.samples key ++ [sample] ∧
        Held (s.samples key) down (intervalMs down) sample.time := by
  have hruns : ((follow (fun _ _ => true) (boot 0 up) bounce).any fun s =>
      decide (s.samples 0 = [⟨0, false⟩, ⟨101, true⟩] ∧ s.emitted = []) && (s.step .update).any fun t =>
        decide (t.samples 0 = [⟨0, false⟩, ⟨101, true⟩, ⟨100, true⟩] ∧ t.emitted = [(0, true)])) = true := by
    decide +kernel
  obtain ⟨hs, hrest⟩ := (Option.any_eq_true_iff_get _ _).1 hruns
  obtain ⟨hbefore, hrest⟩ := Bool.and_eq_true_iff.1 hrest
  obtain ⟨ht, hafter⟩ := (Option.any_eq_true_iff_get _ _).1 hrest
  have hfollow := (Option.some_get hs).symm
  have hstep := (Option.some_get ht).symm
  generalize Option.get _ ht = t at hafter hstep
  generalize Option.get _ hs = s at hbefore hfollow hstep
  obtain ⟨hsamples, hnone⟩ := of_decide_eq_true hbefore
  obtain ⟨htSamples, hone⟩ := of_decide_eq_true hafter
  have hemitted : t.emitted = s.emitted ++ [(0, true)] := by rw [hone, hnone, List.nil_append]
  have hrun : Run (fun _ _ => True) (boot 0 up) s := follow_run (fun _ _ _ => trivial) .refl hfollow
  constructor
  · rintro hall
    have hchronological := hall 0 up t (.step hrun .update trivial hstep) 0
    rw [htSamples] at hchronological
    exact absurd hchronological (by simp [Chronological])
  · rintro hall
    obtain ⟨sample, hsample, before, first, block, hsplit, hlevel, htime⟩ :=
      hall 0 up s .update t 0 true hrun hstep hemitted
    rw [hsamples] at hsample hsplit
    rw [htSamples] at hsample
    obtain rfl : sample = ⟨100, true⟩ := by simpa using hsample.symm
    have hfirst : first ∈ [(⟨0, false⟩ : Sample), ⟨101, true⟩] := by
      rw [hsplit]
      simp
    have hdown := hlevel first List.mem_cons_self
    simp only [List.mem_cons, List.not_mem_nil, or_false] at hfirst
    rcases hfirst with rfl | rfl
    · cases hdown
    · exact absurd htime (by decide)

end ScannerSample

end CodexKeyboard.Keyboard.GpioInputScanner
