import CodexKeyboard.Keyboard.GpioInputScanner

/-! What holds over the runs of the scanner in which no poll takes a snapshot that is later than itself. -/

namespace CodexKeyboard.Keyboard.GpioInputScanner

open DebouncedInput

variable {s t : GpioInputScanner} {label : Step} {frontier : Nat}

/-- Where the poll is with respect to the last time that was given to a debouncer. -/
def PhaseInOrder (s : GpioInputScanner) (frontier : Nat) : Phase → Prop
  | .idle => True
  | .draining now => frontier ≤ now ∧ now ≤ s.clock
  | .sampling now => frontier ≤ now ∧ now ≤ s.clock ∧ ∀ snapshot ∈ s.queue, now ≤ snapshot.time
  | .processing now snapshot _ settle =>
    snapshot.time = frontier ∧ frontier ≤ now ∧ now ≤ s.clock ∧ (settle = true → frontier = now)

/-- The times in the order of the clock: what was given to the debouncers, what is queued, and now. -/
structure Ordered (s : GpioInputScanner) (frontier : Nat) : Prop where
  past : frontier ≤ s.clock
  chronological : ∀ key, Chronological (s.samples key)
  samples : ∀ key, ∀ sample ∈ s.samples key, sample.time ≤ frontier
  queue : s.queue.Pairwise fun a b => a.time ≤ b.time
  queued : ∀ snapshot ∈ s.queue, frontier ≤ snapshot.time ∧ snapshot.time ≤ s.clock
  phase : PhaseInOrder s frontier s.phase

theorem boot_ordered (now : Nat) (levels : Mask) : Ordered (boot now levels) now where
  past := le_rfl
  chronological _ := List.pairwise_singleton _ _
  samples key sample hsample := by
    rw [List.mem_singleton.1 hsample]
  queue := .nil
  queued snapshot hsnapshot := nomatch hsnapshot
  phase := trivial

/-- Time and levels change nothing of the order. -/
theorem Ordered.later (h : Ordered s frontier) {clock : Nat} (hclock : s.clock ≤ clock) (levels : Mask) :
    Ordered { s with clock, levels } frontier where
  past := h.past.trans hclock
  chronological := h.chronological
  samples := h.samples
  queue := h.queue
  queued snapshot hsnapshot := ⟨(h.queued snapshot hsnapshot).1, (h.queued snapshot hsnapshot).2.trans hclock⟩
  phase := by
    have hphase := h.phase
    revert hphase
    cases s.phase with
    | idle => exact fun _ => trivial
    | draining now => exact fun ⟨hnow, hpast⟩ => ⟨hnow, hpast.trans hclock⟩
    | sampling now => exact fun ⟨hnow, hpast, hqueue⟩ => ⟨hnow, hpast.trans hclock, hqueue⟩
    | processing now snapshot keys settle =>
      exact fun ⟨htime, hnow, hpast, hsettle⟩ => ⟨htime, hnow, hpast.trans hclock, hsettle⟩

theorem mem_edge {snapshot : InputEdgeSnapshot} (h : snapshot ∈ s.handleInputEdgeFromIsr.queue) :
    snapshot ∈ s.queue ∨ snapshot = ⟨s.clock, s.levels⟩ := by
  rw [handleInputEdgeFromIsr] at h
  rcases List.mem_append.1 h with hold | hnew
  · refine .inl ?_
    split at hold
    · exact List.mem_of_mem_tail hold
    · exact hold
  · exact .inr (List.mem_singleton.1 hnew)

theorem Ordered.edge (h : Ordered s frontier) : Ordered s.handleInputEdgeFromIsr frontier where
  past := h.past
  chronological := h.chronological
  samples := h.samples
  queue := by
    have hkept : (if s.queue.length = kInputEdgeQueueCapacity then s.queue.tail else s.queue).Sublist s.queue := by
      split
      · exact List.tail_sublist _
      · exact .refl _
    refine List.pairwise_append.2 ⟨h.queue.sublist hkept, List.pairwise_singleton _ _, ?_⟩
    rintro snapshot hsnapshot other hother
    rw [List.mem_singleton.1 hother]
    exact (h.queued snapshot (hkept.subset hsnapshot)).2
  queued snapshot hsnapshot := by
    rcases mem_edge hsnapshot with hold | rfl
    · exact h.queued snapshot hold
    · exact ⟨h.past, le_rfl⟩
  phase := by
    have hphase := h.phase
    show PhaseInOrder s.handleInputEdgeFromIsr frontier s.phase
    revert hphase
    cases s.phase with
    | idle => exact fun _ => trivial
    | draining now => exact fun hphase => hphase
    | sampling now =>
      rintro ⟨hnow, hpast, hqueue⟩
      refine ⟨hnow, hpast, fun snapshot hsnapshot => ?_⟩
      rcases mem_edge hsnapshot with hold | rfl
      · exact hqueue snapshot hold
      · exact hpast
    | processing now snapshot keys settle => exact fun hphase => hphase

/-- A sample at the frontier keeps the samples of all keys in order. -/
theorem Ordered.given (h : Ordered s frontier) {snapshot : InputEdgeSnapshot} (htime : snapshot.time = frontier)
    (key other : Key) : Chronological ((s.updateKey snapshot key).samples other) ∧
      ∀ sample ∈ (s.updateKey snapshot key).samples other, sample.time ≤ frontier := by
  rw [updateKey]
  dsimp only
  rw [Function.update_apply]
  split
  next heq =>
    subst heq
    constructor
    · refine List.pairwise_append.2 ⟨h.chronological other, List.pairwise_singleton _ _, ?_⟩
      rintro sample hsample last hlast
      rw [List.mem_singleton.1 hlast]
      exact (h.samples other sample hsample).trans htime.ge
    · rintro sample hsample
      rcases List.mem_append.1 hsample with hold | hnew
      · exact h.samples other sample hold
      · rw [List.mem_singleton.1 hnew]
        exact htime.le
  next => exact ⟨h.chronological other, h.samples other⟩

theorem Ordered.step (h : Ordered s frontier) (hmoves : Moves s label t) (hinOrder : InOrder s label) :
    ∃ frontier', Ordered t frontier' := by
  cases hmoves with
  | pass ms => exact ⟨frontier, h.later (Nat.le_add_right _ _) s.levels⟩
  | level key down => exact ⟨frontier, h.later le_rfl _⟩
  | edge => exact ⟨frontier, h.edge⟩
  | poll phase => exact ⟨frontier, h.past, h.chronological, h.samples, h.queue, h.queued, h.past, le_rfl⟩
  | @empty now phase queue =>
    have hphase := h.phase
    rw [phase] at hphase
    refine ⟨frontier, h.past, h.chronological, h.samples, h.queue, h.queued, hphase.1, hphase.2, ?_⟩
    rintro snapshot hsnapshot
    rw [queue] at hsnapshot
    cases hsnapshot
  | @take now snapshot rest phase queue =>
    have hphase := h.phase
    rw [phase] at hphase
    have hnow := hinOrder now snapshot rest phase queue
    have hqueue := h.queue
    rw [queue, List.pairwise_cons] at hqueue
    obtain ⟨hlate, hpast⟩ := h.queued snapshot (by rw [queue]; exact List.mem_cons_self)
    refine ⟨snapshot.time, hpast, h.chronological, fun key sample hsample => (h.samples key sample hsample).trans hlate,
      hqueue.2, fun other hother => ⟨hqueue.1 other hother, (h.queued other ?_).2⟩, rfl, hnow, hphase.2,
      fun hsettle => nomatch hsettle⟩
    rw [queue]
    exact List.mem_cons_of_mem _ hother
  | @readMask now phase =>
    have hphase := h.phase
    rw [phase] at hphase
    obtain ⟨hnow, hpast, hqueue⟩ := hphase
    exact ⟨now, hpast, h.chronological, fun key sample hsample => (h.samples key sample hsample).trans hnow, h.queue,
      fun other hother => ⟨hqueue other hother, (h.queued other hother).2⟩, rfl, le_rfl, hpast, fun _ => rfl⟩
  | @update now snapshot key keys settle phase =>
    have hphase := h.phase
    rw [phase] at hphase
    have hgiven := h.given hphase.1 key
    exact ⟨frontier, h.past, fun other => (hgiven other).1, fun other => (hgiven other).2, h.queue, h.queued, hphase⟩
  | @finish now snapshot settle phase =>
    have hphase := h.phase
    rw [phase] at hphase
    refine ⟨frontier, ?_⟩
    rw [GpioInputScanner.finish]
    split
    · exact ⟨h.past, h.chronological, h.samples, h.queue, h.queued, trivial⟩
    · exact ⟨h.past, h.chronological, h.samples, h.queue, h.queued, hphase.2.1, hphase.2.2.1⟩

theorem Run.ordered {cond : GpioInputScanner → Step → Prop} (h : Run cond s t)
    (hcond : ∀ u label, cond u label → InOrder u label) (hordered : ∃ frontier, Ordered s frontier) :
    ∃ frontier, Ordered t frontier := by
  induction h with
  | refl => exact hordered
  | step run label meets next ih =>
    obtain ⟨frontier, hfrontier⟩ := ih
    exact hfrontier.step (step_moves next) (hcond _ _ meets)

/-! ### Events -/

/-- The longer interval of a debouncer is that of a press. -/
def intervalMs (down : Bool) : Nat := if down then 5 else 3

/-- The debouncers follow their samples, and the events of a key alternate up to its state. -/
structure Watched (levels : Mask) (s : GpioInputScanner) : Prop where
  follows : ∀ key, Follows (s.debouncers key) (s.samples key)
  intervals : ∀ key state, ((s.debouncers key).intervalFor state).toNat = intervalMs state
  alternate : ∀ key, (levels key :: s.eventsOf key).IsChain (· ≠ ·)
  last : ∀ key, (levels key :: s.eventsOf key).getLast? = some (s.debouncers key).stableState

theorem boot_watched (now : Nat) (levels : Mask) : Watched levels (boot now levels) where
  follows key := by
    refine ⟨[], ⟨now, levels key⟩, [], rfl, rfl, rfl, fun sample hsample => ?_, fun sample hsample => nomatch hsample⟩
    rw [List.mem_singleton.1 hsample]
    rfl
  intervals key state := by
    cases state with
    | false => rfl
    | true => rfl
  alternate _ := List.isChain_singleton _
  last _ := rfl

theorem eventsOf_updateKey (s : GpioInputScanner) (snapshot : InputEdgeSnapshot) (key other : Key) :
    (s.updateKey snapshot key).eventsOf other = s.eventsOf other ++
      (if other = key ∧
      ((s.debouncers key).update (snapshot.activeMask key) (stamp snapshot.time)).1.changed = true then
        [((s.debouncers key).update (snapshot.activeMask key) (stamp snapshot.time)).1.state] else []) := by
  rw [eventsOf, eventsOf, updateKey]
  dsimp only
  cases hchanged : ((s.debouncers key).update (snapshot.activeMask key) (stamp snapshot.time)).1.changed with
  | false => simp
  | true =>
    by_cases hkey : key = other
    · simp [hkey]
    · simp [hkey, Ne.symm hkey]

theorem Watched.updateKey {levels : Mask} (h : Watched levels s) (snapshot : InputEdgeSnapshot) (key : Key) :
    Watched levels (s.updateKey snapshot key) := by
  have hinitialized := (h.follows key).initialized
  have hupdate := update_cases hinitialized ⟨snapshot.time, snapshot.activeMask key⟩
  have hstate := changed_state hinitialized ⟨snapshot.time, snapshot.activeMask key⟩
  have hself : ∀ other, (s.updateKey snapshot key).debouncers other = if other = key then
      ((s.debouncers key).update (snapshot.activeMask key) (stamp snapshot.time)).2 else s.debouncers other :=
    fun other => Function.update_apply _ _ _ _
  have hsamples : ∀ other, (s.updateKey snapshot key).samples other = if other = key then
      s.samples key ++ [⟨snapshot.time, snapshot.activeMask key⟩] else s.samples other :=
    fun other => Function.update_apply _ _ _ _
  refine ⟨fun other => ?_, fun other state => ?_, fun other => ?_, fun other => ?_⟩
  · rw [hself, hsamples]
    split
    · exact (h.follows key).update _
    · exact h.follows other
  · rw [hself]
    split
    · rw [hupdate.intervals]
      exact h.intervals key state
    · exact h.intervals other state
  · rw [eventsOf_updateKey]
    split
    next hchanged =>
      obtain ⟨rfl, hchanged⟩ := hchanged
      rw [← List.cons_append]
      refine List.isChain_append.2 ⟨h.alternate other, List.isChain_singleton _, ?_⟩
      rintro before hbefore after hafter
      rw [h.last other] at hbefore
      rw [List.head?_cons, hupdate.state, hstate, if_pos hchanged] at hafter
      cases hbefore
      cases hafter
      exact Bool.self_ne_not _
    next =>
      rw [List.append_nil]
      exact h.alternate other
  · rw [hself, eventsOf_updateKey]
    by_cases hkey : other = key
    · subst hkey
      rw [if_pos rfl]
      cases hchanged : ((s.debouncers other).update (snapshot.activeMask other) (stamp snapshot.time)).1.changed with
      | true =>
        rw [if_pos ⟨rfl, rfl⟩, ← List.cons_append, List.getLast?_concat]
        exact congrArg some hupdate.state
      | false =>
        rw [if_neg (by simp), List.append_nil, h.last other, hstate, hchanged]
        rfl
    · rw [if_neg hkey, if_neg (fun h => hkey h.1), List.append_nil]
      exact h.last other

theorem Watched.step {levels : Mask} (h : Watched levels s) (hmoves : Moves s label t) : Watched levels t := by
  cases hmoves with
  | @update now snapshot key keys settle phase =>
    have hupdated := h.updateKey snapshot key
    exact ⟨hupdated.follows, hupdated.intervals, hupdated.alternate, hupdated.last⟩
  | @finish now snapshot settle phase =>
    rw [GpioInputScanner.finish]
    split
    · exact ⟨h.follows, h.intervals, h.alternate, h.last⟩
    · exact ⟨h.follows, h.intervals, h.alternate, h.last⟩
  | _ => exact ⟨h.follows, h.intervals, h.alternate, h.last⟩

theorem Run.watched {cond : GpioInputScanner → Step → Prop} {levels : Mask} (h : Run cond s t)
    (hwatched : Watched levels s) :
    Watched levels t := by
  induction h with
  | refl => exact hwatched
  | step run label meets next ih => exact ih.step (step_moves next)

/-- An event of a key: its samples showed the level over the interval of the level. -/
theorem emits_held {levels : Mask} {key : Key} {down : Bool} (h : Watched levels s) (hordered : Ordered s frontier)
    (hmoves : Moves s label t) (hemits : t.emitted = s.emitted ++ [(key, down)]) :
    ∃ sample, t.samples key = s.samples key ++ [sample] ∧ Held (s.samples key) down (intervalMs down) sample.time := by
  have hsame : ∀ {other : List (Key × Bool)}, other ≠ other ++ [(key, down)] := by
    rintro other heq
    have hlength := congrArg List.length heq
    rw [List.length_append, List.length_singleton] at hlength
    omega
  cases hmoves with
  | @update now snapshot given keys settle phase =>
    have hphase := hordered.phase
    rw [phase] at hphase
    rw [updateKey] at hemits ⊢
    dsimp only at hemits ⊢
    cases hchanged : ((s.debouncers given).update (snapshot.activeMask given) (stamp snapshot.time)).1.changed with
    | false =>
      rw [hchanged] at hemits
      exact absurd hemits hsame
    | true =>
      rw [hchanged, if_pos rfl] at hemits
      obtain ⟨rfl, rfl⟩ := Prod.mk.inj (List.singleton_inj.1 (List.append_cancel_left hemits))
      have hheld := @Follows.held _ _ ⟨snapshot.time, snapshot.activeMask given⟩ (h.follows given)
        (fun other hother => (hordered.samples given other hother).trans hphase.1.ge) hchanged
      rw [h.intervals given] at hheld
      exact ⟨_, Function.update_self _ _ _, hheld⟩
  | @finish now snapshot settle phase =>
    rw [GpioInputScanner.finish] at hemits
    split at hemits
    · exact absurd hemits hsame
    · exact absurd hemits hsame
  | _ => exact absurd hemits hsame

end CodexKeyboard.Keyboard.GpioInputScanner
