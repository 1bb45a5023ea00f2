import CodexKeyboard.Keyboard.ChordRuns

/-! No stuck key and no split chord.

    Between events the latch is let go only at rest, so every offer of a chord goes to one endpoint
    lifetime; and a live endpoint that was last told of a pressed key is the latch's own, with a release
    still pending. -/

namespace CodexKeyboard.Keyboard

variable {h : Hosts} {t : Transport} {e : UInt32} {v : Visit} {app : KeyboardApp} {log : List Entry}
  {d d' : Desk}

/-- The invariant between two events. -/
structure DeskInv (d : Desk) : Prop where
  inv : ChordInv d.app d.hosts d.log
  bound : ∀ p ∈ chordEndpoints d.log, d.app.keyboardTransport.owner ≠ .none

/-! ### One event -/

/-- The held state changes and the delivery is given the new state. -/
theorem chordInv_update (hi : ChordInv app h log)
    (hbound : ∀ p ∈ chordEndpoints log, app.keyboardTransport.owner ≠ .none) {held : HeldKeyboardState}
    (hheld : HeldInv held) :
    ChordInv { app with
      heldKeyboard := held
      keyboardDelivery := app.keyboardDelivery.setDesired held.current } h log := by
  refine ⟨hi.hosts, hheld, by simp, hi.tracks.setDesired, ?_, hi.owned, ?_, ?_, hi.orderly⟩
  · simpa using hi.idle
  · simpa using hi.last
  · intro p hp
    rcases hi.chord p hp with hh | hs | ⟨hn, -⟩
    · exact Or.inl hh
    · exact Or.inr (Or.inl hs)
    · exact absurd hn (hbound p hp)

/-- An update that changes no usage is not delivered. -/
theorem chordInv_held (hi : ChordInv app h log) {held : HeldKeyboardState} (hheld : HeldInv held)
    (hsame : held.current = app.heldKeyboard.current) :
    ChordInv { app with heldKeyboard := held } h log :=
  { hi with held := hheld, desired := hi.desired.trans hsame.symm }

/-- What press and release have in common: refused or unchanged, or a new composed state. -/
structure UpdateSpec (s : HeldKeyboardState) (u : HeldKeyboardUpdate × HeldKeyboardState) : Prop where
  held : HeldInv u.2
  rejected : u.1.accepted = false → u.2 = s
  quiet : (!u.1.stateChanged || !u.1.reportChanged) = true → u.2.current = s.current
  snapshot : u.1.snapshot = u.2.current

theorem updateSpec_unchanged {s : HeldKeyboardState} (hs : HeldInv s)
    (status : HeldKeyboardUpdateStatus) : UpdateSpec s (s.unchanged status, s) :=
  ⟨hs, fun _ => rfl, fun _ => rfl, rfl⟩

theorem updateSpec_press {s : HeldKeyboardState} (hs : HeldInv s) (source : ℕ)
    (report : HidKeyboardReport) : UpdateSpec s (s.press source report) := by
  have hinv := @heldInv_press _ source report hs
  rcases press_cases s source report with ⟨status, h⟩ | ⟨snapshot, -, -, -, -, h⟩
  · rw [h]
    exact updateSpec_unchanged hs status
  · rw [h] at hinv ⊢
    exact ⟨hinv, fun hr => by simp [HeldKeyboardUpdate.accepted] at hr, fun hq => by simpa using hq, rfl⟩

theorem updateSpec_release {s : HeldKeyboardState} (hs : HeldInv s) (source : ℕ) :
    UpdateSpec s (s.release source) := by
  have hinv := @heldInv_release _ source hs
  rcases release_cases hs source with ⟨-, status, h⟩ | ⟨snapshot, -, -, -, h⟩
  · rw [h]
    exact updateSpec_unchanged hs status
  · rw [h] at hinv ⊢
    exact ⟨hinv, fun hr => by simp [HeldKeyboardUpdate.accepted] at hr, fun hq => by simpa using hq, rfl⟩

theorem chordInv_dispatch (hi : ChordInv app h log)
    (hbound : ∀ p ∈ chordEndpoints log, app.keyboardTransport.owner ≠ .none) (hv : v.From h)
    {u : HeldKeyboardUpdate × HeldKeyboardState} (hu : UpdateSpec app.heldKeyboard u) :
    ChordInv (dispatchUpdate v { app with heldKeyboard := u.2 } u.1).1 v.atSend
      ((dispatchUpdate v { app with heldKeyboard := u.2 } u.1).2 ++ log) := by
  have hlater : Evolves h v.atSend :=
    ((((hv.usbEpoch.trans hv.bleEpoch).trans hv.bleConnected).trans hv.identity).trans hv.send)
  unfold dispatchUpdate
  by_cases hacc : u.1.accepted = true
  swap
  · have hsame := hu.rejected (by simpa using hacc)
    simp only [hacc, Bool.not_false, if_true]
    exact (chordInv_held hi hu.held (by rw [hsame])).evolve hlater
  by_cases hquiet : (!u.1.stateChanged || !u.1.reportChanged) = true
  · simp only [hacc, Bool.not_true, Bool.false_eq_true, if_false, hquiet, if_true]
    exact (chordInv_held hi hu.held (hu.quiet hquiet)).evolve hlater
  · simp only [hacc, Bool.not_true, Bool.false_eq_true, if_false, hquiet, hu.snapshot]
    exact chordInv_flush (chordInv_update hi hbound hu.held) hv

/-- Clearing leaves the state that holds nothing, or finds it so. -/
theorem clear_current {s : HeldKeyboardState} (hs : HeldInv s) : s.clear.2.current = {} := by
  unfold HeldKeyboardState.clear
  split_ifs with hzero
  · have hnil : heldReports s.sources.toList = [] := by
      rw [← List.length_eq_zero_iff, ← hs.counted, hzero]
    exact eq_default_of_empty ((current_empty_iff hs).2 hnil)
  · rfl

theorem chordInv_event (hi : DeskInv d) (hv : v.From d.hosts) (e : KeyboardEvent) :
    ChordInv (e.apply v d.app).1 v.atSend ((e.apply v d.app).2 ++ d.log) := by
  cases e with
  | press source report =>
    exact chordInv_dispatch hi.inv hi.bound hv (updateSpec_press hi.inv.held source report)
  | release source =>
    exact chordInv_dispatch hi.inv hi.bound hv (updateSpec_release hi.inv.held source)
  | flush => exact chordInv_flush hi.inv hv
  | clear =>
    have hclear := chordInv_update hi.inv hi.bound (heldInv_clear hi.inv.held)
    rw [clear_current hi.inv.held] at hclear
    exact chordInv_flush hclear hv
  | reconcile => exact (chordInv_reconcile hi.inv hv).evolve (hv.identity.trans hv.send)

/-- At rest with nothing pending the chord is over, and only there the latch is let go. -/
theorem deskInv_rest (hi : ChordInv app h log) : DeskInv ⟨app, h, app.rest :: log⟩ := by
  have hsub : ∀ p ∈ chordEndpoints (app.rest :: log), p ∈ chordEndpoints log ∧ ¬ app.Idle := by
    intro p hp
    unfold KeyboardApp.rest at hp
    cases hc : app.heldKeyboard.current.empty <;> cases hpend : app.keyboardDelivery.pending <;>
      simp only [hc, hpend, chordEndpoints] at hp
    · exact ⟨hp, fun hidle => by rw [KeyboardApp.Idle, hi.desired, hc] at hidle; simp at hidle⟩
    · exact ⟨hp, fun hidle => by rw [KeyboardApp.Idle, hi.desired, hc] at hidle; simp at hidle⟩
    · simp at hp
    · exact ⟨hp, fun hidle => by simp [KeyboardSnapshotDelivery.pending, hidle.2] at hpend⟩
  refine ⟨{ hi with last := hi.last, chord := fun p hp => hi.chord p (hsub p hp).1, orderly := hi.orderly },
    fun p hp hn => ?_⟩
  obtain ⟨hp', hbusy⟩ := hsub p hp
  rcases hi.chord p hp' with hh | hs | ⟨-, hidle⟩
  · exact owner_ne_none p.1 (hh.1.symm.trans hn)
  · have hn' : app.keyboardTransport.owner = .none := hn
    rw [hs] at hn'
    cases hn'
  · exact hbusy hidle

theorem deskInv_init : DeskInv .init := by
  refine ⟨⟨⟨by simp [Desk.init, Hosts.init], fun t ht => absurd rfl ht⟩, heldInv_init, rfl, ?_,
    fun _ => rfl, fun t ht => absurd ht.symm (owner_ne_none t), fun t e hne => absurd rfl hne,
    by simp [Desk.init, chordEndpoints], trivial⟩, by simp [Desk.init, chordEndpoints]⟩
  exact ⟨fun hne => absurd rfl hne, fun hne => absurd rfl hne⟩

theorem deskInv_step (hi : DeskInv d) (hs : DeskStep d d') : DeskInv d' := by
  cases hs with
  | hosts hc => exact ⟨hi.inv.evolve hc, hi.bound⟩
  | event v e hv => exact deskInv_rest (chordInv_event hi hv e)

theorem deskInv (hd : DeskReachable d) : DeskInv d := by
  induction hd with
  | init => exact deskInv_init
  | step _ hs ih => exact deskInv_step ih hs

/-! ### The chord in the log -/

theorem orderly_append {l₁ l₂ : List Entry} (h : Orderly (l₁ ++ l₂)) : Orderly l₂ := by
  induction l₁ with
  | nil => exact h
  | cons a l₁ ih =>
    cases a with
    | sent t e s acc => exact ih h.2
    | rest a p => exact ih h

/-- An offer with no rest since it stands in the current chord. -/
theorem mem_chordEndpoints {l₂ l₃ : List Entry} {s : HidKeyboardSnapshot} {acc : Bool}
    (hrest : .rest true false ∉ l₂) : (t, e) ∈ chordEndpoints (l₂ ++ .sent t e s acc :: l₃) := by
  induction l₂ with
  | nil => simp [chordEndpoints]
  | cons a l₂ ih =>
    simp only [List.mem_cons, not_or] at hrest
    have hin := ih hrest.2
    cases a with
    | sent t' e' s' acc' => exact List.mem_cons_of_mem _ hin
    | rest a p => cases a <;> cases p <;> first | exact hin | exact absurd rfl hrest.1

/-- Two offers with no rest between them go to one endpoint lifetime. -/
theorem same_lifetime {l₁ l₂ l₃ : List Entry} {t' : Transport} {e' : UInt32}
    {s s' : HidKeyboardSnapshot} {acc acc' : Bool}
    (h : Orderly (l₁ ++ .sent t e s acc :: (l₂ ++ .sent t' e' s' acc' :: l₃)))
    (hrest : .rest true false ∉ l₂) : t = t' ∧ e = e' := by
  have hhead := (orderly_append h).1 (t', e') (mem_chordEndpoints hrest)
  obtain ⟨ht, he⟩ := Prod.mk.inj hhead
  exact ⟨ht.symm, he.symm⟩

/-! ### The claim -/

/-- What holds of the keyboard path at every moment between events. -/
structure Unstuck (d : Desk) : Prop where
  united : Unites (heldReports d.app.heldKeyboard.sources.toList) d.app.heldKeyboard.current
  rejected : ∀ v source report, (d.app.heldKeyboard.press source report).1.accepted = false →
    (KeyboardEvent.press source report).apply v d.app = (d.app, [])
  released : ∀ source, d.app.heldKeyboard.active source = true →
    (d.app.heldKeyboard.release source).1.status = .applied
  desired : d.app.keyboardDelivery.desired = d.app.heldKeyboard.current
  /-- Non-empty snapshots accepted with no all-released state between them. -/
  oneEndpoint : ∀ l₁ l₂ l₃ t t' e e' s s',
    d.log = l₁ ++ .sent t e s true :: (l₂ ++ .sent t' e' s' true :: l₃) →
      s.empty = false → s'.empty = false → (∀ p, .rest true p ∉ l₂) → t = t' ∧ e = e'
  /-- All offers of a chord, up to its delivered release. -/
  oneLifetime : ∀ l₁ l₂ l₃ t t' e e' s s' acc acc',
    d.log = l₁ ++ .sent t e s acc :: (l₂ ++ .sent t' e' s' acc' :: l₃) →
      .rest true false ∉ l₂ → t = t' ∧ e = e'
  notStuck : heldReports d.app.heldKeyboard.sources.toList = [] →
    d.app.keyboardDelivery.pending = false → ∀ t, d.hosts.epoch t ≠ 0 →
      lastAccepted t (d.hosts.epoch t) d.log = {}

/-- For every sequence of events, answers and endpoint changes. -/
theorem no_stuck_key (d : Desk) (hd : DeskReachable d) : Unstuck d := by
  have hi := deskInv hd
  refine ⟨hi.inv.held.unites, ?_, ?_, hi.inv.desired, ?_, ?_, ?_⟩
  · intro v source report hrej
    have hsame := (updateSpec_press hi.inv.held source report).rejected hrej
    simp only [KeyboardEvent.apply, dispatchUpdate, hrej, Bool.not_false, if_true, hsame]
  · intro source hactive
    rcases release_cases hi.inv.held source with ⟨hn, -⟩ | ⟨snapshot, -, -, -, h⟩
    · rcases hn with hn | hn
      · have hnone : d.app.heldKeyboard.sources[source]? = none := by
          rw [Vector.getElem?_eq_none_iff]
          exact not_lt.1 hn
        simp [HeldKeyboardState.active, hnone] at hactive
      · rw [hactive] at hn
        cases hn
    · rw [h]
  · intro l₁ l₂ l₃ t t' e e' s s' hlog _ _ hrest
    exact same_lifetime (hlog ▸ hi.inv.orderly) (hrest false)
  · intro l₁ l₂ l₃ t t' e e' s s' acc acc' hlog hrest
    exact same_lifetime (hlog ▸ hi.inv.orderly) hrest
  · intro hnone hpending t _
    by_contra hne
    -- the delivery tracks what the latch's endpoint was told, and that is the empty desired state
    have hzero : d.app.keyboardDelivery.pendingGeneration = 0 := by
      simpa [KeyboardSnapshotDelivery.pending] using hpending
    have hsame : d.app.keyboardDelivery.desired = d.app.keyboardDelivery.accepted := by
      by_contra hdiff
      exact hi.inv.tracks.2 hdiff hzero
    have hempty := eq_default_of_empty ((current_empty_iff hi.inv.held).2 hnone)
    rcases hi.inv.last t _ hne with hgone | ⟨-, heq⟩
    · exact hgone.2 rfl
    · exact hne (by rw [← heq, ← hsame, hi.inv.desired, hempty])

/-- One USB endpoint, and an event that meets nothing else. -/
def oneHost : Hosts :=
  ⟨Function.update (fun _ => 0) .usb 7, Function.update (fun _ => []) .usb [7]⟩

def quietVisit : Visit := ⟨oneHost, oneHost, oneHost, oneHost, oneHost, true⟩

/-- A key pressed on the one endpoint. -/
def pressed : KeyboardApp × List Entry :=
  (KeyboardEvent.press 0 ⟨true, false, 0, 4, Vector.replicate 6 0⟩).apply quietVisit {}

theorem pressed_unstuck : Unstuck ⟨pressed.1, oneHost, pressed.1.rest :: (pressed.2 ++ [])⟩ := by
  refine no_stuck_key _ ((DeskReachable.init.step (.hosts (h := oneHost) ?_)).step
    (.event quietVisit (.press 0 ⟨true, false, 0, 4, Vector.replicate 6 0⟩) ?_))
  · exact Relation.ReflTransGen.single (.appears .usb 7 (by decide) (by decide))
  · exact ⟨.refl, .refl, .refl, .refl, .refl⟩

end CodexKeyboard.Keyboard
