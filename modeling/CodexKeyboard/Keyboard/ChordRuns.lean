import CodexKeyboard.Keyboard.Chord

/-! The invariant of the keyboard path, over every run.

    An endpoint that was last told of a pressed key is either gone for good or the latch still holds it,
    and the delivery then knows exactly what it was told; so nothing can be released, delivered and yet
    pressed. A latch changes its endpoint only through the suppressed chord or after everything was
    released. -/

namespace CodexKeyboard.Keyboard

/-! ### Endpoint lifetimes -/

variable {h h' : Hosts} {t : Transport} {e : UInt32}

structure Hosts.WellFormed (h : Hosts) : Prop where
  nonzero : ∀ t, 0 ∉ h.used t
  current : ∀ t, h.epoch t ≠ 0 → h.epoch t ∈ h.used t

/-- The lifetime is over; its epoch never comes back. -/
def Hosts.Gone (h : Hosts) (t : Transport) (e : UInt32) : Prop := e ∈ h.used t ∧ h.epoch t ≠ e

theorem HostChange.used_mono (hc : HostChange h h') (he : e ∈ h.used t) : e ∈ h'.used t := by
  cases hc with
  | appears t' e' _ _ =>
    by_cases ht : t = t'
    · subst ht
      simp [he]
    · simpa [Function.update_of_ne ht] using he
  | vanishes t' => exact he

theorem HostChange.wellFormed (hc : HostChange h h') (hh : h.WellFormed) : h'.WellFormed := by
  cases hc with
  | appears t' e' hne hnew =>
    refine ⟨fun t => ?_, fun t => ?_⟩
    · by_cases ht : t = t'
      · subst ht
        simpa using ⟨hne.symm, hh.nonzero t⟩
      · simpa [Function.update_of_ne ht] using hh.nonzero t
    · by_cases ht : t = t'
      · subst ht
        simp
      · simpa [Function.update_of_ne ht] using hh.current t
  | vanishes t' =>
    refine ⟨hh.nonzero, fun t => ?_⟩
    by_cases ht : t = t'
    · subst ht
      simp
    · simpa [Function.update_of_ne ht] using hh.current t

/-- A new epoch is none of the old ones, and 0 is none of them either. -/
theorem HostChange.gone (hc : HostChange h h') (hh : h.WellFormed) (hg : h.Gone t e) : h'.Gone t e := by
  refine ⟨hc.used_mono hg.1, ?_⟩
  cases hc with
  | appears t' e' hne hnew =>
    by_cases ht : t = t'
    · subst ht
      simp only [Function.update_self]
      rintro rfl
      exact hnew hg.1
    · simpa [Function.update_of_ne ht] using hg.2
  | vanishes t' =>
    by_cases ht : t = t'
    · subst ht
      simp only [Function.update_self]
      rintro rfl
      exact hh.nonzero t hg.1
    · simpa [Function.update_of_ne ht] using hg.2

theorem Evolves.used_mono (hc : Evolves h h') (he : e ∈ h.used t) : e ∈ h'.used t := by
  induction hc with
  | refl => exact he
  | tail _ hs ih => exact hs.used_mono ih

theorem Evolves.wellFormed (hc : Evolves h h') (hh : h.WellFormed) : h'.WellFormed := by
  induction hc with
  | refl => exact hh
  | tail _ hs ih => exact hs.wellFormed ih

theorem Evolves.gone (hc : Evolves h h') (hh : h.WellFormed) (hg : h.Gone t e) : h'.Gone t e := by
  induction hc with
  | refl => exact hg
  | tail hr hs ih => exact hs.gone (Evolves.wellFormed hr hh) ih

/-! ### The latch -/

variable {l : KeyboardTransportLatch} {s : TransportSample} {v : Visit} {app : KeyboardApp}
  {log : List Entry}

/-- The latch's own lifetime is not the sampled one. -/
def KeyboardTransportLatch.Lost (l : KeyboardTransportLatch) (s : TransportSample) : Prop :=
  (l.owner = .usb ∧ (s.usbAvailable = false ∨ l.ownerEpoch ≠ s.usbEpoch)) ∨
    (l.owner = .ble ∧ (s.bleAvailable = false ∨ l.ownerEpoch ≠ s.bleEpoch))

theorem observe_lost (h : l.Lost s) : l.observeTransportState s = (true, ⟨.suppressed, 0⟩) := by
  rcases h with ⟨ho, hl⟩ | ⟨ho, hl⟩
  all_goals
    simp only [KeyboardTransportLatch.observeTransportState, ho]
    rcases hl with hl | hl <;> simp [hl]

theorem observe_kept (h : ¬ l.Lost s) : l.observeTransportState s = (false, l) := by
  simp only [KeyboardTransportLatch.Lost, not_or, not_and] at h
  rcases l with ⟨owner, epoch⟩
  cases owner <;> simp_all [KeyboardTransportLatch.observeTransportState]

/-- What the latch selects once its lifetime is the sampled one: its own endpoint, or for the first
    snapshot of a chord the endpoint of either transport. -/
inductive Selected (l : KeyboardTransportLatch) (s : TransportSample) (allReleased : Bool) :
    KeyboardTransportOwner → KeyboardTransportLatch → Prop
  | kept (t : Transport) : l.owner = t.owner → Selected l s allReleased t.owner l
  | suppressed : l.owner = .suppressed →
    Selected l s allReleased (if allReleased then .none else .suppressed) l
  | nowhere : l.owner = .none → allReleased = true → Selected l s allReleased .none l
  | usb : l.owner = .none → allReleased = false → s.usbAvailable = true →
    Selected l s allReleased .usb ⟨.usb, s.usbEpoch⟩
  | ble : l.owner = .none → allReleased = false → s.bleAvailable = true →
    Selected l s allReleased .ble ⟨.ble, s.bleEpoch⟩
  | hostless : l.owner = .none → allReleased = false →
    Selected l s allReleased .suppressed ⟨.suppressed, 0⟩

theorem selected (h : ¬ l.Lost s) (allReleased : Bool) :
    Selected l s allReleased (l.selectForSnapshot allReleased s).1 (l.selectForSnapshot allReleased s).2 := by
  have hobs := observe_kept h
  simp only [KeyboardTransportLatch.Lost, not_or, not_and] at h
  simp only [KeyboardTransportLatch.selectForSnapshot, hobs]
  rcases l with ⟨owner, epoch⟩
  cases owner with
  | usb =>
    have hu : s.usbAvailable = true := by simpa using (h.1 rfl).1
    have hk := @Selected.kept ⟨.usb, epoch⟩ s allReleased .usb rfl
    cases allReleased <;> simpa [hu, Transport.owner] using hk
  | ble =>
    have hb : s.bleAvailable = true := by simpa using (h.2 rfl).1
    have hk := @Selected.kept ⟨.ble, epoch⟩ s allReleased .ble rfl
    cases allReleased <;> simpa [hb, Transport.owner] using hk
  | suppressed =>
    have hk := @Selected.suppressed ⟨.suppressed, epoch⟩ s allReleased rfl
    cases allReleased <;> simpa using hk
  | none =>
    cases allReleased with
    | true => simpa using Selected.nowhere (l := ⟨.none, epoch⟩) (s := s) rfl rfl
    | false =>
      by_cases hu : s.usbAvailable = true
      · simpa [hu] using Selected.usb (l := ⟨.none, epoch⟩) (s := s) rfl rfl hu
      · by_cases hb : s.bleAvailable = true
        · simpa [hu, hb] using Selected.ble (l := ⟨.none, epoch⟩) (s := s) rfl rfl hb
        · simpa [hu, hb] using Selected.hostless (l := ⟨.none, epoch⟩) (s := s) rfl rfl

/-! ### The invariant -/

/-- The latch holds this endpoint. -/
def KeyboardTransportLatch.Holds (l : KeyboardTransportLatch) (t : Transport) (e : UInt32) : Prop :=
  l.owner = t.owner ∧ l.ownerEpoch = e

theorem owner_ne_none (t : Transport) : t.owner ≠ .none := by cases t <;> decide

theorem owner_ne_suppressed (t : Transport) : t.owner ≠ .suppressed := by cases t <;> decide

theorem owner_inj {t t' : Transport} (h : t.owner = t'.owner) : t = t' := by
  cases t <;> cases t' <;> first | rfl | exact absurd h (by decide)

/-- Every offer of the log goes to the endpoint of the chord it stands in. -/
def Orderly : List Entry → Prop
  | [] => True
  | .rest _ _ :: log => Orderly log
  | .sent t e _ _ :: log => (∀ p ∈ chordEndpoints log, p = (t, e)) ∧ Orderly log

/-- All is released and delivered: the latch may choose anew. -/
def KeyboardApp.Idle (app : KeyboardApp) : Prop :=
  app.keyboardDelivery.desired.empty = true ∧ app.keyboardDelivery.pendingGeneration = 0

structure ChordInv (app : KeyboardApp) (h : Hosts) (log : List Entry) : Prop where
  hosts : h.WellFormed
  held : HeldInv app.heldKeyboard
  desired : app.keyboardDelivery.desired = app.heldKeyboard.current
  tracks : app.keyboardDelivery.Tracks
  idle : app.keyboardTransport.owner = .none → app.keyboardDelivery.accepted = {}
  owned : ∀ t, app.keyboardTransport.owner = t.owner →
    app.keyboardTransport.ownerEpoch ≠ 0 ∧ app.keyboardTransport.ownerEpoch ∈ h.used t
  last : ∀ t e, lastAccepted t e log ≠ {} → h.Gone t e ∨
    (app.keyboardTransport.Holds t e ∧ app.keyboardDelivery.accepted = lastAccepted t e log)
  chord : ∀ p ∈ chordEndpoints log, app.keyboardTransport.Holds p.1 p.2 ∨
    app.keyboardTransport.owner = .suppressed ∨ (app.keyboardTransport.owner = .none ∧ app.Idle)
  orderly : Orderly log

/-- Time passes for the endpoints alone. -/
theorem ChordInv.evolve (hi : ChordInv app h log) (hc : Evolves h h') : ChordInv app h' log :=
  { hi with
    hosts := hc.wellFormed hi.hosts
    owned := fun t ht => (hi.owned t ht).imp_right hc.used_mono
    last := fun t e hl => (hi.last t e hl).imp_left (hc.gone hi.hosts) }

/-- A latch that lost its lifetime: that lifetime is gone by the end of the reads. -/
theorem lost_gone (hi : ChordInv app h log) (hv : v.From h) (hl : app.keyboardTransport.Lost v.sample)
    (t : Transport) (e : UInt32) (hholds : app.keyboardTransport.Holds t e) :
    v.atBleConnected.Gone t e := by
  have hwf₁ := hv.usbEpoch.wellFormed hi.hosts
  have hwf₂ := hv.bleEpoch.wellFormed hwf₁
  obtain ⟨ho, rfl⟩ := hholds
  obtain ⟨hne, hused⟩ := hi.owned t ho
  have hu₁ := hv.usbEpoch.used_mono hused
  have hu₂ := hv.bleEpoch.used_mono hu₁
  rcases hl with ⟨howner, hlost⟩ | ⟨howner, hlost⟩
  · obtain rfl : t = .usb := owner_inj (ho.symm.trans howner)
    refine hv.bleConnected.gone hwf₂ (hv.bleEpoch.gone hwf₁ ⟨hu₁, fun heq => ?_⟩)
    have hne' : v.atUsbEpoch.epoch .usb ≠ 0 := heq ▸ hne
    rcases hlost with hlost | hlost
    · simp [TransportSample.usbAvailable, Visit.sample, hne'] at hlost
    · exact hlost heq.symm
  · obtain rfl : t = .ble := owner_inj (ho.symm.trans howner)
    by_cases hbe : v.atBleEpoch.epoch .ble = app.keyboardTransport.ownerEpoch
    swap
    · exact hv.bleConnected.gone hwf₂ ⟨hu₂, hbe⟩
    refine ⟨hv.bleConnected.used_mono hu₂, fun heq => ?_⟩
    have hconn : v.atBleConnected.epoch .ble ≠ 0 := heq ▸ hne
    have hepoch : v.atBleEpoch.epoch .ble ≠ 0 := hbe ▸ hne
    rcases hlost with hlost | hlost
    · simp [TransportSample.bleAvailable, Visit.sample, hconn, hepoch] at hlost
    · simp [Visit.sample, hconn, hbe] at hlost

theorem reconcile_kept (hl : ¬ app.keyboardTransport.Lost v.sample) :
    reconcileKeyboardTransportLifetimes v app = { app with sample := v.sample } := by
  simp only [reconcileKeyboardTransportLifetimes, observe_kept hl, Bool.false_eq_true, if_false]

theorem reconcile_lost (hl : app.keyboardTransport.Lost v.sample) :
    reconcileKeyboardTransportLifetimes v app =
      { app with
        sample := v.sample
        keyboardDelivery := app.keyboardDelivery.reset app.heldKeyboard.current
        keyboardTransport :=
          if app.heldKeyboard.current.empty then {} else ⟨.suppressed, 0⟩ } := by
  simp only [reconcileKeyboardTransportLifetimes, observe_lost hl, if_true]
  rfl

/-- Reconciling leaves a latch whose lifetime is the sampled one. -/
theorem reconcile_not_lost : ¬ (reconcileKeyboardTransportLifetimes v app).keyboardTransport.Lost
    (reconcileKeyboardTransportLifetimes v app).sample := by
  by_cases hl : app.keyboardTransport.Lost v.sample
  · rw [reconcile_lost hl]
    simp only [KeyboardTransportLatch.Lost]
    split_ifs <;> simp
  · rw [reconcile_kept hl]
    exact hl

theorem reconcile_sample : (reconcileKeyboardTransportLifetimes v app).sample = v.sample := by
  by_cases hl : app.keyboardTransport.Lost v.sample
  · rw [reconcile_lost hl]
  · rw [reconcile_kept hl]

theorem chordInv_reconcile (hi : ChordInv app h log) (hv : v.From h) :
    ChordInv (reconcileKeyboardTransportLifetimes v app) v.atBleConnected log := by
  have he : Evolves h v.atBleConnected := (hv.usbEpoch.trans hv.bleEpoch).trans hv.bleConnected
  by_cases hl : app.keyboardTransport.Lost v.sample
  swap
  · rw [reconcile_kept hl]
    exact { hi.evolve he with }
  · have hi' := hi.evolve he
    rw [reconcile_lost hl]
    have hnobody : ∀ t : Transport, (if app.heldKeyboard.current.empty then ({} : KeyboardTransportLatch)
        else ⟨.suppressed, 0⟩).owner ≠ t.owner := by
      intro t
      split_ifs
      · exact (owner_ne_none t).symm
      · exact (owner_ne_suppressed t).symm
    refine ⟨hi'.hosts, hi'.held, rfl, KeyboardSnapshotDelivery.tracks_reset, ?_, ?_, ?_, ?_, hi'.orderly⟩
    · intro hnone
      split_ifs at hnone with hempty
      exact eq_default_of_empty hempty
    · exact fun t ht => absurd ht (hnobody t)
    · intro t e hlast
      rcases hi'.last t e hlast with hgone | ⟨hholds, -⟩
      · exact Or.inl hgone
      · exact Or.inl (lost_gone hi hv hl t e hholds)
    · intro p hp
      by_cases hempty : app.heldKeyboard.current.empty = true
      · exact Or.inr (Or.inr ⟨by simp [hempty], hempty, rfl⟩)
      · exact Or.inr (Or.inl (by simp [hempty]))

/-! ### Offering a snapshot -/

/-- A sampled endpoint was one. -/
theorem sample_used (hh : h.WellFormed) (hv : v.From h) :
    (v.sample.usbAvailable = true →
      v.sample.usbEpoch ≠ 0 ∧ v.sample.usbEpoch ∈ v.atBleConnected.used .usb) ∧
    (v.sample.bleAvailable = true →
      v.sample.bleEpoch ≠ 0 ∧ v.sample.bleEpoch ∈ v.atBleConnected.used .ble) := by
  have hwf₁ := hv.usbEpoch.wellFormed hh
  have hwf₂ := hv.bleEpoch.wellFormed hwf₁
  constructor
  · intro ha
    have hne : v.atUsbEpoch.epoch .usb ≠ 0 := by
      simpa [TransportSample.usbAvailable, Visit.sample] using ha
    exact ⟨hne, hv.bleConnected.used_mono (hv.bleEpoch.used_mono (hwf₁.current .usb hne))⟩
  · intro ha
    have hne : v.sample.bleEpoch ≠ 0 := by
      simp only [TransportSample.bleAvailable, Bool.and_eq_true, bne_iff_ne] at ha
      exact ha.2
    have hepoch : v.sample.bleEpoch = v.atBleEpoch.epoch .ble := by
      simp only [Visit.sample] at hne ⊢
      split_ifs at hne ⊢
      · rfl
      · exact absurd rfl hne
    rw [hepoch] at hne ⊢
    exact ⟨hne, hv.bleConnected.used_mono (hwf₂.current .ble hne)⟩

/-- The first snapshot of a chord binds an idle latch. -/
theorem chordInv_bind (hi : ChordInv app h log) (hnone : app.keyboardTransport.owner = .none)
    (hbusy : ¬ app.Idle) (howner : l.owner ≠ .none)
    (hused : ∀ t : Transport, l.owner = t.owner → l.ownerEpoch ≠ 0 ∧ l.ownerEpoch ∈ h.used t) :
    ChordInv { app with keyboardTransport := l } h log := by
  have hfree : ∀ t e, ¬ app.keyboardTransport.Holds t e := fun t e hh =>
    owner_ne_none t (hh.1.symm.trans hnone)
  refine ⟨hi.hosts, hi.held, hi.desired, hi.tracks, fun h => absurd h howner, hused, ?_, ?_, hi.orderly⟩
  · intro t e hlast
    exact Or.inl ((hi.last t e hlast).resolve_right fun hh => hfree t e hh.1)
  · intro p hp
    rcases hi.chord p hp with hh | hs | ⟨-, hidle⟩
    · exact absurd hh (hfree p.1 p.2)
    · rw [hnone] at hs
      cases hs
    · exact absurd hidle hbusy

theorem holds_unique {t t' : Transport} {e e' : UInt32} (hh : l.Holds t e) (hh' : l.Holds t' e') :
    (t', e') = (t, e) := by
  obtain rfl : t' = t := owner_inj (hh'.1.symm.trans hh.1)
  rw [← hh.2, ← hh'.2]

/-- An offer to the latch's endpoint stands in its chord. -/
theorem offer_chord (hi : ChordInv app h log) (hh : app.keyboardTransport.Holds t e) :
    ∀ p ∈ chordEndpoints log, p = (t, e) := by
  intro p hp
  rcases hi.chord p hp with hp' | hs | ⟨hn, -⟩
  · exact holds_unique hh hp'
  · exact absurd (hh.1.symm.trans hs) (owner_ne_suppressed t)
  · exact absurd (hh.1.symm.trans hn) (owner_ne_none t)

theorem chordInv_refused (hi : ChordInv app h log) (hh : app.keyboardTransport.Holds t e)
    (snapshot : HidKeyboardSnapshot) : ChordInv app h (.sent t e snapshot false :: log) := by
  refine { hi with last := hi.last, chord := ?_, orderly := ⟨offer_chord hi hh, hi.orderly⟩ }
  intro p hp
  rcases List.mem_cons.1 hp with rfl | hp
  · exact Or.inl hh
  · exact hi.chord p hp

/-- The delivery and the latch after the pending snapshot was accepted. -/
def KeyboardApp.delivered (app : KeyboardApp) : KeyboardApp :=
  { app with
    keyboardDelivery :=
      { app.keyboardDelivery with accepted := app.keyboardDelivery.desired, pendingGeneration := 0 }
    keyboardTransport := app.keyboardTransport.commitSnapshot app.keyboardDelivery.desired.empty }

theorem delivered_owner (app : KeyboardApp) :
    (app.keyboardDelivery.desired.empty = true ∧ app.delivered.keyboardTransport = {}) ∨
      (app.keyboardDelivery.desired.empty = false ∧
        app.delivered.keyboardTransport = app.keyboardTransport) := by
  cases hd : app.keyboardDelivery.desired.empty
  · exact Or.inr ⟨rfl, by simp [KeyboardApp.delivered, hd, KeyboardTransportLatch.commitSnapshot]⟩
  · exact Or.inl ⟨rfl, by simp [KeyboardApp.delivered, hd, KeyboardTransportLatch.commitSnapshot]⟩

/-- What acceptance keeps, whoever accepted. -/
theorem chordInv_delivered (hi : ChordInv app h log) {log' : List Entry}
    (hlast : ∀ t e, lastAccepted t e log' ≠ {} → h.Gone t e ∨
      (app.keyboardTransport.Holds t e ∧ app.keyboardDelivery.desired = lastAccepted t e log'))
    (hchord : ∀ p ∈ chordEndpoints log', app.keyboardTransport.Holds p.1 p.2 ∨
      app.keyboardTransport.owner = .suppressed ∨
        (app.keyboardTransport.owner = .none ∧ app.keyboardDelivery.desired.empty = true))
    (hnone : app.keyboardTransport.owner = .none → app.keyboardDelivery.desired.empty = true)
    (horderly : Orderly log') : ChordInv app.delivered h log' := by
  have hd : app.delivered.keyboardDelivery.desired = app.keyboardDelivery.desired := rfl
  have ha : app.delivered.keyboardDelivery.accepted = app.keyboardDelivery.desired := rfl
  rcases delivered_owner app with ⟨hempty, hl⟩ | ⟨hempty, hl⟩
  · have hdefault := eq_default_of_empty hempty
    refine ⟨hi.hosts, hi.held, hi.desired, ?_, fun _ => hdefault, ?_, ?_, ?_, horderly⟩
    · exact ⟨fun hne => absurd rfl hne, fun hne => absurd rfl hne⟩
    · intro t ht
      rw [hl] at ht
      exact absurd ht.symm (owner_ne_none t)
    · intro t e hne
      rcases hlast t e hne with hgone | ⟨-, heq⟩
      · exact Or.inl hgone
      · exact absurd (heq.symm.trans hdefault) hne
    · intro p hp
      rw [hl]
      exact Or.inr (Or.inr ⟨rfl, hempty, rfl⟩)
  · refine ⟨hi.hosts, hi.held, hi.desired, ?_, ?_, ?_, ?_, ?_, horderly⟩
    · exact ⟨fun hne => absurd rfl hne, fun hne => absurd rfl hne⟩
    · intro hn
      rw [hl] at hn
      rw [hnone hn] at hempty
      cases hempty
    · rw [hl]
      exact hi.owned
    · rw [hl, ha]
      exact hlast
    · intro p hp
      rw [hl]
      rcases hchord p hp with hh | hs | ⟨-, he⟩
      · exact Or.inl hh
      · exact Or.inr (Or.inl hs)
      · rw [he] at hempty
        cases hempty

theorem chordInv_accepted (hi : ChordInv app h log) (hh : app.keyboardTransport.Holds t e) :
    ChordInv app.delivered h (.sent t e app.keyboardDelivery.desired true :: log) := by
  refine chordInv_delivered hi ?_ ?_ (fun hn => absurd (hh.1.symm.trans hn) (owner_ne_none t))
    ⟨offer_chord hi hh, hi.orderly⟩
  · intro t' e' hne
    simp only [lastAccepted] at hne ⊢
    split_ifs at hne ⊢ with heq
    · obtain ⟨rfl, rfl⟩ := heq
      exact Or.inr ⟨hh, rfl⟩
    · rcases hi.last t' e' hne with hgone | ⟨hh', -⟩
      · exact Or.inl hgone
      · obtain ⟨ht, he⟩ := Prod.mk.inj (holds_unique hh hh')
        exact absurd ⟨ht.symm, he.symm⟩ heq
  · intro p hp
    rcases List.mem_cons.1 hp with rfl | hp
    · exact Or.inl hh
    · rw [offer_chord hi hh p hp]
      exact Or.inl hh

/-- A chord without an endpoint counts as delivered, and no endpoint hears of it. -/
theorem chordInv_swallowed (hi : ChordInv app h log)
    (ho : app.keyboardTransport.owner = .suppressed ∨
      app.keyboardTransport.owner = .none ∧ app.keyboardDelivery.desired.empty = true) :
    ChordInv app.delivered h log := by
  have hfree : ∀ t e, ¬ app.keyboardTransport.Holds t e := by
    rintro t e ⟨ht, -⟩
    rcases ho with hs | ⟨hn, -⟩
    · exact owner_ne_suppressed t (ht.symm.trans hs)
    · exact owner_ne_none t (ht.symm.trans hn)
  refine chordInv_delivered hi ?_ ?_ ?_ hi.orderly
  · intro t e hne
    exact Or.inl ((hi.last t e hne).resolve_right fun hh => hfree t e hh.1)
  · exact fun p _ => Or.inr ho
  · intro hn
    rcases ho with hs | ⟨-, he⟩
    · rw [hn] at hs
      cases hs
    · exact he

/-- What `send_keyboard_snapshot` does with the selected latch: it offers the snapshot to the latch's
    endpoint, drops it before the offer because BLE changed its owner, or has nobody to offer it to. -/
inductive Offered (l : KeyboardTransportLatch) (snapshot : HidKeyboardSnapshot) :
    KeyboardTransportOwner → Bool → List Entry → Prop
  | sent (t : Transport) (e : UInt32) (accepted : Bool) : l.Holds t e →
    Offered l snapshot t.owner accepted [.sent t e snapshot accepted]
  | unsent : Offered l snapshot .ble false []
  | nobody (owner : KeyboardTransportOwner) : owner = .none ∨ owner = .suppressed →
    Offered l snapshot owner true []

theorem send_eq {snapshot : HidKeyboardSnapshot} {owner : KeyboardTransportOwner}
    (hsel : app.keyboardTransport.selectForSnapshot snapshot.empty app.sample = (owner, l))
    (howner : ∀ t : Transport, owner = t.owner → l.owner = t.owner) :
    ∃ accepted offered, sendKeyboardSnapshot v app snapshot =
      (accepted, { app with keyboardTransport := l }, offered) ∧
        Offered l snapshot owner accepted offered := by
  simp only [sendKeyboardSnapshot, hsel]
  cases owner with
  | usb => exact ⟨_, _, rfl, .sent .usb l.ownerEpoch _ ⟨howner .usb rfl, rfl⟩⟩
  | ble =>
    by_cases hid : v.atIdentity.epoch .ble = 0 ∨ v.atIdentity.epoch .ble ≠ l.ownerEpoch
    · exact ⟨false, [], by simp [hid], .unsent⟩
    · refine ⟨_, _, by rw [if_neg hid], .sent .ble (v.atIdentity.epoch .ble) _ ⟨howner .ble rfl, ?_⟩⟩
      push Not at hid
      exact hid.2.symm
  | none => exact ⟨true, [], rfl, .nobody _ (Or.inl rfl)⟩
  | suppressed => exact ⟨true, [], rfl, .nobody _ (Or.inr rfl)⟩

theorem flush_nothing (hp : (reconcileKeyboardTransportLifetimes v app).keyboardDelivery.pendingSnapshot.valid
    = false) : flushPendingKeyboardSnapshot v app =
      (if (reconcileKeyboardTransportLifetimes v app).keyboardDelivery.desired.empty then
        (reconcileKeyboardTransportLifetimes v app).delivered.keyboardTransport
          |> fun l => { reconcileKeyboardTransportLifetimes v app with keyboardTransport := l }
        else reconcileKeyboardTransportLifetimes v app, []) := by
  simp only [flushPendingKeyboardSnapshot, hp, Bool.not_false, if_true, KeyboardApp.delivered]
  split_ifs with he
  · simp [he]
  · rfl

theorem flush_pending {app₂ : KeyboardApp} {accepted : Bool} {offered : List Entry}
    (hp : (reconcileKeyboardTransportLifetimes v app).keyboardDelivery.pendingSnapshot.valid = true)
    (hsend : sendKeyboardSnapshot v (reconcileKeyboardTransportLifetimes v app)
      (reconcileKeyboardTransportLifetimes v app).keyboardDelivery.desired = (accepted, app₂, offered))
    (hdelivery : app₂.keyboardDelivery =
      (reconcileKeyboardTransportLifetimes v app).keyboardDelivery) :
    flushPendingKeyboardSnapshot v app = (if accepted then app₂.delivered else app₂, offered) := by
  obtain ⟨-, hsnap, hmark⟩ := KeyboardSnapshotDelivery.pendingSnapshot_valid hp
  simp only [flushPendingKeyboardSnapshot, hp, Bool.not_true, Bool.false_eq_true, if_false, hsnap, hsend]
  cases accepted with
  | false => rfl
  | true =>
    rw [← hdelivery] at hmark
    simp only [← hdelivery, hmark, Bool.not_true, Bool.false_eq_true, if_false, KeyboardApp.delivered,
      if_true]

/-- The latch a pending snapshot is offered with, whichever the selection was. -/
theorem chordInv_selected {owner : KeyboardTransportOwner} (hi : ChordInv app v.atBleConnected log)
    (hh : h.WellFormed) (hv : v.From h) (hsample : app.sample = v.sample)
    (hbusy : app.keyboardDelivery.pendingGeneration ≠ 0)
    (hsel : Selected app.keyboardTransport app.sample app.keyboardDelivery.desired.empty owner l) :
    ChordInv { app with keyboardTransport := l } v.atBleConnected log ∧
      (∀ t : Transport, owner = t.owner → l.owner = t.owner) ∧
      (owner = .none ∨ owner = .suppressed → l.owner = .suppressed ∨
        l.owner = .none ∧ app.keyboardDelivery.desired.empty = true) := by
  have hidle : ¬ app.Idle := fun hh => hbusy hh.2
  have hused := sample_used hh hv
  rw [← hsample] at hused
  cases hsel with
  | kept t ho =>
    refine ⟨hi, fun t' ht' => ho.trans ht', ?_⟩
    rintro (hn | hs)
    · exact absurd hn (owner_ne_none t)
    · exact absurd hs (owner_ne_suppressed t)
  | suppressed ho =>
    refine ⟨hi, fun t' ht' => ?_, fun _ => Or.inl ho⟩
    split_ifs at ht'
    · exact absurd ht'.symm (owner_ne_none t')
    · exact absurd ht'.symm (owner_ne_suppressed t')
  | nowhere ho hempty =>
    exact ⟨hi, fun t' ht' => absurd ht'.symm (owner_ne_none t'), fun _ => Or.inr ⟨ho, hempty⟩⟩
  | usb ho hfull ha =>
    refine ⟨chordInv_bind hi ho hidle (by simp) fun t ht => ?_, fun t ht => ht, by simp⟩
    obtain rfl : t = .usb := owner_inj ht.symm
    exact hused.1 ha
  | ble ho hfull ha =>
    refine ⟨chordInv_bind hi ho hidle (by simp) fun t ht => ?_, fun t ht => ht, by simp⟩
    obtain rfl : t = .ble := owner_inj ht.symm
    exact hused.2 ha
  | hostless ho hfull =>
    refine ⟨chordInv_bind hi ho hidle (by simp) fun t ht => ?_, fun t ht => ht, by simp⟩
    exact absurd ht.symm (owner_ne_suppressed t)

theorem chordInv_flush (hi : ChordInv app h log) (hv : v.From h) :
    ChordInv (flushPendingKeyboardSnapshot v app).1 v.atSend
      ((flushPendingKeyboardSnapshot v app).2 ++ log) := by
  have hrec := chordInv_reconcile hi hv
  have hlater : Evolves v.atBleConnected v.atSend := hv.identity.trans hv.send
  refine ChordInv.evolve ?_ hlater
  cases hp : (reconcileKeyboardTransportLifetimes v app).keyboardDelivery.pendingSnapshot.valid with
  | false =>
    have hzero := KeyboardSnapshotDelivery.pendingSnapshot_invalid hp
    rw [flush_nothing hp]
    split_ifs with hempty
    · -- everything is released and nothing pending: the latch is let go
      have hsame : (reconcileKeyboardTransportLifetimes v app).keyboardDelivery.desired =
          (reconcileKeyboardTransportLifetimes v app).keyboardDelivery.accepted := by
        by_contra hne
        exact hrec.tracks.2 hne hzero
      have hl : (reconcileKeyboardTransportLifetimes v app).delivered.keyboardTransport = {} := by
        rcases delivered_owner (reconcileKeyboardTransportLifetimes v app) with ⟨-, hl⟩ | ⟨hne, -⟩
        · exact hl
        · rw [hempty] at hne
          cases hne
      have hdefault := eq_default_of_empty hempty
      simp only [hl]
      refine ⟨hrec.hosts, hrec.held, hrec.desired, hrec.tracks, fun _ => hsame.symm.trans hdefault,
        fun t ht => absurd ht.symm (owner_ne_none t), fun t e hne => ?_,
        fun p hp => Or.inr (Or.inr ⟨rfl, hempty, hzero⟩), hrec.orderly⟩
      rcases hrec.last t e hne with hgone | ⟨-, heq⟩
      · exact Or.inl hgone
      · exact absurd (heq.symm.trans (hsame.symm.trans hdefault)) hne
    · exact hrec
  | true =>
    obtain ⟨hne, -, -⟩ := KeyboardSnapshotDelivery.pendingSnapshot_valid hp
    have hsel := selected (@reconcile_not_lost v app)
      (reconcileKeyboardTransportLifetimes v app).keyboardDelivery.desired.empty
    generalize hpair : (reconcileKeyboardTransportLifetimes v app).keyboardTransport.selectForSnapshot
      (reconcileKeyboardTransportLifetimes v app).keyboardDelivery.desired.empty
      (reconcileKeyboardTransportLifetimes v app).sample = pair at hsel
    obtain ⟨owner, l⟩ := pair
    obtain ⟨hbound, howner, hnobody⟩ := chordInv_selected hrec hi.hosts hv reconcile_sample hne hsel
    obtain ⟨accepted, offered, hsend, hoffered⟩ := send_eq (v := v) hpair howner
    rw [flush_pending hp hsend rfl]
    cases hoffered with
    | sent t e accepted hh =>
      cases accepted with
      | false => exact chordInv_refused hbound hh _
      | true => exact chordInv_accepted hbound hh
    | unsent => exact hbound
    | nobody owner ho => exact chordInv_swallowed hbound (hnobody ho)

end CodexKeyboard.Keyboard
