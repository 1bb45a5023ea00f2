import CodexKeyboard.SoundSync.ClosedRoutes

/-! A closed route is dead once its close was worked off, and stays dead.

    Two things limit this. A close the core has no room for is lost, since the supervisor does not look at
    the import's answer; a pause of the core steps is enough for that. And the core takes frames of any
    route into its ingress, where a frame of a dead route waits to be dropped. -/

namespace CodexKeyboard.SoundSync.RuntimeWorld

variable {crypto : SoundCrypto} {w : RuntimeWorld} {r : SpeakerAssetsRouteToken}

/-- The route is not worked for: inactive, not bound, without a reply; and a frame of it that is next in
    the ingress is given up, with its lease. -/
structure IsDead (crypto : SoundCrypto) (w : RuntimeWorld) (r : SpeakerAssetsRouteToken) : Prop where
  inactive : w.core.routeIsActive r = false
  unbound : w.core.session.route ≠ some r
  unanswered : ∀ reply ∈ w.core.replies, reply.route ≠ r
  dropped : ∀ record ingress allowed nowMs, w.core.ingress = record :: ingress → record.route = r →
    { w.core with ingress := ingress }.processIngress crypto record allowed nowMs =
      { w.core with ingress := ingress }.rejectLogicalFrame r record.admissionId .staleRouteDropped

theorem isDead_of_silent (h : w.core.view.Silent r) : w.IsDead crypto r where
  inactive := by
    have : r ∉ w.core.activeRoutes := h.inactive
    simpa [SpeakerAssetsRuntimeCore.routeIsActive] using this
  unbound := h.unbound
  unanswered := h.unanswered
  dropped := by
    rintro record ingress allowed nowMs - rfl
    exact SpeakerAssetsRuntimeCore.processIngress_stale (c := { w.core with ingress := ingress })
      h.inactive allowed nowMs

/-- Where no close is on its way any more, the route is dead, or the mailbox shut for good. -/
theorem Gone.settle {moving : Prop} (h : w.Gone moving r) (hpending : w.mailbox.closePending r = false)
    (hrevoke : w.mailbox.revokeAll = none) (hlifecycle : w.core.lifecycle = []) : w.Gone False r := by
  rcases h with ⟨-, hp⟩ | ⟨-, hq⟩ | hd | ⟨-, hs⟩
  · simp [hpending] at hp
  · simp [hlifecycle] at hq
  · exact .dead hd
  · exact .shut (Or.inr hrevoke) hs

theorem Gone.view (h : w.Gone False r) : w.core.view.Silent r := by
  rcases h with ⟨hmove, -⟩ | ⟨hmove, -⟩ | hd | ⟨hrevoke, hs⟩
  · exact hmove.elim
  · exact hmove.elim
  · exact hd.silent
  · rcases hs.silent with hs | hs
    · simp [hrevoke.resolve_left id] at hs
    · exact hs.2 r

/-- An import answers `Full` to a lifecycle record only when its route is not queued in the core and the
    queue is full for its kind. In a run where that happens to no close of a route, the route, once it was
    closed, is dead in every state in which the mailbox holds no close of it and no revoke-all and the core
    no lifecycle record, and in every later state. -/
theorem closed_route_stays_dead (crypto : SoundCrypto)
    (cookieSeed actionTokenSeed partialTimeoutMs sessionLeaseMs : UInt32) :
    (∀ (c : SpeakerAssetsRuntimeCore) (record : SpeakerAssetsRuntimeMailboxRecord) (kind : LifecycleKind),
      record.cancelled = false →
      record.kind = (match kind with | .opened => .routeOpened | .closed => .routeClosed) →
      ((c.importMailboxRecord record).1 = .full ↔ record.route.shapeIsValid = true ∧
        (∀ queued ∈ c.lifecycle, queued.route ≠ record.route) ∧
        (8 ≤ c.lifecycle.length ∨ (kind = .opened ∧ 4 ≤ c.lifecycle.length)))) ∧
    ∀ (events later : List RuntimeEvent) (r : SpeakerAssetsRouteToken) (w w' : RuntimeWorld),
      w = (init cookieSeed actionTokenSeed partialTimeoutMs sessionLeaseMs).run crypto events →
      w' = w.run crypto later →
      (∀ x ∈ (init cookieSeed actionTokenSeed partialTimeoutMs sessionLeaseMs).trace crypto events,
        x.1.CloseTaken r x.2) →
      w.mailbox.nextAdmissionId ≠ 0 → .routeClosed r ∈ events →
      w.mailbox.closePending r = false → w.mailbox.revokeAll = none → w.core.lifecycle = [] →
      w'.IsDead crypto r := by
  refine ⟨fun c record kind hlive hkind => ?_, ?_⟩
  · have himport : c.importMailboxRecord record = c.enqueueLifecycle kind record.route := by
      unfold SpeakerAssetsRuntimeCore.importMailboxRecord
      rw [hlive, hkind]
      cases kind <;> rfl
    rw [himport, SpeakerAssetsRuntimeCore.enqueueLifecycle_full_iff]
    rfl
  · rintro events later r w w' rfl rfl htaken hid hclosed hpending hrevoke hlifecycle
    have hrun := @Closing.run crypto _ (· = r) _ _ (closing_init cookieSeed actionTokenSeed partialTimeoutMs
      sessionLeaseMs) fun q hq => hq ▸ htaken
    have hgone := hrun.gone r (fun _ => hid) (Or.inr ⟨rfl, hclosed⟩)
    have hstart : Closing _ (fun _ => False) (· = r) :=
      ⟨hrun.inv, fun q _ hq => hq ▸ hgone.settle hpending hrevoke hlifecycle⟩
    have hlater := (@Closing.run crypto _ _ _ later hstart nofun).gone r nofun (Or.inl rfl)
    exact isDead_of_silent hlater.view

/-! ### Runs -/

/-- Hash functions to run with. -/
def zeroCrypto : SoundCrypto := ⟨fun _ => 0, fun _ => zeroDigest⟩

/-- A Wi-Fi connection. -/
def connection (generation : UInt32) : SpeakerAssetsRouteToken := ⟨.wifi, 1, generation⟩

/-- A route opens and closes, and the core works both off. -/
def openAndClose : List RuntimeEvent :=
  [.routeOpened (connection 1), .importRecord, .coreStep 0 true none,
    .routeClosed (connection 1), .importRecord, .coreStep 0 true none]

/-- It is not opened again. -/
theorem closed_connection_dead :
    (((init 1 1 0 0).run zeroCrypto openAndClose).run zeroCrypto
      [.routeOpened (connection 1), .importRecord, .coreStep 0 true none]).IsDead zeroCrypto
      (connection 1) :=
  (closed_route_stays_dead zeroCrypto 1 1 0 0).2 openAndClose _ (connection 1) _ _ rfl rfl
    (by decide +kernel) (by decide +kernel) (by decide) (by decide +kernel) (by decide +kernel)
    (by decide +kernel)

/-- Five opens are taken during a boot read: the core has no room for the fifth. -/
def crowded : List RuntimeEvent :=
  .bootRead true :: (List.range 5).flatMap fun generation =>
    [.routeOpened (connection (UInt32.ofNat generation + 1)), .importRecord]

/-- A route is open when a boot read begins, during which eight other closes are taken and then its own. -/
def crowdedOut : List RuntimeEvent :=
  [.routeOpened (connection 1), .importRecord, .coreStep 0 true none, .bootRead true] ++
    (List.range 8).flatMap (fun generation =>
      [.routeClosed (connection (UInt32.ofNat generation + 2)), .importRecord]) ++
    [.routeClosed (connection 1), .importRecord, .bootRead false] ++
    List.replicate 8 (.coreStep 0 true none)

/-- A lifecycle record is answered `Full`; where that is a close, its route is still active when all is
    worked off; and where it is not, the core takes a frame of the dead route into its ingress. -/
theorem route_record_lost :
    (∃ x ∈ (init 1 1 0 0).trace zeroCrypto crowded, x.2 = .importRecord ∧ ∃ record ∈ x.1.nextRecord,
      record.kind = .routeOpened ∧ (x.1.core.importMailboxRecord record).1 = .full) ∧
    (let w := (init 1 1 0 0).run zeroCrypto crowdedOut
    RuntimeEvent.routeClosed (connection 1) ∈ crowdedOut ∧ w.mailbox.closePending (connection 1) = false ∧
      w.mailbox.revokeAll = none ∧ w.core.lifecycle = [] ∧ w.core.routeIsActive (connection 1) = true) ∧
    (let w := (init 1 1 0 0).run zeroCrypto openAndClose
    RuntimeEvent.routeClosed (connection 1) ∈ openAndClose ∧ w.mailbox.closePending (connection 1) = false ∧
      w.mailbox.revokeAll = none ∧ w.core.lifecycle = [] ∧
      (w.run zeroCrypto [.wifiFrame (connection 1) (List.replicate speakerAssetsFrameHeaderBytes 0) 0,
        .importRecord]).core.routeHasIngress (connection 1) = true) :=
  ⟨by decide +kernel, by decide +kernel, by decide +kernel⟩

end CodexKeyboard.SoundSync.RuntimeWorld
