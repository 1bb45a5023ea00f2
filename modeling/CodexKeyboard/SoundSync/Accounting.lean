import CodexKeyboard.SoundSync.AdmissionRuns
import CodexKeyboard.SoundSync.RouteDeath

/-! Every admission of a run has one end.

    The step identity of the admissions is summed over a run: each admission that was granted has ended
    once, or still waits. Admission ids only go up, so none is granted twice. -/

namespace CodexKeyboard.SoundSync.RuntimeWorld

open SpeakerAssetsRuntimeMailbox (Reserves granted Later)

variable {crypto : SoundCrypto} {w : RuntimeWorld} {l : Lease} {events : List RuntimeEvent}

/-! ### Admission ids -/

/-- The next admission id, after an admission or without one. -/
inductive Advances (next next' : UInt64) : Option Lease → Prop
  | none : Later next next' → Advances next next' none
  | granted {l : Lease} : next ≠ 0 → l.admissionId = next → next' = next + 1 → Advances next next' (some l)

theorem advances_of_reserves {m m' : SpeakerAssetsRuntimeMailbox} {g : Option Lease}
    (h : Reserves m m' g) : Advances m.nextAdmissionId m'.nextAdmissionId g := by
  cases h with
  | kept _ hn _ _ => exact .none hn
  | cleared _ hn _ => exact .none hn
  | granted _ _ hne hid hn _ => exact .granted hne hid hn

theorem Admitting.advances (h : w.Admitting) (event : RuntimeEvent) :
    Advances w.mailbox.nextAdmissionId (w.apply crypto event).mailbox.nextAdmissionId
      (w.admitted event) := by
  cases event with
  | routeOpened route => exact advances_of_reserves h.reserving.enqueueRouteOpened.2
  | routeClosed route => exact advances_of_reserves h.reserving.enqueueRouteClosed.2
  | usbFrame route bytes receivedMs =>
    exact advances_of_reserves (h.reserving.enqueueUsbFrame bytes receivedMs).2
  | wifiFrame route bytes receivedMs =>
    exact advances_of_reserves (h.reserving.enqueueWifiFrame bytes receivedMs).2
  | bootRead _ => exact .none (Or.inl rfl)
  | importRecord =>
    refine .none (Or.inl ?_)
    dsimp only [RuntimeWorld.apply]
    split_ifs
    · rfl
    · unfold importOneMailboxRecord
      have hspec := SpeakerAssetsRuntimeMailbox.takeNext_spec h.inv.whole
      generalize w.mailbox.takeNext = out at hspec
      cases hspec <;> rfl
  | coreStep nowMs allowed execution =>
    refine .none (Or.inl ?_)
    dsimp only [RuntimeWorld.apply]
    split_ifs <;> rfl
  | releaseLease =>
    dsimp only [RuntimeWorld.apply]
    unfold RuntimeWorld.releaseLease
    split
    · exact .none (Or.inl rfl)
    · exact advances_of_reserves (h.reserving.releaseLogicalRequest _).2.1
  | usbReplyOffered generation =>
    refine .none (Or.inl ?_)
    dsimp only [RuntimeWorld.apply]
    unfold RuntimeWorld.offerUsbReply
    split_ifs
    · rfl
    · rfl
    · split <;> rfl
  | usbReplyForgotten =>
    refine .none (Or.inl ?_)
    dsimp only [RuntimeWorld.apply]
    split_ifs <;> rfl
  | usbReplyAccepted epoch sequence =>
    refine .none (Or.inl ?_)
    dsimp only [RuntimeWorld.apply]
    split
    · rfl
    · rfl
  | wifiReplyAccepted route sequence =>
    refine .none (Or.inl ?_)
    dsimp only [RuntimeWorld.apply]
    split
    · rfl
    · rfl

/-! ### Runs -/

/-- The admissions a run grants, in order. -/
def admissions (crypto : SoundCrypto) (w : RuntimeWorld) (events : List RuntimeEvent) : List Lease :=
  (w.trace crypto events).filterMap fun x => x.1.admitted x.2

/-- How an admission ended in a run, as often as it did. -/
def endings (crypto : SoundCrypto) (w : RuntimeWorld) (events : List RuntimeEvent) (l : Lease) :
    List Ending :=
  (w.trace crypto events).filterMap fun x => x.1.ending crypto x.2 l

theorem admissions_cons (event : RuntimeEvent) : w.admissions crypto (event :: events) =
    (w.admitted event).toList ++ (w.apply crypto event).admissions crypto events := by
  rw [admissions, trace, List.filterMap_cons]
  cases w.admitted event <;> rfl

theorem endings_cons (event : RuntimeEvent) : w.endings crypto (event :: events) l =
    (w.ending crypto event l).toList ++ (w.apply crypto event).endings crypto events l := by
  rw [endings, trace, List.filterMap_cons]
  cases w.ending crypto event l <;> rfl

/-- Every state of a run, and the sum of its steps. -/
theorem Admitting.run (h : w.Admitting)
    (hsafe : ∀ x ∈ w.trace crypto events, x.1.AdmissionSafe x.2) :
    (w.run crypto events).Admitting ∧
      ∀ l, (w.endings crypto events l).length + (w.run crypto events).waits l =
        w.waits l + (w.admissions crypto events).count l := by
  induction events generalizing w with
  | nil => exact ⟨h, fun l => by simp [endings, admissions, trace, RuntimeWorld.run]⟩
  | cons event events ih =>
    obtain ⟨hstep, haccounts⟩ := @Admitting.apply crypto w h event (hsafe (w, event) (List.mem_cons_self ..))
    obtain ⟨hrun, hsum⟩ := ih hstep fun x hx => hsafe x (List.mem_cons_of_mem _ hx)
    refine ⟨hrun, fun l => ?_⟩
    have haccounts := haccounts l
    have hsum := hsum l
    rw [endings_cons, admissions_cons, List.length_append, List.count_append]
    change _ + ((w.apply crypto event).run crypto events).waits l = _
    omega

/-- Later admissions have larger ids. -/
theorem Admitting.ids (h : w.Admitting)
    (hsafe : ∀ x ∈ w.trace crypto events, x.1.AdmissionSafe x.2) :
    (∀ x ∈ w.admissions crypto events, w.mailbox.nextAdmissionId ≠ 0 ∧
      w.mailbox.nextAdmissionId ≤ x.admissionId) ∧
    (w.admissions crypto events).Pairwise fun x y => x.admissionId < y.admissionId := by
  induction events generalizing w with
  | nil => exact ⟨by simp [admissions, trace], by simp [admissions, trace]⟩
  | cons event events ih =>
    have hstep := (@Admitting.apply crypto w h event (hsafe (w, event) (List.mem_cons_self ..))).1
    obtain ⟨hbound, hpairs⟩ := ih hstep fun x hx => hsafe x (List.mem_cons_of_mem _ hx)
    have hadvances := @Admitting.advances crypto w h event
    rw [admissions_cons]
    -- an id that counts on from the next one is larger
    have hlt : ∀ {next : UInt64} {x : Lease}, next + 1 ≠ 0 → next + 1 ≤ x.admissionId →
        next < x.admissionId := fun hne hle =>
      UInt64.lt_of_lt_of_le ((lt_next _).resolve_left hne) hle
    cases hadmitted : w.admitted event with
    | none =>
      rw [hadmitted] at hadvances
      refine ⟨fun x hx => ?_, hpairs⟩
      obtain ⟨hne, hle⟩ := hbound x hx
      cases hadvances with
      | none hlater =>
        rcases hlater with hsame | ⟨hnext, hsucc⟩
        · rw [hsame] at hne hle
          exact ⟨hne, hle⟩
        · rw [hsucc] at hne hle
          exact ⟨hnext, UInt64.le_of_lt (hlt hne hle)⟩
    | some l =>
      rw [hadmitted] at hadvances
      cases hadvances with
      | granted hnext hid hsucc =>
        have hafter : ∀ x ∈ (w.apply crypto event).admissions crypto events,
            w.mailbox.nextAdmissionId < x.admissionId := fun x hx => by
          obtain ⟨hne, hle⟩ := hbound x hx
          rw [hsucc] at hne hle
          exact hlt hne hle
        refine ⟨fun x hx => ?_, List.pairwise_cons.2 ⟨fun x hx => hid ▸ hafter x hx, hpairs⟩⟩
        rcases List.mem_cons.1 hx with rfl | hx
        · exact ⟨hnext, hid ▸ UInt64.le_refl _⟩
        · exact ⟨hnext, UInt64.le_of_lt (hafter x hx)⟩

theorem admitting_init (cookieSeed actionTokenSeed partialTimeoutMs sessionLeaseMs : UInt32) :
    (init cookieSeed actionTokenSeed partialTimeoutMs sessionLeaseMs).Admitting where
  inv := (@closing_init (fun _ => False) cookieSeed actionTokenSeed partialTimeoutMs sessionLeaseMs).inv
  reserving :=
    { whole := (@closing_init (fun _ => False) cookieSeed actionTokenSeed partialTimeoutMs sessionLeaseMs).inv.whole
      queued := nofun
      ids := nofun
      revoked := fun _ => rfl
      failClosed := fun _ => rfl
      unclosed := nofun
      frames := by simp [init] }
  fresh x hx := by
    have hnone : (init cookieSeed actionTokenSeed partialTimeoutMs sessionLeaseMs).known = [] := rfl
    rw [hnone] at hx
    rcases hx with hx | hx <;> cases hx
  unique _ hl := by cases hl
  place _ hl := by cases hl
  offered _ _ hl := by cases hl
  replies :=
    ⟨by simp [init, SpeakerAssetsRuntimeCore.init, SpeakerAssetsRuntimeCore.view],
      by simp [init, SpeakerAssetsRuntimeCore.init, SpeakerAssetsRuntimeCore.view],
      by simp [init, SpeakerAssetsRuntimeCore.init, SpeakerAssetsRuntimeCore.view],
      (by decide : (1 : UInt32) ≠ 0)⟩

/-- A step that answers backpressure leaves the frames and the action where they are. -/
theorem Admitting.backpressure (h : w.Admitting) (nowMs : UInt32) (allowed : Bool)
    (execution : Option SpeakerAssetsActionExecutionResult)
    (hresult : (w.core.step crypto nowMs allowed execution).1 = .replyBackpressure) :
    (w.core.step crypto nowMs allowed execution).2.1 = none ∧
      (w.core.step crypto nowMs allowed execution).2.2.ingress = w.core.ingress ∧
      (w.core.step crypto nowMs allowed execution).2.2.pendingAction = w.core.pendingAction := by
  have hout := @SpeakerAssetsRuntimeCore.step_spec _ crypto h.inv.linked h.inv.answerable nowMs
    allowed execution
  generalize w.core.step crypto nowMs allowed execution = out at hout hresult
  obtain ⟨result, release, core⟩ := out
  obtain ⟨hstep, -⟩ := hout
  dsimp only at hstep hresult ⊢
  have hingress : core.ingress = core.view.ingress := rfl
  have haction : core.pendingAction = core.view.pendingAction := rfl
  rw [hingress, haction]
  generalize core.view = v' at hstep
  cases hstep with
  | idle _ _ _ => exact ⟨rfl, rfl, rfl⟩
  | opened _ hne _ => exact absurd hresult hne
  | openedInVain _ hne => exact absurd hresult hne
  | closed _ hne _ _ => exact absurd hresult hne
  | stale _ _ _ _ _ hne => exact absurd hresult hne
  | frame _ _ _ _ _ hframe =>
    cases hframe with
    | dropped hne => exact absurd hresult hne
    | replied hne _ => exact absurd hresult hne
    | pended hne _ _ _ _ _ => exact absurd hresult hne
  | answered _ _ _ _ _ hne _ _ => exact absurd hresult hne
  | abandoned _ _ _ _ hne => exact absurd hresult hne

/-- In every run without an unsafe step: an admission is granted when none is reserved, under an id no
    earlier one had; a release of another lease frees nothing; what was admitted has one end, or still
    waits; while it is reserved it is in one place; backpressure takes nothing; every reply can be
    encoded; and with nothing in flight nothing is reserved. -/
theorem admission_slot_returns (crypto : SoundCrypto)
    (cookieSeed actionTokenSeed partialTimeoutMs sessionLeaseMs : UInt32) (events : List RuntimeEvent)
    (hsafe : ∀ x ∈ (init cookieSeed actionTokenSeed partialTimeoutMs sessionLeaseMs).trace crypto events,
      x.1.AdmissionSafe x.2) :
    let start := init cookieSeed actionTokenSeed partialTimeoutMs sessionLeaseMs
    let w := start.run crypto events
    (∀ event l, w.admitted event = some l → w.mailbox.reserved = none ∧
      (w.apply crypto event).mailbox.reserved = some l) ∧
    (start.admissions crypto events).Pairwise (fun x y => x.admissionId < y.admissionId) ∧
    (∀ lease, w.mailbox.reserved ≠ some lease →
      (w.mailbox.releaseLogicalRequest lease).2 = w.mailbox) ∧
    (∀ l ∈ start.admissions crypto events,
      (start.endings crypto events l).length + w.waits l = 1) ∧
    (∀ l, w.mailbox.reserved = some l → w.waiting.count l + w.held.count l = 1) ∧
    (∀ nowMs allowed execution, (w.core.step crypto nowMs allowed execution).1 = .replyBackpressure →
      (w.core.step crypto nowMs allowed execution).2.1 = none ∧
      (w.core.step crypto nowMs allowed execution).2.2.ingress = w.core.ingress ∧
      (w.core.step crypto nowMs allowed execution).2.2.pendingAction = w.core.pendingAction) ∧
    (∀ reply ∈ w.core.replies, ∀ crc32, (encodeSpeakerAssetsUsbFrame crc32 reply.frame).1 = .ok ∧
      (encodeSpeakerAssetsWifiFrame crc32 reply.frame).1 = .ok) ∧
    (w.mailbox.data = [] → w.core.ingress = [] → w.core.replies = [] → w.core.pendingAction = none →
      w.returned = none → w.mailbox.reserved = none) := by
  intro start w
  have hinit : start.Admitting := admitting_init cookieSeed actionTokenSeed partialTimeoutMs sessionLeaseMs
  obtain ⟨h, hsum⟩ : w.Admitting ∧ ∀ l, (start.endings crypto events l).length + w.waits l =
      start.waits l + (start.admissions crypto events).count l := hinit.run hsafe
  have hids := (hinit.ids hsafe).2
  refine ⟨fun event l hadmitted => ?_, hids, fun lease hne => ?_, fun l hl => ?_, h.place,
    fun nowMs allowed execution => h.backpressure nowMs allowed execution, fun reply hreply crc32 => ?_,
    fun hdata hingress hreplies haction hreturned => ?_⟩
  · have hgranted : ∀ {out : SpeakerAssetsRuntimeEnqueueResult × SpeakerAssetsRuntimeMailbox},
        Reserves w.mailbox out.2 (granted out) → granted out = some l →
          w.mailbox.reserved = none ∧ out.2.reserved = some l := fun hr hg => by
      rw [hg] at hr
      cases hr with
      | granted hnone hsome _ _ _ _ => exact ⟨hnone, hsome⟩
    cases event with
    | usbFrame route bytes receivedMs =>
      exact hgranted (h.reserving.enqueueUsbFrame bytes receivedMs).2 hadmitted
    | wifiFrame route bytes receivedMs =>
      exact hgranted (h.reserving.enqueueWifiFrame bytes receivedMs).2 hadmitted
    | _ => cases hadmitted
  · exact (h.reserving.releaseLogicalRequest lease).2.2.1 hne
  · have hnodup : (start.admissions crypto events).Nodup := by
      refine hids.imp ?_
      rintro x _ hlt rfl
      exact UInt64.lt_irrefl _ hlt
    have hzero : start.waits l = 0 := rfl
    rw [hsum l, hzero, hnodup.count, if_pos hl]
  · have hsend := h.replies.sendable reply hreply
    exact ⟨hsend.usb crc32, hsend.wifi crc32⟩
  · cases hreserved : w.mailbox.reserved with
    | none => rfl
    | some l =>
      have hplace := h.place l hreserved
      simp [waiting, held, SpeakerAssetsRuntimeMailbox.leases, CoreView.waiting, CoreView.answered,
        SpeakerAssetsRuntimeCore.view, hdata, hingress, hreplies, haction, hreturned] at hplace

/-! ### Two runs -/

def emptyFrame : List UInt8 := List.replicate speakerAssetsFrameHeaderBytes 0

/-- A frame of a route the core does not know: its lease is given back. -/
def strayFrame : List RuntimeEvent :=
  [.wifiFrame (connection 1) emptyFrame 0, .importRecord, .coreStep 0 true none, .releaseLease]

theorem stray_frame_returned :
    ((init 1 1 0 0).run zeroCrypto strayFrame).mailbox.reserved = none ∧
      ((init 1 1 0 0).endings zeroCrypto strayFrame ⟨connection 1, 1⟩).length +
        ((init 1 1 0 0).run zeroCrypto strayFrame).waits ⟨connection 1, 1⟩ = 1 := by
  obtain ⟨-, -, -, hends, -, -, -, hempty⟩ := admission_slot_returns zeroCrypto 1 1 0 0 strayFrame
    (by decide +kernel)
  exact ⟨hempty (by decide +kernel) (by decide +kernel) (by decide +kernel) (by decide +kernel)
    (by decide +kernel), hends _ (by decide +kernel)⟩

/-- The close of a route is imported, a frame of the route after it; the core's close forgets the frame. -/
def forgottenFrame : List RuntimeEvent :=
  [.routeClosed (connection 1), .importRecord, .wifiFrame (connection 1) emptyFrame 0, .importRecord,
    .coreStep 0 true none]

/-- Nothing is left of the frame, and its admission stays reserved. -/
theorem forgotten_frame_blocks :
    let w := (init 1 1 0 0).run zeroCrypto forgottenFrame
    ⟨connection 1, 1⟩ ∈ (init 1 1 0 0).admissions zeroCrypto forgottenFrame ∧
      (init 1 1 0 0).endings zeroCrypto forgottenFrame ⟨connection 1, 1⟩ = [] ∧
      w.mailbox.data = [] ∧ w.core.ingress = [] ∧ w.core.replies = [] ∧ w.core.pendingAction = none ∧
      w.returned = none ∧ w.mailbox.reserved = some ⟨connection 1, 1⟩ := by
  decide +kernel

end CodexKeyboard.SoundSync.RuntimeWorld
