import CodexKeyboard.SoundSync.Reservation

/-! The reserved admission is in one place, over every run.

    The frame of the reserved admission waits in exactly one of the mailbox, the core's ingress and the
    pending action, or it has exactly one reply, or the supervisor is giving its lease back. One step
    changes the count of what waits by what it ended and what it admitted. -/

namespace CodexKeyboard.SoundSync.RuntimeWorld

open SpeakerAssetsRuntimeMailbox (Reserving Reserves granted Later)

variable {crypto : SoundCrypto} {w w' : RuntimeWorld} {l : Lease}

/-! ### Admissions and their ends -/

/-- The admissions that have no reply yet. -/
def waiting (w : RuntimeWorld) : List Lease := w.mailbox.leases ++ w.core.view.waiting

/-- The admissions that have a reply, or are about to be given back. -/
def held (w : RuntimeWorld) : List Lease := w.core.view.answered ++ w.returned.toList

/-- How often the frame of a reserved admission waits. -/
def waits (w : RuntimeWorld) (l : Lease) : ℕ :=
  if w.mailbox.reserved = some l then w.waiting.count l else 0

/-- The admission an event grants to the frame it queues. -/
def admitted (w : RuntimeWorld) : RuntimeEvent → Option Lease
  | .usbFrame route bytes receivedMs => granted (w.mailbox.enqueueUsbFrame route bytes receivedMs)
  | .wifiFrame route bytes receivedMs => granted (w.mailbox.enqueueWifiFrame route bytes receivedMs)
  | _ => none

/-- A queued reply carries the lease, a step of the core gives it back, or a close takes the reservation
    away, of its route or of all of them. -/
inductive Ending
  | replied
  | released
  | revoked
deriving DecidableEq

/-- How an event ends an admission that waits, if it does. -/
def ending (crypto : SoundCrypto) (w : RuntimeWorld) (event : RuntimeEvent) (l : Lease) : Option Ending :=
  if w.waits l = 0 then none
  else
    match event with
    | .routeClosed _ =>
      if (w.apply crypto event).mailbox.reserved = some l then none else some .revoked
    | .coreStep .. =>
      if l ∈ (w.apply crypto event).core.replies.map (·.lease) then some .replied
      else if (w.apply crypto event).returned = some l then some .released
      else none
    | _ => none

/-- No frame is imported while the core's ingress is full, no close is carried out while the core has
    something of the reserved admission of its route, and no reply is accepted under a number that a
    later reply has again. -/
def AdmissionSafe (w : RuntimeWorld) : RuntimeEvent → Prop
  | .importRecord => w.returned = none → ∀ record ∈ w.nextRecord,
    record.kind = .usbFrame ∨ record.kind = .wifiFrame →
    w.core.ingress.length < speakerAssetsRuntimeIngressCapacity
  | .coreStep .. => w.bootRead = false → w.returned = none → ∀ l ∈ w.mailbox.reserved,
    w.core.lifecycle.head? = some ⟨.closed, l.route⟩ →
    l ∉ w.core.view.waiting ∧ l ∉ w.core.view.answered
  | .usbReplyAccepted endpointEpoch sequence => ∀ lease ∈ w.usbAccepted endpointEpoch sequence,
    ∀ reply ∈ w.core.replies, reply.sequence = sequence → reply.lease = lease
  | .wifiReplyAccepted route sequence => ∀ lease ∈ w.wifiAccepted route sequence,
    ∀ reply ∈ w.core.replies, reply.sequence = sequence → reply.lease = lease
  | _ => True

instance (w : RuntimeWorld) : DecidablePred w.AdmissionSafe
  | .importRecord => inferInstanceAs (Decidable (_ → ∀ record ∈ w.nextRecord, _ → _ < _))
  | .coreStep .. => inferInstanceAs (Decidable (_ → _ → ∀ l ∈ w.mailbox.reserved, _ → ¬ _ ∧ ¬ _))
  | .usbReplyAccepted epoch sequence =>
    inferInstanceAs (Decidable (∀ lease ∈ w.usbAccepted epoch sequence, ∀ reply ∈ w.core.replies, _ → _))
  | .wifiReplyAccepted route sequence =>
    inferInstanceAs (Decidable (∀ lease ∈ w.wifiAccepted route sequence, ∀ reply ∈ w.core.replies, _ → _))
  | .routeOpened _ | .routeClosed _ | .usbFrame .. | .wifiFrame .. | .bootRead _
  | .releaseLease | .usbReplyOffered _ | .usbReplyForgotten => .isTrue trivial

/-! ### The invariant -/

/-- Every admission that is known anywhere. -/
def known (w : RuntimeWorld) : List Lease :=
  w.waiting ++ w.held ++ (w.queuedReply.map (·.2)).toList

/-- What every state of a run keeps of its admissions. -/
structure Admitting (w : RuntimeWorld) : Prop where
  inv : w.RouteInv
  reserving : w.mailbox.Reserving
  fresh : ∀ x, x ∈ w.known ∨ w.mailbox.reserved = some x →
    w.mailbox.nextAdmissionId = 0 ∨ x.admissionId < w.mailbox.nextAdmissionId
  unique : ∀ l, w.mailbox.reserved = some l → ∀ x ∈ w.waiting, x.admissionId = l.admissionId → x = l
  place : ∀ l, w.mailbox.reserved = some l → w.waiting.count l + w.held.count l = 1
  offered : ∀ l sequence, w.mailbox.reserved = some l → w.queuedReply = some (sequence, l) →
    w.returned = some l ∨ ∃ reply ∈ w.core.replies, reply.lease = l ∧ reply.sequence = sequence
  replies : w.core.view.RepliesOk

/-- What one step does to the admissions: those that wait are ended, or wait on. -/
def Accounts (crypto : SoundCrypto) (w : RuntimeWorld) (event : RuntimeEvent) : Prop :=
  ∀ l, (w.ending crypto event l).toList.length + (w.apply crypto event).waits l =
    w.waits l + (w.admitted event).toList.count l

/-- The reserved admission stays, wherever it goes, or is given up; nothing new comes in. -/
structure Shifts (w w' : RuntimeWorld) : Prop where
  inv : w'.RouteInv
  reserving : w'.mailbox.Reserving
  reserved : w'.mailbox.reserved = w.mailbox.reserved ∨ w'.mailbox.reserved = none
  next : Later w.mailbox.nextAdmissionId w'.mailbox.nextAdmissionId
  known : ∀ x ∈ w'.known, x ∈ w.known ∨ x.admissionId = 0
  waiting : ∀ x ∈ w'.waiting, x ∈ w.waiting ∨ x.admissionId = 0
  tally : ∀ l, w'.mailbox.reserved = some l →
    w'.waiting.count l + w'.held.count l = w.waiting.count l + w.held.count l
  offered : ∀ l sequence, w'.mailbox.reserved = some l → w'.queuedReply = some (sequence, l) →
    w'.returned = some l ∨ ∃ reply ∈ w'.core.replies, reply.lease = l ∧ reply.sequence = sequence
  replies : w'.core.view.RepliesOk

theorem lt_next (next : UInt64) : next + 1 = 0 ∨ next < next + 1 := by
  by_cases hwrap : next + 1 = 0
  · exact Or.inl hwrap
  · right
    rw [UInt64.lt_iff_toNat_lt, UInt64.toNat_add]
    have hbound := next.toNat_lt
    have hsum : (next + 1).toNat ≠ 0 := fun h0 => hwrap (UInt64.toNat_inj.1 h0)
    rw [UInt64.toNat_add] at hsum
    simp only [UInt64.toNat_one] at hsum ⊢
    omega

theorem fresh_later {next next' : UInt64} {x : Lease} (h : Later next next')
    (hx : next = 0 ∨ x.admissionId < next) : next' = 0 ∨ x.admissionId < next' := by
  rcases h with rfl | ⟨hne, rfl⟩
  · exact hx
  · exact (lt_next next).imp_right (UInt64.lt_trans (hx.resolve_left hne))

theorem Admitting.shift (h : w.Admitting) (hs : w.Shifts w') : w'.Admitting := by
  have hold : ∀ l, w'.mailbox.reserved = some l → w.mailbox.reserved = some l := fun l hl => by
    rcases hs.reserved with hr | hr
    · exact hr ▸ hl
    · exact absurd (hr.symm.trans hl) nofun
  refine ⟨hs.inv, hs.reserving, fun x hx => ?_, fun l hl x hx hid => ?_, fun l hl => ?_, hs.offered,
    hs.replies⟩
  · have hzero : x.admissionId = 0 → w'.mailbox.nextAdmissionId = 0 ∨
        x.admissionId < w'.mailbox.nextAdmissionId := fun h0 => by
      rw [h0]
      by_cases hn : w'.mailbox.nextAdmissionId = 0
      · exact Or.inl hn
      · exact Or.inr (UInt64.pos_iff_ne_zero.2 hn)
    rcases hx with hx | hx
    · rcases hs.known x hx with hx | hx
      · exact fresh_later hs.next (h.fresh x (Or.inl hx))
      · exact hzero hx
    · exact fresh_later hs.next (h.fresh x (Or.inr (hold x hx)))
  · rcases hs.waiting x hx with hx | hx
    · exact h.unique l (hold l hl) x hx hid
    · exact absurd (hid.symm.trans hx) (hs.reserving.ids l hl)
  · rw [hs.tally l hl]
    exact h.place l (hold l hl)

/-- A call that grants no admission. -/
theorem Admitting.called {m : SpeakerAssetsRuntimeMailbox} (h : w.Admitting)
    (hinv : RouteInv { w with mailbox := m }) (hm : m.Reserving)
    (hr : Reserves w.mailbox m none) : Admitting { w with mailbox := m } := by
  have hreserved : m.reserved = w.mailbox.reserved ∨ m.reserved = none := by
    cases hr with
    | kept hr _ _ _ => exact Or.inl hr
    | cleared hr _ _ => exact Or.inr hr
  have hnext : Later w.mailbox.nextAdmissionId m.nextAdmissionId := by
    cases hr with
    | kept _ hn _ _ => exact hn
    | cleared _ hn _ => exact hn
  have hsub : ∀ x ∈ m.leases, x ∈ w.mailbox.leases ∨ x.admissionId = 0 := by
    cases hr with
    | kept _ _ _ hs => exact hs
    | cleared _ _ hs => exact hs
  have hcount : ∀ l, m.reserved = some l → w.mailbox.reserved = some l ∧
      m.leases.count l = w.mailbox.leases.count l := fun l hl => by
    cases hr with
    | kept hr _ hc _ => exact ⟨hr ▸ hl, hc l (hr ▸ hl)⟩
    | cleared hr _ _ => exact absurd (hr.symm.trans hl) nofun
  have hwaiting : ∀ x ∈ waiting { w with mailbox := m }, x ∈ w.waiting ∨ x.admissionId = 0 := by
    intro x hx
    rcases List.mem_append.1 hx with hx | hx
    · exact (hsub x hx).imp_left (List.mem_append_left _)
    · exact Or.inl (List.mem_append_right _ hx)
  refine h.shift ⟨hinv, hm, hreserved, hnext, fun x hx => ?_, hwaiting, fun l hl => ?_,
    fun l sequence hl => h.offered l sequence (hcount l hl).1, h.replies⟩
  · simp only [RuntimeWorld.known, List.mem_append] at hx ⊢
    rcases hx with (hx | hx) | hx
    · exact (hwaiting x hx).imp_left fun hx => Or.inl (Or.inl hx)
    · exact Or.inl (Or.inl (Or.inr hx))
    · exact Or.inl (Or.inr hx)
  · simp only [RuntimeWorld.waiting, List.count_append, (hcount l hl).2]
    rfl

/-- A call that grants an admission. -/
theorem Admitting.grants {m : SpeakerAssetsRuntimeMailbox} (h : w.Admitting)
    (hinv : RouteInv { w with mailbox := m }) (hm : m.Reserving)
    (hr : Reserves w.mailbox m (some l)) : Admitting { w with mailbox := m } ∧
      m.reserved = some l ∧ w.mailbox.reserved = none ∧
      (waiting { w with mailbox := m }).count l = 1 := by
  cases hr with
  | granted hnone hsome hne hid hnext hleases =>
    -- the new admission is known nowhere yet
    have hnew : ∀ x ∈ w.known, x.admissionId ≠ l.admissionId := fun x hx heq => by
      have hlt := (h.fresh x (Or.inl hx)).resolve_left hne
      rw [heq, hid] at hlt
      exact UInt64.lt_irrefl _ hlt
    have hwaiting : (waiting { w with mailbox := m }).Perm (l :: w.waiting) := by
      simp only [RuntimeWorld.waiting, hleases, List.append_assoc, List.singleton_append]
      exact List.perm_middle
    have hold : w.waiting.count l = 0 := List.count_eq_zero.2 fun hmem =>
      hnew l (by simp [RuntimeWorld.known, hmem]) rfl
    have hone : (waiting { w with mailbox := m }).count l = 1 := by
      rw [hwaiting.count_eq, List.count_cons_self, hold]
    have hheld : (held { w with mailbox := m }).count l = 0 := List.count_eq_zero.2 fun hmem =>
      hnew l (by
        have hmem : l ∈ w.held := hmem
        simp [RuntimeWorld.known, hmem]) rfl
    refine ⟨⟨hinv, hm, fun x hx => ?_, fun l' hl' x hx hxid => ?_, fun l' hl' => ?_,
      fun l' sequence hl' hq => ?_, h.replies⟩, hsome, hnone, hone⟩
    · have hlater : Later w.mailbox.nextAdmissionId m.nextAdmissionId := Or.inr ⟨hne, hnext⟩
      have hl : m.nextAdmissionId = 0 ∨ l.admissionId < m.nextAdmissionId := by
        rw [hid, hnext]
        exact lt_next _
      rcases hx with hx | hx
      · simp only [RuntimeWorld.known, List.mem_append] at hx
        rcases hx with (hx | hx) | hx
        · rcases List.mem_cons.1 (hwaiting.mem_iff.1 hx) with rfl | hx
          · exact hl
          · exact fresh_later hlater (h.fresh x (Or.inl (by simp [RuntimeWorld.known, hx])))
        · have hx : x ∈ w.held := hx
          exact fresh_later hlater (h.fresh x (Or.inl (by simp [RuntimeWorld.known, hx])))
        · exact fresh_later hlater (h.fresh x (Or.inl (List.mem_append_right _ hx)))
      · obtain rfl := Option.some.inj (hsome.symm.trans hx)
        exact hl
    · obtain rfl := Option.some.inj (hsome.symm.trans hl')
      rcases List.mem_cons.1 (hwaiting.mem_iff.1 hx) with rfl | hx
      · rfl
      · exact absurd hxid (hnew x (by simp [RuntimeWorld.known, hx]))
    · obtain rfl := Option.some.inj (hsome.symm.trans hl')
      rw [hone, hheld]
    · obtain rfl := Option.some.inj (hsome.symm.trans hl')
      have hq : w.queuedReply = some (sequence, l) := hq
      exact absurd rfl (hnew l (by simp [RuntimeWorld.known, hq]))

/-! ### The core and the supervisor -/

/-- One step of the core. -/
theorem Admitting.coreStep (h : w.Admitting) (hreturned : w.returned = none)
    (hclosed : ∀ l, w.mailbox.reserved = some l → w.core.lifecycle.head? = some ⟨.closed, l.route⟩ →
      l ∉ w.core.view.waiting ∧ l ∉ w.core.view.answered) (nowMs : UInt32)
    (allowed : Bool) (execution : Option SpeakerAssetsActionExecutionResult)
    (hinv : (w.coreStep crypto nowMs allowed execution).RouteInv) :
    (w.coreStep crypto nowMs allowed execution).Admitting ∧
      ∀ l, w.mailbox.reserved = some l →
        (w.coreStep crypto nowMs allowed execution).waiting.count l ≤ w.waiting.count l := by
  have hout := @SpeakerAssetsRuntimeCore.step_spec _ crypto h.inv.linked h.inv.answerable nowMs
    allowed execution
  unfold RuntimeWorld.coreStep at hinv ⊢
  generalize w.core.step crypto nowMs allowed execution = out at hout hinv
  obtain ⟨result, release, core⟩ := out
  obtain ⟨hstep, -⟩ := hout
  dsimp only at hstep hinv ⊢
  have hmoved := hstep.moved h.inv.linked h.replies
  have hheld : w.held = w.core.view.answered := by simp [held, hreturned]
  have hcount : ∀ l, w.mailbox.reserved = some l →
      core.view.waiting.count l + core.view.answered.count l + release.toList.count l =
        w.core.view.waiting.count l + w.core.view.answered.count l ∧
      core.view.waiting.count l ≤ w.core.view.waiting.count l := fun l hl => by
    have hplace := h.place l hl
    rw [hheld, RuntimeWorld.waiting, List.count_append] at hplace
    have hid := h.reserving.ids l hl
    have hunique : ∀ x ∈ w.core.view.waiting, x.admissionId = l.admissionId → x = l := fun x hx =>
      h.unique l hl x (List.mem_append_right _ hx)
    rcases hmoved.count hid hunique (by omega) with ⟨hc, hw, ha, hrelease⟩ | hcount
    · obtain ⟨hw0, ha0⟩ := hclosed l hl hc
      rw [List.count_eq_zero.2 hw0, List.count_eq_zero.2 ha0, List.count_eq_zero.2 (hw0 ∘ @hw l),
        List.count_eq_zero.2 (ha0 ∘ @ha l), hrelease]
      exact ⟨rfl, le_rfl⟩
    · exact hcount
  have hknown : ∀ x, x ∈ core.view.waiting ∨ x ∈ core.view.answered ∨ release = some x →
      x ∈ w.known := fun x hx => by
    rcases hmoved.known hx with hx | hx <;>
      simp [RuntimeWorld.known, RuntimeWorld.waiting, held, hx]
  refine ⟨h.shift ⟨hinv, h.reserving, Or.inl rfl, Or.inl rfl, fun x hx => Or.inl ?_,
    fun x hx => Or.inl ?_, fun l hl => ?_, fun l sequence hl hq => ?_, h.replies.step hstep⟩,
    fun l hl => ?_⟩
  · simp only [RuntimeWorld.known, RuntimeWorld.waiting, held, List.mem_append, Option.mem_toList] at hx
    rcases hx with ((hx | hx) | hx | hx) | hx
    · simp [RuntimeWorld.known, RuntimeWorld.waiting, hx]
    · exact hknown x (Or.inl hx)
    · exact hknown x (Or.inr (Or.inl hx))
    · exact hknown x (Or.inr (Or.inr hx))
    · simp [RuntimeWorld.known, hx]
  · rcases List.mem_append.1 hx with hx | hx
    · exact List.mem_append_left _ hx
    · exact List.mem_append_right _ (hmoved.subset hx)
  · have hcount := (hcount l hl).1
    rw [hheld]
    simp only [RuntimeWorld.waiting, held, List.count_append]
    omega
  · right
    obtain ⟨reply, hreply, hlease, hsequence⟩ := (h.offered l sequence hl hq).resolve_left
      (by simp [hreturned])
    refine ⟨reply, hstep.reply_kept hreply fun hc => ?_, hlease, hsequence⟩
    have hroute : l.route = reply.route := hlease ▸ h.replies.own reply hreply
    refine (hclosed l hl (hroute ▸ hc)).2 (hlease ▸ ?_)
    exact List.mem_map_of_mem hreply
  · have hcount := (hcount l hl).2
    simp only [RuntimeWorld.waiting, List.count_append]
    omega

/-- The lease about to be given back is given back. -/
theorem Admitting.releaseLease (h : w.Admitting) (hinv : w.releaseLease.RouteInv) :
    w.releaseLease.Admitting ∧ ∀ l, w.releaseLease.waits l = w.waits l := by
  unfold RuntimeWorld.releaseLease at hinv ⊢
  split at hinv
  · exact ⟨h, fun _ => rfl⟩
  rename_i lease hlease
  obtain ⟨hm, hr, hother, hsame⟩ := h.reserving.releaseLogicalRequest lease
  by_cases hreserved : w.mailbox.reserved = some lease
  · have hnone := hsame hreserved
    have hheld : 1 ≤ w.held.count lease := by
      refine List.count_pos_iff.2 ?_
      simp [held, hlease]
    have hplace := h.place lease hreserved
    have hsub : ∀ x ∈ (w.mailbox.releaseLogicalRequest lease).2.leases,
        x ∈ w.mailbox.leases ∨ x.admissionId = 0 := by
      cases hr with
      | kept _ _ _ hs => exact hs
      | cleared _ _ hs => exact hs
    have hnext : Later w.mailbox.nextAdmissionId
        (w.mailbox.releaseLogicalRequest lease).2.nextAdmissionId := by
      cases hr with
      | kept _ hn _ _ => exact hn
      | cleared _ hn _ => exact hn
    have hwaiting : ∀ x ∈ (w.mailbox.releaseLogicalRequest lease).2.leases ++ w.core.view.waiting,
        x ∈ w.waiting ∨ x.admissionId = 0 := fun x hx => by
      rcases List.mem_append.1 hx with hx | hx
      · exact (hsub x hx).imp_left (List.mem_append_left _)
      · exact Or.inl (List.mem_append_right _ hx)
    refine ⟨h.shift ⟨hinv, hm, Or.inr hnone, hnext, fun x hx => ?_, hwaiting,
      fun l hl => absurd (hnone.symm.trans hl) nofun, fun l _ hl => absurd (hnone.symm.trans hl) nofun,
      h.replies⟩, fun l => ?_⟩
    · simp only [RuntimeWorld.known, List.mem_append] at hx ⊢
      rcases hx with (hx | hx) | hx
      · exact (hwaiting x hx).imp_left fun hx => Or.inl (Or.inl hx)
      · refine Or.inl (Or.inl (Or.inr ?_))
        simp only [held, Option.toList_none, List.append_nil] at hx
        exact List.mem_append_left _ hx
      · exact Or.inl (Or.inr hx)
    · have hzero : w.waits l = 0 := by
        unfold waits
        split_ifs with hl
        · obtain rfl := Option.some.inj (hreserved.symm.trans hl)
          omega
        · rfl
      rw [hzero, waits, if_neg]
      exact fun hl => absurd (hnone.symm.trans hl) nofun
  · rw [hother hreserved] at hinv ⊢
    refine ⟨h.shift ⟨hinv, h.reserving, Or.inl rfl, Or.inl rfl, fun x hx => Or.inl ?_,
      fun x hx => Or.inl hx, fun l hl => ?_, fun l sequence hl hq => ?_, h.replies⟩,
      fun l => rfl⟩
    · simp only [RuntimeWorld.known, List.mem_append] at hx ⊢
      rcases hx with (hx | hx) | hx
      · exact Or.inl (Or.inl hx)
      · refine Or.inl (Or.inr ?_)
        simp only [held, Option.toList_none, List.append_nil] at hx
        exact List.mem_append_left _ hx
      · exact Or.inr hx
    · have hne : lease ≠ l := fun heq => hreserved (heq ▸ hl)
      have hzero : [lease].count l = 0 := List.count_eq_zero.2 (by simpa using hne.symm)
      simp only [held, hlease, Option.toList_some, Option.toList_none, List.append_nil, List.count_append,
        hzero, Nat.add_zero]
      rfl
    · refine Or.inr ((h.offered l sequence hl hq).resolve_left ?_)
      rw [hlease]
      exact fun heq => hreserved (Option.some.inj heq ▸ hl)

/-- A taken record leaves a mailbox that reserves what it reserved. -/
theorem reserving_taken {m : SpeakerAssetsRuntimeMailbox} (h : w.mailbox.Reserving) (hwhole : m.Whole)
    (hreserved : m.reserved = w.mailbox.reserved)
    (hqueued : m.logicalFrameRequestQueued = w.mailbox.logicalFrameRequestQueued)
    (hfail : m.resourceSyncFailClosed = w.mailbox.resourceSyncFailClosed)
    (hrevoke : m.revokeAll.isSome → w.mailbox.reserved = none)
    (hpending : ∀ q, w.mailbox.closePending q = false → m.closePending q = false)
    (hdata : ∀ record ∈ m.data, record ∈ w.mailbox.data) : m.Reserving where
  whole := hwhole
  queued hr := hqueued ▸ h.queued (hreserved ▸ hr)
  ids l hl := h.ids l (hreserved ▸ hl)
  revoked hr := hreserved.trans (hrevoke hr)
  failClosed hf := hreserved.trans (h.failClosed (hfail ▸ hf))
  unclosed l hl := hpending _ (h.unclosed l (hreserved ▸ hl))
  frames record hrecord := h.frames record (hdata record hrecord)

/-- A lifecycle record that is imported moves no admission. -/
theorem Admitting.lifecycle {m : SpeakerAssetsRuntimeMailbox} (h : w.Admitting)
    {lifecycle : List LifecycleRecord}
    (hinv : RouteInv { w with mailbox := m, core := { w.core with lifecycle := lifecycle } })
    (hm : m.Reserving) (hreserved : m.reserved = w.mailbox.reserved)
    (hnext : m.nextAdmissionId = w.mailbox.nextAdmissionId)
    (hleases : ∀ l, l.admissionId ≠ 0 → m.leases.count l = w.mailbox.leases.count l) :
    Admitting { w with mailbox := m, core := { w.core with lifecycle := lifecycle } } ∧
      ∀ l, waits { w with mailbox := m, core := { w.core with lifecycle := lifecycle } } l = w.waits l := by
  have hmem : ∀ x, x.admissionId ≠ 0 → (x ∈ m.leases ↔ x ∈ w.mailbox.leases) := fun x hx => by
    rw [← List.count_pos_iff, ← List.count_pos_iff, hleases x hx]
  have hsub : ∀ x ∈ m.leases, x ∈ w.mailbox.leases ∨ x.admissionId = 0 := fun x hx => by
    by_cases hid : x.admissionId = 0
    · exact Or.inr hid
    · exact Or.inl ((hmem x hid).1 hx)
  have hwaiting : ∀ x ∈ m.leases ++ w.core.view.waiting, x ∈ w.waiting ∨ x.admissionId = 0 :=
    fun x hx => by
      rcases List.mem_append.1 hx with hx | hx
      · exact (hsub x hx).imp_left (List.mem_append_left _)
      · exact Or.inl (List.mem_append_right _ hx)
  have hcount : ∀ l, m.reserved = some l →
      (m.leases ++ w.core.view.waiting).count l = w.waiting.count l := fun l hl => by
    rw [RuntimeWorld.waiting, List.count_append, List.count_append, hleases l (hm.ids l hl)]
  refine ⟨h.shift ⟨hinv, hm, Or.inl hreserved, Or.inl hnext, fun x hx => ?_, hwaiting, fun l hl => ?_,
    fun l sequence hl hq => h.offered l sequence (hreserved ▸ hl) hq,
    h.replies.of_subset (fun _ h => h) rfl rfl⟩,
    fun l => ?_⟩
  · simp only [RuntimeWorld.known, List.mem_append] at hx ⊢
    rcases hx with (hx | hx) | hx
    · exact (hwaiting x hx).imp_left fun hx => Or.inl (Or.inl hx)
    · exact Or.inl (Or.inl (Or.inr hx))
    · exact Or.inl (Or.inr hx)
  · exact congrArg (· + _) (hcount l hl)
  · show (if m.reserved = some l then (m.leases ++ w.core.view.waiting).count l else 0) = w.waits l
    rw [waits, hreserved]
    split_ifs with hl
    · exact hcount l (hreserved.trans hl)
    · rfl

/-- A frame goes from the mailbox to the core. -/
theorem Admitting.frame (h : w.Admitting) {record : SpeakerAssetsRuntimeMailboxRecord}
    {data : List SpeakerAssetsRuntimeMailboxRecord} (hdata : w.mailbox.data = record :: data)
    {entry : IngressRecord}
    (hentry : entry.lease = record.lease)
    (hm : SpeakerAssetsRuntimeMailbox.Reserving { w.mailbox with data := data })
    (hinv : RouteInv { w with mailbox := { w.mailbox with data := data }
                              core := { w.core with ingress := w.core.ingress ++ [entry] } }) :
    Admitting { w with mailbox := { w.mailbox with data := data }
                       core := { w.core with ingress := w.core.ingress ++ [entry] } } ∧
      ∀ l, waits { w with mailbox := { w.mailbox with data := data }
                          core := { w.core with ingress := w.core.ingress ++ [entry] } } l = w.waits l := by
  let w' : RuntimeWorld := { w with mailbox := { w.mailbox with data := data }
                                    core := { w.core with ingress := w.core.ingress ++ [entry] } }
  have hwaiting : w'.waiting.Perm w.waiting := by
    have hleases : w.mailbox.leases = record.lease :: w'.mailbox.leases := by
      rw [SpeakerAssetsRuntimeMailbox.leases, hdata]
      rfl
    have hcore : w'.core.view.waiting.Perm (record.lease :: w.core.view.waiting) := by
      show ((w.core.ingress ++ [entry]).map IngressRecord.lease ++ _).Perm _
      rw [List.map_append, List.map_singleton, hentry, List.append_assoc]
      exact List.perm_middle
    rw [RuntimeWorld.waiting, RuntimeWorld.waiting, hleases]
    exact (hcore.append_left _).trans List.perm_middle
  refine ⟨@Admitting.shift w w' h ⟨hinv, hm, Or.inl rfl, Or.inl rfl, fun x hx => Or.inl ?_,
    fun x hx => Or.inl (hwaiting.mem_iff.1 hx), fun l hl => ?_, h.offered,
    h.replies.of_subset (fun _ h => h) rfl rfl⟩, fun l => ?_⟩
  · simp only [RuntimeWorld.known, List.mem_append, hwaiting.mem_iff] at hx ⊢
    exact hx
  · rw [hwaiting.count_eq]
    rfl
  · show w'.waits l = w.waits l
    rw [waits, waits, hwaiting.count_eq]

/-- An importable frame finds its place in an ingress that has one. -/
theorem importFrame_accepted {c : SpeakerAssetsRuntimeCore} {record : SpeakerAssetsRuntimeMailboxRecord}
    (hrecord : SpeakerAssetsRuntimeMailbox.Importable record) (hlive : record.cancelled = false)
    (hkind : record.kind = .usbFrame ∨ record.kind = .wifiFrame)
    (hroom : c.ingress.length < speakerAssetsRuntimeIngressCapacity) :
    ∃ entry : IngressRecord, entry.lease = record.lease ∧
      (c.importMailboxRecord record).2 = { c with ingress := c.ingress ++ [entry] } := by
  have hingress : ∀ kind, 0 < record.bytes.length →
      record.bytes.length ≤ speakerAssetsWifiFrameMaxBytes →
      (c.enqueueIngress kind record.route record.bytes record.receivedMs record.admissionId).2 =
        { c with ingress := c.ingress ++
          [⟨kind, record.route, record.admissionId, record.receivedMs, record.bytes⟩] } := by
    intro kind hpos hmax
    have hempty : record.bytes.isEmpty = false := by
      rw [List.isEmpty_eq_false_iff]
      exact List.ne_nil_of_length_pos hpos
    unfold SpeakerAssetsRuntimeCore.enqueueIngress
    simp [hrecord.shape, hempty, Nat.not_lt.2 hmax, Nat.not_le.2 hroom]
  have hid := hrecord.admitted
  unfold SpeakerAssetsRuntimeCore.importMailboxRecord
  rcases hkind with hkind | hkind
  · obtain ⟨htransport, hlength⟩ := hrecord.usb hkind
    refine ⟨⟨.usbFrame, record.route, record.admissionId, record.receivedMs, record.bytes⟩, rfl, ?_⟩
    simp only [hlive, hkind, hid, htransport, hlength, Bool.false_eq_true, if_false, ne_eq,
      not_true_eq_false, or_self]
    exact hingress _ (hlength ▸ by decide) (hlength ▸ by decide)
  · obtain ⟨htransport, hmin, hmax⟩ := hrecord.wifi hkind
    refine ⟨⟨.wifiFrame, record.route, record.admissionId, record.receivedMs, record.bytes⟩, rfl, ?_⟩
    simp only [hlive, hkind, hid, htransport, Nat.not_lt.2 hmin, Nat.not_lt.2 hmax, Bool.false_eq_true,
      if_false, ne_eq, not_true_eq_false, or_self]
    exact hingress _ (Nat.lt_of_lt_of_le (by decide) hmin) hmax

theorem Admitting.importRecord (h : w.Admitting)
    (hsafe : ∀ record ∈ w.nextRecord, record.kind = .usbFrame ∨ record.kind = .wifiFrame →
      w.core.ingress.length < speakerAssetsRuntimeIngressCapacity)
    (hinv : w.importOneMailboxRecord.RouteInv) :
    w.importOneMailboxRecord.Admitting ∧ ∀ l, w.importOneMailboxRecord.waits l = w.waits l := by
  unfold nextRecord at hsafe
  unfold importOneMailboxRecord at hinv ⊢
  have hspec := SpeakerAssetsRuntimeMailbox.takeNext_spec h.inv.whole
  generalize w.mailbox.takeNext = out at hspec hsafe hinv
  have hpending : ∀ {m : SpeakerAssetsRuntimeMailbox}, (∀ q, m.closePending q = true →
      w.mailbox.closePending q = true) → ∀ q, w.mailbox.closePending q = false →
      m.closePending q = false := fun hp q hq => by
    rw [← Bool.not_eq_true] at hq ⊢
    exact fun h => hq (hp q h)
  cases hspec with
  | @revokeAll route hr =>
    have hnone : w.mailbox.reserved = none := h.reserving.revoked (by simp [hr])
    obtain ⟨bits, heq, -, -⟩ := SpeakerAssetsRuntimeCore.foldl_remember (c := w.core)
      ((if route.shapeIsValid then [route] else []) ++ w.core.knownRoutes)
    have hcore : w.core.revokeAllRoutes route = { w.core with
        closedRouteFilter := bits, session := w.core.session.allRoutesClosed, lifecycle := []
        ingress := [], replies := [], activeRoutes := [], sessionPartial := none
        sessionLease := none } := by
      unfold SpeakerAssetsRuntimeCore.revokeAllRoutes
      dsimp only
      rw [heq]
    have himport : (w.core.importMailboxRecord { kind := .allRoutesClosed, route := route }).2 = _ :=
      hcore
    dsimp only at hinv ⊢
    rw [himport] at hinv ⊢
    refine ⟨h.shift ⟨hinv, ?_, Or.inl rfl, Or.inl rfl, fun x hx => Or.inl ?_, fun x hx => Or.inl ?_,
      fun l hl => absurd (hnone.symm.trans hl) nofun, fun l _ hl => absurd (hnone.symm.trans hl) nofun,
      h.replies.of_subset (List.forall_mem_nil _) rfl rfl⟩, fun l => ?_⟩
    · refine reserving_taken h.reserving hinv.whole rfl rfl rfl nofun (hpending fun q hq => ?_) fun _ h => h
      rw [SpeakerAssetsRuntimeMailbox.closePending_iff] at hq ⊢
      exact Or.inr (hq.resolve_left nofun)
    · simp only [RuntimeWorld.known, RuntimeWorld.waiting, held, CoreView.waiting, CoreView.answered,
        SpeakerAssetsRuntimeCore.view, List.map_nil, List.nil_append, List.mem_append] at hx ⊢
      rcases hx with ((hx | hx) | hx) | hx
      · exact Or.inl (Or.inl (Or.inl hx))
      · exact Or.inl (Or.inl (Or.inr (Or.inr hx)))
      · exact Or.inl (Or.inr (Or.inr hx))
      · exact Or.inr hx
    · simp only [RuntimeWorld.waiting, CoreView.waiting, SpeakerAssetsRuntimeCore.view, List.map_nil,
        List.nil_append, List.mem_append] at hx ⊢
      exact hx.imp_right Or.inr
    · unfold waits
      rw [hnone]
      rfl
  | @close route closes hr hc =>
    obtain ⟨result, lifecycle, heq, -⟩ := w.core.enqueueLifecycle_spec .closed route
    have hcore : (w.core.importMailboxRecord { kind := .routeClosed, route := route }).2 =
        { w.core with lifecycle := lifecycle } := by
      simp [SpeakerAssetsRuntimeCore.importMailboxRecord, heq]
    dsimp only at hinv ⊢
    rw [hcore] at hinv ⊢
    refine h.lifecycle hinv ?_ rfl rfl fun _ _ => rfl
    refine reserving_taken h.reserving hinv.whole rfl rfl rfl (fun hr' => by simp [hr] at hr')
      (hpending fun q hq => ?_) fun _ h => h
    rw [SpeakerAssetsRuntimeMailbox.closePending_iff] at hq ⊢
    rw [hc]
    exact hq.imp_right (Or.imp_left (List.mem_cons_of_mem _))
  | @data record data hr hc hd =>
    have hmem : record ∈ w.mailbox.data := hd ▸ List.mem_cons_self ..
    have hlive := h.inv.whole.live record hmem
    have hreserving : SpeakerAssetsRuntimeMailbox.Whole { w.mailbox with data := data } →
        SpeakerAssetsRuntimeMailbox.Reserving { w.mailbox with data := data } := fun hwhole => by
      have hsub : ∀ record ∈ data, record ∈ w.mailbox.data := fun _ h => hd ▸ List.mem_cons_of_mem _ h
      exact reserving_taken h.reserving hwhole rfl rfl rfl (fun hr' => by simp [hr] at hr')
        (fun q hq => SpeakerAssetsRuntimeMailbox.closePending_of_data (m := w.mailbox) rfl rfl hsub hq) hsub
    have hlifecycle : ∀ kind, (w.core.importMailboxRecord record =
          w.core.enqueueLifecycle kind record.route) → record.admissionId = 0 →
        RouteInv { w with mailbox := { w.mailbox with data := data }
                          core := (w.core.importMailboxRecord record).2 } →
        Admitting { w with mailbox := { w.mailbox with data := data }
                           core := (w.core.importMailboxRecord record).2 } ∧
          ∀ l, waits { w with mailbox := { w.mailbox with data := data }
                              core := (w.core.importMailboxRecord record).2 } l = w.waits l := by
      intro kind himport hid hinv
      obtain ⟨result, lifecycle, heq, -⟩ := w.core.enqueueLifecycle_spec kind record.route
      rw [himport, heq] at hinv ⊢
      refine h.lifecycle hinv (hreserving hinv.whole) rfl rfl fun l hl => ?_
      have hne : record.lease ≠ l := fun heq => hl (heq ▸ hid)
      simp [SpeakerAssetsRuntimeMailbox.leases, hd, hne]
    have hframe : record.kind = .usbFrame ∨ record.kind = .wifiFrame →
        RouteInv { w with mailbox := { w.mailbox with data := data }
                          core := (w.core.importMailboxRecord record).2 } →
        Admitting { w with mailbox := { w.mailbox with data := data }
                           core := (w.core.importMailboxRecord record).2 } ∧
          ∀ l, waits { w with mailbox := { w.mailbox with data := data }
                              core := (w.core.importMailboxRecord record).2 } l = w.waits l := by
      intro hkind hinv
      have hroom := hsafe record rfl hkind
      obtain ⟨entry, hentry, heq⟩ := importFrame_accepted (h.reserving.frames record hmem hkind) hlive
        hkind hroom
      rw [heq] at hinv ⊢
      exact h.frame hd hentry (hreserving hinv.whole) hinv
    cases hk : record.kind with
    | routeOpened =>
      refine hlifecycle .opened ?_ (h.inv.whole.ids record hmem (Or.inl hk)) hinv
      simp [SpeakerAssetsRuntimeCore.importMailboxRecord, hlive, hk]
    | routeClosed =>
      refine hlifecycle .closed ?_ (h.inv.whole.ids record hmem (Or.inr hk)) hinv
      simp [SpeakerAssetsRuntimeCore.importMailboxRecord, hlive, hk]
    | allRoutesClosed => exact absurd hk (h.inv.whole.kinds record hmem)
    | usbFrame => exact hframe (Or.inl hk) hinv
    | wifiFrame => exact hframe (Or.inr hk) hinv
  | nothing hr hc hd => exact ⟨h, fun _ => rfl⟩

/-- The reply of a lease leaves the core, and the lease is about to be given back. -/
theorem Admitting.retireReply (h : w.Admitting) (hreturned : w.returned = none) {sequence : UInt32}
    {lease : Lease} (queued : Option (UInt32 × Lease)) (hnumber : sequence ≠ 0)
    (hpresent : w.mailbox.reserved = some lease →
      ∃ reply ∈ w.core.replies, reply.lease = lease ∧ reply.sequence = sequence)
    (hsame : ∀ reply ∈ w.core.replies, reply.sequence = sequence → reply.lease = lease)
    (hlease : lease ∈ w.known) (hqueued : queued = w.queuedReply ∨ queued = none)
    (hinv : RouteInv { w.retireReply sequence lease with queuedReply := queued }) :
    Admitting { w.retireReply sequence lease with queuedReply := queued } ∧
      ∀ l, waits { w.retireReply sequence lease with queuedReply := queued } l = w.waits l := by
  unfold RuntimeWorld.retireReply SpeakerAssetsRuntimeCore.removeReplyIfSequence at hinv ⊢
  rw [if_neg hnumber] at hinv ⊢
  dsimp only at hinv ⊢
  have hsub : ∀ reply ∈ w.core.replies.eraseP (·.sequence = sequence), reply ∈ w.core.replies :=
    fun _ hr => List.mem_of_mem_eraseP hr
  -- what is erased is a reply of the lease
  have herased : w.core.replies.eraseP (·.sequence = sequence) = w.core.replies ∧
        w.mailbox.reserved ≠ some lease ∨
      (w.core.replies.map (·.lease)).Perm
        (lease :: (w.core.replies.eraseP (·.sequence = sequence)).map (·.lease)) := by
    by_cases hany : ∃ reply ∈ w.core.replies, reply.sequence = sequence
    · obtain ⟨reply, hreply, hsequence⟩ := hany
      obtain ⟨first, before, after, -, hfirst, hlist, herase⟩ :=
        List.exists_of_eraseP (p := fun r : SpeakerAssetsRuntimeReply => decide (r.sequence = sequence))
          hreply (by simpa using hsequence)
      right
      have hmem : first ∈ w.core.replies := by simp [hlist]
      rw [herase, hlist, List.map_append, List.map_cons, hsame first hmem (by simpa using hfirst),
        List.map_append]
      exact List.perm_middle
    · refine Or.inl ⟨List.eraseP_of_forall_not fun reply hr => ?_, fun hl => ?_⟩
      · simpa using fun heq => hany ⟨reply, hr, heq⟩
      · obtain ⟨reply, hreply, -, heq⟩ := hpresent hl
        exact hany ⟨reply, hreply, heq⟩
  refine ⟨h.shift ⟨hinv, h.reserving, Or.inl rfl, Or.inl rfl, fun x hx => Or.inl ?_,
    fun x hx => Or.inl hx, fun l hl => ?_, fun l number hl hq => ?_,
    h.replies.of_subset hsub rfl rfl⟩, fun l => rfl⟩
  · simp only [RuntimeWorld.known, held, List.mem_append, Option.toList_some,
      List.mem_singleton] at hx
    rcases hx with (hx | hx | rfl) | hx
    · have hx : x ∈ w.waiting := hx
      simp [RuntimeWorld.known, hx]
    · obtain ⟨reply, hreply, rfl⟩ := List.mem_map.1 hx
      have hx : reply.lease ∈ w.core.view.answered := List.mem_map_of_mem (hsub reply hreply)
      simp [RuntimeWorld.known, held, hx]
    · exact hlease
    · rcases hqueued with rfl | rfl
      · simp [RuntimeWorld.known, hx]
      · simp at hx
  · have hcount : ((w.core.replies.eraseP (·.sequence = sequence)).map (·.lease)).count l +
        [lease].count l = (w.core.replies.map (·.lease)).count l := by
      rcases herased with ⟨heq, hne⟩ | hperm
      · have hzero : [lease].count l = 0 :=
          List.count_eq_zero.2 (by simpa using fun heq : l = lease => hne (heq ▸ hl))
        rw [heq, hzero, Nat.add_zero]
      · simp [hperm.count_eq, List.count_cons]
    simp only [held, hreturned, Option.toList_some, Option.toList_none, List.append_nil,
      List.count_append]
    exact congrArg (_ + ·) hcount
  · by_cases heq : l = lease
    · exact Or.inl (congrArg some heq.symm)
    · right
      have hq : w.queuedReply = some (number, l) := by
        rcases hqueued with rfl | rfl
        · exact hq
        · cases hq
      obtain ⟨reply, hreply, rfl, hnum⟩ := (h.offered l number hl hq).resolve_left
        (by simp [hreturned])
      refine ⟨reply, (List.mem_eraseP_of_neg ?_).2 hreply, rfl, hnum⟩
      simpa using fun hseq => heq (hsame reply hreply hseq)

/-- What the endpoint holds, and whether a boot read runs, are not the admissions' business. -/
theorem Admitting.offer (h : w.Admitting) (bootRead : Bool) (queued : Option (UInt32 × Lease))
    (hqueued : queued = w.queuedReply ∨ queued = none ∨
      ∃ reply ∈ w.core.replies, queued = some (reply.sequence, reply.lease))
    (hinv : RouteInv { w with bootRead := bootRead, queuedReply := queued }) :
    Admitting { w with bootRead := bootRead, queuedReply := queued } := by
  refine h.shift ⟨hinv, h.reserving, Or.inl rfl, Or.inl rfl, fun x hx => Or.inl ?_,
    fun x hx => Or.inl hx, fun l hl => rfl, fun l number hl hq => ?_, h.replies⟩
  · rcases List.mem_append.1 hx with hx | hx
    · exact List.mem_append_left _ hx
    · rcases hqueued with rfl | rfl | ⟨reply, hreply, rfl⟩
      · exact List.mem_append_right _ hx
      · simp at hx
      · obtain rfl : x = reply.lease := by simpa using hx
        have hx : reply.lease ∈ w.core.view.answered := List.mem_map_of_mem hreply
        simp [RuntimeWorld.known, held, hx]
  · rcases hqueued with rfl | rfl | ⟨reply, hreply, rfl⟩
    · exact h.offered l number hl hq
    · cases hq
    · obtain ⟨rfl, rfl⟩ : reply.sequence = number ∧ reply.lease = l := by simpa using hq
      exact Or.inr ⟨reply, hreply, rfl, rfl⟩

/-! ### Every event -/

theorem waits_called {m : SpeakerAssetsRuntimeMailbox} (hr : Reserves w.mailbox m none)
    (hreserved : m.reserved = w.mailbox.reserved) (l : Lease) :
    waits { w with mailbox := m } l = w.waits l := by
  show (if m.reserved = some l then (m.leases ++ w.core.view.waiting).count l else 0) = w.waits l
  rw [waits, hreserved]
  split_ifs with hl
  · rw [RuntimeWorld.waiting, List.count_append, List.count_append]
    cases hr with
    | kept _ _ hc _ => rw [hc l hl]
    | cleared hnone _ _ => exact absurd (hnone.symm.trans (hreserved.trans hl)) nofun
  · rfl

theorem Admitting.waits_le_one (h : w.Admitting) (l : Lease) : w.waits l ≤ 1 := by
  unfold waits
  split_ifs with hl
  · have hplace := h.place l hl
    omega
  · exact Nat.zero_le _

/-- An event that ends nothing, admits nothing and moves nothing out of sight. -/
theorem accounts_of_waits {event : RuntimeEvent} (hadmitted : w.admitted event = none)
    (hending : ∀ l, w.ending crypto event l = none)
    (hwaits : ∀ l, (w.apply crypto event).waits l = w.waits l) : w.Accounts crypto event := by
  intro l
  rw [hending, hadmitted, hwaits]
  simp

/-- A frame of a callback. -/
theorem Admitting.frameCallback (h : w.Admitting)
    {out : SpeakerAssetsRuntimeEnqueueResult × SpeakerAssetsRuntimeMailbox}
    (hinv : RouteInv { w with mailbox := out.2 })
    (hout : out.2.Reserving ∧ Reserves w.mailbox out.2 (SpeakerAssetsRuntimeMailbox.granted out))
    (hkept : ∀ l, w.mailbox.reserved = some l → out.2.reserved = some l) :
    Admitting { w with mailbox := out.2 } ∧
      ∀ l, waits { w with mailbox := out.2 } l =
        w.waits l + (SpeakerAssetsRuntimeMailbox.granted out).toList.count l := by
  obtain ⟨hm, hr⟩ := hout
  cases hgranted : SpeakerAssetsRuntimeMailbox.granted out with
  | none =>
    rw [hgranted] at hr
    refine ⟨h.called hinv hm hr, fun l => ?_⟩
    rw [waits_called hr ?_]
    · simp
    · cases hreserved : w.mailbox.reserved with
      | some l => exact hkept l hreserved
      | none =>
        cases hr with
        | kept hsame _ _ _ => exact hsame.trans hreserved
        | cleared hnone _ _ => exact hnone
  | some x =>
    rw [hgranted] at hr
    obtain ⟨hadmitting, hsome, hnone, hone⟩ := h.grants hinv hm hr
    refine ⟨hadmitting, fun l => ?_⟩
    have hold : w.waits l = 0 := by
      unfold waits
      rw [hnone]
      rfl
    rw [hold, waits]
    by_cases hl : x = l
    · subst hl
      rw [if_pos hsome, hone]
      simp
    · rw [if_neg fun heq => hl (Option.some.inj (hsome.symm.trans heq))]
      simp [hl]

/-- A close of a route ends the admission it takes the reservation from. -/
theorem Admitting.routeClosed (h : w.Admitting) {route : SpeakerAssetsRouteToken}
    (hinv : (w.apply crypto (.routeClosed route)).RouteInv) :
    (w.apply crypto (.routeClosed route)).Admitting ∧ w.Accounts crypto (.routeClosed route) := by
  obtain ⟨hm, hr⟩ := @SpeakerAssetsRuntimeMailbox.Reserving.enqueueRouteClosed _ route h.reserving
  have hinv : RouteInv { w with mailbox := (w.mailbox.enqueueRouteClosed route).2 } := hinv
  refine ⟨h.called hinv hm hr, fun l => ?_⟩
  have hone := h.waits_le_one l
  have hadmitted : w.admitted (.routeClosed route) = none := rfl
  rw [hadmitted, Option.toList_none, List.count_nil, Nat.add_zero, ending]
  by_cases hsame : (w.mailbox.enqueueRouteClosed route).2.reserved = w.mailbox.reserved
  · have hwaits : (w.apply crypto (.routeClosed route)).waits l = w.waits l := waits_called hr hsame l
    rw [hwaits]
    split_ifs with h0 hl
    · simp
    · simp
    · refine absurd (hsame.trans ?_) hl
      by_contra hne
      exact h0 (if_neg hne)
  · have hnone : (w.apply crypto (.routeClosed route)).mailbox.reserved = none := by
      cases hr with
      | kept hkept _ _ _ => exact absurd hkept hsame
      | cleared hnone _ _ => exact hnone
    have hwaits : (w.apply crypto (.routeClosed route)).waits l = 0 := by
      rw [waits, hnone]
      rfl
    rw [hwaits, hnone, if_neg (Option.some_ne_none l).symm]
    split_ifs with h0
    · simp [h0]
    · simp only [Option.toList_some, List.length_singleton]
      omega

/-- A step of the core ends the admission that no longer waits. -/
theorem Admitting.stepAccounts (h : w.Admitting) {nowMs : UInt32} {allowed : Bool}
    {execution : Option SpeakerAssetsActionExecutionResult}
    (h' : (w.apply crypto (.coreStep nowMs allowed execution)).Admitting)
    (hreserved : (w.apply crypto (.coreStep nowMs allowed execution)).mailbox.reserved =
      w.mailbox.reserved)
    (hle : ∀ l, (w.apply crypto (.coreStep nowMs allowed execution)).waits l ≤ w.waits l) :
    w.Accounts crypto (.coreStep nowMs allowed execution) := by
  intro l
  have hadmitted : w.admitted (.coreStep nowMs allowed execution) = none := rfl
  rw [hadmitted, Option.toList_none, List.count_nil, Nat.add_zero, ending]
  have hle := hle l
  have hone := h.waits_le_one l
  generalize w.apply crypto (.coreStep nowMs allowed execution) = w' at h' hreserved hle
  by_cases h0 : w.waits l = 0
  · rw [if_pos h0]
    simp only [Option.toList_none, List.length_nil]
    omega
  rw [if_neg h0]
  have hl : w'.mailbox.reserved = some l := by
    rw [hreserved]
    by_contra hne
    exact h0 (if_neg hne)
  have hplace := h'.place l hl
  have hwaits : w'.waits l = w'.waiting.count l := if_pos hl
  rw [held, List.count_append] at hplace
  split_ifs with hreplied hreleased
  · have : 0 < w'.core.view.answered.count l := List.count_pos_iff.2 hreplied
    simp only [Option.toList_some, List.length_singleton]
    omega
  · have : w'.returned.toList.count l = 1 := by simp [hreleased]
    simp only [Option.toList_some, List.length_singleton]
    omega
  · have h₁ : w'.core.view.answered.count l = 0 := List.count_eq_zero.2 hreplied
    have h₂ : w'.returned.toList.count l = 0 := List.count_eq_zero.2 (by simpa using hreleased)
    simp only [Option.toList_none, List.length_nil]
    omega

/-- An open admits nothing and ends nothing. -/
theorem Admitting.routeOpened (h : w.Admitting) {route : SpeakerAssetsRouteToken}
    (hinv : (w.apply crypto (.routeOpened route)).RouteInv) :
    (w.apply crypto (.routeOpened route)).Admitting ∧
      ∀ l, (w.apply crypto (.routeOpened route)).waits l = w.waits l := by
  obtain ⟨hm, hr⟩ := @SpeakerAssetsRuntimeMailbox.Reserving.enqueueRouteOpened _ route h.reserving
  have hinv : RouteInv { w with mailbox := (w.mailbox.enqueueRouteOpened route).2 } := hinv
  exact ⟨h.called hinv hm hr,
    waits_called hr SpeakerAssetsRuntimeMailbox.enqueueRouteOpened_reserved⟩

/-- Nothing but a close and a step of the core ends an admission. -/
def mayEnd : RuntimeEvent → Bool
  | .routeClosed _ | .coreStep .. => true
  | _ => false

theorem ending_quiet {event : RuntimeEvent} (h : mayEnd event = false) (l : Lease) :
    w.ending crypto event l = none := by
  unfold ending
  by_cases h0 : w.waits l = 0
  · rw [if_pos h0]
  · rw [if_neg h0]
    cases event with
    | routeClosed route => cases h
    | coreStep nowMs allowed execution => cases h
    | _ => rfl

/-- The frame of a callback is accounted for. -/
theorem Admitting.frameEvent (h : w.Admitting) {event : RuntimeEvent}
    {out : SpeakerAssetsRuntimeEnqueueResult × SpeakerAssetsRuntimeMailbox}
    (heq : w.apply crypto event = { w with mailbox := out.2 }) (hadmitted : w.admitted event = granted out)
    (hending : ∀ l, w.ending crypto event l = none) (hinv : (w.apply crypto event).RouteInv)
    (hout : out.2.Reserving ∧ Reserves w.mailbox out.2 (granted out))
    (hkept : ∀ l, w.mailbox.reserved = some l → out.2.reserved = some l) :
    (w.apply crypto event).Admitting ∧ w.Accounts crypto event := by
  rw [heq] at hinv ⊢
  obtain ⟨hadmitting, hwaits⟩ := h.frameCallback hinv hout hkept
  refine ⟨hadmitting, fun l => ?_⟩
  rw [hending, hadmitted, heq, hwaits l]
  simp

theorem Admitting.apply (h : w.Admitting) {event : RuntimeEvent} (hsafe : w.AdmissionSafe event) :
    (w.apply crypto event).Admitting ∧ w.Accounts crypto event := by
  have hinv : (w.apply crypto event).RouteInv :=
    (@Closing.apply crypto w (fun _ => False) (fun _ => False) ⟨h.inv, fun _ _ hr => hr.elim⟩ event
      fun _ hmove => hmove.elim).inv
  cases event with
  | routeOpened route =>
    obtain ⟨h', hwaits⟩ := h.routeOpened hinv
    exact ⟨h', accounts_of_waits rfl (ending_quiet rfl) hwaits⟩
  | routeClosed route => exact h.routeClosed hinv
  | usbFrame route bytes receivedMs =>
    refine h.frameEvent rfl rfl (ending_quiet rfl) hinv
      (h.reserving.enqueueUsbFrame bytes receivedMs)
      fun l hl => ?_
    unfold SpeakerAssetsRuntimeMailbox.enqueueUsbFrame
    split_ifs
    · exact hl
    · exact SpeakerAssetsRuntimeMailbox.enqueueFrame_reserved receivedMs hl
  | wifiFrame route bytes receivedMs =>
    refine h.frameEvent rfl rfl (ending_quiet rfl) hinv
      (h.reserving.enqueueWifiFrame bytes receivedMs)
      fun l hl => ?_
    unfold SpeakerAssetsRuntimeMailbox.enqueueWifiFrame
    split_ifs
    · exact hl
    · exact SpeakerAssetsRuntimeMailbox.enqueueFrame_reserved receivedMs hl
  | bootRead inProgress =>
    exact ⟨h.offer inProgress w.queuedReply (Or.inl rfl) hinv,
      accounts_of_waits rfl (ending_quiet rfl) fun _ => rfl⟩
  | importRecord =>
    refine (fun hboth : _ ∧ ∀ l, (w.apply crypto .importRecord).waits l = w.waits l =>
      ⟨hboth.1, accounts_of_waits rfl (ending_quiet rfl) hboth.2⟩) ?_
    dsimp only [RuntimeWorld.apply] at hinv ⊢
    split_ifs at hinv ⊢ with hreturned
    · exact ⟨h, fun _ => rfl⟩
    · exact h.importRecord (hsafe (by simpa using hreturned)) hinv
  | coreStep nowMs allowed execution =>
    by_cases hidle : (w.bootRead || w.returned.isSome) = true
    · have heq : w.apply crypto (.coreStep nowMs allowed execution) = w := if_pos hidle
      exact ⟨heq.symm ▸ h, h.stepAccounts (heq.symm ▸ h) (heq.symm ▸ rfl) fun l => heq.symm ▸ le_rfl⟩
    · have heq : w.apply crypto (.coreStep nowMs allowed execution) =
          w.coreStep crypto nowMs allowed execution := if_neg hidle
      have hreturned : w.returned = none := by
        simp only [Bool.or_eq_true, not_or] at hidle
        simpa using hidle.2
      have hboot : w.bootRead = false := by
        simp only [Bool.or_eq_true, not_or] at hidle
        simpa using hidle.1
      obtain ⟨h', hle⟩ := h.coreStep hreturned (hsafe hboot hreturned) nowMs allowed execution (heq ▸ hinv)
      have hreserved : (w.coreStep crypto nowMs allowed execution).mailbox.reserved =
          w.mailbox.reserved := rfl
      refine ⟨heq.symm ▸ h', h.stepAccounts (heq.symm ▸ h') (heq.symm ▸ hreserved) fun l => ?_⟩
      rw [heq, waits, waits, hreserved]
      split_ifs with hl
      · exact hle l hl
      · exact le_rfl
  | releaseLease =>
    obtain ⟨h', hwaits⟩ := h.releaseLease hinv
    exact ⟨h', accounts_of_waits rfl (ending_quiet rfl) hwaits⟩
  | usbReplyOffered generation =>
    refine (fun hboth : _ ∧ ∀ l, (w.apply crypto (.usbReplyOffered generation)).waits l = w.waits l =>
      ⟨hboth.1, accounts_of_waits rfl (ending_quiet rfl) hboth.2⟩) ?_
    dsimp only [RuntimeWorld.apply] at hinv ⊢
    unfold RuntimeWorld.offerUsbReply at hinv ⊢
    split_ifs at hinv ⊢ with hreturned hbusy
    · exact ⟨h, fun _ => rfl⟩
    · exact ⟨h, fun _ => rfl⟩
    · split at hinv
      · exact ⟨h, fun _ => rfl⟩
      · rename_i reply hreply
        have hmem : reply ∈ w.core.replies := by
          unfold SpeakerAssetsRuntimeCore.frontReplyForRoute at hreply
          split_ifs at hreply
          exact List.mem_of_find?_eq_some hreply
        exact ⟨h.offer w.bootRead _ (Or.inr (Or.inr ⟨reply, hmem, rfl⟩)) hinv, fun _ => rfl⟩
  | usbReplyForgotten =>
    refine (fun hboth : _ ∧ ∀ l, (w.apply crypto .usbReplyForgotten).waits l = w.waits l =>
      ⟨hboth.1, accounts_of_waits rfl (ending_quiet rfl) hboth.2⟩) ?_
    dsimp only [RuntimeWorld.apply] at hinv ⊢
    split_ifs at hinv ⊢ with hreturned
    · exact ⟨h, fun _ => rfl⟩
    · exact ⟨h.offer w.bootRead none (Or.inr (Or.inl rfl)) hinv, fun _ => rfl⟩
  | usbReplyAccepted epoch sequence =>
    refine (fun hboth : _ ∧ ∀ l, (w.apply crypto (.usbReplyAccepted epoch sequence)).waits l =
      w.waits l => ⟨hboth.1, accounts_of_waits rfl (ending_quiet rfl) hboth.2⟩) ?_
    dsimp only [RuntimeWorld.apply] at hinv ⊢
    split at hinv
    · rename_i lease hreturned haccepted
      have hqueued : w.queuedReply = some (sequence, lease) ∧ sequence ≠ 0 := by
        unfold usbAccepted at haccepted
        split at haccepted
        · cases haccepted
        · rename_i queued lease' hq
          split_ifs at haccepted with hbad
          obtain rfl := Option.some.inj haccepted
          simp only [not_or, not_not] at hbad
          obtain rfl := hbad.2.2.1
          exact ⟨hq, hbad.2.1⟩
      refine h.retireReply hreturned none hqueued.2 (fun hl => ?_) (hsafe lease haccepted) ?_
        (Or.inr rfl) hinv
      · exact (h.offered lease sequence hl hqueued.1).resolve_left (by simp [hreturned])
      · simp [RuntimeWorld.known, hqueued.1]
    · exact ⟨h, fun _ => rfl⟩
  | wifiReplyAccepted route sequence =>
    refine (fun hboth : _ ∧ ∀ l, (w.apply crypto (.wifiReplyAccepted route sequence)).waits l =
      w.waits l => ⟨hboth.1, accounts_of_waits rfl (ending_quiet rfl) hboth.2⟩) ?_
    dsimp only [RuntimeWorld.apply] at hinv ⊢
    split at hinv
    · rename_i lease hreturned haccepted
      obtain ⟨reply, hmem, hlease, hsequence⟩ : ∃ reply ∈ w.core.replies, reply.lease = lease ∧
          reply.sequence = sequence := by
        unfold wifiAccepted at haccepted
        split at haccepted
        · cases haccepted
        · rename_i reply hreply
          unfold SpeakerAssetsRuntimeCore.frontReplyForRoute at hreply
          split_ifs at haccepted hreply with hbad
          simp only [not_or, not_not] at hbad
          exact ⟨reply, List.mem_of_find?_eq_some hreply, Option.some.inj haccepted, hbad.1⟩
      have hnumber : sequence ≠ 0 := hsequence ▸ h.replies.numbered reply hmem
      refine h.retireReply hreturned w.queuedReply hnumber (fun _ => ⟨reply, hmem, hlease, hsequence⟩)
        (hsafe lease haccepted) ?_ (Or.inl rfl) hinv
      have hknown : reply.lease ∈ w.core.view.answered := List.mem_map_of_mem hmem
      rw [← hlease]
      simp [RuntimeWorld.known, held, hknown]
    · exact ⟨h, fun _ => rfl⟩

end CodexKeyboard.SoundSync.RuntimeWorld
