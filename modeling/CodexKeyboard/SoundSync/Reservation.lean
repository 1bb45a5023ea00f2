import CodexKeyboard.SoundSync.Admission

/-! The reservation of the mailbox: who holds it, and what every call does to it.

    A call keeps the reservation and the reserved frame where it is, or clears the reservation, or
    reserves a fresh admission for a frame it queues. -/

namespace CodexKeyboard.SoundSync.SpeakerAssetsRuntimeMailbox

variable {m m' : SpeakerAssetsRuntimeMailbox} {route : SpeakerAssetsRouteToken} {l : Lease}

/-- The admissions of the queued records; a lifecycle record has the admission 0. -/
def leases (m : SpeakerAssetsRuntimeMailbox) : List Lease := m.data.map (·.lease)

/-- A frame record an import does not refuse. -/
structure Importable (record : SpeakerAssetsRuntimeMailboxRecord) : Prop where
  admitted : record.admissionId ≠ 0
  shape : record.route.shapeIsValid = true
  usb : record.kind = .usbFrame →
    record.route.transport = .usb ∧ record.bytes.length = speakerAssetsUsbFrameBytes
  wifi : record.kind = .wifiFrame →
    record.route.transport = .wifi ∧ speakerAssetsFrameHeaderBytes ≤ record.bytes.length ∧
      record.bytes.length ≤ speakerAssetsWifiFrameMaxBytes

/-- The reservation stands only while nothing revokes it. -/
structure Reserving (m : SpeakerAssetsRuntimeMailbox) : Prop where
  whole : m.Whole
  queued : m.reserved.isSome → m.logicalFrameRequestQueued = true
  ids : ∀ l, m.reserved = some l → l.admissionId ≠ 0
  revoked : m.revokeAll.isSome → m.reserved = none
  failClosed : m.resourceSyncFailClosed = true → m.reserved = none
  unclosed : ∀ l, m.reserved = some l → m.closePending l.route = false
  frames : ∀ record ∈ m.data, record.kind = .usbFrame ∨ record.kind = .wifiFrame → Importable record

/-- The admission an accepted frame was granted. -/
def granted (out : SpeakerAssetsRuntimeEnqueueResult × SpeakerAssetsRuntimeMailbox) : Option Lease :=
  if out.1 = .accepted then out.2.reserved else none

/-- The next admission id, once some were handed out. -/
def Later (next next' : UInt64) : Prop := next' = next ∨ (next ≠ 0 ∧ next' = next + 1)

/-- What a call does to the reservation, with the admission it grants. -/
inductive Reserves (m m' : SpeakerAssetsRuntimeMailbox) : Option Lease → Prop
  | kept : m'.reserved = m.reserved → Later m.nextAdmissionId m'.nextAdmissionId →
    (∀ l, m.reserved = some l → m'.leases.count l = m.leases.count l) →
    (∀ x ∈ m'.leases, x ∈ m.leases ∨ x.admissionId = 0) → Reserves m m' none
  | cleared : m'.reserved = none → Later m.nextAdmissionId m'.nextAdmissionId →
    (∀ x ∈ m'.leases, x ∈ m.leases ∨ x.admissionId = 0) → Reserves m m' none
  | granted {l : Lease} : m.reserved = none → m'.reserved = some l → m.nextAdmissionId ≠ 0 →
    l.admissionId = m.nextAdmissionId → m'.nextAdmissionId = m.nextAdmissionId + 1 →
    m'.leases = m.leases ++ [l] → Reserves m m' (some l)

theorem Reserves.same (hdata : m'.leases = m.leases) (hreserved : m'.reserved = m.reserved)
    (hnext : m'.nextAdmissionId = m.nextAdmissionId) : Reserves m m' none :=
  .kept hreserved (Or.inl hnext) (fun _ _ => by rw [hdata]) fun _ hx => Or.inl (hdata ▸ hx)

/-- The lifecycle record of a callback joins the data. -/
theorem reserves_lifecycle {record : SpeakerAssetsRuntimeMailboxRecord} (h : m.Reserving)
    (hid : record.admissionId = 0) : Reserves m { m with data := m.data ++ [record] } none := by
  refine .kept rfl (Or.inl rfl) (fun l hl => ?_) fun x hx => ?_
  · have hne : record.lease ≠ l := fun heq => h.ids l hl (heq ▸ hid)
    simp [leases, hne]
  · have hx : x ∈ m.leases ++ [record.lease] := by
      simpa only [leases, List.map_append, List.map_singleton] using hx
    rcases List.mem_append.1 hx with hx | hx
    · exact Or.inl hx
    · obtain rfl := List.mem_singleton.1 hx
      exact Or.inr hid

/-! ### The callbacks -/

theorem Reserving.tombstone (h : m.Reserving) (hr : m.revokeAll.isSome) :
    (m.retainFailClosedTombstone route).2.Reserving ∧
      Reserves m (m.retainFailClosedTombstone route).2 none := by
  have hnone := h.revoked hr
  have hwhole := (@Keeps.tombstone _ route (fun _ => False) hr).whole h.whole
  revert hwhole
  unfold retainFailClosedTombstone
  split_ifs
  · exact fun _ => ⟨h, .same rfl rfl rfl⟩
  · exact fun hwhole => ⟨⟨hwhole, h.queued, h.ids, h.revoked, fun _ => hnone, h.unclosed, h.frames⟩,
      .same rfl rfl rfl⟩
  · refine fun hwhole => ⟨⟨hwhole, h.queued, h.ids, h.revoked, h.failClosed, fun l hl => ?_,
      fun record hrecord hkind => ?_⟩, reserves_lifecycle h rfl⟩
    · exact absurd (hnone.symm.trans hl) nofun
    · rcases List.mem_append.1 hrecord with hrecord | hrecord
      · exact h.frames record hrecord hkind
      · obtain rfl := List.mem_singleton.1 hrecord
        simp at hkind

theorem Reserving.enqueueRouteOpened (h : m.Reserving) :
    (m.enqueueRouteOpened route).2.Reserving ∧ Reserves m (m.enqueueRouteOpened route).2 none := by
  have hwhole := (@Keeps.enqueueRouteOpened _ route fun _ => False).whole h.whole
  revert hwhole
  unfold SpeakerAssetsRuntimeMailbox.enqueueRouteOpened
  split_ifs with hshape hclosed hrevoke
  · exact fun _ => ⟨h, .same rfl rfl rfl⟩
  · exact fun _ => ⟨h, .same rfl rfl rfl⟩
  · exact fun _ => h.tombstone hrevoke
  · unfold enqueueRecord
    split_ifs
    · exact fun _ => ⟨h, .same rfl rfl rfl⟩
    · refine fun hwhole => ⟨⟨hwhole, h.queued, h.ids, h.revoked, h.failClosed, fun l hl => ?_,
        fun record hrecord hkind => ?_⟩, reserves_lifecycle h rfl⟩
      · simpa [closePending] using h.unclosed l hl
      · rcases List.mem_append.1 hrecord with hrecord | hrecord
        · exact h.frames record hrecord hkind
        · obtain rfl := List.mem_singleton.1 hrecord
          simp at hkind

/-- `m'` is `m` without the records and the reservation of the route. -/
structure Purged (m : SpeakerAssetsRuntimeMailbox) (route : SpeakerAssetsRouteToken)
    (m' : SpeakerAssetsRuntimeMailbox) : Prop where
  reserves : Reserves m m' none
  revokeAll : m'.revokeAll = m.revokeAll
  nextAdmissionId : m'.nextAdmissionId = m.nextAdmissionId
  failClosed : m'.resourceSyncFailClosed = m.resourceSyncFailClosed
  closes : m'.closes = m.closes
  reserved : m'.reserved = m.reserved ∨ m'.reserved = none
  queued : m'.reserved.isSome → m'.logicalFrameRequestQueued = true
  other : ∀ l, m'.reserved = some l → l.route ≠ route
  data : ∀ record ∈ m'.data, record ∈ m.data

theorem leases_of_subset {data : List SpeakerAssetsRuntimeMailboxRecord}
    (h : ∀ record ∈ data, record ∈ m.data) :
    ∀ x ∈ data.map (·.lease), x ∈ m.leases ∨ x.admissionId = 0 := fun x hx => by
  obtain ⟨record, hrecord, rfl⟩ := List.mem_map.1 hx
  exact Or.inl (List.mem_map_of_mem (h record hrecord))

theorem Reserving.purge (h : m.Reserving) :
    Purged m route ((m.purgePendingRoute route).revokeLogicalRequestForRoute route) := by
  have hsub : ∀ record ∈ (m.purgePendingRoute route).data, record ∈ m.data :=
    fun _ h => List.mem_of_mem_filter h
  have hkept : (∀ l, m.reserved = some l → l.route ≠ route) →
      Purged m route (m.purgePendingRoute route) := fun hother => by
    refine ⟨.kept rfl (Or.inl rfl) (fun l hl => ?_) (leases_of_subset hsub), rfl, rfl, rfl, rfl,
      Or.inl rfl, h.queued, hother, hsub⟩
    have hfilter : (m.purgePendingRoute route).leases = m.leases.filter (·.route ≠ route) := by
      rw [leases, leases, List.filter_map]
      rfl
    rw [hfilter, List.count_filter (by simpa using hother l hl)]
  unfold revokeLogicalRequestForRoute
  split
  · rename_i lease hlease
    have hlease : m.reserved = some lease := hlease
    split_ifs with hroute
    · unfold purgePendingAdmission
      split_ifs
      · exact ⟨.cleared rfl (Or.inl rfl) (leases_of_subset hsub), rfl, rfl, rfl, rfl, Or.inr rfl,
          nofun, nofun, hsub⟩
      · have hpurge : ∀ record ∈ (m.purgePendingRoute route).data.filter
            (·.admissionId ≠ lease.admissionId), record ∈ m.data :=
          fun record hrecord => hsub record (List.mem_of_mem_filter hrecord)
        exact ⟨.cleared rfl (Or.inl rfl) (leases_of_subset hpurge), rfl, rfl, rfl, rfl, Or.inr rfl,
          nofun, nofun, hpurge⟩
    · refine hkept fun l hl => ?_
      obtain rfl := Option.some.inj (hlease.symm.trans hl)
      exact hroute
  · rename_i hnone
    have hnone : m.reserved = none := hnone
    exact hkept fun l hl => by simp [hnone] at hl

theorem closePending_of_data (hrevoke : m'.revokeAll = m.revokeAll) (hcloses : m'.closes = m.closes)
    (hdata : ∀ record ∈ m'.data, record ∈ m.data) (h : m.closePending route = false) :
    m'.closePending route = false := by
  rw [← Bool.not_eq_true, closePending_iff] at h ⊢
  rw [hrevoke, hcloses]
  exact fun hp => h (hp.imp_right (Or.imp_right fun ⟨record, hrecord, hk⟩ =>
    ⟨record, hdata record hrecord, hk⟩))

theorem Purged.reserving (hp : Purged m route m') (h : m.Reserving) (hwhole : m'.Whole) :
    m'.Reserving where
  whole := hwhole
  queued := hp.queued
  ids l hl := by
    rcases hp.reserved with hr | hr
    · exact h.ids l (hr ▸ hl)
    · exact absurd (hr.symm.trans hl) nofun
  revoked hr := by
    rcases hp.reserved with hr' | hr'
    · exact hr'.trans (h.revoked (hp.revokeAll ▸ hr))
    · exact hr'
  failClosed hf := by
    rcases hp.reserved with hr' | hr'
    · exact hr'.trans (h.failClosed (hp.failClosed ▸ hf))
    · exact hr'
  unclosed l hl := by
    rcases hp.reserved with hr | hr
    · exact closePending_of_data hp.revokeAll hp.closes hp.data (h.unclosed l (hr ▸ hl))
    · exact absurd (hr.symm.trans hl) nofun
  frames record hrecord := h.frames record (hp.data record hrecord)

theorem Reserves.trans {m'' : SpeakerAssetsRuntimeMailbox} (h : Reserves m m' none)
    (h' : Reserves m' m'' none) (hnext : m''.nextAdmissionId = m'.nextAdmissionId) :
    Reserves m m'' none := by
  have hmem : (∀ x ∈ m'.leases, x ∈ m.leases ∨ x.admissionId = 0) →
      (∀ x ∈ m''.leases, x ∈ m'.leases ∨ x.admissionId = 0) →
      ∀ x ∈ m''.leases, x ∈ m.leases ∨ x.admissionId = 0 :=
    fun h h' x hx => (h' x hx).elim (h x) Or.inr
  cases h with
  | kept hr hlater hcount hsub =>
    cases h' with
    | kept hr' _ hcount' hsub' =>
      exact .kept (hr'.trans hr) (hnext ▸ hlater)
        (fun l hl => (hcount' l (hr.trans hl)).trans (hcount l hl)) (hmem hsub hsub')
    | cleared hr' _ hsub' => exact .cleared hr' (hnext ▸ hlater) (hmem hsub hsub')
  | cleared hr hlater hsub =>
    cases h' with
    | kept hr' _ _ hsub' => exact .cleared (hr'.trans hr) (hnext ▸ hlater) (hmem hsub hsub')
    | cleared hr' _ hsub' => exact .cleared hr' (hnext ▸ hlater) (hmem hsub hsub')

theorem Reserving.enqueueRouteClosed (h : m.Reserving) :
    (m.enqueueRouteClosed route).2.Reserving ∧ Reserves m (m.enqueueRouteClosed route).2 none := by
  have hwhole := (@Keeps.enqueueRouteClosed _ route fun _ => False).whole h.whole
  revert hwhole
  unfold SpeakerAssetsRuntimeMailbox.enqueueRouteClosed
  split_ifs with hshape
  · exact fun _ => ⟨h, .same rfl rfl rfl⟩
  have hp := @Reserving.purge _ route h
  have h₁ := hp.reserving h (Keeps.purge.whole h.whole)
  dsimp only
  generalize (m.purgePendingRoute route).revokeLogicalRequestForRoute route = m₁ at hp h₁
  split_ifs with hfail hrevoke hpending hfull
  · exact fun _ => ⟨h₁, hp.reserves⟩
  · intro _
    obtain ⟨h₂, hr₂⟩ := @Reserving.tombstone _ route h₁ hrevoke
    refine ⟨h₂, hp.reserves.trans hr₂ ?_⟩
    unfold retainFailClosedTombstone
    split_ifs <;> rfl
  · exact fun _ => ⟨h₁, hp.reserves⟩
  · refine fun hwhole => ⟨⟨hwhole, nofun, nofun, fun _ => rfl, fun _ => rfl, nofun,
      fun record hrecord hkind => ?_⟩, hp.reserves.trans (.cleared rfl (Or.inl rfl) fun x hx => ?_) rfl⟩
    · obtain ⟨old, -, hsome⟩ := List.mem_filterMap.1 hrecord
      split_ifs at hsome with hopen hclosed
      · obtain rfl := Option.some.inj hsome
        simp at hkind
      · obtain rfl := Option.some.inj hsome
        simp [hclosed] at hkind
    · obtain ⟨record, hrecord, rfl⟩ := List.mem_map.1 hx
      obtain ⟨old, hold, hsome⟩ := List.mem_filterMap.1 hrecord
      split_ifs at hsome with hopen hclosed
      · obtain rfl := Option.some.inj hsome
        exact Or.inr (h₁.whole.ids old hold (Or.inl hopen))
      · obtain rfl := Option.some.inj hsome
        exact Or.inr (h₁.whole.ids _ hold (Or.inr hclosed))
  · refine fun hwhole => ⟨⟨hwhole, h₁.queued, h₁.ids, h₁.revoked, h₁.failClosed, fun l hl => ?_,
      h₁.frames⟩, hp.reserves.trans (.same rfl rfl rfl) rfl⟩
    have hclosed := h₁.unclosed l hl
    have hother : l.route ≠ route := hp.other l hl
    rw [← Bool.not_eq_true, closePending_iff] at hclosed ⊢
    rintro (hp' | hp' | hp')
    · exact hclosed (Or.inl hp')
    · rcases List.mem_append.1 hp' with hp' | hp'
      · exact hclosed (Or.inr (Or.inl hp'))
      · exact hother (List.mem_singleton.1 hp')
    · exact hclosed (Or.inr (Or.inr hp'))

theorem Reserving.enqueueFrame (h : m.Reserving) {kind : SpeakerAssetsRuntimeMailboxKind}
    {bytes : List UInt8} (receivedMs : UInt32)
    (himport : ∀ id, id ≠ 0 → route.shapeIsValid = true → Importable
      { kind := kind, route := route, admissionId := id, receivedMs := receivedMs, bytes := bytes })
    (hkind : kind = .usbFrame ∨ kind = .wifiFrame) :
    (m.enqueueFrame kind route bytes receivedMs).2.Reserving ∧
      Reserves m (m.enqueueFrame kind route bytes receivedMs).2
        (granted (m.enqueueFrame kind route bytes receivedMs)) := by
  have hwhole := (@Keeps.enqueueFrame m route (fun _ => False) _ hkind bytes receivedMs).whole h.whole
  revert hwhole
  unfold SpeakerAssetsRuntimeMailbox.enqueueFrame
  split
  · exact fun _ => ⟨h, .same rfl rfl rfl⟩
  rename_i hopen
  simp only [Bool.or_eq_true, not_or, Bool.not_eq_true] at hopen
  unfold reserveLogicalFrameRequest
  rcases hr : m.reserved with _ | lease
  · dsimp only
    by_cases hnext : m.nextAdmissionId = 0
    · rw [if_pos hnext]
      dsimp only
      refine fun hwhole => ⟨⟨hwhole, nofun, nofun, fun _ => rfl, fun _ => rfl, nofun, h.frames⟩, ?_⟩
      exact .same rfl hr.symm rfl
    rw [if_neg hnext]
    dsimp only [Option.map_some, Option.getD_some]
    have hlater : Later m.nextAdmissionId (m.nextAdmissionId + 1) := Or.inr ⟨hnext, rfl⟩
    -- a refused record gives its admission id up
    have hrefused : ∀ {m₂ : SpeakerAssetsRuntimeMailbox}, m₂.Whole → m₂.data = m.data →
        m₂.reserved = none → m₂.nextAdmissionId = m.nextAdmissionId + 1 → m₂.Reserving ∧
          Reserves m m₂ none := fun hwhole hdata hnone hid =>
      ⟨⟨hwhole, by simp [hnone], by simp [hnone], fun _ => hnone, fun _ => hnone, by simp [hnone],
        hdata ▸ h.frames⟩, .cleared hnone (hid ▸ hlater) fun x hx => Or.inl (by
          rw [leases, hdata] at hx
          exact hx)⟩
    by_cases hshape : route.shapeIsValid = true
    · rw [if_pos hshape]
      unfold enqueueRecord
      dsimp only
      by_cases hfull : speakerAssetsRuntimeIngressCapacity ≤ m.data.length
      · rw [if_pos hfull]
        exact fun hwhole => hrefused hwhole rfl rfl rfl
      · rw [if_neg hfull]
        refine fun hwhole => ⟨⟨hwhole, fun _ => rfl, fun l hl => ?_, fun hrevoke => ?_, fun hfail => ?_,
          fun l hl => ?_, fun record hrecord hk => ?_⟩, ?_⟩
        · obtain rfl := Option.some.inj hl
          exact hnext
        · simp [hopen.1.1] at hrevoke
        · simp [hopen.1.2] at hfail
        · obtain rfl := Option.some.inj hl
          have hclosed := hopen.2
          rw [← Bool.not_eq_true, closePending_iff] at hclosed ⊢
          refine fun hp => hclosed (hp.imp_right (Or.imp_right ?_))
          rintro ⟨record, hrecord, hk, hroute⟩
          rcases List.mem_append.1 hrecord with hrecord | hrecord
          · exact ⟨record, hrecord, hk, hroute⟩
          · obtain rfl := List.mem_singleton.1 hrecord
            rcases hkind with rfl | rfl <;> cases hk
        · rcases List.mem_append.1 hrecord with hrecord | hrecord
          · exact h.frames record hrecord hk
          · obtain rfl := List.mem_singleton.1 hrecord
            exact himport _ hnext hshape
        · refine .granted hr rfl hnext rfl rfl ?_
          simp [leases, SpeakerAssetsRuntimeMailboxRecord.lease]
    · rw [if_neg hshape]
      exact fun hwhole => hrefused hwhole rfl rfl rfl
  · have hqueued : m.logicalFrameRequestQueued = true := h.queued (by simp [hr])
    dsimp only
    rw [if_pos (Or.inr hqueued)]
    exact fun _ => ⟨h, .same rfl rfl rfl⟩

theorem Reserving.enqueueUsbFrame (h : m.Reserving) (bytes : List UInt8) (receivedMs : UInt32) :
    (m.enqueueUsbFrame route bytes receivedMs).2.Reserving ∧
      Reserves m (m.enqueueUsbFrame route bytes receivedMs).2
        (granted (m.enqueueUsbFrame route bytes receivedMs)) := by
  unfold SpeakerAssetsRuntimeMailbox.enqueueUsbFrame
  by_cases hbad : route.transport ≠ .usb ∨ bytes.length ≠ speakerAssetsUsbFrameBytes
  · rw [if_pos hbad]
    exact ⟨h, .same rfl rfl rfl⟩
  · rw [if_neg hbad]
    push Not at hbad
    exact h.enqueueFrame receivedMs (fun _ hid hshape => ⟨hid, hshape, fun _ => hbad, nofun⟩) (Or.inl rfl)

theorem Reserving.enqueueWifiFrame (h : m.Reserving) (bytes : List UInt8) (receivedMs : UInt32) :
    (m.enqueueWifiFrame route bytes receivedMs).2.Reserving ∧
      Reserves m (m.enqueueWifiFrame route bytes receivedMs).2
        (granted (m.enqueueWifiFrame route bytes receivedMs)) := by
  unfold SpeakerAssetsRuntimeMailbox.enqueueWifiFrame
  by_cases hbad : route.transport ≠ .wifi ∨ bytes.length < speakerAssetsFrameHeaderBytes ∨
      speakerAssetsWifiFrameMaxBytes < bytes.length
  · rw [if_pos hbad]
    exact ⟨h, .same rfl rfl rfl⟩
  · rw [if_neg hbad]
    push Not at hbad
    exact h.enqueueFrame receivedMs (fun _ hid hshape => ⟨hid, hshape, nofun, fun _ => hbad⟩) (Or.inr rfl)

/-- A frame takes no reservation from anyone. -/
theorem enqueueFrame_reserved {kind : SpeakerAssetsRuntimeMailboxKind} {bytes : List UInt8}
    (receivedMs : UInt32) (hl : m.reserved = some l) :
    (m.enqueueFrame kind route bytes receivedMs).2.reserved = some l := by
  unfold SpeakerAssetsRuntimeMailbox.enqueueFrame
  split
  · exact hl
  unfold reserveLogicalFrameRequest
  rw [hl]
  dsimp only
  by_cases hrefused : l.route ≠ route ∨ m.logicalFrameRequestQueued = true
  · rw [if_pos hrefused]
    exact hl
  · rw [if_neg hrefused]
    unfold enqueueRecord
    simp only [Bool.false_eq_true, if_false]
    split_ifs <;> exact hl

theorem enqueueRouteOpened_reserved : (m.enqueueRouteOpened route).2.reserved = m.reserved := by
  unfold SpeakerAssetsRuntimeMailbox.enqueueRouteOpened retainFailClosedTombstone enqueueRecord
  split_ifs <;> rfl

/-- A release of the reserved lease clears the reservation; one of another lease does nothing. -/
theorem Reserving.releaseLogicalRequest (h : m.Reserving) (lease : Lease) :
    (m.releaseLogicalRequest lease).2.Reserving ∧
      Reserves m (m.releaseLogicalRequest lease).2 none ∧
      (m.reserved ≠ some lease → (m.releaseLogicalRequest lease).2 = m) ∧
      (m.reserved = some lease → (m.releaseLogicalRequest lease).2.reserved = none) := by
  have hwhole := (@Keeps.releaseLogicalRequest _ (fun _ => False) lease).whole h.whole
  revert hwhole
  unfold SpeakerAssetsRuntimeMailbox.releaseLogicalRequest
  split_ifs with hlease
  · intro hwhole
    have hsub : ∀ record ∈ (m.purgePendingAdmission lease.admissionId).data, record ∈ m.data := by
      unfold purgePendingAdmission
      split_ifs
      · exact fun _ h => h
      · exact fun _ h => List.mem_of_mem_filter h
    have hnext : (m.purgePendingAdmission lease.admissionId).nextAdmissionId = m.nextAdmissionId := by
      unfold purgePendingAdmission
      split_ifs <;> rfl
    exact ⟨⟨hwhole, nofun, nofun, fun _ => rfl, fun _ => rfl, nofun, fun record hrecord =>
        h.frames record (hsub record hrecord)⟩,
      .cleared rfl (Or.inl hnext) (leases_of_subset hsub), fun hne => absurd hlease.1 hne, fun _ => rfl⟩
  · exact fun _ => ⟨h, .same rfl rfl rfl, fun _ => rfl, fun heq =>
      absurd ⟨heq, h.ids lease heq⟩ hlease⟩

end CodexKeyboard.SoundSync.SpeakerAssetsRuntimeMailbox
