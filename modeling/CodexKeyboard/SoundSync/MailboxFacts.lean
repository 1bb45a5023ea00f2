import CodexKeyboard.SoundSync.Mailbox

/-! What the mailbox keeps of a close, whatever is called on it.

    A close stays pending until it is taken, unless the mailbox fails closed; and it only fails closed
    behind a revoke-all, or when the admission ids are used up. -/

namespace CodexKeyboard.SoundSync.SpeakerAssetsRuntimeMailbox

variable {m m' : SpeakerAssetsRuntimeMailbox} {route q : SpeakerAssetsRouteToken}
  {but : SpeakerAssetsRouteToken → Prop}

/-- The records are whole: none cancelled, lifecycle records without an admission, no global record, and
    no open behind a revoke-all. -/
structure Whole (m : SpeakerAssetsRuntimeMailbox) : Prop where
  live : ∀ record ∈ m.data, record.cancelled = false
  kinds : ∀ record ∈ m.data, record.kind ≠ .allRoutesClosed
  ids : ∀ record ∈ m.data, record.kind = .routeOpened ∨ record.kind = .routeClosed →
    record.admissionId = 0
  noOpens : m.revokeAll.isSome → ∀ record ∈ m.data, record.kind ≠ .routeOpened

theorem closePending_iff : m.closePending route = true ↔ m.revokeAll = some route ∨ route ∈ m.closes ∨
    ∃ record ∈ m.data, record.kind = .routeClosed ∧ record.route = route := by
  simp [closePending, or_assoc]

/-- What a callback or a release keeps, the closes of the excepted routes apart. -/
structure Keeps (but : SpeakerAssetsRouteToken → Prop) (m m' : SpeakerAssetsRuntimeMailbox) : Prop where
  whole : Whole m → Whole m'
  revokeAll : m.revokeAll.isSome → m'.revokeAll = m.revokeAll
  closes : Whole m → ∀ q, ¬ but q → m.closePending q = true →
    m'.closePending q = true ∨ m'.resourceSyncFailClosed = true
  failClosed : m.resourceSyncFailClosed = true → m'.resourceSyncFailClosed = true
  sealed : m.resourceSyncFailClosed = true → m'.revokeAll = m.revokeAll
  failCloses : m'.resourceSyncFailClosed = true → m.resourceSyncFailClosed = true ∨
    m'.nextAdmissionId = 0 ∨ m'.revokeAll.isSome
  opens : m.resourceSyncFailClosed = true → ∀ record ∈ m'.data, record.kind = .routeOpened →
    record ∈ m.data
  exhausted : m.nextAdmissionId = 0 → m'.nextAdmissionId = 0

namespace Keeps

theorem rfl : Keeps but m m :=
  ⟨id, fun _ => .refl _, fun _ _ _ h => Or.inl h, id, fun _ => .refl _, Or.inl, fun _ _ h _ => h, id⟩

theorem trans {m'' : SpeakerAssetsRuntimeMailbox} (h : Keeps but m m') (h' : Keeps but m' m'') :
    Keeps but m m'' where
  whole hm := h'.whole (h.whole hm)
  revokeAll hm := by
    have := h.revokeAll hm
    rw [h'.revokeAll (this ▸ hm), this]
  closes hm q hbut hq := by
    rcases h.closes hm q hbut hq with hq | hq
    · exact h'.closes (h.whole hm) q hbut hq
    · exact Or.inr (h'.failClosed hq)
  failClosed hm := h'.failClosed (h.failClosed hm)
  sealed hm := (h'.sealed (h.failClosed hm)).trans (h.sealed hm)
  failCloses hm := by
    rcases h'.failCloses hm with hm | hm | hm
    · rcases h.failCloses hm with hm | hm | hm
      · exact Or.inl hm
      · exact Or.inr (Or.inl (h'.exhausted hm))
      · exact Or.inr (Or.inr (h'.revokeAll hm ▸ hm))
    · exact Or.inr (Or.inl hm)
    · exact Or.inr (Or.inr hm)
  opens hm record hrecord hkind := h.opens hm record (h'.opens (h.failClosed hm) record hrecord hkind) hkind
  exhausted hm := h'.exhausted (h.exhausted hm)

/-- Records leave the data, but no close that counts. -/
theorem filter (p : SpeakerAssetsRuntimeMailboxRecord → Bool)
    (hp : Whole m → ∀ record ∈ m.data, record.kind = .routeClosed → ¬ but record.route →
      p record = true) : Keeps but m { m with data := m.data.filter p } where
  whole hm :=
    { live := fun record h => hm.live record (List.mem_of_mem_filter h)
      kinds := fun record h => hm.kinds record (List.mem_of_mem_filter h)
      ids := fun record h => hm.ids record (List.mem_of_mem_filter h)
      noOpens := fun hr record h => hm.noOpens hr record (List.mem_of_mem_filter h) }
  revokeAll _ := .refl _
  closes hm q hbut hq := by
    rw [closePending_iff] at hq
    refine Or.inl (closePending_iff.2 ?_)
    rcases hq with hq | hq | ⟨record, hrecord, hkind, rfl⟩
    · exact Or.inl hq
    · exact Or.inr (Or.inl hq)
    · have := hp hm record hrecord hkind hbut
      exact Or.inr (Or.inr ⟨record, List.mem_filter.2 ⟨hrecord, this⟩, hkind, .refl _⟩)
  failClosed := id
  sealed _ := .refl _
  failCloses := Or.inl
  opens _ _ h _ := List.mem_of_mem_filter h
  exhausted := id

/-- A record joins the data. -/
theorem append (record : SpeakerAssetsRuntimeMailboxRecord) (hlive : record.cancelled = false)
    (hkind : record.kind ≠ .allRoutesClosed)
    (hid : record.kind = .routeOpened ∨ record.kind = .routeClosed → record.admissionId = 0)
    (hopen : record.kind = .routeOpened → m.revokeAll = none ∧ m.resourceSyncFailClosed = false) :
    Keeps but m { m with data := m.data ++ [record] } where
  whole hm :=
    { live := by simpa [or_imp, forall_and] using ⟨hm.live, hlive⟩
      kinds := by simpa [or_imp, forall_and] using ⟨hm.kinds, hkind⟩
      ids := by
        intro record' h
        rcases List.mem_append.1 h with h | h
        · exact hm.ids record' h
        · obtain rfl := List.mem_singleton.1 h
          exact hid
      noOpens := by
        intro hr record' h
        rcases List.mem_append.1 h with h | h
        · exact hm.noOpens hr record' h
        · obtain rfl := List.mem_singleton.1 h
          intro hk
          simp [(hopen hk).1] at hr }
  revokeAll _ := .refl _
  closes _ q _ hq := by
    rw [closePending_iff] at hq
    refine Or.inl (closePending_iff.2 ?_)
    rcases hq with hq | hq | ⟨record', hrecord, hk⟩
    · exact Or.inl hq
    · exact Or.inr (Or.inl hq)
    · exact Or.inr (Or.inr ⟨record', List.mem_append_left _ hrecord, hk⟩)
  failClosed := id
  sealed _ := .refl _
  failCloses := Or.inl
  opens hm record' h hk := by
    rcases List.mem_append.1 h with h | h
    · exact h
    · obtain rfl := List.mem_singleton.1 h
      simp [(hopen hk).2] at hm
  exhausted := id

/-- Only the reservation changes. -/
theorem reservation (reserved : Option SpeakerAssetsLogicalRequestLease) (queued : Bool) :
    Keeps but m { m with reserved := reserved, logicalFrameRequestQueued := queued } where
  whole hm := { live := hm.live, kinds := hm.kinds, ids := hm.ids, noOpens := hm.noOpens }
  revokeAll _ := .refl _
  closes _ _ _ h := Or.inl h
  failClosed := id
  sealed _ := .refl _
  failCloses := Or.inl
  opens _ _ h _ := h
  exhausted := id

/-- The mailbox fails closed behind a revoke-all, or without admission ids. -/
theorem failClose (h : m.revokeAll.isSome ∨ m.nextAdmissionId = 0) :
    Keeps but m { m with resourceSyncFailClosed := true } where
  whole hm := { live := hm.live, kinds := hm.kinds, ids := hm.ids, noOpens := hm.noOpens }
  revokeAll _ := .refl _
  closes _ _ _ _ := Or.inr (.refl _)
  failClosed _ := .refl _
  sealed _ := .refl _
  failCloses _ := Or.inr h.symm
  opens _ _ h _ := h
  exhausted := id

/-- An admission is reserved. -/
theorem admits (h : m.nextAdmissionId ≠ 0) (lease : SpeakerAssetsLogicalRequestLease) :
    Keeps but m { m with
      reserved := some lease
      nextAdmissionId := m.nextAdmissionId + 1
      logicalFrameRequestQueued := false } where
  whole hm := { live := hm.live, kinds := hm.kinds, ids := hm.ids, noOpens := hm.noOpens }
  revokeAll _ := .refl _
  closes _ _ _ h := Or.inl h
  failClosed := id
  sealed _ := .refl _
  failCloses := Or.inl
  opens _ _ h _ := h
  exhausted hm := absurd hm h

theorem queueClose : Keeps but m { m with closes := m.closes ++ [route] } where
  whole hm := { live := hm.live, kinds := hm.kinds, ids := hm.ids, noOpens := hm.noOpens }
  revokeAll _ := .refl _
  closes _ q _ hq := by
    rw [closePending_iff] at hq
    exact Or.inl (closePending_iff.2 (hq.imp_right (Or.imp_left (List.mem_append_left _))))
  failClosed := id
  sealed _ := .refl _
  failCloses := Or.inl
  opens _ _ h _ := h
  exhausted := id

theorem purgeAdmission (id : UInt64) : Keeps but m (m.purgePendingAdmission id) := by
  unfold purgePendingAdmission
  split_ifs with hid
  · exact .rfl
  · refine .filter _ fun hm record hrecord hkind _ => ?_
    have := hm.ids record hrecord (Or.inr hkind)
    simpa [this] using Ne.symm hid

theorem revokeLogicalRequest : Keeps but m (m.revokeLogicalRequestForRoute route) := by
  unfold revokeLogicalRequestForRoute
  split
  · split_ifs
    · exact (purgeAdmission _).trans (.reservation none false)
    · exact .rfl
  · exact .rfl

theorem releaseLogicalRequest (lease : SpeakerAssetsLogicalRequestLease) :
    Keeps but m (m.releaseLogicalRequest lease).2 := by
  unfold SpeakerAssetsRuntimeMailbox.releaseLogicalRequest
  split_ifs
  · exact (purgeAdmission _).trans (.reservation none false)
  · exact .rfl

theorem tombstone (hr : m.revokeAll.isSome) : Keeps but m (m.retainFailClosedTombstone route).2 := by
  unfold retainFailClosedTombstone
  split_ifs
  · exact .rfl
  · exact .failClose (Or.inl hr)
  · exact .append _ (.refl _) nofun (fun _ => .refl _) nofun

theorem enqueueRecord (record : SpeakerAssetsRuntimeMailboxRecord) (hlive : record.cancelled = false)
    (hkind : record.kind ≠ .allRoutesClosed)
    (hid : record.kind = .routeOpened ∨ record.kind = .routeClosed → record.admissionId = 0)
    (hopen : record.kind = .routeOpened → m.revokeAll = none ∧ m.resourceSyncFailClosed = false) :
    Keeps but m (m.enqueueRecord record).2 := by
  unfold SpeakerAssetsRuntimeMailbox.enqueueRecord
  split_ifs
  · exact .rfl
  · exact .append record hlive hkind hid hopen

theorem enqueueRouteOpened : Keeps but m (m.enqueueRouteOpened route).2 := by
  unfold SpeakerAssetsRuntimeMailbox.enqueueRouteOpened
  split_ifs with hshape hclosed hrevoke
  · exact .rfl
  · exact .rfl
  · exact .tombstone hrevoke
  · refine .enqueueRecord _ (.refl _) nofun (fun _ => .refl _) fun _ => ?_
    simp only [Bool.or_eq_true, not_or, Bool.not_eq_true] at hclosed hrevoke
    exact ⟨by simpa using hrevoke, hclosed.1⟩

/-- The overflow of the close queue. -/
theorem overflow (hr : m.revokeAll = none) (hfail : m.resourceSyncFailClosed = false) :
    Keeps but m { m with revokeAll := some route }.failClosePendingData := by
  unfold failClosePendingData
  have hmem : ∀ record' ∈ m.data.filterMap (fun record : SpeakerAssetsRuntimeMailboxRecord =>
      if record.kind = .routeOpened then
        some { record with kind := .routeClosed, receivedMs := 0, bytes := [], cancelled := false }
      else if record.kind = .routeClosed then some record else none),
      record'.kind = .routeClosed ∧ ∃ record ∈ m.data, record.admissionId = record'.admissionId ∧
        (record.kind = .routeOpened ∨ record.kind = .routeClosed) ∧
        (record'.cancelled = false ∨ record'.cancelled = record.cancelled) := by
    intro record' h
    obtain ⟨record, hrecord, hsome⟩ := List.mem_filterMap.1 h
    split_ifs at hsome with hopen hclosed
    · obtain rfl := Option.some.inj hsome
      exact ⟨.refl _, record, hrecord, .refl _, Or.inl hopen, Or.inl (.refl _)⟩
    · obtain rfl := Option.some.inj hsome
      exact ⟨hclosed, _, hrecord, .refl _, Or.inr hclosed, Or.inr (.refl _)⟩
  refine ⟨fun hm => ⟨?_, ?_, ?_, ?_⟩, ?_, ?_, id, fun h => by simp [hfail] at h, Or.inl, ?_, id⟩
  · intro record' h
    obtain ⟨-, record, hrecord, -, -, hlive | hlive⟩ := hmem record' h
    · exact hlive
    · exact hlive.trans (hm.live record hrecord)
  · intro record' h
    rw [(hmem record' h).1]
    exact nofun
  · intro record' h _
    obtain ⟨-, record, hrecord, hid, hkind, -⟩ := hmem record' h
    exact hid ▸ hm.ids record hrecord hkind
  · intro _ record' h
    rw [(hmem record' h).1]
    exact nofun
  · simp [hr]
  · intro _ q _ hq
    rw [closePending_iff, hr] at hq
    refine Or.inl (closePending_iff.2 (Or.inr ?_))
    rcases hq with hq | hq | ⟨record, hrecord, hkind, hroute⟩
    · cases hq
    · exact Or.inl hq
    · refine Or.inr ⟨record, List.mem_filterMap.2 ⟨record, hrecord, ?_⟩, hkind, hroute⟩
      rw [if_neg (by simp [hkind]), if_pos hkind]
  · intro _ record' h hkind
    simp [(hmem record' h).1] at hkind

theorem purge :
    Keeps (· = route) m ((m.purgePendingRoute route).revokeLogicalRequestForRoute route) := by
  refine .trans (.filter _ fun _ record _ _ hbut => ?_) .revokeLogicalRequest
  simpa using hbut

/-- The purge takes the closes of the route itself out of the data; one of them is put back. -/
theorem routeClosed_spec : Keeps (· = route) m (m.enqueueRouteClosed route).2 ∧
    ((route.shapeIsValid = false ∧ (m.enqueueRouteClosed route).2 = m) ∨
      (m.enqueueRouteClosed route).2.closePending route = true ∨
      (m.enqueueRouteClosed route).2.resourceSyncFailClosed = true) := by
  unfold SpeakerAssetsRuntimeMailbox.enqueueRouteClosed
  split_ifs with hshape
  · exact ⟨.rfl, Or.inl ⟨by simpa using hshape, .refl _⟩⟩
  have hpurge := @Keeps.purge m route
  dsimp only
  generalize (m.purgePendingRoute route).revokeLogicalRequestForRoute route = m₁ at hpurge
  split_ifs with hfail hrevoke hpending hfull
  · exact ⟨hpurge, Or.inr (Or.inr hfail)⟩
  · refine ⟨hpurge.trans (.tombstone hrevoke), Or.inr ?_⟩
    unfold retainFailClosedTombstone
    split_ifs with hpending hfull
    · exact Or.inl hpending
    · exact Or.inr (.refl _)
    · exact Or.inl (closePending_iff.2
        (Or.inr (Or.inr ⟨_, List.mem_append_right _ (List.mem_singleton_self _), .refl _, .refl _⟩)))
  · exact ⟨hpurge, Or.inr (Or.inl hpending)⟩
  · have hnone : m₁.revokeAll = none := by simpa using hrevoke
    refine ⟨hpurge.trans ((overflow hnone (by simpa using hfail)).trans (.reservation none false)), Or.inr (Or.inl ?_)⟩
    exact closePending_iff.2 (Or.inl (.refl _))
  · refine ⟨hpurge.trans .queueClose, Or.inr (Or.inl ?_)⟩
    exact closePending_iff.2 (Or.inr (Or.inl (List.mem_append_right _ (List.mem_singleton_self _))))

theorem enqueueRouteClosed : Keeps but m (m.enqueueRouteClosed route).2 := by
  obtain ⟨h, hroute⟩ := @routeClosed_spec m route
  refine { h with closes := fun hm q _ hq => ?_ }
  by_cases heq : q = route
  · subst heq
    rcases hroute with ⟨-, hsame⟩ | hroute
    · rw [hsame]
      exact Or.inl hq
    · exact hroute
  · exact h.closes hm q heq hq

theorem reserve : Keeps but m (m.reserveLogicalFrameRequest route).2.2 := by
  unfold reserveLogicalFrameRequest
  split
  · split_ifs with hid
    · exact .failClose (Or.inr hid)
    · exact .admits hid _
  · split_ifs
    · exact .rfl
    · exact .rfl

theorem enqueueFrame {kind : SpeakerAssetsRuntimeMailboxKind} (hkind : kind = .usbFrame ∨ kind = .wifiFrame)
    (bytes : List UInt8) (receivedMs : UInt32) :
    Keeps but m (m.enqueueFrame kind route bytes receivedMs).2 := by
  unfold SpeakerAssetsRuntimeMailbox.enqueueFrame
  split
  · exact .rfl
  have hreserve : Keeps but m (m.reserveLogicalFrameRequest route).2.2 := .reserve
  split
  · rename_i newly m₁ hm₁
    rw [hm₁] at hreserve
    dsimp only
    have hrecord : Keeps but m₁ (if route.shapeIsValid = true then
        m₁.enqueueRecord { kind := kind, route := route,
                           admissionId := (m₁.reserved.map (·.admissionId)).getD 0,
                           receivedMs := receivedMs, bytes := bytes }
        else (.invalidArgument, m₁)).2 := by
      split_ifs
      · rcases hkind with rfl | rfl
        · exact .enqueueRecord _ (.refl _) nofun nofun nofun
        · exact .enqueueRecord _ (.refl _) nofun nofun nofun
      · exact .rfl
    split
    · rename_i m₂ hm₂
      rw [hm₂] at hrecord
      exact (hreserve.trans hrecord).trans (.reservation _ true)
    · rename_i m₂ _ hm₂
      rw [hm₂] at hrecord
      refine (hreserve.trans hrecord).trans ?_
      dsimp only
      split_ifs
      · exact .reservation none false
      · exact .rfl
  · rename_i hm₁
    rw [hm₁] at hreserve
    exact hreserve

theorem enqueueUsbFrame (bytes : List UInt8) (receivedMs : UInt32) :
    Keeps but m (m.enqueueUsbFrame route bytes receivedMs).2 := by
  unfold SpeakerAssetsRuntimeMailbox.enqueueUsbFrame
  split_ifs
  · exact .rfl
  · exact .enqueueFrame (Or.inl (.refl _)) bytes receivedMs

theorem enqueueWifiFrame (bytes : List UInt8) (receivedMs : UInt32) :
    Keeps but m (m.enqueueWifiFrame route bytes receivedMs).2 := by
  unfold SpeakerAssetsRuntimeMailbox.enqueueWifiFrame
  split_ifs
  · exact .rfl
  · exact .enqueueFrame (Or.inr (.refl _)) bytes receivedMs

end Keeps

/-- Where the next record is taken from. -/
inductive Taken (m : SpeakerAssetsRuntimeMailbox) :
    Option SpeakerAssetsRuntimeMailboxRecord × SpeakerAssetsRuntimeMailbox → Prop
  | revokeAll {route : SpeakerAssetsRouteToken} : m.revokeAll = some route →
    Taken m (some { kind := .allRoutesClosed, route := route }, { m with revokeAll := none })
  | close {route : SpeakerAssetsRouteToken} {closes : List SpeakerAssetsRouteToken} :
    m.revokeAll = none → m.closes = route :: closes →
    Taken m (some { kind := .routeClosed, route := route }, { m with closes := closes })
  | data {record : SpeakerAssetsRuntimeMailboxRecord} {data : List SpeakerAssetsRuntimeMailboxRecord} :
    m.revokeAll = none → m.closes = [] → m.data = record :: data →
    Taken m (some record, { m with data := data })
  | nothing : m.revokeAll = none → m.closes = [] → m.data = [] → Taken m (none, m)

theorem takeNext_spec (h : Whole m) : Taken m m.takeNext := by
  unfold takeNext
  split
  · rename_i route hr
    exact .revokeAll hr
  · rename_i hr
    split
    · rename_i route closes hc
      exact .close hr hc
    · rename_i hc
      rcases hd : m.data with _ | ⟨record, data⟩
      · have : ({ m with data := [] } : SpeakerAssetsRuntimeMailbox) = m := by rw [← hd]
        simp only [List.dropWhile_nil, this]
        exact .nothing hr hc hd
      · have hlive : record.cancelled = false := h.live record (hd ▸ List.mem_cons_self ..)
        simp only [List.dropWhile_cons, hlive]
        exact .data hr hc hd

end CodexKeyboard.SoundSync.SpeakerAssetsRuntimeMailbox
