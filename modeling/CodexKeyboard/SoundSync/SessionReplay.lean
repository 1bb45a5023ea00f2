import CodexKeyboard.SoundSync.SessionLending

/-! No request is carried out twice: the reply to a successful action is remembered, and while it is, the same
    request gets the same reply and no action.

    A reply stays for eight further completions, unless its route is closed. -/

namespace CodexKeyboard.SoundSync

/-- What names a request. -/
abbrev RequestKey := SpeakerAssetsRouteToken × UInt32 × UInt32

def ReplayEntry.key (entry : ReplayEntry) : RequestKey := (entry.route, entry.requestCookie, entry.requestId)

def PendingAction.key (p : PendingAction) : RequestKey := (p.route, p.requestCookie, p.requestId)

def SpeakerAssetsActionView.key (action : SpeakerAssetsActionView) : RequestKey :=
  (action.route, action.sessionCookie, action.requestId)

namespace SpeakerAssetsSession

variable {s t : SpeakerAssetsSession} {route : SpeakerAssetsRouteToken} {frame : SpeakerAssetsFrame}
  {crypto : SoundCrypto} {finished : PendingAction} {completion : SpeakerAssetsActionCompletion} {entry : ReplayEntry}

/-! ### The ring of replies -/

/-- No request is remembered twice, and the pending one is not. -/
structure Distinct (s : SpeakerAssetsSession) : Prop where
  length : s.replay.length = speakerAssetsReplayEntries
  slot : s.nextReplaySlot < speakerAssetsReplayEntries
  unique : ∀ (i j : ℕ) (entry entry' : ReplayEntry), s.replay[i]? = some (some entry) →
    s.replay[j]? = some (some entry') →
    entry.key = entry'.key → i = j
  pending : ∀ p, s.pending = some p → ∀ entry : ReplayEntry, some entry ∈ s.replay → entry.key ≠ p.key

theorem distinct_init (cookieSeed actionTokenSeed : UInt32) : Distinct (init cookieSeed actionTokenSeed) where
  length := rfl
  slot := Nat.zero_lt_succ 7
  unique i j entry entry' hi := by
    have hnone := (List.mem_replicate.1 (List.mem_of_getElem? hi)).2
    cases hnone
  pending p hp := by cases hp

theorem Distinct.same (h : Distinct s) (hreplay : t.replay = s.replay) (hslot : t.nextReplaySlot = s.nextReplaySlot)
    (hpending : ∀ p, t.pending = some p → ∃ q, s.pending = some q ∧ q.key = p.key) : Distinct t where
  length := by rw [hreplay, h.length]
  slot := by rw [hslot]; exact h.slot
  unique := by rw [hreplay]; exact h.unique
  pending p hp entry hentry := by
    obtain ⟨q, hq, hkey⟩ := hpending p hp
    rw [hreplay] at hentry
    rw [← hkey]
    exact h.pending q hq entry hentry

/-- The entries that are left are where they were. -/
theorem Distinct.fewer (h : Distinct s) (hlength : t.replay.length = s.replay.length)
    (hslot : t.nextReplaySlot < speakerAssetsReplayEntries)
    (hreplay : ∀ (i : ℕ) (entry : ReplayEntry), t.replay[i]? = some (some entry) → s.replay[i]? = some (some entry))
    (hpending : ∀ p, t.pending = some p → ∃ q, s.pending = some q ∧ q.key = p.key) : Distinct t where
  length := by rw [hlength, h.length]
  slot := hslot
  unique i j entry entry' hi hj := h.unique i j entry entry' (hreplay i entry hi) (hreplay j entry' hj)
  pending p hp entry hentry := by
    obtain ⟨q, hq, hkey⟩ := hpending p hp
    obtain ⟨i, hi⟩ := List.mem_iff_getElem?.1 hentry
    rw [← hkey]
    exact h.pending q hq entry (List.mem_of_getElem? (hreplay i entry hi))

theorem consume_ring (s : SpeakerAssetsSession) (crypto : SoundCrypto) (route : SpeakerAssetsRouteToken)
    (frame : SpeakerAssetsFrame) : (s.consume crypto route frame).2.2.replay = s.replay ∧
      (s.consume crypto route frame).2.2.nextReplaySlot = s.nextReplaySlot := by
  rcases consume_reacted s crypto route frame with hrefused | ⟨hreacted, -⟩
  · rw [hrefused]
    exact ⟨rfl, rfl⟩
  · generalize (s.consume crypto route frame).2 = answer at hreacted
    cases hreacted with
    | reply hheld => exact ⟨hheld.replay, hheld.slot⟩
    | action hheld _ => exact ⟨hheld.replay, hheld.slot⟩

theorem Distinct.consume (h : Distinct s) (crypto : SoundCrypto) (route : SpeakerAssetsRouteToken)
    (frame : SpeakerAssetsFrame) : Distinct (s.consume crypto route frame).2.2 := by
  rcases consume_reacted s crypto route frame with hrefused | ⟨hreacted, -⟩
  · rw [hrefused]
    exact h
  · have hspec := (consume_spec s crypto route frame).resolve_left fun hrefused => by
      rw [hrefused] at hreacted
      cases hreacted
    generalize (s.consume crypto route frame).2 = answer at hreacted hspec
    cases hreacted with
    | reply hheld =>
      cases hspec.2 with
      | reply hkept => exact h.same hheld.replay hheld.slot fun p hp => ⟨p, hkept.pending.symm.trans hp, rfl⟩
    | action hheld hbegun =>
      refine ⟨?_, ?_, ?_, fun p hp entry hentry => ?_⟩
      · rw [hheld.replay, h.length]
      · rw [hheld.slot]
        exact h.slot
      · rw [hheld.replay]
        exact h.unique
      · cases hbegun.pending.symm.trans hp
        rw [hheld.replay] at hentry
        intro hkey
        simp only [ReplayEntry.key, PendingAction.key, Prod.mk.injEq] at hkey
        exact hbegun.new entry hentry (hkey.1.trans hbegun.owner) (hkey.2.1.trans hbegun.cookie)
          (hkey.2.2.trans hbegun.request)

/-! ### Completions -/

/-- The finished request and its reply, as they are remembered. -/
def replayEntry (finished : PendingAction) (reply : SpeakerAssetsFrame) : ReplayEntry where
  route := finished.route
  requestCookie := finished.requestCookie
  requestId := finished.requestId
  opcode := finished.opcode
  region := finished.region
  unitIndex := finished.unitIndex
  fingerprint := finished.fingerprint
  reply := reply

/-- Nothing is pending any more, and the reply is remembered. -/
structure Remembers (s t : SpeakerAssetsSession) (finished : PendingAction) (reply : SpeakerAssetsFrame) : Prop where
  pending : t.pending = none
  replay : t.replay = s.replay.set s.nextReplaySlot (some (replayEntry finished reply))
  slot : t.nextReplaySlot = (s.nextReplaySlot + 1) % speakerAssetsReplayEntries

/-- A completion that settles leaves the ring, or its reply says no error and is remembered. -/
inductive Ended (s : SpeakerAssetsSession) (finished : PendingAction) :
    SpeakerAssetsEmission × SpeakerAssetsSession → Prop
  | forgotten {emission : SpeakerAssetsEmission} {t : SpeakerAssetsSession} : t.pending = none → t.replay = s.replay →
    t.nextReplaySlot = s.nextReplaySlot →
    (∀ reply, emission = .reply reply → hasFlag reply.flags flagError = true) → Ended s finished (emission, t)
  | remembered {reply : SpeakerAssetsFrame} {t : SpeakerAssetsSession} : finished.orphaned = false →
    Remembers s t finished reply → Ended s finished (.reply reply, t)

theorem error_status (request : SpeakerAssetsFrame) (status : SpeakerAssetsStatus) (cookie : UInt32)
    (h : status ≠ .ok) :
    hasFlag (statusReply request status cookie).flags flagError = true := by
  have hflags : hasFlag (flagResponse ||| flagError) flagError = true := by decide
  rw [statusReply, if_neg h]
  exact hflags

theorem statusFromStoreResult_ne (result : SoundStoreResult) (h : result ≠ .ok) :
    speakerAssetsStatusFromStoreResult result ≠ .ok := by
  revert h
  cases result <;> decide

theorem ended_failed (result : SoundStoreResult) (h : result ≠ .ok) :
    Ended s finished (s.completeFailed finished result) := by
  have herror (reply : SpeakerAssetsFrame) (hreply : (s.completeFailed finished result).1 = .reply reply) :
      hasFlag reply.flags flagError = true := by
    cases hreply
    exact error_status _ _ _ (statusFromStoreResult_ne result h)
  unfold completeFailed at herror ⊢
  cases hkind : finished.kind with
  | resumeQuery =>
    rw [hkind] at herror
    dsimp only at herror ⊢
    split
    · exact .forgotten rfl rfl rfl herror
    · exact .forgotten rfl rfl rfl herror
  | begin => rw [hkind] at herror; exact .forgotten rfl rfl rfl herror
  | discardInvalidStaging => rw [hkind] at herror; exact .forgotten rfl rfl rfl herror
  | queryCurrentActive => rw [hkind] at herror; exact .forgotten rfl rfl rfl herror
  | writeManifest => rw [hkind] at herror; exact .forgotten rfl rfl rfl herror
  | writePayloadBlock => rw [hkind] at herror; exact .forgotten rfl rfl rfl herror
  | commit => rw [hkind] at herror; exact .forgotten rfl rfl rfl herror
  | abort => rw [hkind] at herror; exact .forgotten rfl rfl rfl herror

theorem ended_ok (horphaned : finished.orphaned = false) : Ended s finished (s.completeOk finished completion) := by
  have hbound (progress : SoundUpdateProgress) : Ended s finished (s.completeBound finished progress) :=
    .remembered horphaned ⟨rfl, rfl, rfl⟩
  have hprogress (progress : SoundUpdateProgress) : Ended s finished (s.completeProgress finished progress) :=
    .remembered horphaned ⟨rfl, rfl, rfl⟩
  have hfinal (reply : SpeakerAssetsFrame) : Ended s finished (s.completeFinal finished reply) :=
    .remembered horphaned ⟨rfl, rfl, rfl⟩
  unfold completeOk
  cases finished.kind with
  | begin => exact hbound _
  | discardInvalidStaging => exact hfinal _
  | queryCurrentActive => exact hfinal _
  | resumeQuery =>
    dsimp only
    split
    · split
      · exact hbound _
      · exact hprogress _
    · exact hfinal _
  | writeManifest => exact .remembered horphaned ⟨rfl, rfl, rfl⟩
  | writePayloadBlock => exact .remembered horphaned ⟨rfl, rfl, rfl⟩
  | commit => exact hfinal _
  | abort => exact hfinal _

theorem complete_ended (s : SpeakerAssetsSession) (completion : SpeakerAssetsActionCompletion) :
    (s.complete completion).1 ≠ .ok ∧ (s.complete completion).2 = (.none, s) ∨
      (s.complete completion).1 = .ok ∧ ∃ finished, s.pending = some finished ∧
        Ended s finished (s.complete completion).2 := by
  unfold complete
  split
  · exact Or.inl ⟨nofun, rfl⟩
  next finished hp =>
    split
    · exact Or.inl ⟨nofun, rfl⟩
    · refine Or.inr ?_
      split
      · exact ⟨rfl, finished, hp, .forgotten rfl rfl rfl fun reply hreply => by cases hreply⟩
      next horphaned =>
        rw [Bool.not_eq_true] at horphaned
        split
        next hresult => exact ⟨rfl, finished, hp, ended_failed completion.result hresult⟩
        · split
          · refine ⟨rfl, finished, hp, .forgotten rfl rfl rfl fun reply hreply => ?_⟩
            cases hreply
            exact error_status _ _ _ (by decide)
          · exact ⟨rfl, finished, hp, ended_ok horphaned⟩

theorem Distinct.remembers (h : Distinct s) (hp : s.pending = some finished) {reply : SpeakerAssetsFrame}
    (hr : Remembers s t finished reply) : Distinct t := by
  have hget (i : ℕ) (entry : ReplayEntry) (hi : t.replay[i]? = some (some entry)) :
      i = s.nextReplaySlot ∧ entry = replayEntry finished reply ∨
        i ≠ s.nextReplaySlot ∧ s.replay[i]? = some (some entry) := by
    rw [hr.replay, List.getElem?_set] at hi
    split at hi
    next hslot =>
      split at hi
      · cases hi
        exact Or.inl ⟨hslot.symm, rfl⟩
      · cases hi
    next hslot => exact Or.inr ⟨fun h => hslot h.symm, hi⟩
  refine ⟨?_, ?_, fun i j entry entry' hi hj hkey => ?_, fun p hp' => ?_⟩
  · rw [hr.replay, List.length_set, h.length]
  · rw [hr.slot]
    exact Nat.mod_lt _ (by decide)
  · rcases hget i entry hi with ⟨rfl, rfl⟩ | ⟨hi', hold⟩
    · rcases hget j entry' hj with ⟨rfl, rfl⟩ | ⟨hj', hold'⟩
      · rfl
      · exact absurd hkey.symm (h.pending finished hp entry' (List.mem_of_getElem? hold'))
    · rcases hget j entry' hj with ⟨rfl, rfl⟩ | ⟨hj', hold'⟩
      · exact absurd hkey (h.pending finished hp entry (List.mem_of_getElem? hold))
      · exact h.unique i j entry entry' hold hold' hkey
  · rw [hr.pending] at hp'
    cases hp'

theorem Distinct.complete (h : Distinct s) (completion : SpeakerAssetsActionCompletion) :
    Distinct (s.complete completion).2.2 := by
  rcases complete_ended s completion with ⟨-, hsame⟩ | ⟨-, finished, hp, hended⟩
  · rw [hsame]
    exact h
  · generalize (s.complete completion).2 = answer at hended
    cases hended with
    | forgotten hnone hreplay hslot => exact h.same hreplay hslot fun p hp => by rw [hnone] at hp; cases hp
    | remembered _ hr => exact h.remembers hp hr

/-! ### Closed routes -/

theorem key_orphan (route : SpeakerAssetsRouteToken) (p : PendingAction) : (orphan route p).key = p.key := by
  unfold orphan
  split <;> rfl

theorem routeClosed_slot (s : SpeakerAssetsSession) (route : SpeakerAssetsRouteToken) :
    (s.routeClosed route).nextReplaySlot = s.nextReplaySlot := by
  unfold routeClosed
  dsimp only
  split
  · split
    · split <;> rfl
    · split <;> rfl
  · split <;> rfl

theorem allRoutesClosed_slot (s : SpeakerAssetsSession) : s.allRoutesClosed.nextReplaySlot = 0 := by
  unfold allRoutesClosed
  dsimp only
  split
  · split <;> rfl
  · rfl

theorem Distinct.routeClosed (h : Distinct s) (route : SpeakerAssetsRouteToken) : Distinct (s.routeClosed route) := by
  refine h.fewer ?_ ?_ (fun i entry hi => ?_) fun p hp => ?_
  · rw [routeClosed_replay, clearReplayForRoute, List.length_map]
  · rw [routeClosed_slot]
    exact h.slot
  · rw [routeClosed_replay, clearReplayForRoute, List.getElem?_map, Option.map_eq_some_iff] at hi
    obtain ⟨old, hold, hfilter⟩ := hi
    obtain ⟨rfl, -⟩ := Option.filter_eq_some_iff.1 hfilter
    exact hold
  · rw [routeClosed_pending, Option.map_eq_some_iff] at hp
    obtain ⟨q, hq, rfl⟩ := hp
    exact ⟨q, hq, (key_orphan route q).symm⟩

theorem Distinct.allRoutesClosed (h : Distinct s) : Distinct s.allRoutesClosed := by
  refine h.fewer ?_ ?_ (fun i entry hi => ?_) fun p hp => ?_
  · rw [allRoutesClosed_replay, List.length_replicate, h.length]
  · rw [allRoutesClosed_slot]
    decide
  · rw [allRoutesClosed_replay] at hi
    have hnone := (List.mem_replicate.1 (List.mem_of_getElem? hi)).2
    cases hnone
  · rw [allRoutesClosed_pending, Option.map_eq_some_iff] at hp
    obtain ⟨q, hq, rfl⟩ := hp
    exact ⟨q, hq, rfl⟩

theorem expirePartial_ring (s : SpeakerAssetsSession) (route : SpeakerAssetsRouteToken) :
    (s.expirePartial route).2.replay = s.replay ∧ (s.expirePartial route).2.nextReplaySlot = s.nextReplaySlot ∧
      (s.expirePartial route).2.pending = s.pending := by
  unfold expirePartial
  split_ifs <;> exact ⟨rfl, rfl, rfl⟩

theorem Distinct.expirePartial (h : Distinct s) (route : SpeakerAssetsRouteToken) :
    Distinct (s.expirePartial route).2 := by
  obtain ⟨hreplay, hslot, hpending⟩ := expirePartial_ring s route
  exact h.same hreplay hslot fun p hp => ⟨p, hpending.symm.trans hp, rfl⟩

/-! ### What stays remembered -/

/-- The request is remembered, and `settled` completions came after its own. -/
structure Remembered (s : SpeakerAssetsSession) (entry : ReplayEntry) (settled : ℕ) : Prop where
  few : settled < speakerAssetsReplayEntries
  held : ∃ i since, s.replay[i]? = some (some entry) ∧ since ≤ settled ∧
    s.nextReplaySlot = (i + 1 + since) % speakerAssetsReplayEntries

theorem Remembered.mem {settled : ℕ} (h : Remembered s entry settled) : some entry ∈ s.replay := by
  obtain ⟨i, -, hi, -⟩ := h.held
  exact List.mem_of_getElem? hi

theorem Remembered.same {settled : ℕ} (h : Remembered s entry settled) (hreplay : t.replay = s.replay)
    (hslot : t.nextReplaySlot = s.nextReplaySlot) : Remembered t entry settled := by
  obtain ⟨i, since, hi, hsince, hnext⟩ := h.held
  exact ⟨h.few, i, since, hreplay ▸ hi, hsince, hslot.trans hnext⟩

theorem Remembered.later {settled : ℕ} (h : Remembered s entry settled)
    (hfew : settled + 1 < speakerAssetsReplayEntries) :
    Remembered s entry (settled + 1) := by
  obtain ⟨i, since, hi, hsince, hnext⟩ := h.held
  exact ⟨hfew, i, since, hi, Nat.le_succ_of_le hsince, hnext⟩

/-- The next reply takes another slot. -/
theorem Remembered.next {settled : ℕ} (hd : Distinct s) (h : Remembered s entry settled)
    (hfew : settled + 1 < speakerAssetsReplayEntries) {reply : SpeakerAssetsFrame} (hr : Remembers s t finished reply) :
    Remembered t entry (settled + 1) := by
  obtain ⟨i, since, hi, hsince, hnext⟩ := h.held
  have hi8 : i < 8 := by
    rw [← show s.replay.length = 8 from hd.length]
    exact (List.getElem?_eq_some_iff.1 hi).1
  have hother : s.nextReplaySlot ≠ i := by
    rw [hnext]
    simp only [speakerAssetsReplayEntries] at hfew ⊢
    omega
  refine ⟨hfew, i, since + 1, ?_, Nat.succ_le_succ hsince, ?_⟩
  · rw [hr.replay, List.getElem?_set_ne hother]
    exact hi
  · rw [hr.slot, hnext, Nat.mod_add_mod, Nat.add_assoc]

theorem Remembers.remembered (hd : Distinct s) {reply : SpeakerAssetsFrame} (hr : Remembers s t finished reply) :
    Remembered t (replayEntry finished reply) 0 := by
  refine ⟨by decide, s.nextReplaySlot, 0, ?_, Nat.le_refl 0, ?_⟩
  · rw [hr.replay, List.getElem?_set_self]
    rw [hd.length]
    exact hd.slot
  · rw [hr.slot]

/-! ### One frame, one reply -/

/-- The requests that are one frame. -/
def singleFrame (opcode : UInt8) : Bool :=
  match SpeakerAssetsOpcode.ofCode opcode with
  | some .resume | some .query | some .commit | some .abort | some .currentActive => true
  | some .capabilities | some .begin | some .data | some .recoverInvalidStaging | none => false

/-- The pending action is that of the frame. -/
structure OfFrame (crypto : SoundCrypto) (route : SpeakerAssetsRouteToken) (frame : SpeakerAssetsFrame)
    (p : PendingAction) :
    Prop where
  owner : p.route = route
  cookie : p.requestCookie = frame.sessionCookie
  request : p.requestId = frame.requestId
  opcode : p.opcode = frame.opcode
  region : p.region = .manifest
  unitIndex : p.unitIndex = 0
  fingerprint : p.fingerprint = frameFingerprint crypto frame

/-- The frame begins an action, and gets its own reply where one is remembered. -/
structure Repeats (crypto : SoundCrypto) (route : SpeakerAssetsRouteToken) (frame : SpeakerAssetsFrame)
    (consumes : SpeakerAssetsSession → SpeakerAssetsEmission × SpeakerAssetsSession) : Prop where
  begun : ∀ {s t action}, consumes s = (.action action, t) → ∃ p, t.pending = some p ∧ OfFrame crypto route frame p
  again : ∀ {s t u action reply}, consumes s = (.action action, t) →
    u.lookupReplay route frame.sessionCookie frame.requestId frame.opcode .manifest 0 (frameFingerprint crypto frame) =
      .exact reply → consumes u = (.reply reply, u)

theorem repeats_resume : Repeats crypto route frame fun s => s.consumeResume crypto route frame where
  begun := by
    intro s t action h
    unfold consumeResume at h
    split at h
    · cases h
    next hflags =>
      push Not at hflags
      split at h
      · cases h
      · dsimp only at h
        split at h
        · cases h
        · cases h
        · split at h
          · cases h
          · cases h
            exact ⟨_, rfl, rfl, rfl, rfl, rfl, rfl, rfl, rfl⟩
  again := by
    intro s t u action reply h hexact
    unfold consumeResume at h ⊢
    split at h
    · cases h
    next hflags =>
      split at h
      · cases h
      next hvalid =>
        rw [if_neg hflags, if_neg hvalid]
        push Not at hflags
        rw [hflags.2.1] at hexact
        dsimp only
        rw [hexact]

theorem repeats_currentActive : Repeats crypto route frame fun s => s.consumeCurrentActive crypto route frame where
  begun := by
    intro s t action h
    unfold consumeCurrentActive at h
    split at h
    · cases h
    · dsimp only at h
      split at h
      · cases h
      · cases h
      · split at h
        · cases h
        · cases h
          exact ⟨_, rfl, rfl, rfl, rfl, rfl, rfl, rfl, rfl⟩
  again := by
    intro s t u action reply h hexact
    unfold consumeCurrentActive at h ⊢
    split at h
    · cases h
    next hflags =>
      rw [if_neg hflags]
      push Not at hflags
      rw [hflags.2.1] at hexact
      dsimp only
      rw [hexact]

theorem repeats_bound (kind : SpeakerAssetsActionKind) :
    Repeats crypto route frame fun s => s.consumeBound crypto route frame kind where
  begun := by
    intro s t action h
    unfold consumeBound at h
    split at h
    · cases h
    · dsimp only at h
      split at h
      · cases h
      · cases h
      · split at h
        · cases h
        · cases h
          exact ⟨_, rfl, rfl, rfl, rfl, rfl, rfl, rfl, rfl⟩
  again := by
    intro s t u action reply h hexact
    unfold consumeBound at h ⊢
    split at h
    · cases h
    next hflags =>
      rw [if_neg hflags]
      dsimp only
      rw [hexact]

/-- What `consume` asks of a frame of a known request before it looks at the session. -/
def Admitted (route : SpeakerAssetsRouteToken) (frame : SpeakerAssetsFrame) : Prop :=
  ¬(!route.shapeIsValid || frame.requestId == 0 ||
      decide (speakerAssetsWifiFrameBodyBytes < frame.body.length)) = true ∧
    ¬(!onlyFlags frame.flags knownFlags || hasFlag frame.flags (flagResponse ||| flagError)) = true

theorem consume_single (crypto : SoundCrypto) (route : SpeakerAssetsRouteToken)
    (hopcode : singleFrame frame.opcode = true) :
    ∃ consumes, Repeats crypto route frame consumes ∧
    ∀ u : SpeakerAssetsSession, u.phase ≠ .actionPending → Admitted route frame →
      u.consume crypto route frame = (.ok, consumes u) := by
  unfold singleFrame at hopcode
  split at hopcode
  next h =>
    refine ⟨_, repeats_resume, fun u hphase hadmitted => ?_⟩
    unfold consume
    rw [if_neg hadmitted.1, if_neg hadmitted.2, if_neg (by rw [h]; nofun), if_neg hphase, h]
  next h =>
    refine ⟨_, repeats_bound .resumeQuery, fun u hphase hadmitted => ?_⟩
    unfold consume
    rw [if_neg hadmitted.1, if_neg hadmitted.2, if_neg (by rw [h]; nofun), if_neg hphase, h]
    rfl
  next h =>
    refine ⟨_, repeats_bound .commit, fun u hphase hadmitted => ?_⟩
    unfold consume
    rw [if_neg hadmitted.1, if_neg hadmitted.2, if_neg (by rw [h]; nofun), if_neg hphase, h]
    rfl
  next h =>
    refine ⟨_, repeats_bound .abort, fun u hphase hadmitted => ?_⟩
    unfold consume
    rw [if_neg hadmitted.1, if_neg hadmitted.2, if_neg (by rw [h]; nofun), if_neg hphase, h]
    rfl
  next h =>
    refine ⟨_, repeats_currentActive, fun u hphase hadmitted => ?_⟩
    unfold consume
    rw [if_neg hadmitted.1, if_neg hadmitted.2, if_neg (by rw [h]; nofun), if_neg hphase, h]
  all_goals cases hopcode

theorem consume_admitted {action : SpeakerAssetsActionView}
    (haction : (s.consume crypto route frame).2.1 = .action action) :
    s.phase ≠ .actionPending ∧ Admitted route frame := by
  unfold consume at haction
  split at haction
  · cases haction
  next hargs =>
    split at haction
    · cases haction
    next hflags =>
      split at haction
      · unfold consumeCapabilities at haction
        split at haction <;> cases haction
      · split at haction
        · cases haction
        next hphase => exact ⟨hphase, hargs, hflags⟩

/-- A frame that begins an action, of the requests that are one frame. -/
theorem repeats_consume (hopcode : singleFrame frame.opcode = true) {action : SpeakerAssetsActionView}
    (haction : (s.consume crypto route frame).2.1 = .action action) :
    (∃ p, (s.consume crypto route frame).2.2.pending = some p ∧ OfFrame crypto route frame p) ∧
      ∀ (u : SpeakerAssetsSession) (reply : SpeakerAssetsFrame), u.phase ≠ .actionPending →
        u.lookupReplay route frame.sessionCookie frame.requestId frame.opcode .manifest 0
          (frameFingerprint crypto frame) = .exact reply →
        u.consume crypto route frame = (.ok, .reply reply, u) := by
  obtain ⟨consumes, hrepeats, hconsumes⟩ := consume_single crypto route hopcode
  obtain ⟨hphase, hadmitted⟩ := consume_admitted haction
  have hs := hconsumes s hphase hadmitted
  have hbegun : consumes s = (.action action, (s.consume crypto route frame).2.2) := by
    rw [hs] at haction ⊢
    exact Prod.ext haction rfl
  refine ⟨hrepeats.begun hbegun, fun u reply hu hexact => ?_⟩
  rw [hconsumes u hu hadmitted, hrepeats.again hbegun hexact]

/-- The remembered reply is found. -/
theorem Remembered.lookup {settled : ℕ} (hd : Distinct s) (h : Remembered s entry settled) :
    s.lookupReplay entry.route entry.requestCookie entry.requestId entry.opcode entry.region entry.unitIndex
      entry.fingerprint = .exact entry.reply := by
  have hmem : entry ∈ s.replay.reduceOption.filter fun other =>
      other.route = entry.route ∧ other.requestCookie = entry.requestCookie ∧ other.requestId = entry.requestId :=
    List.mem_filter.2 ⟨List.reduceOption_mem_iff.2 h.mem, by simp⟩
  unfold lookupReplay
  dsimp only
  split
  next found hfound =>
    have hfoundMem := List.mem_filter.1 (List.mem_of_find?_eq_some hfound)
    obtain ⟨i, hi⟩ := List.mem_iff_getElem?.1 (List.reduceOption_mem_iff.1 hfoundMem.1)
    obtain ⟨j, hj⟩ := List.mem_iff_getElem?.1 h.mem
    have hkey : found.key = entry.key := by
      have hsame := hfoundMem.2
      simp only [decide_eq_true_eq] at hsame
      rw [ReplayEntry.key, ReplayEntry.key, hsame.1, hsame.2.1, hsame.2.2]
    cases hd.unique i j found entry hi hj hkey
    cases hi.symm.trans hj
    rfl
  next hnone =>
    have hself := List.find?_eq_none.1 hnone entry hmem
    simp at hself

end SpeakerAssetsSession

/-! ### Runs -/

namespace Lending

open SpeakerAssetsSession

variable {crypto : SoundCrypto} {w v : Lending} {route : SpeakerAssetsRouteToken} {frame : SpeakerAssetsFrame}
  {action : SpeakerAssetsActionView} {completion : SpeakerAssetsActionCompletion} {settled : ℕ}

theorem Reachable.distinct (h : Reachable crypto w) : Distinct w.session := by
  induction h with
  | init cookieSeed actionTokenSeed => exact distinct_init _ _
  | call _ c ih =>
    cases c with
    | consume route frame => exact ih.consume crypto route frame
    | complete completion => exact ih.complete completion
    | routeClosed route => exact ih.routeClosed route
    | allRoutesClosed => exact ih.allRoutesClosed
    | expirePartial route => exact ih.expirePartial route

/-- The call closes the route. -/
def closes (route : SpeakerAssetsRouteToken) : SessionCall → Bool
  | .routeClosed other => other == route
  | .allRoutesClosed => true
  | .consume _ _ | .complete _ | .expirePartial _ => false

/-- The call settles an action. -/
def settles (w : Lending) : SessionCall → Bool
  | .complete completion => (w.session.complete completion).1 == .ok
  | .consume _ _ | .routeClosed _ | .allRoutesClosed | .expirePartial _ => false

/-- A run from `w` on in which the route stays open and so many actions are settled. -/
inductive Open (crypto : SoundCrypto) (route : SpeakerAssetsRouteToken) (w : Lending) : ℕ → Lending → Prop
  | refl : Open crypto route w 0 w
  | call {settled : ℕ} {v : Lending} : Open crypto route w settled v → ∀ c, closes route c = false →
    Open crypto route w (settled + (v.settles c).toNat) (v.call crypto c)

theorem Open.reachable (h : Open crypto route w settled v) (hw : Reachable crypto w) : Reachable crypto v := by
  induction h with
  | refl => exact hw
  | call _ c _ ih => exact ih.call c

/-- A reply is remembered for eight further completions. -/
theorem remembered_call {entry : ReplayEntry} (hd : Distinct w.session) (h : Remembered w.session entry settled)
    (c : SessionCall)
    (hopen : closes entry.route c = false) (hfew : settled + (w.settles c).toNat < speakerAssetsReplayEntries) :
    Remembered (w.call crypto c).session entry (settled + (w.settles c).toNat) := by
  cases c with
  | consume route frame =>
    obtain ⟨hreplay, hslot⟩ := consume_ring w.session crypto route frame
    exact h.same hreplay hslot
  | complete completion =>
    simp only [call]
    rcases complete_ended w.session completion with ⟨hrefused, hsame⟩ | ⟨hok, finished, hp, hended⟩
    · have hzero : w.settles (.complete completion) = false := beq_eq_false_iff_ne.2 hrefused
      rw [hzero, hsame]
      exact h
    · have hone : w.settles (.complete completion) = true := beq_iff_eq.2 hok
      rw [hone] at hfew ⊢
      generalize (w.session.complete completion).2 = answer at hended
      cases hended with
      | forgotten _ hreplay hslot _ => exact (h.later hfew).same hreplay hslot
      | remembered _ hr => exact h.next hd hfew hr
  | routeClosed route =>
    obtain ⟨i, since, hi, hsince, hnext⟩ := h.held
    refine ⟨hfew, i, since, ?_, hsince, (routeClosed_slot _ _).trans hnext⟩
    have hother : entry.route ≠ route := fun h => by simp [closes, h] at hopen
    simp only [call]
    rw [routeClosed_replay, clearReplayForRoute, List.getElem?_map, hi]
    simp [hother]
  | allRoutesClosed => cases hopen
  | expirePartial route =>
    obtain ⟨hreplay, hslot, -⟩ := expirePartial_ring w.session route
    exact h.same hreplay hslot

theorem remembered_open {entry : ReplayEntry} (hw : Reachable crypto w) (h : Remembered w.session entry 0)
    (hrun : Open crypto entry.route w settled v) (hfew : settled < speakerAssetsReplayEntries) :
    Remembered v.session entry settled := by
  induction hrun with
  | refl => exact h
  | @call settled v hrun c hopen ih =>
    exact remembered_call (hrun.reachable hw).distinct (ih (Nat.lt_of_le_of_lt (Nat.le_add_right _ _) hfew))
      c hopen hfew

/-- A successful completion: the action was its route's, and its reply says no error. -/
theorem remembered_complete (hw : Reachable crypto w) (haction : w.inHand = some action) {reply : SpeakerAssetsFrame}
    (hreply : (w.session.complete completion).2.1 = .reply reply) (hgood : hasFlag reply.flags flagError = false) :
    ∃ finished, w.session.pending = some finished ∧ finished.orphaned = false ∧ finished.key = action.key ∧
      Remembered (w.call crypto (.complete completion)).session (replayEntry finished reply) 0 := by
  rcases complete_ended w.session completion with ⟨-, hsame⟩ | ⟨-, finished, hp, hended⟩
  · rw [hsame] at hreply
    cases hreply
  · obtain ⟨same, hsame, hborrowed⟩ := hw.lends.out finished hp
    cases haction.symm.trans hsame
    have hkey : finished.key = action.key := by
      rw [PendingAction.key, SpeakerAssetsActionView.key, hborrowed.route, hborrowed.request, hborrowed.cookie]
    refine ⟨finished, hp, ?_⟩
    simp only [call]
    generalize (w.session.complete completion).2 = answer at hended hreply
    cases hended with
    | forgotten _ _ _ herror =>
      rw [herror reply hreply] at hgood
      cases hgood
    | remembered horphaned hr =>
      cases hreply
      exact ⟨horphaned, hkey, hr.remembered hw.distinct⟩

/-- A request that was carried out is not carried out again while its route stays open and fewer than eight
    further actions are settled. -/
theorem at_most_once (hw : Reachable crypto w) (haction : w.inHand = some action) {reply : SpeakerAssetsFrame}
    (hreply : (w.session.complete completion).2.1 = .reply reply) (hgood : hasFlag reply.flags flagError = false)
    (hrun : Open crypto action.route (w.call crypto (.complete completion)) settled v)
    (hfew : settled < speakerAssetsReplayEntries) (frame : SpeakerAssetsFrame) (other : SpeakerAssetsActionView)
    (hother : (v.session.consume crypto action.route frame).2.1 = .action other) : other.key ≠ action.key := by
  obtain ⟨finished, hp, horphaned, hkey, hremembered⟩ := remembered_complete hw haction hreply hgood
  have hroute : (replayEntry finished reply).route = action.route := congrArg Prod.fst hkey
  rw [← hroute] at hrun
  have hheld := remembered_open (hw.call _) hremembered hrun hfew
  rcases consume_reacted v.session crypto action.route frame with hrefused | ⟨hreacted, -⟩
  · rw [hrefused] at hother
    cases hother
  · generalize (v.session.consume crypto action.route frame).2 = answer at hother hreacted
    cases hreacted with
    | reply => cases hother
    | action _ hbegun =>
      cases hother
      intro hsame
      have hcookie : finished.requestCookie = action.sessionCookie := congrArg (·.2.1) hkey
      have hrequest : finished.requestId = action.requestId := congrArg (·.2.2) hkey
      have hcookie' : other.sessionCookie = action.sessionCookie := congrArg (·.2.1) hsame
      have hrequest' : other.requestId = action.requestId := congrArg (·.2.2) hsame
      refine hbegun.new _ hheld.mem hroute ?_ ?_
      · exact hcookie.trans (hcookie'.symm.trans (hbegun.borrowed.cookie.trans hbegun.cookie))
      · exact hrequest.trans (hrequest'.symm.trans (hbegun.borrowed.request.trans hbegun.request))

/-- While no action is settled, the pending one stays, but for its route's end. -/
theorem pending_open {p : PendingAction} (hw : Reachable crypto w) (hp : w.session.pending = some p)
    (hrun : Open crypto route w 0 v) : ∃ orphaned, v.session.pending = some { p with orphaned := orphaned } := by
  generalize hzero : (0 : ℕ) = settled at hrun
  induction hrun with
  | refl => exact ⟨p.orphaned, hp⟩
  | @call settled v hrun c hopen ih =>
    obtain ⟨hbefore, hsettles⟩ := Nat.add_eq_zero_iff.1 hzero.symm
    obtain ⟨orphaned, hv⟩ := ih hbefore.symm
    cases c with
    | consume other frame =>
      have hphase := (hrun.reachable hw).lends.coherent.pendingPhase hv
      refine ⟨orphaned, ?_⟩
      simp only [call]
      rcases consume_reacted v.session crypto other frame with hrefused | ⟨-, hbusy⟩
      · rw [hrefused]
        exact hv
      · rw [(hbusy hphase).1]
        exact hv
    | complete completion =>
      refine ⟨orphaned, ?_⟩
      simp only [call]
      rcases complete_pending v.session completion with ⟨-, hsame⟩ | ⟨hok, -⟩
      · rw [hsame]
        exact hv
      · simp [settles, hok] at hsettles
    | routeClosed other =>
      simp only [call]
      rw [routeClosed_pending, hv, Option.map_some]
      unfold orphan
      split
      · exact ⟨true, rfl⟩
      · exact ⟨orphaned, rfl⟩
    | allRoutesClosed => cases hopen
    | expirePartial other => exact ⟨orphaned, (expirePartial_ring v.session other).2.2.trans hv⟩

/-- A request of one frame that was carried out gets the same reply again, word for word, and changes nothing:
    whenever no action is pending, while its route stays open and fewer than eight further actions are settled. -/
theorem same_reply (hw : Reachable crypto w) (hopcode : singleFrame frame.opcode = true)
    (haction : (w.session.consume crypto route frame).2.1 = .action action) {pause : Lending}
    (hwait : Open crypto route (w.call crypto (.consume route frame)) 0 pause) {reply : SpeakerAssetsFrame}
    (hreply : (pause.session.complete completion).2.1 = .reply reply) (hgood : hasFlag reply.flags flagError = false)
    (hrun : Open crypto route (pause.call crypto (.complete completion)) settled v)
    (hfew : settled < speakerAssetsReplayEntries) (hfree : v.session.phase ≠ .actionPending) :
    v.session.consume crypto route frame = (.ok, .reply reply, v.session) := by
  obtain ⟨⟨p, hp, howner, hcookie, hrequest, hframeOpcode, hregion, hunit, hfingerprint⟩, hagain⟩ :=
    repeats_consume hopcode haction
  have hbegun := hw.call (.consume route frame)
  obtain ⟨orphaned, hpause⟩ := pending_open hbegun hp hwait
  have hpaused := hwait.reachable hbegun
  obtain ⟨same, hsame, -⟩ := hpaused.lends.out _ hpause
  obtain ⟨finished, hfinished, -, -, hremembered⟩ := remembered_complete hpaused hsame hreply hgood
  cases hpause.symm.trans hfinished
  rw [← howner] at hrun
  have hheld := remembered_open (hpaused.call _) hremembered hrun hfew
  have hlookup := hheld.lookup (hrun.reachable (hpaused.call _)).distinct
  refine hagain v.session reply hfree ?_
  rw [← howner, ← hcookie, ← hrequest, ← hframeOpcode, ← hfingerprint, ← hregion, ← hunit]
  exact hlookup

/-! ### A run with a repeated request -/

def someQuery (requestId : UInt32) : SpeakerAssetsFrame where
  opcode := 9
  flags := singleFrameRequestFlags
  requestId := requestId

def someFactory (crypto : SoundCrypto) : Lending :=
  ({ session := SpeakerAssetsSession.init 1 1 } : Lending).call crypto (.consume { generation := 1 } (someQuery 1))

def factoryBlank : SpeakerAssetsActionCompletion where
  token := 1
  kind := .queryCurrentActive
  result := .ok
  currentActive := some {}

theorem someFactory_reachable (crypto : SoundCrypto) : Reachable crypto (someFactory crypto) :=
  .call (.init 1 1) (.consume { generation := 1 } (someQuery 1))

theorem factoryBlank_reply (crypto : SoundCrypto) : ((someFactory crypto).session.complete factoryBlank).2.1 =
    .reply (currentActiveReply (someQuery 1) {}) := rfl

theorem at_most_once_query : ∃ action other,
    (someFactory ⟨fun _ => 0, fun _ => zeroDigest⟩).inHand = some action ∧
      (((someFactory ⟨fun _ => 0, fun _ => zeroDigest⟩).call ⟨fun _ => 0, fun _ => zeroDigest⟩
        (.complete factoryBlank)).session.consume ⟨fun _ => 0, fun _ => zeroDigest⟩ action.route (someQuery 2)).2.1 =
          .action other ∧ other.key ≠ action.key :=
  ⟨_, _, rfl, rfl, at_most_once (someFactory_reachable ⟨fun _ => 0, fun _ => zeroDigest⟩)
    rfl (factoryBlank_reply _) rfl .refl
    (by decide) (someQuery 2) _ rfl⟩

theorem same_reply_query :
    ((someFactory ⟨fun _ => 0, fun _ => zeroDigest⟩).call ⟨fun _ => 0, fun _ => zeroDigest⟩
      (.complete factoryBlank)).session.consume ⟨fun _ => 0, fun _ => zeroDigest⟩ { generation := 1 } (someQuery 1) =
        (.ok, .reply (currentActiveReply (someQuery 1) {}), ((someFactory ⟨fun _ => 0, fun _ => zeroDigest⟩).call
          ⟨fun _ => 0, fun _ => zeroDigest⟩ (.complete factoryBlank)).session) :=
  same_reply (.init 1 1) rfl rfl .refl (factoryBlank_reply ⟨fun _ => 0, fun _ => zeroDigest⟩) rfl .refl (by decide)
    (by decide)

end Lending

end CodexKeyboard.SoundSync
