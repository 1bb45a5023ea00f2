import CodexKeyboard.SoundSync.Session
import Mathlib.Data.List.ReduceOption

/-! What one call of the session does to its route, its pending action and its replies.

    A request is answered by a reply that fits the smaller transport, or it leaves one action pending for
    the route that asked; a completion answers the route of the finished action, and an orphaned one
    nobody. -/

namespace CodexKeyboard.SoundSync

/-- The frame is accepted by the encoder of either transport. -/
structure Sendable (frame : SpeakerAssetsFrame) : Prop where
  requestId : frame.requestId ≠ 0
  flags : flagsAreValid frame.flags = true
  body : frame.body.length ≤ speakerAssetsUsbFrameBodyBytes

theorem Sendable.usb {frame : SpeakerAssetsFrame} (h : Sendable frame)
    (crc32 : List UInt8 → UInt32) : (encodeSpeakerAssetsUsbFrame crc32 frame).1 = .ok := by
  have hbody : ¬ speakerAssetsUsbFrameBodyBytes < frame.body.length := by
    have := h.body
    omega
  simp [encodeSpeakerAssetsUsbFrame, validateFrameForEncoding, h.requestId, h.flags, hbody]

theorem Sendable.wifi {frame : SpeakerAssetsFrame} (h : Sendable frame)
    (crc32 : List UInt8 → UInt32) : (encodeSpeakerAssetsWifiFrame crc32 frame).1 = .ok := by
  have hbody : ¬ speakerAssetsWifiFrameBodyBytes < frame.body.length := by
    have := h.body
    have : speakerAssetsUsbFrameBodyBytes ≤ speakerAssetsWifiFrameBodyBytes := by decide
    omega
  simp [encodeSpeakerAssetsWifiFrame, validateFrameForEncoding, h.requestId, h.flags, hbody]

/-! ### Replies -/

section replies

variable {request : SpeakerAssetsFrame} {status : SpeakerAssetsStatus} {cookie : UInt32}

theorem sendable_status (h : request.requestId ≠ 0) : Sendable (statusReply request status cookie) := by
  refine ⟨h, ?_, by simp [statusReply, speakerAssetsUsbFrameBodyBytes, speakerAssetsUsbFrameBytes,
    speakerAssetsFrameHeaderBytes]⟩
  simp only [statusReply]
  split_ifs <;> decide

/-- Another offset and a body of at most 39 bytes. -/
theorem sendable_body {frame : SpeakerAssetsFrame} (h : Sendable frame) (offset : UInt32)
    {body : List UInt8} (hbody : body.length ≤ speakerAssetsUsbFrameBodyBytes) :
    Sendable { frame with objectOffset := offset, body := body } :=
  ⟨h.requestId, h.flags, hbody⟩

theorem length_fieldBytes (width : ℕ) (bytes : List UInt8) : (fieldBytes width bytes).length = width := by
  simp only [fieldBytes, List.length_append, List.length_take, List.length_replicate]
  omega

theorem sendable_fragment (h : request.requestId ≠ 0) (firstMissing : UInt32) (offset : ℕ)
    (bitmap : List UInt8) :
    Sendable (fragmentReply request status cookie firstMissing offset bitmap) := by
  unfold fragmentReply
  dsimp only
  split_ifs with hlong
  · exact sendable_body (sendable_status h) firstMissing (sendable_status h).body
  · refine sendable_body (sendable_status h) firstMissing ?_
    simp only [List.length_cons, List.length_append, Schemes.Bytes.length_leBytes]
    simp only [fragmentAckBitmapMaxBytes, speakerAssetsUsbFrameBodyBytes, speakerAssetsUsbFrameBytes,
      speakerAssetsFrameHeaderBytes] at hlong ⊢
    omega

theorem sendable_capabilities (h : request.requestId ≠ 0) : Sendable (capabilitiesReply request) :=
  sendable_body (sendable_status h) request.objectOffset (by decide)

theorem sendable_currentActive (h : request.requestId ≠ 0) (active : SoundBankSnapshot) :
    Sendable (currentActiveReply request active) := by
  refine sendable_body (sendable_status h) _ ?_
  simp only [List.length_append, List.length_cons, List.length_nil, Schemes.Bytes.length_leBytes,
    length_fieldBytes]
  decide

theorem sendable_identity (h : request.requestId ≠ 0) (progress : SoundUpdateProgress) :
    Sendable (identityReply request progress cookie) := by
  refine sendable_body (sendable_status h) _ ?_
  simp only [List.length_append, List.length_cons, List.length_nil, Schemes.Bytes.length_leBytes,
    length_fieldBytes]
  decide

theorem sendable_progress (h : request.requestId ≠ 0) (progress : SoundUpdateProgress) :
    Sendable (progressReply request progress cookie) := by
  refine sendable_body (sendable_status h) _ ?_
  simp only [List.length_append, List.length_cons, List.length_nil, Schemes.Bytes.length_leBytes,
    length_fieldBytes]
  decide

theorem sendable_outcome (h : request.requestId ≠ 0) (outcome : SpeakerAssetsTransactionOutcome)
    (identity : SoundUpdateIdentity) (manifestBytes payloadBytes : UInt32) :
    Sendable (outcomeReply request outcome identity manifestBytes payloadBytes) := by
  refine sendable_body (sendable_status h) _ ?_
  simp only [List.length_append, List.length_cons, List.length_nil, Schemes.Bytes.length_leBytes,
    length_fieldBytes]
  decide

end replies

namespace SpeakerAssetsSession

variable {s s' t : SpeakerAssetsSession} {route : SpeakerAssetsRouteToken}
  {frame : SpeakerAssetsFrame} {status : SpeakerAssetsStatus} {cookie : UInt32} {crypto : SoundCrypto}

/-! ### Requests -/

/-- The route, the pending action and the remembered replies are those of `s`. -/
structure Kept (s t : SpeakerAssetsSession) : Prop where
  route : t.route = s.route
  pending : t.pending = s.pending
  replay : t.replay = s.replay

theorem Kept.rfl : Kept s s := ⟨.refl _, .refl _, .refl _⟩

theorem Kept.trans {u : SpeakerAssetsSession} (h : Kept s t) (h' : Kept t u) : Kept s u :=
  ⟨h'.route.trans h.route, h'.pending.trans h.pending, h'.replay.trans h.replay⟩

/-- Every remembered reply can be sent again, and the pending action's request can be answered. -/
structure Answerable (s : SpeakerAssetsSession) : Prop where
  replay : ∀ entry, some entry ∈ s.replay → Sendable entry.reply
  pending : ∀ p, s.pending = some p → p.requestId ≠ 0

/-- A request of `route` either is answered at once or leaves an action of that route pending. -/
inductive Consumed (s : SpeakerAssetsSession) (route : SpeakerAssetsRouteToken)
    (frame : SpeakerAssetsFrame) : SpeakerAssetsEmission × SpeakerAssetsSession → Prop
  | reply {reply t} : Kept s t → (Answerable s → Sendable reply) → Consumed s route frame (.reply reply, t)
  | action {action p t} : t.route = s.route → t.replay = s.replay → t.pending = some p →
    t.phase = .actionPending → p.route = route → p.orphaned = false → p.requestId = frame.requestId →
    action.route = route → action.token = p.token → action.kind = p.kind →
    Consumed s route frame (.action action, t)

theorem consumed_refuse (hid : frame.requestId ≠ 0) (hkept : Kept s t) :
    Consumed s route frame (t.refuse frame status cookie) :=
  .reply hkept fun _ => sendable_status hid

theorem consumed_action {kind : SpeakerAssetsActionKind} {region : SpeakerAssetsRegion}
    {unitIndex : UInt16} {fingerprint : SoundSha256Digest} {identity : SoundUpdateIdentity}
    {action : SpeakerAssetsActionView} (hkept : Kept s t) {u : SpeakerAssetsSession}
    (hu : Kept (t.beginPendingAction kind route frame region unitIndex fingerprint identity).2 u)
    (hphase : u.phase = .actionPending)
    (haction : action.route = route ∧
      action.token = (t.beginPendingAction kind route frame region unitIndex fingerprint identity).1.token ∧
      action.kind = kind) :
    Consumed s route frame (.action action, u) :=
  .action (hu.route.trans hkept.route) (hu.replay.trans hkept.replay) hu.pending hphase rfl rfl rfl
    haction.1 haction.2.1 haction.2.2

theorem lookupReplay_exact {requestCookie requestId : UInt32} {opcode : UInt8}
    {region : SpeakerAssetsRegion} {unitIndex : UInt16} {fingerprint : SoundSha256Digest}
    {reply : SpeakerAssetsFrame}
    (h : s.lookupReplay route requestCookie requestId opcode region unitIndex fingerprint =
      .exact reply) : ∃ entry, some entry ∈ s.replay ∧ entry.reply = reply := by
  unfold lookupReplay at h
  dsimp only at h
  split at h
  · rename_i entry hfound
    cases h
    have hmem := (List.mem_filter.1 (List.mem_of_find?_eq_some hfound)).1
    exact ⟨entry, List.reduceOption_mem_iff.1 hmem, rfl⟩
  · split_ifs at h

/-- A replayed reply. -/
theorem consumed_replay {requestCookie requestId : UInt32} {opcode : UInt8}
    {region : SpeakerAssetsRegion} {unitIndex : UInt16} {fingerprint : SoundSha256Digest}
    {reply : SpeakerAssetsFrame} (hkept : Kept s t)
    (h : t.lookupReplay route requestCookie requestId opcode region unitIndex fingerprint =
      .exact reply) {u : SpeakerAssetsSession} (hu : Kept s u) :
    Consumed s route frame (.reply reply, u) := by
  refine .reply hu fun ha => ?_
  obtain ⟨entry, hentry, rfl⟩ := lookupReplay_exact h
  exact ha.replay entry (hkept.replay ▸ hentry)

theorem consumed_capabilities (hid : frame.requestId ≠ 0) :
    Consumed s route frame (s.consumeCapabilities frame) := by
  unfold consumeCapabilities
  split_ifs
  · exact consumed_refuse hid .rfl
  · exact .reply .rfl fun _ => sendable_capabilities hid

theorem consumed_currentActive (hid : frame.requestId ≠ 0) :
    Consumed s route frame (s.consumeCurrentActive crypto route frame) := by
  unfold consumeCurrentActive
  split
  · exact consumed_refuse hid .rfl
  · dsimp only
    split
    · rename_i replay hexact
      exact consumed_replay .rfl hexact .rfl
    · exact consumed_refuse hid .rfl
    · split
      · exact consumed_refuse hid .rfl
      · exact consumed_action .rfl .rfl rfl ⟨rfl, rfl, rfl⟩

theorem consumed_resume (hid : frame.requestId ≠ 0) :
    Consumed s route frame (s.consumeResume crypto route frame) := by
  unfold consumeResume
  split
  · exact consumed_refuse hid .rfl
  · split
    · exact consumed_refuse hid .rfl
    · dsimp only
      split
      · rename_i replay hexact
        exact consumed_replay .rfl hexact .rfl
      · exact consumed_refuse hid .rfl
      · split
        · exact consumed_refuse hid .rfl
        · exact consumed_action .rfl .rfl rfl ⟨rfl, rfl, rfl⟩

theorem consumed_bound (hid : frame.requestId ≠ 0) (kind : SpeakerAssetsActionKind) :
    Consumed s route frame (s.consumeBound crypto route frame kind) := by
  unfold consumeBound
  split
  · exact consumed_refuse hid .rfl
  · dsimp only
    split
    · rename_i replay hexact
      exact consumed_replay .rfl hexact .rfl
    · exact consumed_refuse hid .rfl
    · split
      · exact consumed_refuse hid .rfl
      · exact consumed_action .rfl .rfl rfl ⟨rfl, rfl, rfl⟩

theorem kept_enterPlanAssembly (kind : SpeakerAssetsActionKind) (hasFirst : Bool) :
    Kept s (s.enterPlanAssembly route frame kind hasFirst).2 := by
  unfold enterPlanAssembly
  dsimp only
  split
  · split_ifs <;> exact ⟨rfl, rfl, rfl⟩
  · split_ifs <;> exact ⟨rfl, rfl, rfl⟩
  · split_ifs <;> exact .rfl
  · exact .rfl
  · exact .rfl

theorem consumed_finishPlanAssembly (hid : frame.requestId ≠ 0) (kind : SpeakerAssetsActionKind)
    (hkept : Kept s t) : Consumed s route frame (t.finishPlanAssembly crypto route frame kind) := by
  have hrestore : ∀ u, Kept s u → Kept s u.restoreAfterBeginAssembly :=
    fun u hu => hu.trans ⟨rfl, rfl, rfl⟩
  have hplan : ∀ plan, Kept s { t with decodedPlan := plan } := fun plan => hkept.trans ⟨rfl, rfl, rfl⟩
  unfold finishPlanAssembly
  dsimp only
  split
  · exact .reply (hrestore _ hkept) fun _ => sendable_status hid
  · split
    · rename_i replay hexact
      exact consumed_replay (hplan _) hexact (hrestore _ (hplan _))
    · exact .reply (hrestore _ (hplan _)) fun _ => sendable_status hid
    · split
      · exact .reply (hrestore _ (hplan _)) fun _ => sendable_status hid
      · exact consumed_action (hplan _) ⟨rfl, rfl, rfl⟩ rfl ⟨rfl, rfl, rfl⟩

theorem consumed_acceptPlanFragment (hid : frame.requestId ≠ 0) (kind : SpeakerAssetsActionKind)
    (hasFirst hasLast : Bool) (hkept : Kept s t) :
    Consumed s route frame (t.acceptPlanFragment crypto route frame kind hasFirst hasLast) := by
  unfold acceptPlanFragment
  dsimp only
  split
  · exact consumed_refuse hid (hkept.trans ⟨rfl, rfl, rfl⟩)
  · split
    · split
      · exact consumed_refuse hid (hkept.trans ⟨rfl, rfl, rfl⟩)
      · exact .reply (hkept.trans ⟨rfl, rfl, rfl⟩) fun _ => sendable_fragment hid _ _ _
    · exact consumed_finishPlanAssembly hid kind (hkept.trans ⟨rfl, rfl, rfl⟩)

theorem consumed_planAction (hid : frame.requestId ≠ 0) (kind : SpeakerAssetsActionKind) :
    Consumed s route frame (s.consumePlanAction crypto route frame kind) := by
  unfold consumePlanAction
  dsimp only
  split
  · exact consumed_refuse hid .rfl
  · have hentered : Kept s (s.enterPlanAssembly route frame kind
        (hasFlag frame.flags flagFirstFragment)).2 := kept_enterPlanAssembly _ _
    split
    · rename_i status t ht
      rw [ht] at hentered
      exact consumed_refuse hid hentered
    · rename_i t ht
      rw [ht] at hentered
      exact consumed_acceptPlanFragment hid kind _ _ hentered

theorem kept_enterUnitAssembly (region : SpeakerAssetsRegion) (unitIndex : UInt16) (unitBase : UInt32)
    (expectedBytes : ℕ) (hasFirst : Bool) :
    Kept s (s.enterUnitAssembly frame region unitIndex unitBase expectedBytes hasFirst).2 := by
  unfold enterUnitAssembly
  dsimp only
  split_ifs <;> exact ⟨rfl, rfl, rfl⟩

theorem consumed_finishUnitAssembly (hid : frame.requestId ≠ 0) (region : SpeakerAssetsRegion)
    (unitIndex : UInt16) (hkept : Kept s t) :
    Consumed s route frame (t.finishUnitAssembly crypto route frame region unitIndex) := by
  unfold finishUnitAssembly
  dsimp only
  split
  · rename_i replay hexact
    exact consumed_replay hkept hexact (hkept.trans ⟨rfl, rfl, rfl⟩)
  · exact .reply (hkept.trans ⟨rfl, rfl, rfl⟩) fun _ => sendable_status hid
  · exact consumed_action hkept .rfl rfl ⟨rfl, rfl, rfl⟩

theorem consumed_acceptUnitFragment (hid : frame.requestId ≠ 0) (region : SpeakerAssetsRegion)
    (unitIndex : UInt16) (unitOffset : ℕ) (hasFirst hasLast : Bool) (hkept : Kept s t) :
    Consumed s route frame
      (t.acceptUnitFragment crypto route frame region unitIndex unitOffset hasFirst hasLast) := by
  unfold acceptUnitFragment
  dsimp only
  split
  · exact consumed_refuse hid (hkept.trans ⟨rfl, rfl, rfl⟩)
  · split
    · split
      · exact consumed_refuse hid (hkept.trans ⟨rfl, rfl, rfl⟩)
      · exact .reply (hkept.trans ⟨rfl, rfl, rfl⟩) fun _ => sendable_fragment hid _ _ _
    · exact consumed_finishUnitAssembly hid region unitIndex (hkept.trans ⟨rfl, rfl, rfl⟩)

theorem consumed_unitFragment (hid : frame.requestId ≠ 0) (region : SpeakerAssetsRegion)
    (unitIndex : UInt16) (unitBase : UInt32) (expectedBytes unitOffset : ℕ) :
    Consumed s route frame
      (s.consumeUnitFragment crypto route frame region unitIndex unitBase expectedBytes unitOffset) := by
  unfold consumeUnitFragment
  dsimp only
  split
  · exact consumed_refuse hid .rfl
  · have hentered : Kept s (s.enterUnitAssembly frame region unitIndex unitBase expectedBytes
        (hasFlag frame.flags flagFirstFragment)).2 := kept_enterUnitAssembly _ _ _ _ _
    split
    · rename_i status t ht
      rw [ht] at hentered
      exact consumed_refuse hid hentered
    · rename_i t ht
      rw [ht] at hentered
      exact consumed_acceptUnitFragment hid region unitIndex unitOffset _ _ hentered

theorem consumed_data (hid : frame.requestId ≠ 0) :
    Consumed s route frame (s.consumeData crypto route frame) := by
  unfold consumeData
  dsimp only
  split
  · exact consumed_refuse hid .rfl
  · split
    · exact consumed_refuse hid .rfl
    · split
      · split
        · exact consumed_refuse hid .rfl
        · exact consumed_unitFragment hid _ _ _ _ _
      · split
        · exact consumed_refuse hid .rfl
        · exact consumed_unitFragment hid _ _ _ _ _

/-- The spec of `consume`: it refuses its arguments, or answers the request or makes it the pending
    action. -/
theorem consume_spec (s : SpeakerAssetsSession) (crypto : SoundCrypto)
    (route : SpeakerAssetsRouteToken) (frame : SpeakerAssetsFrame) :
    s.consume crypto route frame = (.invalidArgument, .none, s) ∨
      ((s.consume crypto route frame).1 = .ok ∧
        Consumed s route frame (s.consume crypto route frame).2) := by
  unfold consume
  split
  · exact Or.inl rfl
  · rename_i hargs
    have hid : frame.requestId ≠ 0 := by
      intro h
      simp [h] at hargs
    right
    split
    · exact ⟨rfl, consumed_refuse hid .rfl⟩
    · split
      · exact ⟨rfl, consumed_capabilities hid⟩
      · split
        · exact ⟨rfl, consumed_refuse hid .rfl⟩
        · refine ⟨rfl, ?_⟩
          dsimp only
          split
          · exact consumed_planAction hid _
          · exact consumed_resume hid
          · exact consumed_data hid
          · exact consumed_bound hid _
          · exact consumed_bound hid _
          · exact consumed_bound hid _
          · exact consumed_planAction hid _
          · exact consumed_currentActive hid
          · exact consumed_refuse hid .rfl
          · exact consumed_refuse hid .rfl

theorem Answerable.kept (h : Answerable s) (hkept : Kept s t) : Answerable t :=
  ⟨fun entry hentry => h.replay entry (hkept.replay ▸ hentry),
    fun p hp => h.pending p (hkept.pending ▸ hp)⟩

theorem Answerable.consumed {e : SpeakerAssetsEmission} (h : Answerable s) (hid : frame.requestId ≠ 0)
    (hc : Consumed s route frame (e, t)) : Answerable t := by
  cases hc with
  | reply hkept _ => exact h.kept hkept
  | action _ hreplay hp _ _ _ hreq =>
    refine ⟨fun entry hentry => h.replay entry (hreplay ▸ hentry), fun p' hp' => ?_⟩
    obtain rfl : p' = _ := Option.some.inj (hp'.symm.trans hp)
    exact hreq ▸ hid

/-! ### Completions -/

variable {finished : PendingAction} {completion : SpeakerAssetsActionCompletion}

/-- The finished action is answered to its own route, unless that was closed meanwhile. -/
inductive Settled (s : SpeakerAssetsSession) (finished : PendingAction) :
    SpeakerAssetsEmission × SpeakerAssetsSession → Prop
  | orphaned {u : SpeakerAssetsSession} : finished.orphaned = true → u.route = none →
    u.pending = none → u.replay = s.replay → Settled s finished (.none, u)
  | reply {reply : SpeakerAssetsFrame} {u : SpeakerAssetsSession} :
    finished.orphaned = false → (finished.requestId ≠ 0 → Sendable reply) →
    (u.route = s.route ∨ u.route = some finished.route ∨ u.route = none) → u.pending = none →
    (∀ entry, some entry ∈ u.replay → some entry ∈ s.replay ∨ entry.reply = reply) →
    Settled s finished (.reply reply, u)

theorem mem_rememberReplay {reply : SpeakerAssetsFrame} {entry : ReplayEntry}
    (h : some entry ∈ (s.rememberReplay finished reply).replay) :
    some entry ∈ s.replay ∨ entry.reply = reply := by
  rcases List.mem_or_eq_of_mem_set h with hold | hnew
  · exact Or.inl hold
  · cases hnew
    exact Or.inr rfl

theorem settled_failed (horphaned : finished.orphaned = false) (result : SoundStoreResult) :
    Settled s finished (s.completeFailed finished result) := by
  refine .reply horphaned (fun hid => sendable_status hid) ?_ ?_ fun entry hentry => Or.inl ?_
  · cases finished.kind
    case resumeQuery =>
      dsimp only
      split_ifs
      · exact Or.inl rfl
      · exact Or.inr (Or.inr rfl)
    all_goals first
      | exact Or.inl rfl
      | exact Or.inr (Or.inr rfl)
  · cases finished.kind
    case resumeQuery => dsimp only; split_ifs <;> rfl
    all_goals rfl
  · revert hentry
    cases finished.kind
    case resumeQuery => dsimp only; split_ifs <;> exact id
    all_goals exact id

theorem settled_final {reply : SpeakerAssetsFrame} (horphaned : finished.orphaned = false)
    (hreply : finished.requestId ≠ 0 → Sendable reply) :
    Settled s finished (s.completeFinal finished reply) :=
  .reply horphaned hreply (Or.inr (Or.inr rfl)) rfl fun _ => mem_rememberReplay

theorem settled_bound (horphaned : finished.orphaned = false) (progress : SoundUpdateProgress) :
    Settled s finished (s.completeBound finished progress) :=
  .reply horphaned (fun hid => sendable_identity hid _) (Or.inr (Or.inl rfl)) rfl
    fun _ => mem_rememberReplay

theorem settled_progress (horphaned : finished.orphaned = false) (progress : SoundUpdateProgress) :
    Settled s finished (s.completeProgress finished progress) :=
  .reply horphaned (fun hid => sendable_progress hid _) (Or.inl rfl) rfl fun _ => mem_rememberReplay

theorem settled_ok (horphaned : finished.orphaned = false)
    (completion : SpeakerAssetsActionCompletion) :
    Settled s finished (s.completeOk finished completion) := by
  unfold completeOk
  dsimp only
  split
  · exact settled_bound horphaned _
  · exact settled_final horphaned fun hid => sendable_status hid
  · exact settled_final horphaned fun hid => sendable_currentActive hid _
  · split
    · split_ifs
      · exact settled_bound horphaned _
      · exact settled_progress horphaned _
    · exact settled_final horphaned fun hid => sendable_outcome hid _ _ _ _
  · exact .reply horphaned (fun hid => sendable_progress hid _) (Or.inl rfl) rfl
      fun _ => mem_rememberReplay
  · exact .reply horphaned (fun hid => sendable_progress hid _) (Or.inl rfl) rfl
      fun _ => mem_rememberReplay
  · exact settled_final horphaned fun hid => sendable_status hid
  · exact settled_final horphaned fun hid => sendable_status hid

/-- The spec of `complete`: a completion of another action changes nothing, the right one settles the
    pending action. -/
theorem complete_spec (s : SpeakerAssetsSession) (completion : SpeakerAssetsActionCompletion) :
    (s.complete completion = (.noPendingAction, .none, s) ∧ s.pending = none) ∨
      (s.complete completion = (.staleCompletion, .none, s) ∧ s.pending.isSome) ∨
      ∃ finished, s.pending = some finished ∧ completion.token = finished.token ∧
        completion.kind = finished.kind ∧ (s.complete completion).1 = .ok ∧
        Settled s finished (s.complete completion).2 := by
  unfold complete
  split
  · rename_i hp
    exact Or.inl ⟨rfl, hp⟩
  · rename_i finished hp
    right
    split
    · exact Or.inl ⟨rfl, by simp [hp]⟩
    · rename_i hmatch
      push Not at hmatch
      refine Or.inr ⟨finished, hp, hmatch.1, hmatch.2, ?_⟩
      split
      · rename_i horphaned
        exact ⟨rfl, .orphaned horphaned rfl rfl rfl⟩
      · rename_i horphaned
        have horphaned : finished.orphaned = false := by simpa using horphaned
        split
        · exact ⟨rfl, settled_failed horphaned _⟩
        · split
          · exact ⟨rfl, .reply horphaned (fun hid => sendable_status hid) (Or.inr (Or.inr rfl)) rfl
              fun _ => Or.inl⟩
          · exact ⟨rfl, settled_ok horphaned _⟩

theorem Answerable.settled {e : SpeakerAssetsEmission} (h : Answerable s)
    (hp : s.pending = some finished) (hs : Settled s finished (e, t)) : Answerable t := by
  cases hs with
  | orphaned _ _ hnone hreplay =>
    exact ⟨fun entry hentry => h.replay entry (hreplay ▸ hentry), fun p hp => by simp [hnone] at hp⟩
  | reply _ hreply _ hnone hreplay =>
    refine ⟨fun entry hentry => ?_, fun p hp => by simp [hnone] at hp⟩
    rcases hreplay entry hentry with hold | hnew
    · exact h.replay entry hold
    · exact hnew ▸ hreply (h.pending finished hp)

/-! ### Routes and timeouts -/

/-- The pending action once `route` is closed. -/
def orphan (route : SpeakerAssetsRouteToken) (p : PendingAction) : PendingAction :=
  if p.route = route then { p with orphaned := true } else p

theorem routeClosed_route (s : SpeakerAssetsSession) (route : SpeakerAssetsRouteToken) :
    (s.routeClosed route).route ≠ some route ∧
      ((s.routeClosed route).route = s.route ∨ (s.routeClosed route).route = none) := by
  unfold routeClosed
  dsimp only [clearReplayForRoute]
  split
  · split
    · split_ifs <;> exact ⟨nofun, Or.inr rfl⟩
    · split_ifs with h
      · exact ⟨nofun, Or.inr rfl⟩
      · exact ⟨fun h' => h (Or.inl h'), Or.inl rfl⟩
  · split_ifs with h
    · exact ⟨nofun, Or.inr rfl⟩
    · exact ⟨fun h' => h (Or.inl h'), Or.inl rfl⟩

theorem routeClosed_pending (s : SpeakerAssetsSession) (route : SpeakerAssetsRouteToken) :
    (s.routeClosed route).pending = s.pending.map (orphan route) := by
  unfold routeClosed
  dsimp only [clearReplayForRoute]
  split
  · rename_i p hp
    split
    · rename_i hroute
      split_ifs <;> simp [clearBinding, hp, orphan, hroute]
    · rename_i hroute
      split_ifs <;> simp [clearBinding, clearPartialAssembly, hp, orphan, hroute]
  · rename_i hp
    split_ifs <;> simp [clearBinding, clearPartialAssembly, hp]

theorem routeClosed_replay (s : SpeakerAssetsSession) (route : SpeakerAssetsRouteToken) :
    (s.routeClosed route).replay = (s.clearReplayForRoute route).replay := by
  unfold routeClosed
  dsimp only
  split
  · split
    · split_ifs <;> rfl
    · split_ifs <;> rfl
  · split_ifs <;> rfl

theorem allRoutesClosed_route (s : SpeakerAssetsSession) : s.allRoutesClosed.route = none := by
  unfold allRoutesClosed
  dsimp only
  split <;> rfl

theorem allRoutesClosed_pending (s : SpeakerAssetsSession) :
    s.allRoutesClosed.pending = s.pending.map fun p => { p with orphaned := true } := by
  unfold allRoutesClosed
  dsimp only
  split
  · rename_i p hp
    split_ifs <;> simp [clearBinding, clearPartialAssembly, hp]
  · rename_i hp
    simp [clearBinding, clearPartialAssembly, hp]

theorem allRoutesClosed_replay (s : SpeakerAssetsSession) :
    s.allRoutesClosed.replay = List.replicate speakerAssetsReplayEntries none := by
  unfold allRoutesClosed
  dsimp only
  split
  · split_ifs <;> rfl
  · rfl

theorem kept_expirePartial (route : SpeakerAssetsRouteToken) : Kept s (s.expirePartial route).2 := by
  unfold expirePartial
  split_ifs <;> exact ⟨rfl, rfl, rfl⟩

theorem Answerable.routeClosed (h : Answerable s) (route : SpeakerAssetsRouteToken) :
    Answerable (s.routeClosed route) := by
  refine ⟨fun entry hentry => ?_, fun p hp => ?_⟩
  · rw [routeClosed_replay, clearReplayForRoute, List.mem_map] at hentry
    obtain ⟨old, hold, hfilter⟩ := hentry
    obtain ⟨rfl, -⟩ := Option.filter_eq_some_iff.1 hfilter
    exact h.replay entry hold
  · rw [routeClosed_pending, Option.map_eq_some_iff] at hp
    obtain ⟨old, hold, rfl⟩ := hp
    have := h.pending old hold
    unfold orphan
    split_ifs <;> exact this

theorem Answerable.allRoutesClosed (h : Answerable s) : Answerable s.allRoutesClosed := by
  refine ⟨fun entry hentry => ?_, fun p hp => ?_⟩
  · rw [allRoutesClosed_replay] at hentry
    simp at hentry
  · rw [allRoutesClosed_pending, Option.map_eq_some_iff] at hp
    obtain ⟨old, hold, rfl⟩ := hp
    exact h.pending old hold

end SpeakerAssetsSession

end CodexKeyboard.SoundSync
