import CodexKeyboard.Device.Playback
import CodexKeyboard.Device.SlotMoves
import CodexKeyboard.Lan.Transfer

/-! The keyboard's half of a faithful transfer: what it holds is a prefix of the EIAD it was
    promised, and its slots count exactly the chunks it has taken, so none is ever refused. -/

namespace CodexKeyboard.Lan

open Device Schemes.Chunks CodexLanPlayback

variable {catalog : Catalog} {io : DeviceIo} {k : Keyboard} {p : CodexLanPlayback}

/-! ### The invariant -/

/-- The block holds the first `receivedBytes` bytes of the EIAD of `s`. -/
structure Copy (catalog : Catalog) (p : CodexLanPlayback) (s : LanPlaybackStart) : Prop where
  started : Started catalog s
  same : s.start = p.start
  received : Aligned playbackChunkBytes s.eiad.length p.receivedBytes
  copied : p.encoded.take p.receivedBytes = s.eiad.take p.receivedBytes
  block : p.encoded = [] ∨ p.encoded.length = s.eiad.length

/-- Nothing has been taken yet. -/
def Empty (p : CodexLanPlayback) : Prop :=
  p.start = noBegin ∧ p.receivedBytes = 0 ∧ p.encoded = []

def CopyOk (catalog : Catalog) (p : CodexLanPlayback) : Prop := Empty p ∨ ∃ s, Copy catalog p s

/-- The phases in which data is taken. -/
def Taking (p : CodexLanPlayback) : Prop := p.phase = .receiving ∨ p.phase = .playing

/-- The slots follow the transfer: they count the chunks taken so far. -/
structure Synced (k : Keyboard) : Prop where
  block : k.playback.encoded.length = k.playback.start.totalBytes
  valid : validPlaybackIdentity k.playback.slotIdentity = true
  identity : k.slots.playbackIdentity = k.playback.slotIdentity
  frames : k.slots.playbackTotalFrames = frameCount k.playback.start
  next : k.slots.playbackNextFrame =
    (k.playback.receivedBytes + playbackChunkBytes - 1) / playbackChunkBytes
  open' : k.playback.receivedBytes < k.playback.start.totalBytes →
    k.slots.playbackPhase = .buffering ∨ k.slots.playbackPhase = .playing

structure KeyboardOk (catalog : Catalog) (k : Keyboard) : Prop where
  copy : CopyOk catalog k.playback
  empty : k.playback.phase = .idle ∨ k.playback.phase = .awaitBegin → Empty k.playback
  synced : Taking k.playback → Synced k

/-- A keyboard in order, and datagrams that are. -/
def Ok (catalog : Catalog) (r : DeviceReaction) : Prop :=
  KeyboardOk catalog r.state ∧ ∀ q ∈ r.sent, PacketOk catalog q

theorem ok_keep (h : KeyboardOk catalog k) : Ok catalog k.keep := ⟨h, by simp [Keyboard.keep]⟩

theorem Ok.after {r : DeviceReaction} (h : Ok catalog r) {sent : List Packet}
    (hsent : ∀ q ∈ sent, PacketOk catalog q) : Ok catalog ⟨r.state, sent ++ r.sent⟩ := by
  refine ⟨h.1, fun q hq => ?_⟩
  rcases List.mem_append.1 hq with hq | hq
  · exact hsent q hq
  · exact h.2 q hq

theorem not_valid_empty (h : Empty p) : validIdentity p.start.identity = false := by
  rw [h.1]
  rfl

/-- The copy is a matter of three fields. -/
theorem CopyOk.congr {p' : CodexLanPlayback} (h : CopyOk catalog p) (hstart : p'.start = p.start)
    (hreceived : p'.receivedBytes = p.receivedBytes) (hencoded : p'.encoded = p.encoded) :
    CopyOk catalog p' := by
  rcases h with h | ⟨s, h⟩
  · exact Or.inl ⟨hstart.trans h.1, hreceived.trans h.2.1, hencoded.trans h.2.2⟩
  · refine Or.inr ⟨s, h.started, h.same.trans hstart.symm, ?_, ?_, ?_⟩
    · rw [hreceived]
      exact h.received
    · rw [hreceived, hencoded]
      exact h.copied
    · rw [hencoded]
      exact h.block

/-! ### Acknowledgements -/

/-- No acknowledgement but a refusal needs more than the copy. -/
theorem sendAck_ok (h : CopyOk catalog p) {status : Nat} (hstatus : status ≠ 2) (i : Nat) :
    ∀ q ∈ (sendAck io i p status).2, PacketOk catalog q := by
  unfold sendAck
  split
  next hvalid =>
    simp only [Bool.and_eq_true] at hvalid
    intro q hq
    rw [List.mem_singleton] at hq
    rw [hq]
    refine ⟨hstatus, fun hle => ?_⟩
    rcases h with hempty | ⟨s, hs⟩
    · rw [not_valid_empty hempty] at hvalid
      cases hvalid.1.1
    · refine ⟨s, hs.started, congrArg PlaybackBegin.identity hs.same, ?_⟩
      have hne : status ≠ 3 := by
        have : status ≤ 1 := hle
        omega
      simp only [ackPacket, hne, false_and, if_false]
      exact hs.received
  next => simp

/-- The refusal of `fail` and `preempt`, sent where there is a transfer to name. -/
theorem refusal_ok (h : CopyOk catalog p) (i : Nat) (named : Bool) :
    ∀ q ∈ (if named then sendAck io i p 3 else (false, [])).2, PacketOk catalog q := by
  split
  · have hthree : (3 : Nat) ≠ 2 := by decide
    exact sendAck_ok h hthree i
  · simp

theorem fail_ok (h : CopyOk catalog k.playback) (i : Nat) (reason : Failure) :
    Ok catalog (k.fail io i reason) := by
  refine ⟨⟨h.congr rfl rfl rfl, ?_, ?_⟩, ?_⟩
  · rintro (hp | hp) <;> cases hp
  · rintro (hp | hp) <;> cases hp
  · apply refusal_ok
    exact h.congr rfl rfl rfl

/-! ### The slots -/

theorem beginPlayback_accepted {s s' : CodexSlotState} {b : SlotBegin}
    (h : s.beginPlayback b = (.accepted, s')) : validPlaybackIdentity b.identity = true ∧
      s'.playbackIdentity = b.identity ∧ s'.playbackTotalFrames = b.totalFrames ∧
      s'.playbackNextFrame = 0 ∧ s'.playbackPhase = .buffering := by
  unfold CodexSlotState.beginPlayback at h
  repeat' split at h
  all_goals simp only [Prod.mk.injEq, reduceCtorEq, false_and, true_and] at h
  next hvalid _ _ _ =>
    subst h
    refine ⟨?_, rfl, rfl, rfl, rfl⟩
    simp only [Bool.or_eq_true, not_or, Bool.not_eq_true', Bool.not_eq_true] at hvalid
    simpa using hvalid.1.1.1

theorem acceptPlaybackFrame_accepted {s : CodexSlotState} {identity : SlotIdentity}
    (hvalid : validPlaybackIdentity identity = true) (hidentity : s.playbackIdentity = identity)
    (hphase : s.playbackPhase = .buffering ∨ s.playbackPhase = .playing)
    (hlt : s.playbackNextFrame < s.playbackTotalFrames) :
    s.acceptPlaybackFrame identity s.playbackNextFrame =
      (.accepted, { s with playbackNextFrame := s.playbackNextFrame + 1 }) := by
  have hmatches : s.playbackMatches identity = true := by
    rcases hphase with hp | hp <;> simp [CodexSlotState.playbackMatches, hp, hvalid, hidentity]
  simp only [CodexSlotState.acceptPlaybackFrame, hvalid, hmatches, Bool.not_true, Bool.false_eq_true,
    false_or, if_false]
  rw [if_neg (by tauto), if_neg (by omega), if_neg (by omega), if_neg (by omega)]

/-! ### Begin -/

theorem Started.copy_empty {s : LanPlaybackStart} (hs : Started catalog s) {p' : CodexLanPlayback}
    (hstart : s.start = p'.start) (hreceived : p'.receivedBytes = 0)
    (hblock : p'.encoded = [] ∨ p'.encoded.length = s.eiad.length) : Copy catalog p' s := by
  refine ⟨hs, hstart, ?_, by simp [hreceived], hblock⟩
  rw [hreceived]
  exact aligned_zero _ _

theorem openTransfer_ok {s : LanPlaybackStart} (hs : Started catalog s) (hempty : Empty k.playback)
    {slots : CodexSlotState}
    (hslots : k.slots.beginPlayback (Keyboard.slotBegin s.start) = (.accepted, slots)) :
    Ok catalog (k.openTransfer io s.start slots) := by
  obtain ⟨hvalid, hidentity, hframes, hnext, hphase⟩ := beginPlayback_accepted hslots
  unfold Keyboard.openTransfer
  simp only
  split
  next =>
    have hcopy : CopyOk catalog { k.playback with start := s.start } :=
      Or.inr ⟨s, hs.copy_empty rfl hempty.2.1 (Or.inl hempty.2.2)⟩
    refine fail_ok (k := ⟨_, _⟩) hcopy 0 _
  next contents _ =>
    have hcopy : CopyOk catalog { k.playback with
        start := s.start
        encoded := (List.range s.start.totalBytes).map contents
        receivedBytes := 0
        phase := .receiving
        lastSendMs := io.now } :=
      Or.inr ⟨s, hs.copy_empty rfl rfl (Or.inr (by simp [hs.total]))⟩
    split
    next packets hsent =>
      refine ⟨⟨hcopy, ?_, fun _ => ⟨by simp, hvalid, hidentity, hframes, ?_, fun _ => Or.inl hphase⟩⟩, ?_⟩
      · rintro (hp | hp) <;> cases hp
      · simp [hnext, playbackChunkBytes]
      · intro q hq
        have hack : ∀ q ∈ (sendAck io 0 _ 0).2, PacketOk catalog q := sendAck_ok hcopy (by decide) 0
        rw [hsent] at hack
        exact hack q hq
    next => exact fail_ok (k := ⟨_, _⟩) hcopy 1 _

theorem handleBegin_ok (h : KeyboardOk catalog k) {start : PlaybackBegin}
    (hpacket : PacketOk catalog (.eipb start)) : Ok catalog (k.handleBegin io start) := by
  unfold Keyboard.handleBegin
  simp only
  split
  · exact ok_keep h
  split
  · exact ⟨h, sendAck_ok h.copy (by decide) 0⟩
  split
  · exact ok_keep h
  next hphase =>
    have hawait : k.playback.phase = .awaitBegin := not_not.1 hphase
    have hempty := h.empty (Or.inr hawait)
    split
    next slots hslots =>
      obtain ⟨s, hs, rfl⟩ := hpacket
      exact openTransfer_ok hs hempty hslots
    next =>
      refine ⟨⟨Or.inl ⟨rfl, hempty.2⟩, fun _ => ⟨rfl, hempty.2⟩, ?_⟩, by simp⟩
      rintro (hp | hp) <;> simp [hawait] at hp

/-! ### Data -/

/-- The slots stay in step whatever else the keyboard's state does. -/
theorem Synced.congr {k' : Keyboard} (h : Synced k) (hstart : k'.playback.start = k.playback.start)
    (hreceived : k'.playback.receivedBytes = k.playback.receivedBytes)
    (hencoded : k'.playback.encoded = k.playback.encoded)
    (hidentity : k'.slots.playbackIdentity = k.slots.playbackIdentity)
    (hframes : k'.slots.playbackTotalFrames = k.slots.playbackTotalFrames)
    (hnext : k'.slots.playbackNextFrame = k.slots.playbackNextFrame)
    (hopen : k'.playback.receivedBytes < k'.playback.start.totalBytes →
      k'.slots.playbackPhase = .buffering ∨ k'.slots.playbackPhase = .playing) : Synced k' := by
  have hslot : k'.playback.slotIdentity = k.playback.slotIdentity := by simp only [slotIdentity, hstart]
  refine ⟨?_, ?_, ?_, ?_, ?_, hopen⟩
  · rw [hencoded, hstart]
    exact h.block
  · rw [hslot]
    exact h.valid
  · rw [hidentity, hslot]
    exact h.identity
  · rw [hframes, hstart]
    exact h.frames
  · rw [hnext, hreceived]
    exact h.next

theorem not_awaiting (h : Taking p) : ¬(p.phase = .idle ∨ p.phase = .awaitBegin) := by
  rcases h with h | h <;> simp [h]

theorem taking_ok (hcopy : CopyOk catalog k.playback) (htaking : Taking k.playback) (h : Synced k) :
    KeyboardOk catalog k :=
  ⟨hcopy, fun hp => absurd hp (not_awaiting htaking), fun _ => h⟩

theorem markPlaybackStarted_true {s s' : CodexSlotState} {identity : SlotIdentity}
    (h : s.markPlaybackStarted identity = (true, s')) : s' = { s with playbackPhase := .playing } := by
  unfold CodexSlotState.markPlaybackStarted at h
  split at h
  · simpa using h.symm
  · simp at h

theorem markPlaybackTransferComplete_true {s s' : CodexSlotState} {identity : SlotIdentity} {last : Nat}
    (h : s.markPlaybackTransferComplete identity last = (true, s')) :
    s' = { s with playbackPhase := .transferComplete } := by
  unfold CodexSlotState.markPlaybackTransferComplete at h
  split at h
  · simpa using h.symm
  · simp at h

theorem markTransferComplete_true {k' : Keyboard} (h : k.markTransferComplete = (true, k')) :
    k' = { k with slots := { k.slots with playbackPhase := .transferComplete } } := by
  simp only [Keyboard.markTransferComplete] at h
  split at h
  · simp at h
  · split at h
    next hslots =>
      rw [← (Prod.mk.inj h).2, markPlaybackTransferComplete_true hslots]
    next => simp at h

theorem markTransferComplete_false {k' : Keyboard} (h : k.markTransferComplete = (false, k'))
    (hcopy : CopyOk catalog k.playback) : CopyOk catalog k'.playback := by
  simp only [Keyboard.markTransferComplete] at h
  split at h
  · rw [← (Prod.mk.inj h).2]
    exact hcopy.congr rfl rfl rfl
  · split at h
    next => simp at h
    next =>
      rw [← (Prod.mk.inj h).2]
      exact hcopy.congr rfl rfl rfl

theorem beginSpeakerPlayback_true {k' : Keyboard} (h : k.beginSpeakerPlayback io = (true, k')) :
    k' = ⟨{ k.slots with playbackPhase := .playing }, { k.playback with
      failureDiagnostic := 0
      phase := .playing }⟩ := by
  simp only [Keyboard.beginSpeakerPlayback] at h
  split at h
  · simp at h
  · split at h
    · simp at h
    · split at h
      next => simp at h
      next hslots => rw [← (Prod.mk.inj h).2, markPlaybackStarted_true hslots]

theorem beginSpeakerPlayback_false {k' : Keyboard} (h : k.beginSpeakerPlayback io = (false, k'))
    (hcopy : CopyOk catalog k.playback) : CopyOk catalog k'.playback := by
  simp only [Keyboard.beginSpeakerPlayback] at h
  split at h
  · rw [← (Prod.mk.inj h).2]
    exact hcopy.congr rfl rfl rfl
  · split at h
    · rw [← (Prod.mk.inj h).2]
      exact hcopy.congr rfl rfl rfl
    · split at h
      next =>
        rw [← (Prod.mk.inj h).2]
        exact hcopy.congr rfl rfl rfl
      next => simp at h

theorem finishData_ok (hcopy : CopyOk catalog k.playback) (htaking : Taking k.playback) (h : Synced k)
    {sent : List Packet} (hsent : ∀ q ∈ sent, PacketOk catalog q) :
    Ok catalog (k.finishData io sent) := by
  unfold Keyboard.finishData
  split
  next hwhole =>
    split
    next k' hmark =>
      rw [markTransferComplete_true hmark]
      refine ⟨taking_ok hcopy htaking (h.congr rfl rfl rfl rfl rfl rfl fun hlt => ?_), hsent⟩
      exact absurd hlt (by simp [hwhole])
    next k' hmark => exact (fail_ok (markTransferComplete_false hmark hcopy) 1 .other).after hsent
  next => exact ⟨taking_ok hcopy htaking h, hsent⟩

theorem playData_ok (hcopy : CopyOk catalog k.playback) (htaking : Taking k.playback) (h : Synced k)
    {sent : List Packet} (hsent : ∀ q ∈ sent, PacketOk catalog q) :
    Ok catalog (k.playData io sent) := by
  unfold Keyboard.playData
  split
  next =>
    split
    next k' hspeaker =>
      rw [beginSpeakerPlayback_true hspeaker]
      refine finishData_ok (k := ⟨_, _⟩) ?_ (Or.inr rfl) ?_ hsent
      · exact hcopy.congr rfl rfl rfl
      · exact h.congr rfl rfl rfl rfl rfl rfl fun _ => Or.inr rfl
    next k' hspeaker => exact (fail_ok (beginSpeakerPlayback_false hspeaker hcopy) 1 .other).after hsent
  next => exact finishData_ok hcopy htaking h hsent

/-- The next chunk is always taken. -/
theorem takeChunk_ok {s : LanPlaybackStart} (hs : Copy catalog k.playback s) (htaking : Taking k.playback)
    (h : Synced k) {data : PlaybackData} (hoffset : data.offset = k.playback.receivedBytes)
    (hchunk : IsChunk playbackChunkBytes s.eiad data.offset data.payload) :
    Ok catalog (k.takeChunk io data) := by
  have hpos : 0 < playbackChunkBytes := by decide
  have hsize : k.playback.start.chunkBytes = playbackChunkBytes := by
    rw [← hs.same]
    exact hs.started.chunk
  have htotal : k.playback.start.totalBytes = s.eiad.length := by
    rw [← hs.same]
    exact hs.started.total.symm
  rw [hoffset] at hchunk
  have hlt : k.playback.receivedBytes < k.playback.start.totalBytes := by
    rw [htotal]
    exact hchunk.inside
  have hcount : k.slots.playbackNextFrame = k.playback.receivedBytes / playbackChunkBytes := by
    rw [h.next, count_of_dvd hpos hchunk.starts]
  have hroom : k.slots.playbackNextFrame < k.slots.playbackTotalFrames := by
    rw [h.frames, frameCount, hsize, hcount]
    calc k.playback.receivedBytes / playbackChunkBytes
        < k.playback.receivedBytes / playbackChunkBytes + 1 := Nat.lt_succ_self _
      _ = (k.playback.receivedBytes + playbackChunkBytes) / playbackChunkBytes :=
          (Nat.add_div_right _ hpos).symm
      _ ≤ (k.playback.start.totalBytes + playbackChunkBytes - 1) / playbackChunkBytes :=
          Nat.div_le_div_right (by omega)
  have haccept := acceptPlaybackFrame_accepted h.valid h.identity (h.open' hlt) hroom
  rw [hcount, ← hsize] at haccept
  obtain ⟨hcopied, hlength⟩ :=
    hchunk.splice_take (h.block.trans htotal) hs.copied
  have hcopy : CopyOk catalog { k.playback with
      encoded := splice k.playback.encoded k.playback.receivedBytes data.payload
      receivedBytes := k.playback.receivedBytes + data.payload.length
      lastSendMs := io.now } :=
    Or.inr ⟨s, hs.started, hs.same, hchunk.aligned, hcopied, Or.inr hlength⟩
  unfold Keyboard.takeChunk
  simp only
  rw [haccept]
  simp only
  split
  next packets hsent =>
    refine playData_ok (k := ⟨_, _⟩) hcopy htaking ?_ ?_
    · refine ⟨hlength.trans htotal.symm, h.valid, h.identity, h.frames, ?_, fun _ => h.open' hlt⟩
      show k.playback.receivedBytes / k.playback.start.chunkBytes + 1 = _
      rw [hsize]
      exact (hchunk.count hpos).symm
    · have hack : ∀ q ∈ (sendAck io 0 _ 0).2, PacketOk catalog q := sendAck_ok hcopy (by decide) 0
      rw [hsent] at hack
      exact hack
  next => exact fail_ok (k := ⟨_, _⟩) hcopy 1 .dataAck

theorem handleData_ok (h : KeyboardOk catalog k) {data : PlaybackData}
    (hpacket : PacketOk catalog (.eipd data)) : Ok catalog (k.handleData io data) := by
  unfold Keyboard.handleData
  simp only
  split
  · exact ok_keep h
  next hguard =>
    simp only [Bool.or_eq_true, not_or, Bool.not_eq_true', Bool.not_eq_true, bne_eq_false_iff_eq] at hguard
    split
    · split
      · exact ⟨h, sendAck_ok h.copy (by decide) 0⟩
      · exact ok_keep h
    split
    · exact ok_keep h
    next hphase =>
      split
      · exact ⟨h, sendAck_ok h.copy (by decide) 0⟩
      next hnext =>
        have htaking : Taking k.playback := by
          unfold Taking
          tauto
        obtain ⟨s, hs, hid, hchunk⟩ := hpacket
        have hvalid : validIdentity data.identity = true := by
          have hdecoded : decodeData k.playback.start.requestNonce data = true := by simpa using hguard.1
          simp only [decodeData, Bool.and_eq_true] at hdecoded
          exact hdecoded.1.1.2
        rcases h.copy with hempty | ⟨s', hs'⟩
        · rw [hguard.2, not_valid_empty hempty] at hvalid
          cases hvalid
        · have hsame : s' = s := by
            refine hs'.started.unique hs ?_
            rw [hid, hguard.2, hs'.same]
          rw [hsame] at hs'
          exact takeChunk_ok hs' htaking (h.synced htaking) (by tauto) hchunk

/-! ### The end of a transfer, requests and time -/

/-- Past the data, only the copy matters. -/
theorem aside_ok (hcopy : CopyOk catalog k.playback)
    (hphase : k.playback.phase = .cancelling ∨ k.playback.phase = .finishedPendingAck) :
    KeyboardOk catalog k := by
  refine ⟨hcopy, ?_, ?_⟩
  · rcases hphase with hp | hp <;> simp [hp]
  · rcases hphase with hp | hp <;> simp [Taking, hp]

/-- Before the data, there is nothing to be right about. -/
theorem waiting_ok (hempty : Empty k.playback)
    (hphase : k.playback.phase = .idle ∨ k.playback.phase = .awaitBegin) : KeyboardOk catalog k := by
  refine ⟨Or.inl hempty, fun _ => hempty, ?_⟩
  rcases hphase with hp | hp <;> simp [Taking, hp]

theorem cleanup_ok : KeyboardOk catalog k.cleanup := waiting_ok ⟨rfl, rfl, rfl⟩ (Or.inl rfl)

theorem sendRequest_ok {i : Nat} {sent : Bool} {packets : List Packet}
    (h : sendRequest io i p = (sent, packets)) : ∀ q ∈ packets, PacketOk catalog q := by
  have hall : ∀ q ∈ (sendRequest io i p).2, PacketOk catalog q := by
    unfold sendRequest
    split <;> simp [PacketOk]
  rwa [h] at hall

theorem sendFinished_ok {i : Nat} {sent : Bool} {packets : List Packet}
    (h : sendFinished io i p = (sent, packets)) : ∀ q ∈ packets, PacketOk catalog q := by
  have hall : ∀ q ∈ (sendFinished io i p).2, PacketOk catalog q := by
    unfold sendFinished
    split <;> simp [PacketOk]
  rwa [h] at hall

theorem handleFinishedAck_ok (h : KeyboardOk catalog k) (identity : PlaybackIdentity) (status : Nat) :
    Ok catalog (k.handleFinishedAck identity status) := by
  unfold Keyboard.handleFinishedAck
  simp only
  split
  · exact ok_keep h
  split
  next hp => exact ok_keep (aside_ok (h.copy.congr rfl rfl rfl) (Or.inl hp.1))
  split
  · exact ok_keep h
  split
  · exact ok_keep cleanup_ok
  · exact ok_keep h

theorem receive_ok (h : KeyboardOk catalog k) {packet : Packet} (hpacket : PacketOk catalog packet) :
    Ok catalog (k.receive io packet) := by
  unfold Keyboard.receive
  split
  · exact ok_keep h
  split
  · exact handleBegin_ok h hpacket
  · exact handleData_ok h hpacket
  · exact handleFinishedAck_ok h _ _
  all_goals exact ok_keep h

theorem openRequest_ok (hempty : Empty k.playback) (hidle : k.playback.phase = .idle) (i : Nat)
    (request : PlaybackRequest) : Ok catalog (k.openRequest io i request) := by
  unfold Keyboard.openRequest
  split
  · exact ok_keep (waiting_ok hempty (Or.inl hidle))
  simp only
  split
  next packets hsent => exact ⟨waiting_ok hempty (Or.inr rfl), sendRequest_ok hsent⟩
  next => exact ok_keep cleanup_ok

theorem request_ok (h : KeyboardOk catalog k) (i slot requestGeneration connectionGeneration : Nat) :
    Ok catalog (k.request io i slot requestGeneration connectionGeneration) := by
  unfold Keyboard.request
  split
  · exact ok_keep h
  simp only
  split
  next hp => exact ok_keep (aside_ok (h.copy.congr rfl rfl rfl) (Or.inl hp))
  next => exact openRequest_ok ⟨rfl, rfl, rfl⟩ rfl i _
  next hp => exact openRequest_ok (h.empty (Or.inl hp)) hp i _
  all_goals exact ok_keep h

/-- A preemption leaves the data alone: it is another transfer's, or it ends this one. -/
theorem preempt_ok (hcopy : CopyOk catalog k.playback) {identity : SlotIdentity}
    (h : KeyboardOk catalog k ∨ k.playback.phase ≠ .idle ∧ identity = k.playback.slotIdentity) (i : Nat) :
    Ok catalog (k.preempt io i identity) := by
  unfold Keyboard.preempt
  split
  next hidle =>
    rcases h with h | h
    · exact ok_keep h
    · exact absurd hidle h.1
  next =>
    simp only
    split
    next hother =>
      rcases h with h | h
      · refine ok_keep ⟨hcopy.congr rfl rfl rfl, h.empty, fun htaking => ?_⟩
        have hsynced := h.synced htaking
        exact hsynced.congr rfl rfl rfl rfl rfl rfl hsynced.open'
      · exact absurd h.2.symm hother.2
    next =>
      refine ⟨aside_ok (hcopy.congr rfl rfl rfl) (Or.inl rfl), ?_⟩
      split
      · have hthree : (3 : Nat) ≠ 2 := by decide
        apply sendAck_ok ?_ hthree
        exact hcopy.congr rfl rfl rfl
      · simp

theorem pollCancelling_ok (hcopy : CopyOk catalog k.playback) (hphase : k.playback.phase = .cancelling) :
    Ok catalog (k.pollCancelling io) := by
  have hthree : (3 : Nat) ≠ 2 := by decide
  unfold Keyboard.pollCancelling
  extract_lets p named due packets p' k'
  have hpackets : ∀ q ∈ packets, PacketOk catalog q := by
    simp only [packets]
    split
    · exact sendAck_ok hcopy hthree 0
    · simp
  have hcopy' : CopyOk catalog p' := by
    simp only [p']
    split
    · exact hcopy.congr rfl rfl rfl
    · exact hcopy
  have hphase' : p'.phase = .cancelling := by
    simp only [p']
    split
    · exact hphase
    · exact hphase
  split
  · have hclean : KeyboardOk catalog k' := cleanup_ok
    split
    · exact (request_ok hclean 1 _ _ _).after hpackets
    · exact ⟨hclean, hpackets⟩
  · exact ⟨aside_ok hcopy' (Or.inl hphase'), hpackets⟩

theorem pollDrained_ok (hcopy : CopyOk catalog k.playback) : Ok catalog (k.pollDrained io) := by
  unfold Keyboard.pollDrained
  simp only
  split
  · exact fail_ok hcopy 0 _
  split
  · exact fail_ok hcopy 0 _
  next slots _ =>
    split
    next packets hsent =>
      exact ⟨aside_ok (hcopy.congr rfl rfl rfl) (Or.inr rfl), sendFinished_ok hsent⟩
    next =>
      refine fail_ok (k := ⟨_, _⟩) ?_ 1 _
      exact hcopy.congr rfl rfl rfl

theorem poll_ok (h : KeyboardOk catalog k) : Ok catalog (k.poll io) := by
  unfold Keyboard.poll
  simp only
  split
  next => exact ok_keep h
  next hp => exact pollCancelling_ok h.copy hp
  next hp =>
    split
    · split
      next packets hsent =>
        refine ⟨waiting_ok (h.empty (Or.inr hp)) (Or.inr hp), sendRequest_ok hsent⟩
      next => exact fail_ok h.copy 1 _
    · exact ok_keep h
  next =>
    split
    · exact fail_ok h.copy 0 _
    · exact ok_keep h
  next =>
    split
    · exact fail_ok h.copy 0 _
    split
    · exact pollDrained_ok h.copy
    · exact ok_keep h
  next hp =>
    split
    · split
      next packets hsent =>
        exact ⟨aside_ok (h.copy.congr rfl rfl rfl) (Or.inr hp), sendFinished_ok hsent⟩
      next => exact fail_ok h.copy 1 _
    · exact ok_keep h

/-! ### Keys -/

theorem perform_ok (h : KeyboardOk catalog k) (i : Nat) (action : DeviceAction) :
    Ok catalog (k.perform io i action) := by
  cases action with
  | pttStarted slot capture connection => exact preempt_ok h.copy (Or.inl h) i
  | playbackPreempted playback => exact preempt_ok h.copy (Or.inl h) i
  | playRequested slot request connection => exact request_ok h i _ _ _
  | pttEnded slot capture connection => exact ok_keep h
  | rejectedBusy slot => exact ok_keep h

theorem performAll_ok (h : KeyboardOk catalog k) (i : Nat) (actions : List DeviceAction) :
    Ok catalog (Keyboard.performAll io i k actions) := by
  induction actions generalizing i k with
  | nil => exact ok_keep h
  | cons action rest ih =>
    have hfirst := @perform_ok _ io _ h i action
    exact (ih hfirst.1 (i + 1)).after hfirst.2

/-- Slots that give a playback up say so before anything else is done with them. -/
theorem performAll_preempts (hcopy : CopyOk catalog k.playback) (hbusy : k.playback.phase ≠ .idle)
    (ended rest : List DeviceAction)
    (hended : ∀ a ∈ ended, ∃ slot capture connection, a = .pttEnded slot capture connection) (i : Nat) :
    Ok catalog (Keyboard.performAll io i k
      (ended ++ .playbackPreempted k.playback.slotIdentity :: rest)) := by
  induction ended generalizing i with
  | nil =>
    have hfirst := @preempt_ok _ io _ hcopy _ (Or.inr ⟨hbusy, rfl⟩) i
    exact (performAll_ok hfirst.1 (i + 1) rest).after hfirst.2
  | cons action ended ih =>
    obtain ⟨slot, capture, connection, rfl⟩ := hended action List.mem_cons_self
    exact (ih (fun a ha => hended a (List.mem_cons_of_mem _ ha)) (i + 1)).after
      (by simp [Keyboard.perform, Keyboard.keep])

/-- A change of the slots, and what the main task makes of it. -/
theorem slots_ok (h : KeyboardOk catalog k) {slots : CodexSlotState} {actions : List DeviceAction}
    (hmove : SamePlayback k.slots slots ∨ Preempts k.slots actions) :
    Ok catalog (Keyboard.performAll io 0 { k with slots := slots } actions) := by
  by_cases htaking : Taking k.playback
  · have hsynced := h.synced htaking
    rcases hmove with hsame | ⟨ended, rest, rfl, hended⟩
    · have hsynced' : Synced { k with slots := slots } := by
        refine hsynced.congr rfl rfl rfl hsame.identity hsame.frames hsame.next fun hlt => ?_
        show slots.playbackPhase = _ ∨ slots.playbackPhase = _
        rw [hsame.phase]
        exact hsynced.open' hlt
      refine performAll_ok ?_ 0 actions
      exact taking_ok h.copy htaking hsynced'
    · rw [hsynced.identity]
      have hbusy : k.playback.phase ≠ .idle := fun hidle => not_awaiting htaking (Or.inl hidle)
      exact performAll_preempts (k := { k with slots := slots }) h.copy hbusy ended rest hended 0
  · refine performAll_ok (k := ⟨_, _⟩) ?_ 0 actions
    exact ⟨h.copy, h.empty, fun ht => absurd ht htaking⟩

/-- Whatever the keyboard does, it stays in order and answers in order. -/
theorem deviceStep_ok (h : KeyboardOk catalog k) (a : DeviceAct)
    (ha : ∀ packet, a = .receive packet → PacketOk catalog packet) :
    Ok catalog (deviceStep io k a) := by
  cases a with
  | receive packet => exact receive_ok h (ha packet rfl)
  | receiveError =>
    simp only [deviceStep]
    split
    · exact ok_keep h
    · exact fail_ok h.copy 0 _
  | poll => exact poll_ok h
  | input input phase generation => exact slots_ok h (handleInput_move input phase generation).playback
  | disconnect generation => exact slots_ok h (disconnect_move k.slots generation).playback

end CodexKeyboard.Lan
