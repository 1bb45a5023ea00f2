import CodexKeyboard.Lan.Moves
import CodexKeyboard.Schemes.Chunks

/-! The Host's half of a faithful transfer: every datagram it sends is cut from the EIAD that was
    started under its identity, at a chunk boundary. -/

namespace CodexKeyboard.Lan

open ActiveLanPlayback Schemes.Chunks

/-- The transfers the daemon starts: one EIAD for each identity. -/
abbrev Catalog := PlaybackIdentity → LanPlaybackStart

/-- A start the daemon makes: its EIAD as announced, in chunks of `PLAYBACK_CHUNK_BYTES`. -/
structure Started (catalog : Catalog) (s : LanPlaybackStart) : Prop where
  listed : catalog s.start.identity = s
  chunk : s.start.chunkBytes = playbackChunkBytes
  total : s.eiad.length = s.start.totalBytes

theorem Started.unique {catalog : Catalog} {s s' : LanPlaybackStart} (h : Started catalog s)
    (h' : Started catalog s') (hid : s.start.identity = s'.start.identity) : s = s' := by
  rw [← h.listed, ← h'.listed, hid]

/-- What every datagram in flight satisfies. -/
def PacketOk (catalog : Catalog) : Packet → Prop
  | .eipb start => ∃ s, Started catalog s ∧ s.start = start
  | .eipd data => ∃ s, Started catalog s ∧ s.start.identity = data.identity ∧
      IsChunk playbackChunkBytes s.eiad data.offset data.payload
  | .eipa ack => ack.status ≠ 2 ∧ (ack.status ≤ 1 → ∃ s, Started catalog s ∧
      s.start.identity = ack.identity ∧
      Aligned playbackChunkBytes s.eiad.length ack.nextOffset)
  | _ => True

/-- The transfer of the Host stands at chunk boundaries of a started EIAD. -/
structure TransferOk (catalog : Catalog) (t : ActivePlaybackTransfer) : Prop where
  started : Started catalog ⟨t.start, t.source, t.eiad⟩
  acknowledged : Aligned playbackChunkBytes t.eiad.length t.acknowledgedOffset
  sent : Aligned playbackChunkBytes t.eiad.length t.sentEndOffset

def HostOk (catalog : Catalog) (st : ActiveLanPlayback) : Prop :=
  ∀ t, st.transfer = some t → TransferOk catalog t

variable {catalog : Catalog} {io : Io} {st : ActiveLanPlayback} {t : ActivePlaybackTransfer}

theorem TransferOk.mono {t' : ActivePlaybackTransfer} (h : TransferOk catalog t)
    (hstart : t'.start = t.start) (hsource : t'.source = t.source) (heiad : t'.eiad = t.eiad)
    (hack : Aligned playbackChunkBytes t.eiad.length t'.acknowledgedOffset)
    (hsent : Aligned playbackChunkBytes t.eiad.length t'.sentEndOffset) : TransferOk catalog t' := by
  refine ⟨?_, ?_, ?_⟩
  · rw [hstart, hsource, heiad]
    exact h.started
  · rwa [heiad]
  · rwa [heiad]

/-! ### Data -/

/-- The loop cuts chunks at their boundaries, whichever of them go out. -/
theorem sendChunks_ok (h : TransferOk catalog t) {stop : Nat}
    (hstop : Aligned playbackChunkBytes t.eiad.length stop) {fuel i offset : Nat}
    (hoffset : playbackChunkBytes ∣ offset ∨ stop ≤ offset) :
    ∀ p ∈ (sendChunks io t stop fuel i offset).2, PacketOk catalog p.2 := by
  induction fuel generalizing i offset with
  | zero => simp [sendChunks]
  | succ fuel ih =>
    rw [sendChunks]
    split
    next hlt =>
      have hdvd : playbackChunkBytes ∣ offset := hoffset.resolve_right (Nat.not_le_of_lt hlt)
      obtain ⟨hchunk, hnext⟩ := isChunk_slice (by decide) hstop hdvd hlt
      simp only
      split
      · simp
      next packet hpacket =>
        obtain ⟨rfl, _⟩ := encodeData_some hpacket
        split
        next =>
          intro p hp
          rcases List.mem_cons.1 hp with rfl | hp
          · exact ⟨_, h.started, rfl, hchunk⟩
          · exact ih (hnext.imp_right fun heq => Nat.le_of_eq heq.symm) p hp
        next => simp
    next => simp

/-- An offset the Host goes on from starts a chunk, or lies behind everything it sends. -/
theorem TransferOk.resumes (h : TransferOk catalog t) {stop : Nat} (hstop : stop ≤ t.eiad.length) :
    playbackChunkBytes ∣ t.acknowledgedOffset ∨ stop ≤ t.acknowledgedOffset := by
  rcases h.acknowledged.boundary with hd | hend
  · exact Or.inl hd
  · rw [hend]
    exact Or.inr hstop

/-- A window leaves the transfer at boundaries, or drops it. -/
theorem sendNextData_ok (h : TransferOk catalog t) :
    HostOk catalog (sendNextData io st t).state ∧
      ∀ p ∈ (sendNextData io st t).sent, PacketOk catalog p.2 := by
  have hstop : Aligned playbackChunkBytes t.eiad.length (windowEnd t) := h.acknowledged.window _
  have hpackets : ∀ p ∈ (sendChunks io t (windowEnd t) (windowEnd t - t.acknowledgedOffset) 0
      t.acknowledgedOffset).2, PacketOk catalog p.2 := sendChunks_ok h hstop (h.resumes hstop.bounded)
  simp only [sendNextData]
  split
  next sent hsent =>
    rw [hsent] at hpackets
    refine ⟨?_, hpackets⟩
    rintro t' ⟨⟩
    exact h.mono rfl rfl rfl h.acknowledged hstop
  next sent hsent =>
    rw [hsent] at hpackets
    refine ⟨?_, hpackets⟩
    rintro t' ⟨⟩

theorem retransmit_ok (h : TransferOk catalog t) :
    ∀ p ∈ (retransmit io t).2, PacketOk catalog p.2 := by
  unfold retransmit
  split
  · split
    · intro p hp
      rw [List.mem_singleton] at hp
      rw [hp]
      exact ⟨⟨t.start, t.source, t.eiad⟩, h.started, rfl⟩
    · simp
  · exact sendChunks_ok h h.sent (h.resumes h.sent.bounded)
  · simp
  · simp

/-! ### One call of the Host -/

/-- What a call may be given: packets the peers produced, starts of the catalog. -/
def HostAct.From (catalog : Catalog) (Sent : Packet → Prop) : HostAct → Prop
  | .command _ (.start s) => s.start.chunkBytes = playbackChunkBytes ∧ catalog s.start.identity = s
  | .ingest packet _ => Sent packet
  | _ => True

/-- An acknowledgement about the active transfer names a boundary of its EIAD. -/
theorem ack_aligned {ack : PlaybackAck} {source : SocketAddr} (hpeer : AckFor st ack source t)
    (h : TransferOk catalog t) (hack : PacketOk catalog (.eipa ack)) (hstatus : ack.status ≤ 1) :
    Aligned playbackChunkBytes t.eiad.length ack.nextOffset := by
  obtain ⟨s, hs, hid, haligned⟩ := hack.2 hstatus
  have hsame := hs.unique h.started (hid.trans hpeer.identity.symm)
  rwa [hsame] at haligned

theorem gapInWindow_status {ack : PlaybackAck} (h : gapInWindow t ack = true) : ack.status = 1 := by
  simp only [gapInWindow, Bool.and_eq_true, beq_iff_eq] at h
  exact h.1.1.1

theorem hostOk_none (h : st.transfer = none) : HostOk catalog st := by
  intro t ht
  rw [h] at ht
  cases ht

theorem dropTransfer_ok {identity : PlaybackIdentity} {sent : List (SocketAddr × Packet)}
    (hsent : ∀ p ∈ sent, PacketOk catalog p.2) :
    HostOk catalog (dropTransfer st identity sent).state ∧
      ∀ p ∈ (dropTransfer st identity sent).sent, PacketOk catalog p.2 :=
  ⟨hostOk_none rfl, hsent⟩

/-- The moves keep the Host at chunk boundaries, and so is everything they send. -/
theorem HostMove.ok {a : HostAct} {r : Reaction} (hmove : HostMove io st a r) (h : HostOk catalog st)
    (ha : a.From catalog (PacketOk catalog)) :
    HostOk catalog r.state ∧ ∀ p ∈ r.sent, PacketOk catalog p.2 := by
  have hquiet : ∀ {sent : List (SocketAddr × Packet)}, (∀ p ∈ sent, ∃ id status, p.2 = .eipk id status) →
      ∀ p ∈ sent, PacketOk catalog p.2 := by
    intro sent hacks p hp
    obtain ⟨id, status, heq⟩ := hacks p hp
    rw [heq]
    trivial
  cases hmove with
  | stay st' sent same acks => exact ⟨fun t ht => h t (same ▸ ht), hquiet acks⟩
  | refused s => exact ⟨h, by simp⟩
  | started s idle nonempty total =>
    have hs : Started catalog s := ⟨ha.2, ha.1, total⟩
    refine ⟨?_, by simpa using ⟨s, hs, rfl⟩⟩
    rintro t ⟨⟩
    exact ⟨hs, aligned_zero _ _, aligned_zero _ _⟩
  | committed active same phase => exact ⟨hostOk_none rfl, by simp [PacketOk]⟩
  | cancelled active same => exact ⟨hostOk_none rfl, by simp⟩
  | requested valid accepted => exact ⟨hostOk_none rfl, by simp⟩
  | finished valid active finishes t' after =>
    refine ⟨?_, by simp⟩
    rintro t ⟨⟩
    rw [after]
    exact (h _ active).mono rfl rfl rfl (h _ active).acknowledged (h _ active).sent
  | gap peer inWindow retries budget =>
    have ht := h _ peer.active
    have hstatus := gapInWindow_status inWindow
    exact sendNextData_ok (ht.mono rfl rfl rfl (ack_aligned peer ht ha (by omega)) ht.sent)
  | gapExhausted peer inWindow repeats exhausted => exact dropTransfer_ok (by simp)
  | rejected valid peer status outside =>
    unfold deviceRejected
    split
    · exact dropTransfer_ok (hquiet sendOne_acks)
    · exact dropTransfer_ok (by simp)
  | begun peer status phase next =>
    have ht := h _ peer.active
    exact sendNextData_ok (ht.mono rfl rfl rfl (aligned_zero _ _) ht.sent)
  | advanced peer status phase forward within =>
    have ht := h _ peer.active
    refine ⟨?_, by simp⟩
    rintro t ⟨⟩
    exact ht.mono rfl rfl rfl (ack_aligned peer ht ha (by omega)) ht.sent
  | delivered peer status phase forward all whole =>
    have ht := h _ peer.active
    refine ⟨?_, by simp⟩
    rintro t ⟨⟩
    exact ht.mono rfl rfl rfl (ack_aligned peer ht ha (by omega)) ht.sent
  | onward peer status phase forward all =>
    have ht := h _ peer.active
    exact sendNextData_ok (ht.mono rfl rfl rfl (ack_aligned peer ht ha (by omega)) ht.sent)
  | finishTimeout active same phase passed => exact dropTransfer_ok (by simp)
  | transportTimeout active same exhausted => exact dropTransfer_ok (by simp)
  | retransmitted active same t' after =>
    have ht := h _ active
    refine ⟨?_, retransmit_ok ht⟩
    rintro t ⟨⟩
    rw [after]
    exact ht.mono rfl rfl rfl ht.acknowledged ht.sent

end CodexKeyboard.Lan
