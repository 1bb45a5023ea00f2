import CodexKeyboard.Lan.Receiver

/-! The Host and the keyboard over a network that loses, repeats, delays and reorders: the transfer
    is faithful. -/

namespace CodexKeyboard.Lan

open Device Schemes.Chunks CodexLanPlayback

/-! ### The two sides and what is between them -/

/-- `net` holds every datagram ever sent: a delivery leaves it there, a loss never delivers it. -/
structure World where
  host : ActiveLanPlayback
  keyboard : Keyboard
  net : List Packet

inductive Act where
  | host (io : Io) (act : HostAct)
  | device (io : DeviceIo) (act : DeviceAct)

/-- Only what a peer has produced authenticates. -/
def HostAct.delivers (net : List Packet) : HostAct → Bool
  | .ingest packet _ => net.contains packet
  | _ => true

def deviceDelivers (net : List Packet) : DeviceAct → Bool
  | .receive packet => net.contains packet
  | _ => true

def World.step (w : World) : Act → World
  | .host io a =>
    if a.delivers w.net then
      let r := hostStep io w.host a
      ⟨r.state, w.keyboard, w.net ++ r.sent.map Prod.snd⟩
    else w
  | .device io a =>
    if deviceDelivers w.net a then
      let r := deviceStep io w.keyboard a
      ⟨w.host, r.state, w.net ++ r.sent⟩
    else w

def World.run (w : World) (as : List Act) : World := as.foldl World.step w

/-- No transfer yet: at most the keyboard's requests are under way. -/
structure World.Fresh (w : World) : Prop where
  host : w.host.transfer = none
  keyboard : Empty w.keyboard.playback
  waiting : w.keyboard.playback.phase = .idle ∨ w.keyboard.playback.phase = .awaitBegin
  net : ∀ p ∈ w.net, ∃ request, p = .eipr request

/-- The daemon starts what the catalog lists, in chunks of `PLAYBACK_CHUNK_BYTES`. -/
def Act.From (catalog : Catalog) : Act → Prop
  | .host _ (.command _ (.start s)) =>
    s.start.chunkBytes = playbackChunkBytes ∧ catalog s.start.identity = s
  | _ => True

/-- The steps of a transfer: all of the Host's, and the keyboard's `handle_begin` and `handle_data`. -/
def Act.Transfers : Act → Prop
  | .host .. => True
  | .device _ (.receive (.eipb _)) => True
  | .device _ (.receive (.eipd _)) => True
  | .device .. => False

variable {catalog : Catalog} {w : World}

/-! ### Every run -/

structure WorldOk (catalog : Catalog) (w : World) : Prop where
  host : HostOk catalog w.host
  keyboard : KeyboardOk catalog w.keyboard
  net : ∀ p ∈ w.net, PacketOk catalog p

theorem World.Fresh.ok (h : w.Fresh) : WorldOk catalog w := by
  refine ⟨hostOk_none h.host, waiting_ok h.keyboard h.waiting, fun p hp => ?_⟩
  obtain ⟨request, rfl⟩ := h.net p hp
  trivial

theorem step_ok (h : WorldOk catalog w) {a : Act} (ha : a.From catalog) : WorldOk catalog (w.step a) := by
  cases a with
  | host io a =>
    simp only [World.step]
    split
    next hdelivers =>
      have hfrom : a.From catalog (PacketOk catalog) := by
        cases a with
        | command key command =>
          cases command with
          | start s => exact ha
          | finishAck identity => trivial
          | cancel identity => trivial
          | mailbox status => trivial
        | ingest packet source => exact h.net packet (by simpa [HostAct.delivers] using hdelivers)
        | tick key => trivial
      obtain ⟨hhost, hsent⟩ := (hostStep_move io w.host a).ok h.host hfrom
      refine ⟨hhost, h.keyboard, fun p hp => ?_⟩
      rcases List.mem_append.1 hp with hp | hp
      · exact h.net p hp
      · obtain ⟨q, hq, rfl⟩ := List.mem_map.1 hp
        exact hsent q hq
    · exact h
  | device io a =>
    simp only [World.step]
    split
    next hdelivers =>
      have hpacket : ∀ packet, a = .receive packet → PacketOk catalog packet := by
        rintro packet rfl
        exact h.net packet (by simpa [deviceDelivers] using hdelivers)
      obtain ⟨hkeyboard, hsent⟩ := @deviceStep_ok _ io _ h.keyboard a hpacket
      refine ⟨h.host, hkeyboard, fun p hp => ?_⟩
      rcases List.mem_append.1 hp with hp | hp
      · exact h.net p hp
      · exact hsent p hp
    · exact h

theorem run_ok (h : WorldOk catalog w) (as : List Act) (has : ∀ a ∈ as, a.From catalog) :
    WorldOk catalog (w.run as) := by
  induction as generalizing w with
  | nil => exact h
  | cons a as ih =>
    exact ih (step_ok h (has a List.mem_cons_self)) fun b hb => has b (List.mem_cons_of_mem a hb)

/-! ### The keyboard during a transfer -/

/-- Begins and data only add to what the keyboard holds, and it acknowledges no more than that. -/
structure Grown (k : Keyboard) (r : DeviceReaction) : Prop where
  received : k.playback.receivedBytes ≤ r.state.playback.receivedBytes
  start : r.state.playback.start = k.playback.start ∨ k.playback.phase = .awaitBegin
  acks : ∀ ack, .eipa ack ∈ r.sent → ack.status ≤ 1 → validIdentity ack.identity = true ∧
    ack.identity = r.state.playback.start.identity ∧
    ack.nextOffset ≤ r.state.playback.receivedBytes

variable {io : DeviceIo} {k k' k'' : Keyboard} {sent : List Packet}

theorem sendAck_acks {p : CodexLanPlayback} {i status : Nat} {ack : PlaybackAck}
    (h : .eipa ack ∈ (sendAck io i p status).2) (hstatus : ack.status ≤ 1) :
    validIdentity ack.identity = true ∧ ack.identity = p.start.identity ∧
      ack.nextOffset = p.receivedBytes := by
  unfold sendAck at h
  split at h
  next hvalid =>
    simp only [Bool.and_eq_true] at hvalid
    obtain ⟨⟩ := List.mem_singleton.1 h
    have hne : status ≠ 3 := by
      have : status ≤ 1 := hstatus
      omega
    refine ⟨hvalid.1.1, rfl, ?_⟩
    simp [ackPacket, hne]
  next => cases h

theorem Grown.keep : Grown k k.keep := ⟨Nat.le_refl _, Or.inl rfl, by simp [Keyboard.keep]⟩

/-- What follows an acknowledgement leaves its facts alone. -/
theorem Grown.congr (h : Grown k ⟨k', sent⟩) (hstart : k''.playback.start = k'.playback.start)
    (hreceived : k''.playback.receivedBytes = k'.playback.receivedBytes) : Grown k ⟨k'', sent⟩ := by
  refine ⟨?_, ?_, fun ack hack hstatus => ?_⟩
  · show _ ≤ k''.playback.receivedBytes
    rw [hreceived]
    exact h.received
  · show k''.playback.start = _ ∨ _
    rw [hstart]
    exact h.start
  · show _ ∧ _ = k''.playback.start.identity ∧ _ ≤ k''.playback.receivedBytes
    rw [hstart, hreceived]
    exact h.acks ack hack hstatus

theorem fail_acks {i : Nat} {reason : Failure} {ack : PlaybackAck}
    (h : .eipa ack ∈ (k.fail io i reason).sent) : ¬ack.status ≤ 1 := by
  have hthree : ∀ p named, ∀ ack, .eipa ack ∈ (if named = true then sendAck io i p 3
      else (false, [])).2 → ¬ack.status ≤ 1 := by
    intro p named ack hack
    split at hack
    · unfold sendAck at hack
      split at hack
      · obtain ⟨⟩ := List.mem_singleton.1 hack
        simp [ackPacket]
      · cases hack
    · cases hack
  exact hthree _ _ ack h

/-- Neither does a failure. -/
theorem Grown.fail (h : Grown k ⟨k', sent⟩) (i : Nat) (reason : Failure) :
    Grown k ⟨(k'.fail io i reason).state, sent ++ (k'.fail io i reason).sent⟩ := by
  refine ⟨h.received, h.start, fun ack hack hstatus => ?_⟩
  rcases List.mem_append.1 hack with hack | hack
  · exact h.acks ack hack hstatus
  · exact absurd hstatus (fail_acks hack)

theorem markTransferComplete_holds {done : Bool} (h : k.markTransferComplete = (done, k')) :
    k'.playback.start = k.playback.start ∧ k'.playback.receivedBytes = k.playback.receivedBytes := by
  simp only [Keyboard.markTransferComplete] at h
  split at h
  · rw [← (Prod.mk.inj h).2]
    exact ⟨rfl, rfl⟩
  · split at h <;> (rw [← (Prod.mk.inj h).2]; exact ⟨rfl, rfl⟩)

theorem beginSpeakerPlayback_holds {started : Bool} (h : k.beginSpeakerPlayback io = (started, k')) :
    k'.playback.start = k.playback.start ∧ k'.playback.receivedBytes = k.playback.receivedBytes := by
  simp only [Keyboard.beginSpeakerPlayback] at h
  split at h
  · rw [← (Prod.mk.inj h).2]
    exact ⟨rfl, rfl⟩
  · split at h
    · rw [← (Prod.mk.inj h).2]
      exact ⟨rfl, rfl⟩
    · split at h <;> (rw [← (Prod.mk.inj h).2]; exact ⟨rfl, rfl⟩)

theorem finishData_grown (h : Grown k ⟨k', sent⟩) : Grown k (k'.finishData io sent) := by
  unfold Keyboard.finishData
  split
  · split
    next hmark =>
      obtain ⟨hstart, hreceived⟩ := markTransferComplete_holds hmark
      exact h.congr hstart hreceived
    next hmark =>
      obtain ⟨hstart, hreceived⟩ := markTransferComplete_holds hmark
      exact (h.congr hstart hreceived).fail 1 .other
  · exact h

theorem playData_grown (h : Grown k ⟨k', sent⟩) : Grown k (k'.playData io sent) := by
  unfold Keyboard.playData
  split
  · split
    next hspeaker =>
      obtain ⟨hstart, hreceived⟩ := beginSpeakerPlayback_holds hspeaker
      exact finishData_grown (h.congr hstart hreceived)
    next hspeaker =>
      obtain ⟨hstart, hreceived⟩ := beginSpeakerPlayback_holds hspeaker
      exact (h.congr hstart hreceived).fail 1 .other
  · exact finishData_grown h

/-- An acknowledgement as its call ends. -/
theorem grown_ack {p : CodexLanPlayback} {i status : Nat} (hk : k'.playback.start = p.start)
    (hreceived : k'.playback.receivedBytes = p.receivedBytes)
    (hgrows : k.playback.receivedBytes ≤ p.receivedBytes)
    (hstart : p.start = k.playback.start ∨ k.playback.phase = .awaitBegin) :
    Grown k ⟨k', (sendAck io i p status).2⟩ := by
  refine ⟨?_, ?_, fun ack hack hstatus => ?_⟩
  · show _ ≤ k'.playback.receivedBytes
    rw [hreceived]
    exact hgrows
  · show k'.playback.start = _ ∨ _
    rw [hk]
    exact hstart
  · obtain ⟨hvalid, hidentity, hnext⟩ := sendAck_acks hack hstatus
    refine ⟨hvalid, ?_, ?_⟩
    · show _ = k'.playback.start.identity
      rw [hk]
      exact hidentity
    · show _ ≤ k'.playback.receivedBytes
      rw [hreceived, hnext]

/-- An acknowledgement that went out. -/
theorem grown_sent {p : CodexLanPlayback} {slots : CodexSlotState} {i status : Nat} {ok : Bool}
    (hsent : sendAck io i p status = (ok, sent)) (hgrows : k.playback.receivedBytes ≤ p.receivedBytes)
    (hstart : p.start = k.playback.start ∨ k.playback.phase = .awaitBegin) :
    Grown k ⟨⟨slots, p⟩, sent⟩ := by
  have hgrown : Grown k ⟨⟨slots, p⟩, (sendAck io i p status).2⟩ := grown_ack rfl rfl hgrows hstart
  rwa [hsent] at hgrown

/-- A failure acknowledges nothing. -/
theorem fail_grown {i : Nat} {reason : Failure}
    (hgrows : k.playback.receivedBytes ≤ k'.playback.receivedBytes)
    (hstart : k'.playback.start = k.playback.start ∨ k.playback.phase = .awaitBegin) :
    Grown k (k'.fail io i reason) :=
  ⟨hgrows, hstart, fun _ hack hstatus => absurd hstatus (fail_acks hack)⟩

theorem takeChunk_grown {data : PlaybackData} : Grown k (k.takeChunk io data) := by
  unfold Keyboard.takeChunk
  simp only
  split
  · split
    next packets hsent => exact playData_grown (grown_sent hsent (Nat.le_add_right _ _) (Or.inl rfl))
    next =>
      apply fail_grown
      · exact Nat.le_add_right _ _
      · exact Or.inl rfl
  · exact grown_ack rfl rfl (Nat.le_refl _) (Or.inl rfl)

theorem handleData_grown {data : PlaybackData} : Grown k (k.handleData io data) := by
  unfold Keyboard.handleData
  simp only
  split
  · exact .keep
  split
  · split
    · exact grown_ack rfl rfl (Nat.le_refl _) (Or.inl rfl)
    · exact .keep
  split
  · exact .keep
  split
  · exact grown_ack rfl rfl (Nat.le_refl _) (Or.inl rfl)
  · exact takeChunk_grown

theorem openTransfer_grown (hawait : k.playback.phase = .awaitBegin) (hempty : Empty k.playback)
    {start : PlaybackBegin} {slots : CodexSlotState} : Grown k (k.openTransfer io start slots) := by
  have hreceived : k.playback.receivedBytes = 0 := hempty.2.1
  unfold Keyboard.openTransfer
  simp only
  split
  next =>
    apply fail_grown
    · exact Nat.le_refl _
    · exact Or.inr hawait
  next =>
    split
    next packets hsent => exact grown_sent hsent (Nat.le_of_eq hreceived) (Or.inr hawait)
    next =>
      apply fail_grown
      · exact Nat.le_of_eq hreceived
      · exact Or.inr hawait

theorem handleBegin_grown (h : KeyboardOk catalog k) {start : PlaybackBegin} :
    Grown k (k.handleBegin io start) := by
  unfold Keyboard.handleBegin
  simp only
  split
  · exact .keep
  split
  · exact grown_ack rfl rfl (Nat.le_refl _) (Or.inl rfl)
  split
  · exact .keep
  next hphase =>
    have hawait : k.playback.phase = .awaitBegin := not_not.1 hphase
    split
    · exact openTransfer_grown hawait (h.empty (Or.inr hawait))
    · exact ⟨Nat.le_refl _, Or.inr hawait, by simp⟩

/-! ### The Host behind the keyboard -/

/-- What the Host has of a transfer, the keyboard has acknowledged, so it holds it. -/
structure Behind (p : CodexLanPlayback) (t : ActivePlaybackTransfer) : Prop where
  bound : t.acknowledgedOffset ≤ p.receivedBytes
  named : 0 < t.acknowledgedOffset → validIdentity t.start.identity = true ∧
    t.start.identity = p.start.identity
  delivered : t.phase = .deviceFinished ∨ t.phase = .hostCommit →
    0 < t.acknowledgedOffset ∧ t.acknowledgedOffset = t.eiad.length

/-- The acknowledgements under way name the keyboard's transfer, and no byte it does not hold. -/
def Acknowledged (p : CodexLanPlayback) (net : List Packet) : Prop :=
  ∀ ack, .eipa ack ∈ net → ack.status ≤ 1 →
    validIdentity ack.identity = true ∧ ack.identity = p.start.identity ∧ ack.nextOffset ≤ p.receivedBytes

structure Lockstep (w : World) : Prop where
  acks : Acknowledged w.keyboard.playback w.net
  host : ∀ t, w.host.transfer = some t → Behind w.keyboard.playback t

variable {p p' : CodexLanPlayback} {st : ActiveLanPlayback} {t t' : ActivePlaybackTransfer} {hio : Io}

theorem behind_start (h : t.acknowledgedOffset = 0) (hphase : t.phase = .beginAck ∨ t.phase = .dataAck) :
    Behind p t := by
  refine ⟨?_, ?_, ?_⟩
  · omega
  · omega
  · rcases hphase with hp | hp <;> simp [hp]

/-- The keyboard moves on: its transfer stays, with more of it received. -/
theorem Behind.grown (h : Behind p t)
    (hstart : validIdentity p.start.identity = true → p'.start = p.start)
    (hreceived : p.receivedBytes ≤ p'.receivedBytes) : Behind p' t := by
  refine ⟨Nat.le_trans h.bound hreceived, fun hpos => ?_, h.delivered⟩
  obtain ⟨hvalid, hname⟩ := h.named hpos
  refine ⟨hvalid, ?_⟩
  rw [hname, hstart (by rw [← hname]; exact hvalid)]

/-- The Host follows an acknowledgement of its transfer. -/
theorem behind_ack {net : List Packet} (hacks : Acknowledged p net) {ack : PlaybackAck}
    (hack : .eipa ack ∈ net) (hstatus : ack.status ≤ 1) (hidentity : t'.start.identity = ack.identity)
    (hoffset : t'.acknowledgedOffset = ack.nextOffset)
    (hdelivered : t'.phase = .deviceFinished ∨ t'.phase = .hostCommit →
      0 < t'.acknowledgedOffset ∧ t'.acknowledgedOffset = t'.eiad.length) : Behind p t' := by
  obtain ⟨hvalid, hname, hbound⟩ := hacks ack hack hstatus
  refine ⟨?_, fun _ => ⟨?_, ?_⟩, hdelivered⟩
  · rw [hoffset]
    exact hbound
  · rw [hidentity]
    exact hvalid
  · rw [hidentity]
    exact hname

/-- A transfer that goes on with data stands where it stood. -/
theorem sendNextData_transfer (h : (ActiveLanPlayback.sendNextData hio st t).state.transfer = some t') :
    t'.start = t.start ∧ t'.acknowledgedOffset = t.acknowledgedOffset ∧ t'.phase = .dataAck := by
  simp only [ActiveLanPlayback.sendNextData] at h
  split at h
  · obtain ⟨⟩ := h
    exact ⟨rfl, rfl, rfl⟩
  · cases h

theorem deviceRejected_transfer {ack : PlaybackAck} {source : SocketAddr} :
    (ActiveLanPlayback.deviceRejected hio st t ack source).state.transfer = none := by
  unfold ActiveLanPlayback.deviceRejected
  split <;> rfl

theorem HostMove.behind {a : HostAct} {r : Reaction} (hmove : HostMove hio st a r) {net : List Packet}
    (hacks : Acknowledged p net) (h : ∀ t, st.transfer = some t → Behind p t)
    (ha : ∀ packet source, a = .ingest packet source → packet ∈ net) :
    ∀ t, r.state.transfer = some t → Behind p t := by
  intro t' ht'
  cases hmove with
  | stay st' sent same acks => exact h t' (same.symm.trans ht')
  | refused s => exact h t' ht'
  | started s idle nonempty total =>
    obtain ⟨⟩ := ht'
    exact behind_start rfl (Or.inl rfl)
  | committed active same phase => cases ht'
  | cancelled active same => cases ht'
  | requested valid accepted => cases ht'
  | @finished _ _ t valid active finishes t'' after =>
    obtain ⟨⟩ := ht'
    rw [after]
    have hphase : t.phase = .deviceFinished ∨ t.phase = .hostCommit := by
      simp only [ActiveLanPlayback.finishes, Bool.and_eq_true, Bool.or_eq_true, beq_iff_eq] at finishes
      exact finishes.2
    exact ⟨(h _ active).bound, (h _ active).named, fun _ => (h _ active).delivered hphase⟩
  | gap peer inWindow retries budget =>
    obtain ⟨hstart, hoffset, hphase⟩ := sendNextData_transfer ht'
    refine behind_ack hacks (ha _ _ rfl) (Nat.le_of_eq (gapInWindow_status inWindow)) ?_ hoffset ?_
    · rw [hstart]
      exact peer.identity
    · simp [hphase]
  | gapExhausted peer inWindow repeats exhausted => cases ht'
  | rejected valid peer status outside =>
    rw [deviceRejected_transfer] at ht'
    cases ht'
  | begun peer status phase next =>
    obtain ⟨hstart, hoffset, hphase⟩ := sendNextData_transfer ht'
    exact behind_start hoffset (Or.inr hphase)
  | advanced peer status phase forward within =>
    obtain ⟨⟩ := ht'
    refine behind_ack hacks (ha _ _ rfl) (by omega) peer.identity rfl ?_
    simp [phase]
  | delivered peer status phase forward all whole =>
    obtain ⟨⟩ := ht'
    exact behind_ack hacks (ha _ _ rfl) (by omega) peer.identity rfl fun _ => ⟨by simp only; omega, whole⟩
  | onward peer status phase forward all =>
    obtain ⟨hstart, hoffset, hphase⟩ := sendNextData_transfer ht'
    refine behind_ack hacks (ha _ _ rfl) (by omega) ?_ hoffset ?_
    · rw [hstart]
      exact peer.identity
    · simp [hphase]
  | finishTimeout active same phase passed => cases ht'
  | transportTimeout active same exhausted => cases ht'
  | retransmitted active same t'' after =>
    obtain ⟨⟩ := ht'
    rw [after]
    exact ⟨(h _ active).bound, (h _ active).named, (h _ active).delivered⟩

/-! ### The Host acknowledges nothing -/

def HostPacket : Packet → Prop
  | .eipb _ | .eipd _ | .eipk .. => True
  | .eipr _ | .eipa _ | .eipf _ => False

theorem sendChunks_host {stop fuel i offset : Nat} :
    ∀ q ∈ (ActiveLanPlayback.sendChunks hio t stop fuel i offset).2, HostPacket q.2 := by
  induction fuel generalizing i offset with
  | zero => simp [ActiveLanPlayback.sendChunks]
  | succ fuel ih =>
    rw [ActiveLanPlayback.sendChunks]
    split
    · simp only
      split
      · simp
      next packet hpacket =>
        obtain ⟨rfl, _⟩ := encodeData_some hpacket
        split
        · intro q hq
          rcases List.mem_cons.1 hq with rfl | hq
          · trivial
          · exact ih q hq
        · simp
    · simp

theorem sendNextData_host : ∀ q ∈ (ActiveLanPlayback.sendNextData hio st t).sent, HostPacket q.2 := by
  have hchunks : ∀ {ok : Bool} {out : List (SocketAddr × Packet)} {stop fuel i offset : Nat},
      ActiveLanPlayback.sendChunks hio t stop fuel i offset = (ok, out) → ∀ q ∈ out, HostPacket q.2 := by
    intro ok out stop fuel i offset h
    have hall : ∀ q ∈ (ActiveLanPlayback.sendChunks hio t stop fuel i offset).2, HostPacket q.2 :=
      sendChunks_host
    rwa [h] at hall
  simp only [ActiveLanPlayback.sendNextData]
  split
  next h => exact hchunks h
  next h => exact hchunks h

theorem retransmit_host : ∀ q ∈ (ActiveLanPlayback.retransmit hio t).2, HostPacket q.2 := by
  unfold ActiveLanPlayback.retransmit
  split
  · split
    · intro q hq
      rw [List.mem_singleton.1 hq]
      trivial
    · simp
  · exact sendChunks_host
  · simp
  · simp

theorem HostMove.sends {a : HostAct} {r : Reaction} (hmove : HostMove hio st a r) :
    ∀ q ∈ r.sent, HostPacket q.2 := by
  have hacks : ∀ {out : List (SocketAddr × Packet)}, (∀ q ∈ out, ∃ id status, q.2 = .eipk id status) →
      ∀ q ∈ out, HostPacket q.2 := by
    intro out hout q hq
    obtain ⟨id, status, heq⟩ := hout q hq
    rw [heq]
    trivial
  cases hmove with
  | stay st' sent same acks => exact hacks acks
  | started s idle nonempty total =>
    intro q hq
    rw [List.mem_singleton.1 hq]
    trivial
  | committed active same phase =>
    intro q hq
    rw [List.mem_singleton.1 hq]
    trivial
  | gap peer inWindow retries budget => exact sendNextData_host
  | begun peer status phase next => exact sendNextData_host
  | onward peer status phase forward all => exact sendNextData_host
  | rejected valid peer status outside =>
    unfold ActiveLanPlayback.deviceRejected
    split
    · exact hacks sendOne_acks
    · simp [ActiveLanPlayback.dropTransfer]
  | retransmitted active same t' after => exact retransmit_host
  | gapExhausted peer inWindow repeats exhausted => simp [ActiveLanPlayback.dropTransfer]
  | finishTimeout active same phase passed => simp [ActiveLanPlayback.dropTransfer]
  | transportTimeout active same exhausted => simp [ActiveLanPlayback.dropTransfer]
  | _ => simp

theorem World.Fresh.lockstep (h : w.Fresh) : Lockstep w := by
  refine ⟨fun ack hack => ?_, fun t ht => ?_⟩
  · obtain ⟨request, heq⟩ := h.net _ hack
    cases heq
  · rw [h.host] at ht
    cases ht

/-- A call of `handle_begin` or `handle_data` keeps the keyboard ahead. -/
theorem Grown.lockstep {r : DeviceReaction} (hgrown : Grown w.keyboard r) (hok : KeyboardOk catalog w.keyboard)
    (h : Lockstep w) : Lockstep ⟨w.host, r.state, w.net ++ r.sent⟩ := by
  have hstart : validIdentity w.keyboard.playback.start.identity = true →
      r.state.playback.start = w.keyboard.playback.start := by
    intro hvalid
    refine hgrown.start.resolve_right fun hawait => ?_
    rw [not_valid_empty (hok.empty (Or.inr hawait))] at hvalid
    cases hvalid
  refine ⟨fun ack hack hstatus => ?_, fun t ht => (h.host t ht).grown hstart hgrown.received⟩
  rcases List.mem_append.1 hack with hack | hack
  · obtain ⟨hvalid, hname, hbound⟩ := h.acks ack hack hstatus
    refine ⟨hvalid, ?_, Nat.le_trans hbound hgrown.received⟩
    rw [hstart (by rw [← hname]; exact hvalid)]
    exact hname
  · exact hgrown.acks ack hack hstatus

theorem step_lockstep (hok : WorldOk catalog w) (h : Lockstep w) {a : Act} (ha : a.Transfers) :
    Lockstep (w.step a) := by
  cases a with
  | host io a =>
    simp only [World.step]
    split
    next hdelivers =>
      have hmove := hostStep_move io w.host a
      refine ⟨fun ack hack hstatus => ?_, hmove.behind h.acks h.host ?_⟩
      · rcases List.mem_append.1 hack with hack | hack
        · exact h.acks ack hack hstatus
        · obtain ⟨q, hq, heq⟩ := List.mem_map.1 hack
          have hsends := hmove.sends q hq
          rw [heq] at hsends
          exact hsends.elim
      · rintro packet source rfl
        simpa [HostAct.delivers] using hdelivers
    · exact h
  | device io a =>
    simp only [World.step]
    split
    · cases a with
      | receive packet =>
        have hgrown : Grown w.keyboard (w.keyboard.receive io packet) := by
          unfold Keyboard.receive
          split
          · exact .keep
          · cases packet with
            | eipb start => exact handleBegin_grown hok.keyboard
            | eipd data => exact handleData_grown
            | _ => cases ha
        exact hgrown.lockstep hok.keyboard h
      | _ => cases ha
    · exact h

theorem run_lockstep (hok : WorldOk catalog w) (h : Lockstep w) (as : List Act)
    (has : ∀ a ∈ as, a.From catalog) (htransfers : ∀ a ∈ as, a.Transfers) : Lockstep (w.run as) := by
  induction as generalizing w with
  | nil => exact h
  | cons a as ih =>
    have ha : a ∈ a :: as := List.mem_cons_self
    exact ih (step_ok hok (has a ha)) (step_lockstep hok h (htransfers a ha))
      (fun b hb => has b (List.mem_cons_of_mem a hb)) fun b hb => htransfers b (List.mem_cons_of_mem a hb)

/-! ### The transfer is faithful -/

/-- The block is a copy of the EIAD that was started under the keyboard's identity. -/
theorem CopyOk.copied (h : CopyOk catalog p) :
    p.encoded.take p.receivedBytes = (catalog p.start.identity).eiad.take p.receivedBytes := by
  rcases h with h | ⟨s, h⟩
  · rw [h.2.1, List.take_zero, List.take_zero]
  · rw [← h.same, h.started.listed]
    exact h.copied

/-- All of it acknowledged, the keyboard holds all of it. -/
theorem holds_whole (hcopy : CopyOk catalog p) (ht : TransferOk catalog t) (hbehind : Behind p t)
    (hphase : t.phase = .deviceFinished) : p.receivedBytes = t.eiad.length ∧ p.encoded = t.eiad := by
  obtain ⟨hpos, hall⟩ := hbehind.delivered (Or.inl hphase)
  obtain ⟨hvalid, hname⟩ := hbehind.named hpos
  rcases hcopy with hempty | ⟨s, hs⟩
  · rw [hname, not_valid_empty hempty] at hvalid
    cases hvalid
  · have hsame : s = ⟨t.start, t.source, t.eiad⟩ :=
      hs.started.unique ht.started (by rw [hs.same]; exact hname.symm)
    have heiad : s.eiad = t.eiad := by rw [hsame]
    have hlength : p.receivedBytes = t.eiad.length := by
      have hle := hs.received.bounded
      have hge := hbehind.bound
      rw [heiad] at hle
      omega
    refine ⟨hlength, ?_⟩
    have hcopied := hs.copied
    rw [heiad, hlength, List.take_length] at hcopied
    have hblock : p.encoded.length = t.eiad.length := by
      rcases hs.block with hnone | hsome
      · rw [hnone] at hcopied ⊢
        rw [← hcopied]
        simp
      · rw [hsome, heiad]
    rw [← hblock, List.take_length] at hcopied
    exact hcopied

/-- Over any network and any order of steps the keyboard holds a prefix of what was started, every
    chunk the Host sends starts at a chunk boundary and none is refused; and as long as the steps are
    the transfer's own, the Host is never ahead of the keyboard, which holds the whole EIAD once the
    Host has it all acknowledged. -/
theorem lan_playback_transfer_faithful (catalog : Catalog) {w : World} (hw : w.Fresh) (as : List Act)
    (has : ∀ a ∈ as, a.From catalog) :
    let w' := w.run as
    let p := w'.keyboard.playback
    p.encoded.take p.receivedBytes = (catalog p.start.identity).eiad.take p.receivedBytes ∧
    (∀ t, w'.host.transfer = some t → catalog t.start.identity = ⟨t.start, t.source, t.eiad⟩) ∧
    (∀ data, .eipd data ∈ w'.net → playbackChunkBytes ∣ data.offset) ∧
    (∀ ack, .eipa ack ∈ w'.net → ack.status ≠ 2) ∧
    ((∀ a ∈ as, a.Transfers) → ∀ t, w'.host.transfer = some t →
      t.acknowledgedOffset ≤ p.receivedBytes ∧
      (t.phase = .deviceFinished → p.receivedBytes = t.eiad.length ∧ p.encoded = t.eiad)) := by
  intro w' p
  have hok : WorldOk catalog w' := run_ok hw.ok as has
  refine ⟨hok.keyboard.copy.copied, fun t ht => (hok.host t ht).started.listed, ?_, ?_, ?_⟩
  · intro data hdata
    obtain ⟨s, _, _, hchunk⟩ := hok.net _ hdata
    exact hchunk.starts
  · intro ack hack
    exact (hok.net _ hack).1
  · intro htransfers t ht
    have hbehind := (run_lockstep hw.ok hw.lockstep as has htransfers).host t ht
    exact ⟨hbehind.bound, holds_whole hok.keyboard.copy (hok.host t ht) hbehind⟩

/-! A transfer of three bytes, its chunk delivered twice. -/

def shortIdentity : PlaybackIdentity := ⟨1, 1, 1, 1, 1⟩

def shortStart : LanPlaybackStart := ⟨⟨shortIdentity, 3, 2, 1024, 9⟩, ⟨1, 2⟩, [7, 8, 9]⟩

def steadyIo : Io := ⟨0, fun _ => true⟩

def steadyDeviceIo : DeviceIo where
  now := 0
  send := fun _ => true
  memory := some fun _ => 0
  speakerReady := true
  speakerRequest := .ok ()
  speakerBusy := false
  speakerSucceeded := true
  route := some ⟨1, 1⟩
  nonce := 9

/-- The keyboard has asked for its first slot. -/
def waitingWorld : World where
  host := .init
  keyboard := {
    slots := {
      pendingPlaySlot := 1
      pendingPlayRequestGeneration := 1
      pendingPlayConnectionGeneration := 1 }
    playback := {
      phase := .awaitBegin
      request := ⟨1, 1, 1, 9⟩ } }
  net := [.eipr ⟨1, 1, 1, 9⟩]

def shortTransfer : List Act :=
  [.host steadyIo (.command true (.start shortStart)),
   .device steadyDeviceIo (.receive (.eipb shortStart.start)),
   .host steadyIo (.ingest (.eipa ⟨shortIdentity, 0, 0⟩) ⟨1, 2⟩),
   .device steadyDeviceIo (.receive (.eipd ⟨shortIdentity, 9, 0, [7, 8, 9]⟩)),
   .device steadyDeviceIo (.receive (.eipd ⟨shortIdentity, 9, 0, [7, 8, 9]⟩)),
   .host steadyIo (.ingest (.eipa ⟨shortIdentity, 0, 3⟩) ⟨1, 2⟩)]

theorem lan_playback_short_transfer :
    (waitingWorld.run shortTransfer).keyboard.playback.encoded = [7, 8, 9] := by
  have hw : waitingWorld.Fresh := ⟨rfl, ⟨rfl, rfl, rfl⟩, Or.inr rfl, by simp [waitingWorld]⟩
  have has : ∀ a ∈ shortTransfer, a.From fun _ => shortStart := by
    simp [shortTransfer, Act.From, shortStart, playbackChunkBytes]
  have htransfers : ∀ a ∈ shortTransfer, a.Transfers := by
    simp [shortTransfer, Act.Transfers]
  have hrun := (lan_playback_transfer_faithful (fun _ => shortStart) hw shortTransfer has).2.2.2.2
  exact (hrun htransfers _ rfl).2 rfl |>.2

end CodexKeyboard.Lan
