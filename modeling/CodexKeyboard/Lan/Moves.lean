import CodexKeyboard.Lan.Sender

/-! What one call of the ingress loop can do to the Host's transfer, said once. `HostMove` lists the
    moves with the facts each one checked before; what holds of every run is proved against it. -/

namespace CodexKeyboard.Lan

open ActiveLanPlayback

/-- The transfer of an accepted start. -/
def LanPlaybackStart.fresh (s : LanPlaybackStart) (now : Nat) : ActivePlaybackTransfer where
  start := s.start
  source := s.source
  eiad := s.eiad
  phase := .beginAck
  acknowledgedOffset := 0
  sentEndOffset := 0
  lastSend := now
  retryCount := 0
  finishDeadline := now + playbackFinishTimeout

/-- An acknowledgement that is about the active transfer. -/
structure AckFor (st : ActiveLanPlayback) (ack : PlaybackAck) (source : SocketAddr)
    (t : ActivePlaybackTransfer) : Prop where
  active : st.transfer = some t
  source : t.source = source
  identity : t.start.identity = ack.identity

inductive HostMove (io : Io) (st : ActiveLanPlayback) : HostAct → Reaction → Prop
  /-- The transfer stays; at most an old finish or cancellation is acknowledged once more. -/
  | stay {a} (st' : ActiveLanPlayback) (sent : List (SocketAddr × Packet))
      (same : st'.transfer = st.transfer) (acks : ∀ p ∈ sent, ∃ id status, p.2 = .eipk id status) :
      HostMove io st a ⟨st', sent, []⟩
  | refused {key} (s : LanPlaybackStart) :
      HostMove io st (.command key (.start s)) ⟨st, [], [.cancelled s.start.identity]⟩
  | started (s : LanPlaybackStart) (idle : st.transfer = none) (nonempty : s.eiad ≠ [])
      (total : s.eiad.length = s.start.totalBytes) :
      HostMove io st (.command true (.start s))
        ⟨{ st with transfer := some (s.fresh io.now) }, [(s.source, .eipb s.start)], []⟩
  | committed {key identity t} (active : st.transfer = some t) (same : t.start.identity = identity)
      (phase : t.phase = .hostCommit) :
      HostMove io st (.command key (.finishAck identity))
        ⟨{ st with
            retiredFinish := some ⟨identity, t.source, io.now + playbackFinishedAckRetention⟩
            transfer := none }, [(t.source, .eipk identity 0)], []⟩
  | cancelled {key identity t} (active : st.transfer = some t) (same : t.start.identity = identity) :
      HostMove io st (.command key (.cancel identity)) ⟨{ st with transfer := none }, [], []⟩
  | requested {request source st'} (valid : requestOk request = true)
      (accepted : st.acceptRequestGeneration request = some st') :
      HostMove io st (.ingest (.eipr request) source)
        ⟨{ st' with transfer := none }, [],
          (st.transfer.map fun t => .cancelled t.start.identity).toList ++ [.request request source]⟩
  | finished {finished source t} (valid : finishedOk finished = true) (active : st.transfer = some t)
      (finishes : finishes t finished source = true) (t' : ActivePlaybackTransfer)
      (after : t' = { t with
        phase := .hostCommit
        finishDeadline := t'.finishDeadline }) :
      HostMove io st (.ingest (.eipf finished) source)
        ⟨{ st with transfer := some t' }, [], [.finished finished]⟩
  /-- A gap request within the window, with budget left when it repeats. -/
  | gap {ack source t} (peer : AckFor st ack source t) (inWindow : gapInWindow t ack = true)
      (retries : Nat)
      (budget : ack.nextOffset = t.acknowledgedOffset → t.retryCount < playbackMaxRetries) :
      HostMove io st (.ingest (.eipa ack) source) (sendNextData io st { t with
        acknowledgedOffset := ack.nextOffset
        retryCount := retries })
  | gapExhausted {ack source t} (peer : AckFor st ack source t) (inWindow : gapInWindow t ack = true)
      (repeats : ack.nextOffset = t.acknowledgedOffset)
      (exhausted : playbackMaxRetries ≤ t.retryCount) :
      HostMove io st (.ingest (.eipa ack) source) (dropTransfer st t.start.identity [])
  | rejected {ack source t} (valid : ackOk ack = true) (peer : AckFor st ack source t)
      (status : ack.status ≠ 0) (outside : gapInWindow t ack = false) :
      HostMove io st (.ingest (.eipa ack) source) (deviceRejected io st t ack source)
  | begun {ack source t} (peer : AckFor st ack source t) (status : ack.status = 0)
      (phase : t.phase = .beginAck) (next : ack.nextOffset = 0) :
      HostMove io st (.ingest (.eipa ack) source) (sendNextData io st { t with
        acknowledgedOffset := 0
        retryCount := 0 })
  | advanced {ack source t} (peer : AckFor st ack source t) (status : ack.status = 0)
      (phase : t.phase = .dataAck) (forward : t.acknowledgedOffset < ack.nextOffset)
      (within : ack.nextOffset < t.sentEndOffset) :
      HostMove io st (.ingest (.eipa ack) source) ⟨{ st with transfer := some { t with
        acknowledgedOffset := ack.nextOffset
        retryCount := 0 } }, [], []⟩
  | delivered {ack source t} (peer : AckFor st ack source t) (status : ack.status = 0)
      (phase : t.phase = .dataAck) (forward : t.acknowledgedOffset < ack.nextOffset)
      (all : ack.nextOffset = t.sentEndOffset) (whole : ack.nextOffset = t.eiad.length) :
      HostMove io st (.ingest (.eipa ack) source) ⟨{ st with transfer := some { t with
        acknowledgedOffset := ack.nextOffset
        retryCount := 0
        phase := .deviceFinished
        finishDeadline := io.now + playbackFinishTimeout } }, [], []⟩
  | onward {ack source t} (peer : AckFor st ack source t) (status : ack.status = 0)
      (phase : t.phase = .dataAck) (forward : t.acknowledgedOffset < ack.nextOffset)
      (all : ack.nextOffset = t.sentEndOffset) :
      HostMove io st (.ingest (.eipa ack) source) (sendNextData io st { t with
        acknowledgedOffset := ack.nextOffset
        retryCount := 0 })
  | finishTimeout {key} {st' : ActiveLanPlayback} {t : ActivePlaybackTransfer}
      (active : st.transfer = some t) (same : st'.transfer = some t)
      (phase : t.phase = .deviceFinished ∨ t.phase = .hostCommit)
      (passed : t.finishDeadline ≤ io.now) :
      HostMove io st (.tick key) (dropTransfer st' t.start.identity [])
  | transportTimeout {key} {st' : ActiveLanPlayback} {t : ActivePlaybackTransfer}
      (active : st.transfer = some t) (same : st'.transfer = some t)
      (exhausted : playbackMaxRetries ≤ t.retryCount) :
      HostMove io st (.tick key) (dropTransfer st' t.start.identity [])
  | retransmitted {key} {st' : ActiveLanPlayback} {t : ActivePlaybackTransfer}
      (active : st.transfer = some t) (same : st'.transfer = some t)
      (t' : ActivePlaybackTransfer)
      (after : t' = { t with
        retryCount := t'.retryCount
        lastSend := t'.lastSend }) :
      HostMove io st (.tick key) ⟨{ st' with transfer := some t' }, (retransmit io t).2, []⟩

variable {io : Io} {st : ActiveLanPlayback}

theorem HostMove.keep {a : HostAct} : HostMove io st a (ActiveLanPlayback.keep st) :=
  .stay st [] rfl (by simp)

theorem sendOne_acks {destination : SocketAddr} {identity : PlaybackIdentity} {status : Nat} :
    ∀ p ∈ sendOne io destination (.eipk identity status), ∃ id status, p.2 = .eipk id status := by
  intro p hp
  unfold sendOne at hp
  split at hp
  · rw [List.mem_singleton] at hp
    exact ⟨identity, status, by rw [hp]⟩
  · cases hp

theorem handleCommand_move (key : Bool) (command : LanPlaybackCommand) :
    HostMove io st (.command key command) (st.handleCommand io key command) := by
  cases command with
  | start s =>
    simp only [handleCommand]
    split
    · exact .refused s
    next hfree =>
      simp only [Bool.or_eq_true, not_or, Bool.not_eq_true, bne_eq_false_iff_eq] at hfree
      obtain ⟨⟨hidle, hempty⟩, hpeer⟩ := hfree
      cases key with
      | false => exact .refused s
      | true =>
        simp only [Bool.not_true, Bool.false_eq_true, if_false]
        split
        · exact .refused s
        · exact .started s (by simpa using hidle) (by simpa using hempty) hpeer
  | finishAck identity =>
    simp only [handleCommand]
    split
    · exact .keep
    next t ht =>
      split
      next hcond => exact .committed ht hcond.1 hcond.2.1
      · exact .keep
  | cancel identity =>
    simp only [handleCommand]
    split
    next hany =>
      cases ht : st.transfer with
      | none => simp [ht] at hany
      | some t => exact .cancelled ht (by simpa [ht] using hany)
    · exact .keep
  | mailbox status => exact .stay _ [] rfl (by simp)

theorem acceptAck_move {ack : PlaybackAck} (hvalid : ackOk ack = true) (source : SocketAddr) :
    HostMove io st (.ingest (.eipa ack) source) (st.acceptAck io ack source) := by
  unfold acceptAck
  split
  next =>
    split
    · exact .stay st _ rfl sendOne_acks
    · exact .keep
  next t ht =>
    split
    · exact .keep
    next hpeer =>
      rw [not_or, not_not, not_not] at hpeer
      have hpeer' : AckFor st ack source t := ⟨ht, hpeer.1, hpeer.2⟩
      split
      next hgap =>
        unfold gapRequested
        split
        next hsame =>
          split
          next hex => exact .gapExhausted hpeer' hgap hsame hex
          next hleft =>
            have hmove : HostMove io st _ _ :=
              .gap hpeer' hgap (t.retryCount + 1) fun _ => Nat.lt_of_not_le hleft
            rwa [hsame] at hmove
        next hne => exact .gap hpeer' hgap 0 fun hsame => absurd hsame hne
      next hout =>
        split
        next hstatus => exact .rejected hvalid hpeer' hstatus (by simpa using hout)
        next hstatus =>
          have hzero : ack.status = 0 := not_not.1 hstatus
          unfold acknowledged
          split
          next hphase =>
            split
            next hnext => exact .begun hpeer' hzero hphase hnext
            · exact .keep
          next hphase =>
            split
            next hwindow =>
              simp only
              split
              next hne => exact .advanced hpeer' hzero hphase hwindow.1 (Nat.lt_of_le_of_ne hwindow.2 hne)
              next hall =>
                split
                next hwhole => exact .delivered hpeer' hzero hphase hwindow.1 (not_not.1 hall) hwhole
                · exact .onward hpeer' hzero hphase hwindow.1 (not_not.1 hall)
            · exact .keep
          · exact .keep
          · exact .keep

theorem ingest_move (packet : Packet) (source : SocketAddr) :
    HostMove io st (.ingest packet source) (st.ingest io packet source) := by
  cases packet with
  | eipr request =>
    simp only [ingest]
    split
    next hvalid =>
      unfold ingestRequest
      split
      · exact .keep
      next st' haccepted => exact .requested hvalid haccepted
    · exact .keep
  | eipa ack =>
    simp only [ingest]
    split
    next hvalid => exact acceptAck_move hvalid source
    · exact .keep
  | eipf finished =>
    simp only [ingest]
    split
    next hvalid =>
      unfold ingestFinished
      split
      next =>
        split
        · exact .stay st _ rfl sendOne_acks
        · exact .keep
      next t ht =>
        split
        next hfin =>
          split
          · exact .finished hvalid ht hfin _ rfl
          next hphase =>
            have hcommit : t.phase = .hostCommit := by
              simp only [finishes, Bool.and_eq_true, Bool.or_eq_true, beq_iff_eq] at hfin
              exact hfin.2.resolve_left hphase
            have hmove : HostMove io st _ _ := .finished hvalid ht hfin t (by rw [← hcommit])
            rwa [show ({ st with transfer := some t } : ActiveLanPlayback) = st by rw [← ht]] at hmove
        · exact .keep
    · exact .keep
  | eipb _ => exact .keep
  | eipd _ => exact .keep
  | eipk _ _ => exact .keep

theorem tickTransfer_move (key : Bool) {st' : ActiveLanPlayback} {t : ActivePlaybackTransfer}
    (ht : st.transfer = some t) (ht' : st'.transfer = some t) :
    HostMove io st (.tick key) (st'.tickTransfer io key t) := by
  have hstay : HostMove io st (.tick key) (ActiveLanPlayback.keep st') :=
    .stay st' [] (ht'.trans ht.symm) (by simp)
  unfold tickTransfer
  split
  next hphase =>
    split
    next hpassed => exact .finishTimeout ht ht' hphase hpassed
    · exact hstay
  · split
    · exact hstay
    · split
      next hex => exact .transportTimeout ht ht' hex
      · split
        · exact hstay
        · split
          next sent hsent =>
            have hmove : HostMove io st (.tick key) _ := .retransmitted ht ht' { t with
              retryCount := t.retryCount + 1
              lastSend := io.now } rfl
            rwa [hsent] at hmove
          next sent hsent =>
            have hmove : HostMove io st (.tick key) _ := .retransmitted ht ht' t rfl
            rwa [hsent, show ({ st' with transfer := some t } : ActiveLanPlayback) = st' by
              rw [← ht']] at hmove

theorem tick_move (key : Bool) : HostMove io st (.tick key) (st.tick io key) := by
  unfold tick
  simp only
  split
  next => exact .stay _ [] rfl (by simp)
  next t ht => exact tickTransfer_move key ht ht

/-- Every call makes one of the moves. -/
theorem hostStep_move (io : Io) (st : ActiveLanPlayback) (a : HostAct) :
    HostMove io st a (hostStep io st a) := by
  cases a with
  | command key command => exact handleCommand_move key command
  | ingest packet source => exact ingest_move packet source
  | tick key => exact tick_move key

end CodexKeyboard.Lan
