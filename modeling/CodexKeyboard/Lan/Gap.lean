import CodexKeyboard.Lan.Faithful

/-! Why the Host gives a transfer up.

    A keyboard that is receiving answers with status 0, or with status 1 to ask for the chunks behind
    a gap. Against it a transfer should only end for reasons of the Host's own, but a gap request that
    arrives late, from before the window, ends it as well. -/

namespace CodexKeyboard.Lan

open Device ActiveLanPlayback

/-! ### Runs of the Host -/

/-- One call of the ingress loop, with the state it was made in. -/
structure HostCall where
  io : Io
  before : ActiveLanPlayback
  act : HostAct

def HostCall.reaction (c : HostCall) : Reaction := hostStep c.io c.before c.act

/-- The calls of a run. -/
def hostCalls (st : ActiveLanPlayback) : List (Io × HostAct) → List HostCall
  | [] => []
  | (io, a) :: as => ⟨io, st, a⟩ :: hostCalls (hostStep io st a).state as

/-- The call ends the transfer, and tells the daemon that it is cancelled. -/
structure Drops (c : HostCall) (t : ActivePlaybackTransfer) : Prop where
  active : c.before.transfer = some t
  gone : c.reaction.state.transfer = none
  cancelled : .cancelled t.start.identity ∈ c.reaction.events

/-- `send_next_data` from `offset` fails. -/
def SendFails (io : Io) (t : ActivePlaybackTransfer) (offset : Nat) : Prop :=
  ∃ t' : ActivePlaybackTransfer, t'.start = t.start ∧ t'.eiad = t.eiad ∧ t'.source = t.source ∧
    t'.acknowledgedOffset = offset ∧
    (sendChunks io t' (windowEnd t') (windowEnd t' - offset) 0 offset).1 = false

/-- The reasons a transfer may be given up for. -/
inductive DropReason (io : Io) (st : ActiveLanPlayback) (t : ActivePlaybackTransfer) : HostAct → Prop
  | budget {key : Bool} (retries : playbackMaxRetries ≤ t.retryCount) : DropReason io st t (.tick key)
  | gapBudget {ack : PlaybackAck} {source : SocketAddr} (inWindow : gapInWindow t ack = true)
      (repeats : ack.nextOffset = t.acknowledgedOffset) (retries : playbackMaxRetries ≤ t.retryCount) :
      DropReason io st t (.ingest (.eipa ack) source)
  | deadline {key : Bool} (phase : t.phase = .deviceFinished ∨ t.phase = .hostCommit)
      (passed : t.finishDeadline ≤ io.now) : DropReason io st t (.tick key)
  | sendFailed {ack : PlaybackAck} {source : SocketAddr}
      (follows : ack.status = 0 ∨ gapInWindow t ack = true) (fails : SendFails io t ack.nextOffset) :
      DropReason io st t (.ingest (.eipa ack) source)
  | replaced {request : PlaybackRequest} {source : SocketAddr} (valid : requestOk request = true)
      (newer : (st.acceptRequestGeneration request).isSome) :
      DropReason io st t (.ingest (.eipr request) source)
  | hostCancelled {key : Bool} : DropReason io st t (.command key (.cancel t.start.identity))

/-- A gap request for the transfer that is authentic, but not for an offset of the open window. -/
structure LateGap (c : HostCall) (t : ActivePlaybackTransfer) (ack : PlaybackAck) (source : SocketAddr) :
    Prop where
  ingested : c.act = .ingest (.eipa ack) source
  authentic : ackOk ack = true
  peer : AckFor c.before ack source t
  gap : ack.status = 1
  outside : gapInWindow t ack = false

/-- The keyboard keeps receiving: it answers for the transfer with status 0 or 1 only. -/
def FromReceiver (c : HostCall) : Prop :=
  ∀ ack source t, c.act = .ingest (.eipa ack) source → AckFor c.before ack source t → ack.status ≤ 1

/-! ### One call -/

variable {c : HostCall} {io : Io} {st : ActiveLanPlayback} {t t' : ActivePlaybackTransfer}

theorem sendNextData_gone (h : (sendNextData io st t).state.transfer = none) :
    (sendChunks io t (windowEnd t) (windowEnd t - t.acknowledgedOffset) 0 t.acknowledgedOffset).1 =
      false := by
  simp only [sendNextData] at h
  split at h
  · cases h
  next hsent => rw [hsent]

theorem sendFails_of_gone {offset retries : Nat} (h : (sendNextData io st { t with
      acknowledgedOffset := offset
      retryCount := retries }).state.transfer = none) : SendFails io t offset :=
  ⟨{ t with
      acknowledgedOffset := offset
      retryCount := retries }, rfl, rfl, rfl, rfl, sendNextData_gone h⟩

/-- A late gap request ends the transfer. -/
theorem LateGap.drops {ack : PlaybackAck} {source : SocketAddr} (h : LateGap c t ack source) : Drops c t := by
  have hreaction : c.reaction = dropTransfer c.before t.start.identity [] := by
    have hguard : ¬(t.source ≠ source ∨ t.start.identity ≠ ack.identity) := by
      rw [h.peer.source, h.peer.identity]
      simp
    simp only [HostCall.reaction, h.ingested, hostStep, ingest, h.authentic, acceptAck, h.peer.active,
      if_true, if_neg hguard, h.outside, Bool.false_eq_true, if_false, h.gap, deviceRejected]
    simp
  refine ⟨h.peer.active, ?_, ?_⟩
  · rw [hreaction]
    rfl
  · rw [hreaction]
    exact List.mem_singleton_self _

/-- No reason covers it. -/
theorem LateGap.unreasoned {ack : PlaybackAck} {source : SocketAddr} (h : LateGap c t ack source) :
    ¬DropReason c.io c.before t c.act := by
  rw [h.ingested]
  intro hreason
  cases hreason with
  | gapBudget inWindow repeats retries =>
    rw [h.outside] at inWindow
    cases inWindow
  | sendFailed follows fails =>
    rcases follows with hzero | hgap
    · have hone := h.gap
      omega
    · rw [h.outside] at hgap
      cases hgap

/-- Without one, a transfer ends for a reason. -/
theorem Drops.reason (h : Drops c t) (hreceiver : FromReceiver c)
    (hlate : ∀ ack source, ¬LateGap c t ack source) : DropReason c.io c.before t c.act := by
  obtain ⟨io, st, a⟩ := c
  obtain ⟨hactive, hgone, hcancelled⟩ := h
  simp only [HostCall.reaction] at hgone hcancelled
  simp only at hactive
  have hsame : ∀ {t'}, st.transfer = some t' → t' = t := by
    intro t' ht'
    rw [hactive] at ht'
    exact (Option.some.inj ht').symm
  have hmove := hostStep_move io st a
  generalize hostStep io st a = r at hmove hgone hcancelled
  cases hmove with
  | stay st' sent same acks => simp at hcancelled
  | refused s =>
    rw [hactive] at hgone
    cases hgone
  | started s idle nonempty total =>
    rw [hactive] at idle
    cases idle
  | committed active same phase => simp at hcancelled
  | cancelled active same => simp at hcancelled
  | requested valid accepted => exact .replaced valid (by simp [accepted])
  | finished valid active finishes t' after => cases hgone
  | gap peer inWindow retries budget =>
    rw [hsame peer.active] at hgone inWindow
    exact .sendFailed (Or.inr inWindow) (sendFails_of_gone hgone)
  | gapExhausted peer inWindow repeats exhausted =>
    rw [hsame peer.active] at inWindow repeats exhausted
    exact .gapBudget inWindow repeats exhausted
  | @rejected ack source t' valid peer status outside =>
    have hstatus := hreceiver ack source t' rfl peer
    obtain rfl := hsame peer.active
    exact absurd ⟨rfl, valid, peer, by omega, outside⟩ (hlate ack source)
  | begun peer status phase next =>
    rw [hsame peer.active] at hgone
    refine .sendFailed (Or.inl status) ?_
    rw [next]
    exact sendFails_of_gone hgone
  | advanced peer status phase forward within => cases hgone
  | delivered peer status phase forward all whole => cases hgone
  | onward peer status phase forward all =>
    rw [hsame peer.active] at hgone
    exact .sendFailed (Or.inl status) (sendFails_of_gone hgone)
  | finishTimeout active same phase passed =>
    rw [hsame active] at phase passed
    exact .deadline phase passed
  | transportTimeout active same exhausted =>
    rw [hsame active] at exhausted
    exact .budget exhausted
  | retransmitted active same t' after => cases hgone

/-! ### Runs -/

/-- Against a receiving keyboard every transfer is given up for a reason, exactly in the runs in which
    no gap request comes late. -/
theorem transfer_dropped_for_reason {st : ActiveLanPlayback} {as : List (Io × HostAct)}
    (hreceiver : ∀ c ∈ hostCalls st as, FromReceiver c) :
    (∀ c ∈ hostCalls st as, ∀ t, Drops c t → DropReason c.io c.before t c.act) ↔
      ∀ c ∈ hostCalls st as, ∀ t ack source, ¬LateGap c t ack source := by
  constructor
  · intro hreasons c hc t ack source hlate
    exact hlate.unreasoned (hreasons c hc t hlate.drops)
  · intro hlate c hc t hdrops
    exact hdrops.reason (hreceiver c hc) (hlate c hc t)

theorem hostCalls_act {st : ActiveLanPlayback} {as : List (Io × HostAct)} {c : HostCall}
    (hc : c ∈ hostCalls st as) : (c.io, c.act) ∈ as := by
  induction as generalizing st with
  | nil => cases hc
  | cons a as ih =>
    rcases List.mem_cons.1 hc with rfl | hc
    · exact List.mem_cons_self
    · exact List.mem_cons_of_mem _ (ih hc)

/-- A transfer that a newer request replaces. -/
def replacedRun : List (Io × HostAct) :=
  [(steadyIo, .command true (.start shortStart)),
   (steadyIo, .ingest (.eipa ⟨shortIdentity, 0, 0⟩) ⟨1, 2⟩),
   (steadyIo, .ingest (.eipr ⟨1, 2, 1, 5⟩) ⟨1, 2⟩)]

theorem replaced_for_reason : ∃ c ∈ hostCalls .init replacedRun, ∃ t, Drops c t ∧
    DropReason c.io c.before t c.act := by
  have hstatus : ∀ c ∈ hostCalls .init replacedRun, ∀ ack source,
      c.act = .ingest (.eipa ack) source → ack.status = 0 := by
    intro c hc ack source hact
    have hmem := hostCalls_act hc
    simp only [replacedRun, hact, List.mem_cons, Prod.mk.injEq, reduceCtorEq, and_false, false_or,
      HostAct.ingest.injEq, Packet.eipa.injEq, false_and, List.not_mem_nil, or_false] at hmem
    rw [hmem.2.1]
  have hreasons : ∀ c ∈ hostCalls .init replacedRun, ∀ t, Drops c t →
      DropReason c.io c.before t c.act := by
    refine (transfer_dropped_for_reason fun c hc ack source t hact _ => ?_).2
      fun c hc t ack source hlate => ?_
    · rw [hstatus c hc ack source hact]
      decide
    · have hone := hlate.gap
      rw [hstatus c hc ack source hlate.ingested] at hone
      cases hone
  let st := (hostStep steadyIo (hostStep steadyIo .init (.command true (.start shortStart))).state
    (.ingest (.eipa ⟨shortIdentity, 0, 0⟩) ⟨1, 2⟩)).state
  have hcall : ⟨steadyIo, st, .ingest (.eipr ⟨1, 2, 1, 5⟩) ⟨1, 2⟩⟩ ∈ hostCalls .init replacedRun :=
    List.mem_cons_of_mem _ (List.mem_cons_of_mem _ List.mem_cons_self)
  obtain ⟨t, ht⟩ : ∃ t, st.transfer = some t := Option.isSome_iff_exists.1 (by decide)
  have hdrops : Drops ⟨steadyIo, st, .ingest (.eipr ⟨1, 2, 1, 5⟩) ⟨1, 2⟩⟩ t := by
    obtain rfl : t = _ := (Option.some.inj ht).symm
    exact ⟨rfl, by decide, by decide⟩
  exact ⟨_, hcall, t, hdrops, hreasons _ hcall t hdrops⟩

/-! Two chunks that overtake each other: the keyboard asks for the first, then takes it; its request
    comes late and ends a transfer that nothing was wrong with. -/

def twoChunks : LanPlaybackStart :=
  ⟨⟨shortIdentity, 1025, 2, 1024, 9⟩, ⟨1, 2⟩, List.replicate 1025 0⟩

def overtaken : List Act :=
  [.host steadyIo (.command true (.start twoChunks)),
   .device steadyDeviceIo (.receive (.eipb twoChunks.start)),
   .host steadyIo (.ingest (.eipa ⟨shortIdentity, 0, 0⟩) ⟨1, 2⟩),
   .device steadyDeviceIo (.receive (.eipd ⟨shortIdentity, 9, 1024, [0]⟩)),
   .device steadyDeviceIo (.receive (.eipd ⟨shortIdentity, 9, 0, List.replicate 1024 0⟩)),
   .host steadyIo (.ingest (.eipa ⟨shortIdentity, 0, 1024⟩) ⟨1, 2⟩)]

/-- The keyboard's request for the first chunk. -/
def lateRequest : HostAct := .ingest (.eipa ⟨shortIdentity, 1, 0⟩) ⟨1, 2⟩

def halfDelivered : ActivePlaybackTransfer where
  start := twoChunks.start
  source := twoChunks.source
  eiad := twoChunks.eiad
  phase := .dataAck
  acknowledgedOffset := 1024
  sentEndOffset := 1025
  lastSend := 0
  retryCount := 0
  finishDeadline := playbackFinishTimeout

theorem late_gap_drops_healthy_transfer : ∃ (w : World) (as : List Act) (c : HostCall)
    (t : ActivePlaybackTransfer), w.Fresh ∧ (∀ a ∈ as, a.Transfers) ∧ c.before = (w.run as).host ∧
      c.act.delivers (w.run as).net = true ∧ FromReceiver c ∧ Drops c t ∧
      ¬DropReason c.io c.before t c.act := by
  have htransfer : (waitingWorld.run overtaken).host.transfer = some halfDelivered := by decide +kernel
  have hdelivers : lateRequest.delivers (waitingWorld.run overtaken).net = true := by decide +kernel
  generalize hhost : (waitingWorld.run overtaken).host = host at htransfer
  have hlate : LateGap ⟨steadyIo, host, lateRequest⟩ halfDelivered ⟨shortIdentity, 1, 0⟩ ⟨1, 2⟩ :=
    ⟨rfl, by decide, ⟨htransfer, rfl, rfl⟩, rfl, by decide⟩
  refine ⟨waitingWorld, overtaken, ⟨steadyIo, host, lateRequest⟩, halfDelivered, ?_, ?_, hhost.symm,
    hdelivers, ?_, hlate.drops, hlate.unreasoned⟩
  · exact ⟨rfl, ⟨rfl, rfl, rfl⟩, Or.inr rfl, by simp [waitingWorld]⟩
  · simp only [overtaken, List.forall_mem_cons]
    exact ⟨trivial, trivial, trivial, trivial, trivial, trivial, by simp⟩
  · rintro ack source t ⟨⟩ _
    decide

end CodexKeyboard.Lan
