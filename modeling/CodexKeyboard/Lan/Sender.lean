import CodexKeyboard.Lan.Wire
import Mathlib.Logic.Function.Basic

/-! `ActiveLanPlayback`: the Host's side of a playback transfer.

    A call gets the time and what the socket does with each datagram it is given (`Io`); it answers
    with the new state, the datagrams that went out and the events for the daemon (`Reaction`). -/

namespace CodexKeyboard.Lan

def playbackRetry : Nat := 250
def playbackMaxRetries : Nat := 16
def playbackFinishTimeout : Nat := (150 + 30) * 1000
def playbackSendWindowChunks : Nat := 6
def playbackFinishedAckRetention : Nat := 120 * 1000

inductive LanPlaybackEvent where
  | request (request : PlaybackRequest) (source : SocketAddr)
  | finished (finished : PlaybackFinished)
  | cancelled (identity : PlaybackIdentity)
  deriving DecidableEq, Repr

structure LanPlaybackStart where
  start : PlaybackBegin
  source : SocketAddr
  eiad : List UInt8
  deriving DecidableEq, Repr

structure MailboxStatus where
  unreadSlots : Nat
  runningTasks : Nat
  coverageBySlot : List Nat
  deriving DecidableEq, Repr

inductive LanPlaybackCommand where
  | start (start : LanPlaybackStart)
  | finishAck (identity : PlaybackIdentity)
  | cancel (identity : PlaybackIdentity)
  | mailbox (status : MailboxStatus)
  deriving DecidableEq, Repr

inductive PlaybackSendPhase where
  | beginAck | dataAck | deviceFinished | hostCommit
  deriving DecidableEq, Repr

structure ActivePlaybackTransfer where
  start : PlaybackBegin
  source : SocketAddr
  eiad : List UInt8
  phase : PlaybackSendPhase
  acknowledgedOffset : Nat
  sentEndOffset : Nat
  lastSend : Nat
  retryCount : Nat
  finishDeadline : Nat
  deriving DecidableEq, Repr

structure RetiredPlaybackFinish where
  identity : PlaybackIdentity
  source : SocketAddr
  expiresAt : Nat
  deriving DecidableEq, Repr

structure ActiveLanPlayback where
  transfer : Option ActivePlaybackTransfer
  retiredFinish : Option RetiredPlaybackFinish
  retiredCancel : Option RetiredPlaybackFinish
  acceptedRequests : Nat × Nat → Option Nat
  mailboxStatus : MailboxStatus

def ActiveLanPlayback.init : ActiveLanPlayback :=
  ⟨none, none, none, fun _ => none, ⟨0, 0, [0, 0, 0, 0]⟩⟩

/-- The clock, and whether `send_to` takes the `i`-th datagram of the call. -/
structure Io where
  now : Nat
  send : Nat → Bool

structure Reaction where
  state : ActiveLanPlayback
  sent : List (SocketAddr × Packet)
  events : List LanPlaybackEvent

namespace ActiveLanPlayback

def keep (st : ActiveLanPlayback) : Reaction := ⟨st, [], []⟩

/-- Drop the transfer and tell the daemon. -/
def dropTransfer (st : ActiveLanPlayback) (identity : PlaybackIdentity)
    (sent : List (SocketAddr × Packet)) : Reaction :=
  ⟨{ st with transfer := none }, sent, [.cancelled identity]⟩

/-- A single datagram, if the socket takes it. -/
def sendOne (io : Io) (destination : SocketAddr) (packet : Packet) : List (SocketAddr × Packet) :=
  if io.send 0 then [(destination, packet)] else []

/-! ### Data -/

/-- The loop over the chunks of `offset..stop`; `fuel` bounds its rounds by the bytes left. Answers
    whether every chunk went out, and those that did. -/
def sendChunks (io : Io) (t : ActivePlaybackTransfer) (stop : Nat) :
    (fuel i offset : Nat) → Bool × List (SocketAddr × Packet)
  | 0, _, _ => (true, [])
  | fuel + 1, i, offset =>
    if offset < stop then
      let chunkEnd := min (offset + playbackChunkBytes) stop
      match encodeData t.start.identity t.start.requestNonce offset
          ((t.eiad.drop offset).take (chunkEnd - offset)) with
      | none => (false, [])
      | some packet =>
        if io.send i then
          let (ok, rest) := sendChunks io t stop fuel (i + 1) chunkEnd
          (ok, (t.source, packet) :: rest)
        else (false, [])
    else (true, [])

/-- The end of the window that starts at the acknowledged offset. -/
def windowEnd (t : ActivePlaybackTransfer) : Nat :=
  min (t.acknowledgedOffset + playbackChunkBytes * playbackSendWindowChunks) t.eiad.length

/-- `send_next_data`, and what its callers make of a failure. -/
def sendNextData (io : Io) (st : ActiveLanPlayback) (t : ActivePlaybackTransfer) : Reaction :=
  let stop := windowEnd t
  match sendChunks io t stop (stop - t.acknowledgedOffset) 0 t.acknowledgedOffset with
  | (true, sent) =>
    ⟨{ st with transfer := some { t with
        sentEndOffset := stop
        phase := .dataAck
        lastSend := io.now } }, sent, []⟩
  | (false, sent) => dropTransfer st t.start.identity sent

/-! ### Commands -/

def retires (identity : PlaybackIdentity) (source : SocketAddr) (now : Nat)
    (retired : Option RetiredPlaybackFinish) : Bool :=
  retired.any fun r => r.source == source && r.identity == identity && decide (now < r.expiresAt)

def handleCommand (io : Io) (key : Bool) (st : ActiveLanPlayback) : LanPlaybackCommand → Reaction
  | .start s =>
    if st.transfer.isSome || s.eiad.isEmpty || s.eiad.length != s.start.totalBytes then
      ⟨st, [], [.cancelled s.start.identity]⟩
    else if !key then ⟨st, [], [.cancelled s.start.identity]⟩
    else if !io.send 0 then ⟨st, [], [.cancelled s.start.identity]⟩
    else
      ⟨{ st with transfer := some {
          start := s.start
          source := s.source
          eiad := s.eiad
          phase := .beginAck
          acknowledgedOffset := 0
          sentEndOffset := 0
          lastSend := io.now
          retryCount := 0
          finishDeadline := io.now + playbackFinishTimeout } },
        [(s.source, .eipb s.start)], []⟩
  | .finishAck identity =>
    match st.transfer with
    | none => keep st
    | some t =>
      if t.start.identity = identity ∧ t.phase = .hostCommit ∧ key = true ∧ io.send 0 = true then
        ⟨{ st with
            retiredFinish := some ⟨identity, t.source, io.now + playbackFinishedAckRetention⟩
            transfer := none }, [(t.source, .eipk identity 0)], []⟩
      else keep st
  | .cancel identity =>
    if st.transfer.any (fun t => t.start.identity == identity) then
      ⟨{ st with transfer := none }, [], []⟩
    else keep st
  | .mailbox status => ⟨{ st with mailboxStatus := status }, [], []⟩

/-! ### Acknowledgements -/

/-- A gap request within the window: go back to the requested offset. -/
def gapRequested (io : Io) (st : ActiveLanPlayback) (t : ActivePlaybackTransfer) (requested : Nat) :
    Reaction :=
  if requested = t.acknowledgedOffset then
    if playbackMaxRetries ≤ t.retryCount then dropTransfer st t.start.identity []
    else sendNextData io st { t with retryCount := t.retryCount + 1 }
  else sendNextData io st { t with acknowledgedOffset := requested, retryCount := 0 }

/-- Any other acknowledgement with a status: the device has given up. -/
def deviceRejected (io : Io) (st : ActiveLanPlayback) (t : ActivePlaybackTransfer) (ack : PlaybackAck)
    (source : SocketAddr) : Reaction :=
  if ack.status = 3 then
    dropTransfer { st with
        retiredCancel := some ⟨t.start.identity, source, io.now + playbackFinishedAckRetention⟩ }
      t.start.identity (sendOne io source (.eipk t.start.identity 1))
  else dropTransfer st t.start.identity []

/-- A good acknowledgement, by phase. -/
def acknowledged (io : Io) (st : ActiveLanPlayback) (t : ActivePlaybackTransfer) (next : Nat) :
    Reaction :=
  match t.phase with
  | .beginAck =>
    if next = 0 then sendNextData io st { t with acknowledgedOffset := 0, retryCount := 0 }
    else keep st
  | .dataAck =>
    if t.acknowledgedOffset < next ∧ next ≤ t.sentEndOffset then
      let t := { t with acknowledgedOffset := next, retryCount := 0 }
      if next ≠ t.sentEndOffset then ⟨{ st with transfer := some t }, [], []⟩
      else if next = t.eiad.length then
        ⟨{ st with transfer := some { t with
            phase := .deviceFinished
            finishDeadline := io.now + playbackFinishTimeout } }, [], []⟩
      else sendNextData io st t
    else keep st
  | .deviceFinished | .hostCommit => keep st

/-- The gap requests `accept_ack` follows. -/
def gapInWindow (t : ActivePlaybackTransfer) (ack : PlaybackAck) : Bool :=
  ack.status == 1 && t.phase == .dataAck && decide (t.acknowledgedOffset ≤ ack.nextOffset) &&
  decide (ack.nextOffset ≤ t.sentEndOffset)

def acceptAck (io : Io) (st : ActiveLanPlayback) (ack : PlaybackAck) (source : SocketAddr) : Reaction :=
  match st.transfer with
  | none =>
    if ack.status == 3 && retires ack.identity source io.now st.retiredCancel then
      ⟨st, sendOne io source (.eipk ack.identity 1), []⟩
    else keep st
  | some t =>
    if t.source ≠ source ∨ t.start.identity ≠ ack.identity then keep st
    else if gapInWindow t ack then gapRequested io st t ack.nextOffset
    else if ack.status ≠ 0 then deviceRejected io st t ack source
    else acknowledged io st t ack.nextOffset

/-! ### Datagrams -/

/-- `accept_request_generation`: per slot and connection, only a newer request. -/
def acceptRequestGeneration (st : ActiveLanPlayback) (request : PlaybackRequest) :
    Option ActiveLanPlayback :=
  let key := (request.slot, request.connectionGeneration)
  let accepted : ActiveLanPlayback := { st with
    acceptedRequests := Function.update st.acceptedRequests key (some request.requestGeneration) }
  match st.acceptedRequests key with
  | some floor => if request.requestGeneration ≤ floor then none else some accepted
  | none => some accepted

def ingestRequest (st : ActiveLanPlayback) (request : PlaybackRequest) (source : SocketAddr) : Reaction :=
  match acceptRequestGeneration st request with
  | none => keep st
  | some st' =>
    ⟨{ st' with transfer := none }, [],
      (st.transfer.map fun t => .cancelled t.start.identity).toList ++ [.request request source]⟩

/-- An EIPF counts for the transfer when it comes from its peer, names its identity and reports
    every sample, and all its data has been acknowledged. -/
def finishes (t : ActivePlaybackTransfer) (finished : PlaybackFinished) (source : SocketAddr) : Bool :=
  t.source == source && t.start.identity == finished.identity &&
  t.start.totalSamples == finished.playedSamples &&
  (t.phase == .deviceFinished || t.phase == .hostCommit)

def ingestFinished (io : Io) (st : ActiveLanPlayback) (finished : PlaybackFinished)
    (source : SocketAddr) : Reaction :=
  match st.transfer with
  | none =>
    if retires finished.identity source io.now st.retiredFinish then
      ⟨st, sendOne io source (.eipk finished.identity 0), []⟩
    else keep st
  | some t =>
    if finishes t finished source then
      if t.phase = .deviceFinished then
        ⟨{ st with transfer := some { t with
            phase := .hostCommit
            finishDeadline := io.now + playbackFinishTimeout } }, [], [.finished finished]⟩
      else ⟨st, [], [.finished finished]⟩
    else keep st

def ingest (io : Io) (st : ActiveLanPlayback) (packet : Packet) (source : SocketAddr) : Reaction :=
  match packet with
  | .eipr request => if requestOk request then ingestRequest st request source else keep st
  | .eipa ack => if ackOk ack then acceptAck io st ack source else keep st
  | .eipf finished => if finishedOk finished then ingestFinished io st finished source else keep st
  | .eipb _ | .eipd _ | .eipk .. => keep st

/-! ### Time -/

/-- The retransmission of a tick: the begin, or the window that is not acknowledged yet. -/
def retransmit (io : Io) (t : ActivePlaybackTransfer) : Bool × List (SocketAddr × Packet) :=
  match t.phase with
  | .beginAck => if io.send 0 then (true, [(t.source, .eipb t.start)]) else (false, [])
  | .dataAck => sendChunks io t t.sentEndOffset (t.sentEndOffset - t.acknowledgedOffset) 0
      t.acknowledgedOffset
  | .deviceFinished | .hostCommit => (false, [])

def tickTransfer (io : Io) (key : Bool) (st : ActiveLanPlayback) (t : ActivePlaybackTransfer) :
    Reaction :=
  if t.phase = .deviceFinished ∨ t.phase = .hostCommit then
    if t.finishDeadline ≤ io.now then dropTransfer st t.start.identity [] else keep st
  else if io.now - t.lastSend < playbackRetry then keep st
  else if playbackMaxRetries ≤ t.retryCount then dropTransfer st t.start.identity []
  else if !key then keep st
  else
    match retransmit io t with
    | (true, sent) =>
      ⟨{ st with transfer := some { t with
          retryCount := t.retryCount + 1
          lastSend := io.now } }, sent, []⟩
    | (false, sent) => ⟨st, sent, []⟩

/-- Forget a retired identity once it has expired. -/
def expire (now : Nat) (retired : Option RetiredPlaybackFinish) : Option RetiredPlaybackFinish :=
  retired.filter fun r => decide (now < r.expiresAt)

def tick (io : Io) (key : Bool) (st : ActiveLanPlayback) : Reaction :=
  let st := { st with
    retiredFinish := expire io.now st.retiredFinish
    retiredCancel := expire io.now st.retiredCancel }
  match st.transfer with
  | none => keep st
  | some t => tickTransfer io key st t

end ActiveLanPlayback

/-! ### The calls of the ingress loop -/

/-- One call of the ingress thread. -/
inductive HostAct where
  | command (key : Bool) (command : LanPlaybackCommand)
  | ingest (packet : Packet) (source : SocketAddr)
  | tick (key : Bool)
  deriving DecidableEq, Repr

def hostStep (io : Io) (st : ActiveLanPlayback) : HostAct → Reaction
  | .command key command => st.handleCommand io key command
  | .ingest packet source => st.ingest io packet source
  | .tick key => st.tick io key

end CodexKeyboard.Lan
