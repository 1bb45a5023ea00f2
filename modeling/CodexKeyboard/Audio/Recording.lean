import CodexKeyboard.Lan.CaptureMoves

/-! A recording of the keyboard: `run_audio_stream` and `run_audio_capture` over a clock in milliseconds. Each
    task goes from one program point to the next when it is scheduled, with the answers of what it calls. -/

namespace CodexKeyboard.Audio

def kAudioRuntimeMaxStreamMs : Nat := 90000
def kAudioFrameMs : Nat := 20
def kAudioCaptureQueueFrames : Nat := 64
def kAudioMicReadRecoveryThreshold : Nat := 2
def kAudioMaxConsecutiveRecoveryFailures : Nat := 3

inductive StopReason where
  | streamStop | clientStop | maxDuration | leaseExpired | captureStopped | captureSequenceGap | packetEncodeFailed
  | packetAuthFailed | udpRecoveryFailed | i2sRecoveryExhausted
  /-- A stop that another task requests for its own reason. -/
  | other
  deriving DecidableEq, Repr

/-- The enabled microphone: since when, and the frames that were read of it. -/
structure Microphone where
  enabledAt : Nat
  frames : Nat
  deriving DecidableEq, Repr

/-- The next thing `run_audio_stream` does. -/
inductive StreamPoint where
  | enabling | notifying | startingClock
  /-- The top of the loop, and the checks of the turn with the `stream_running` it has read. -/
  | top | checkDuration (streamRunning : Bool) | checkLease (streamRunning : Bool)
  | takeFrame | takeCompletion | send
  /-- Behind the loop. -/
  | requestStop | awaitCapture | terminal | finished
  deriving DecidableEq, Repr

/-- The next thing `run_audio_capture` does. -/
inductive CapturePoint where
  | notNotified | top | read | checkRunning | enqueue | resetChannel | recover | ensureReady | completing | completed
  deriving DecidableEq, Repr

/-- The duration limit stopped the recording: when, and how many frames had been read by then. -/
structure Limit where
  clock : Nat
  framesRead : Nat
  deriving DecidableEq, Repr

structure Recording where
  clock : Nat
  microphone : Option Microphone := none
  /-- `should_run` of the session, and its reason to stop. -/
  shouldRun : Bool := true
  lifecycleReason : StopReason := .streamStop
  stream : StreamPoint := .enabling
  startedTick : Nat := 0
  stopReason : StopReason := .streamStop
  cleanCaptureEnd : Bool := false
  captureFinished : Bool := false
  captureDrained : Bool := false
  pendingFrame : Option Nat := none
  sentPackets : Nat := 0
  capture : CapturePoint := .notNotified
  captureSequence : Nat := 0
  consecutiveReadMisses : Nat := 0
  consecutiveRecoveryFailures : Nat := 0
  /-- The sequences of the frames in the queue. -/
  frameQueue : List Nat := []
  /-- What was sent: the sequences of the frames, and the final sequence. -/
  frames : List Nat := []
  terminals : List Nat := []
  /-- When the microphone was first enabled, and the frames that were read of it in all. -/
  firstEnabledAt : Option Nat := none
  framesRead : Nat := 0
  limit : Option Limit := none
  deriving DecidableEq, Repr

/-- What the calls of the stream task answer. -/
structure StreamAnswer where
  microphoneReady : Bool := true
  leaseExpired : Bool := false
  encoded : Bool := true
  authenticated : Bool := true
  sent : Bool := true
  reconnected : Bool := true
  terminalSent : Bool := true
  deriving DecidableEq, Repr

inductive Action where
  | pass (ms : Nat)
  /-- Another task requests a stop. -/
  | stop (reason : StopReason)
  | stream (answer : StreamAnswer)
  /-- The answer says whether the microphone was read or got ready. -/
  | capture (ok : Bool)
  deriving DecidableEq, Repr

namespace Recording

def limitedAt (s : Recording) : Option Nat := s.limit.map (·.clock)

/-- `request_stop`: the last reason stands. -/
def requestStop (s : Recording) (reason : StopReason) : Recording :=
  { s with shouldRun := false, lifecycleReason := reason }

/-- A turn of the loop that ends it. -/
def leave (s : Recording) (reason : StopReason) : Recording :=
  { s.requestStop reason with stopReason := reason, stream := .requestStop }

def enable (s : Recording) : Recording :=
  { s with microphone := some ⟨s.clock, 0⟩, firstEnabledAt := s.firstEnabledAt <|> some s.clock }

/-- `elapsed_ms` of 32 bits. -/
def elapsedMs (s : Recording) : Nat := (s.clock - s.startedTick) % 2 ^ 32

/-- The top of the loop: a stopped session ends cleanly for two of its reasons. -/
def streamTop (s : Recording) : Recording :=
  let s := { s with stream := .checkDuration s.shouldRun }
  if s.shouldRun then s
  else if s.lifecycleReason = .clientStop ∨ s.lifecycleReason = .maxDuration then
    { s with stopReason := s.lifecycleReason, cleanCaptureEnd := true }
  else s

def streamCheckDuration (s : Recording) (streamRunning : Bool) : Recording :=
  if streamRunning && kAudioRuntimeMaxStreamMs ≤ s.elapsedMs then
    { s.requestStop .maxDuration with
      stopReason := .maxDuration
      cleanCaptureEnd := true
      limit := s.limit <|> some ⟨s.clock, s.framesRead⟩
      stream := .top }
  else { s with stream := .checkLease streamRunning }

def streamTakeFrame (s : Recording) : Recording :=
  match s.pendingFrame, s.frameQueue with
  | some _, _ => { s with stream := .send }
  | none, frame :: rest => { s with pendingFrame := some frame, frameQueue := rest, stream := .send }
  | none, [] => { s with stream := .takeCompletion }

def streamTakeCompletion (s : Recording) : Recording :=
  if s.capture = .completed then
    if s.cleanCaptureEnd then { s with captureFinished := true, captureDrained := true, stream := .requestStop }
    else { s with captureFinished := true, stopReason := .captureStopped, stream := .requestStop }
  else { s with stream := .top }

def streamSend (s : Recording) (answer : StreamAnswer) (frame : Nat) : Recording :=
  if frame ≠ s.sentPackets then s.leave .captureSequenceGap
  else if !answer.encoded then s.leave .packetEncodeFailed
  else if !answer.authenticated then s.leave .packetAuthFailed
  else if !answer.sent then
    if !answer.reconnected || (!s.shouldRun && !s.cleanCaptureEnd) then s.leave .udpRecoveryFailed
    else { s with stream := .top }
  else
    { s with
      sentPackets := (s.sentPackets + 1) % 2 ^ 32
      frames := s.frames ++ [frame]
      pendingFrame := none
      stream := .top }

/-- The end record, of a recording that was drained. -/
def streamTerminal (s : Recording) (answer : StreamAnswer) : Recording :=
  if s.cleanCaptureEnd && s.captureDrained && 0 < s.sentPackets && answer.terminalSent then
    { s with terminals := s.terminals ++ [s.sentPackets], stream := .finished }
  else { s with stream := .finished }

/-- `run_audio_stream`, to its next point. -/
def streamStep (s : Recording) (answer : StreamAnswer) : Option Recording :=
  match s.stream with
  | .enabling =>
    some (if answer.microphoneReady then { s.enable with stream := .notifying } else { s with stream := .finished })
  | .notifying => some { s with frameQueue := [], capture := .top, stream := .startingClock }
  | .startingClock => some { s with startedTick := s.clock, stream := .top }
  | .top => some s.streamTop
  | .checkDuration streamRunning => some (s.streamCheckDuration streamRunning)
  | .checkLease streamRunning =>
    some (if streamRunning && answer.leaseExpired then s.leave .leaseExpired else { s with stream := .takeFrame })
  | .takeFrame => some s.streamTakeFrame
  | .takeCompletion => some s.streamTakeCompletion
  | .send =>
    match s.pendingFrame with
    | some frame => some (s.streamSend answer frame)
    | none => none
  | .requestStop => some { s.requestStop s.stopReason with stream := .awaitCapture }
  | .awaitCapture => if s.captureFinished || s.capture = .completed then some { s with stream := .terminal } else none
  | .terminal => some (s.streamTerminal answer)
  | .finished => none

/-- A read of the microphone that has a frame: at most one for each 20 ms since it was enabled. -/
def readFrame (s : Recording) : Option Recording :=
  match s.microphone with
  | some microphone =>
    if kAudioFrameMs * (microphone.frames + 1) ≤ s.clock - microphone.enabledAt then
      some { s with
        microphone := some { microphone with frames := microphone.frames + 1 }
        framesRead := s.framesRead + 1
        capture := .checkRunning }
    else none
  | none => none

def readMiss (s : Recording) : Recording :=
  let s := { s with consecutiveReadMisses := s.consecutiveReadMisses + 1 }
  if s.consecutiveReadMisses < kAudioMicReadRecoveryThreshold then { s with capture := .top }
  else { s with capture := .resetChannel }

def recoveryFailed (s : Recording) : Recording :=
  let s := { s with consecutiveRecoveryFailures := s.consecutiveRecoveryFailures + 1, consecutiveReadMisses := 0 }
  if kAudioMaxConsecutiveRecoveryFailures ≤ s.consecutiveRecoveryFailures then
    { s.requestStop .i2sRecoveryExhausted with capture := .completing }
  else { s with capture := .top }

/-- A frame for the queue; the oldest one makes room. -/
def enqueueFrame (s : Recording) : Recording :=
  let queue := if s.frameQueue.length = kAudioCaptureQueueFrames then s.frameQueue.tail else s.frameQueue
  { s with
    frameQueue := queue ++ [s.captureSequence]
    captureSequence := (s.captureSequence + 1) % 2 ^ 32
    capture := .top }

/-- `run_audio_capture`, to its next point. -/
def captureStep (s : Recording) (ok : Bool) : Option Recording :=
  match s.capture with
  | .notNotified => none
  | .top => some { s with capture := if s.shouldRun then .read else .completing }
  | .read => if ok then s.readFrame else some s.readMiss
  | .checkRunning =>
    some { s with
      consecutiveReadMisses := 0
      consecutiveRecoveryFailures := 0
      capture := if s.shouldRun then .enqueue else .completing }
  | .enqueue => some s.enqueueFrame
  | .resetChannel => some { s with microphone := none, capture := .recover }
  | .recover => some (if s.shouldRun then { s with capture := .ensureReady } else s.recoveryFailed)
  | .ensureReady =>
    some (if ok then
      { s.enable with consecutiveReadMisses := 0, consecutiveRecoveryFailures := 0, capture := .top }
      else s.recoveryFailed)
  | .completing => some { s with capture := .completed }
  | .completed => none

def step (s : Recording) : Action → Option Recording
  | .pass ms => some { s with clock := s.clock + ms }
  | .stop reason => if reason = .maxDuration then none else some (s.requestStop reason)
  | .stream answer => s.streamStep answer
  | .capture ok => s.captureStep ok

/-- A session whose stream task gets to the microphone. -/
def start (clock : Nat) : Recording := { clock }

/-- The duration limit stops the recording before there can be another frame, or before as many frames of the
    microphone were read. -/
def InTime (s : Recording) : Action → Prop
  | .stream _ => ∀ streamRunning, s.stream = .checkDuration streamRunning → streamRunning = true →
    kAudioRuntimeMaxStreamMs ≤ s.elapsedMs →
    (∀ enabledAt, s.firstEnabledAt = some enabledAt →
      s.clock < enabledAt + kAudioRuntimeMaxStreamMs + kAudioFrameMs) ∨
    kAudioFrameMs * s.framesRead ≤ kAudioRuntimeMaxStreamMs
  | _ => True

/-- The runs whose steps all meet a condition. -/
inductive Run (cond : Recording → Action → Prop) (s : Recording) : Recording → Prop
  | refl : Run cond s s
  | step {t u : Recording} (run : Run cond s t) (action : Action) (meets : cond t action)
      (next : t.step action = some u) : Run cond s u

end Recording

end CodexKeyboard.Audio
