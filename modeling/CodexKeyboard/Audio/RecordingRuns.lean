import CodexKeyboard.Audio.Recording

/-! The frames of a recording are bounded by the time since the microphone was enabled, and by the frames that were
    read of it, up to the moment the duration limit stops the recording. -/

namespace CodexKeyboard.Audio.Recording

variable {s t : Recording} {action : Action}

/-- When the first frame could begin. -/
def begun (s : Recording) : Nat := s.firstEnabledAt.getD s.clock

/-- Up to when frames could be captured. -/
def horizon (s : Recording) : Nat := s.limitedAt.getD s.clock

/-- The frames that were read up to the horizon. -/
def most (s : Recording) : Nat := (s.limit.map (·.framesRead)).getD s.framesRead

/-- So many frames fit between the start of the microphone and the horizon, and were read by then. -/
def Fits (s : Recording) (frames : Nat) : Prop :=
  kAudioFrameMs * frames ≤ s.horizon - s.begun ∧ frames ≤ s.most

/-- The frame that was read and is not queued yet. -/
def CapturePoint.inFlight : CapturePoint → Nat
  | .checkRunning | .enqueue => 1
  | _ => 0

/-- The frame that will be queued. -/
def CapturePoint.accepted : CapturePoint → Nat
  | .enqueue => 1
  | _ => 0

/-- The frames that were captured had their time before the microphone was enabled last, or since then. -/
def Paced (s : Recording) : Prop :=
  match s.microphone with
  | some microphone =>
    s.begun ≤ microphone.enabledAt ∧ s.firstEnabledAt.isSome ∧ microphone.enabledAt ≤ s.clock ∧
      kAudioFrameMs * microphone.frames ≤ s.clock - microphone.enabledAt ∧
      kAudioFrameMs * (s.captureSequence + CapturePoint.inFlight s.capture) ≤
        kAudioFrameMs * microphone.frames + (microphone.enabledAt - s.begun)
  | none => kAudioFrameMs * (s.captureSequence + CapturePoint.inFlight s.capture) ≤ s.clock - s.begun

theorem Fits.fewer {frames fewer : Nat} (h : s.Fits frames) (hle : fewer ≤ frames) : s.Fits fewer :=
  ⟨(Nat.mul_le_mul_left _ hle).trans h.1, hle.trans h.2⟩

structure Kept (s : Recording) : Prop where
  past : s.begun ≤ s.clock ∧ s.horizon ≤ s.clock
  stopped : s.limit.isSome → s.shouldRun = false
  read : s.captureSequence + CapturePoint.inFlight s.capture ≤ s.framesRead
  paced : s.Paced
  captured : s.Fits (s.captureSequence + CapturePoint.accepted s.capture)
  queued : ∀ frame ∈ s.frameQueue, s.Fits (frame + 1)
  pending : ∀ frame ∈ s.pendingFrame, s.Fits (frame + 1)
  counted : s.Fits s.sentPackets
  sent : ∀ frame ∈ s.frames, s.Fits (frame + 1)
  ended : ∀ final ∈ s.terminals, s.Fits final

theorem start_kept (clock : Nat) : Kept (start clock) where
  past := ⟨le_rfl, le_rfl⟩
  stopped h := nomatch h
  read := le_rfl
  paced := Nat.zero_le _
  captured := ⟨Nat.zero_le _, le_rfl⟩
  queued _ h := nomatch h
  pending _ h := nomatch h
  counted := ⟨Nat.zero_le _, le_rfl⟩
  sent _ h := nomatch h
  ended _ h := nomatch h

/-- All frames had their time by now. -/
theorem Kept.total (h : Kept s) :
    kAudioFrameMs * (s.captureSequence + CapturePoint.inFlight s.capture) ≤ s.clock - s.begun := by
  have hpaced := h.paced
  rw [Paced] at hpaced
  cases hmicrophone : s.microphone with
  | none =>
    rw [hmicrophone] at hpaced
    exact hpaced
  | some microphone =>
    rw [hmicrophone] at hpaced
    obtain ⟨hbegun, -, hpast, hframes, htotal⟩ := hpaced
    omega

/-! ### The clock and the other tasks -/

theorem Kept.pass (h : Kept s) (ms : Nat) : Kept { s with clock := s.clock + ms } := by
  have hpast := h.past
  have hbegun : begun { s with clock := s.clock + ms } = s.begun ∨
      (begun { s with clock := s.clock + ms } = s.clock + ms ∧ s.begun = s.clock) := by
    rw [begun, begun]
    cases s.firstEnabledAt with
    | none => exact .inr ⟨rfl, rfl⟩
    | some enabledAt => exact .inl rfl
  have hhorizon : horizon { s with clock := s.clock + ms } = s.horizon ∨
      (horizon { s with clock := s.clock + ms } = s.clock + ms ∧ s.horizon = s.clock) := by
    rw [horizon, horizon, limitedAt, limitedAt]
    cases s.limit with
    | none => exact .inr ⟨rfl, rfl⟩
    | some limit => exact .inl rfl
  have hfits : ∀ frames, s.Fits frames → Fits { s with clock := s.clock + ms } frames := by
    rintro frames ⟨htime, hmost⟩
    refine ⟨?_, hmost⟩
    omega
  refine ⟨?_, h.stopped, h.read, ?_, hfits _ h.captured, fun frame hframe => hfits _ (h.queued frame hframe),
    fun frame hframe => hfits _ (h.pending frame hframe), hfits _ h.counted,
    fun frame hframe => hfits _ (h.sent frame hframe), fun final hfinal => hfits _ (h.ended final hfinal)⟩
  · dsimp only
    omega
  · have hsame : s.firstEnabledAt.isSome → begun { s with clock := s.clock + ms } = s.begun := by
      rintro hsome
      obtain ⟨enabledAt, henabledAt⟩ := Option.isSome_iff_exists.1 hsome
      rw [begun, begun, henabledAt]
      rfl
    have hpaced := h.paced
    rw [Paced] at hpaced ⊢
    generalize begun { s with clock := s.clock + ms } = b at hbegun hsame ⊢
    dsimp only
    cases hmicrophone : s.microphone with
    | none =>
      rw [hmicrophone] at hpaced
      dsimp only at hpaced ⊢
      omega
    | some microphone =>
      rw [hmicrophone] at hpaced
      obtain ⟨hstart, hsome, hpaced⟩ := hpaced
      rw [hsame hsome]
      refine ⟨hstart, hsome, ?_⟩
      omega

theorem Kept.requestStop (h : Kept s) (reason : StopReason) : Kept (s.requestStop reason) :=
  ⟨h.past, fun _ => rfl, h.read, h.paced, h.captured, h.queued, h.pending, h.counted, h.sent, h.ended⟩

/-- Where the stream task is and what it has seen of the capture does not touch the frames. -/
theorem Kept.point (h : Kept s) {point : StreamPoint} {tick : Nat} {reason : StopReason}
    {clean finished drained : Bool} :
    Kept { s with
      stream := point
      startedTick := tick
      stopReason := reason
      cleanCaptureEnd := clean
      captureFinished := finished
      captureDrained := drained } :=
  ⟨h.past, h.stopped, h.read, h.paced, h.captured, h.queued, h.pending, h.counted, h.sent, h.ended⟩

theorem Kept.leave (h : Kept s) (reason : StopReason) : Kept (s.leave reason) := (h.requestStop reason).point

theorem Kept.enable (h : Kept s) : Kept s.enable := by
  have hbegun : s.enable.begun = s.begun := by
    rw [begun, begun, Recording.enable]
    cases s.firstEnabledAt with
    | none => rfl
    | some enabledAt => rfl
  have hfits : ∀ frames, s.Fits frames → s.enable.Fits frames := by
    rintro frames hframes
    rw [Fits, hbegun]
    exact hframes
  have htotal := h.total
  refine ⟨?_, h.stopped, h.read, ?_, hfits _ h.captured, fun frame hframe => hfits _ (h.queued frame hframe),
    fun frame hframe => hfits _ (h.pending frame hframe), hfits _ h.counted,
    fun frame hframe => hfits _ (h.sent frame hframe), fun final hfinal => hfits _ (h.ended final hfinal)⟩
  · rw [hbegun]
    exact h.past
  · show s.enable.begun ≤ s.clock ∧ (s.firstEnabledAt <|> some s.clock).isSome ∧ s.clock ≤ s.clock ∧
      kAudioFrameMs * 0 ≤ s.clock - s.clock ∧
      kAudioFrameMs * (s.captureSequence + CapturePoint.inFlight s.capture) ≤
        kAudioFrameMs * 0 + (s.clock - s.enable.begun)
    rw [hbegun]
    refine ⟨h.past.1, ?_, le_rfl, by omega, by omega⟩
    cases s.firstEnabledAt with
    | none => rfl
    | some enabledAt => rfl

/-! ### The stream task -/

theorem Kept.streamTop (h : Kept s) : Kept s.streamTop := by
  rw [Recording.streamTop]
  dsimp only
  split_ifs
  all_goals exact h.point

/-- The limit fixes the horizon at now. -/
theorem Kept.streamCheckDuration (h : Kept s) (streamRunning : Bool) : Kept (s.streamCheckDuration streamRunning) := by
  rw [Recording.streamCheckDuration]
  split
  · have hsame : (Option.map Limit.clock (s.limit <|> some ⟨s.clock, s.framesRead⟩)).getD s.clock = s.horizon ∧
        (Option.map Limit.framesRead (s.limit <|> some ⟨s.clock, s.framesRead⟩)).getD s.framesRead = s.most := by
      rw [horizon, limitedAt, most]
      cases s.limit with
      | none => exact ⟨rfl, rfl⟩
      | some limit => exact ⟨rfl, rfl⟩
    obtain ⟨hhorizon, hmost⟩ := hsame
    have hfits : ∀ frames, s.Fits frames →
        kAudioFrameMs * frames ≤
            (Option.map Limit.clock (s.limit <|> some ⟨s.clock, s.framesRead⟩)).getD s.clock - s.begun ∧
          frames ≤ (Option.map Limit.framesRead (s.limit <|> some ⟨s.clock, s.framesRead⟩)).getD s.framesRead := by
      intro frames hframes
      rw [hhorizon, hmost]
      exact hframes
    refine ⟨⟨h.past.1, hhorizon.trans_le h.past.2⟩, fun _ => rfl, h.read, h.paced, hfits _ h.captured,
      fun frame hframe => hfits _ (h.queued frame hframe), fun frame hframe => hfits _ (h.pending frame hframe),
      hfits _ h.counted, fun frame hframe => hfits _ (h.sent frame hframe),
      fun final hfinal => hfits _ (h.ended final hfinal)⟩
  · exact h.point

theorem Kept.streamTakeFrame (h : Kept s) : Kept s.streamTakeFrame := by
  rw [Recording.streamTakeFrame]
  split
  · exact h.point
  next frame rest hpending hqueue =>
    have hqueued := h.queued
    rw [hqueue] at hqueued
    refine ⟨h.past, h.stopped, h.read, h.paced, h.captured,
      fun other hother => hqueued other (List.mem_cons_of_mem _ hother),
      fun other hother => ?_, h.counted, h.sent, h.ended⟩
    cases hother
    exact hqueued frame List.mem_cons_self
  · exact h.point

theorem Kept.streamTakeCompletion (h : Kept s) : Kept s.streamTakeCompletion := by
  rw [Recording.streamTakeCompletion]
  split_ifs
  all_goals exact h.point

/-- A frame is sent only as the next one, so that the packets are counted as far as it goes. -/
theorem Kept.streamSend (h : Kept s) (answer : StreamAnswer) {frame : Nat} (hpending : s.pendingFrame = some frame) :
    Kept (s.streamSend answer frame) := by
  have hframe := h.pending frame hpending
  rw [Recording.streamSend]
  split
  · exact h.leave _
  next hnext =>
    split
    · exact h.leave _
    split
    · exact h.leave _
    split
    · split
      · exact h.leave _
      · exact h.point
    · refine ⟨h.past, h.stopped, h.read, h.paced, h.captured, h.queued, fun other hother => (nomatch hother), ?_,
        fun other hother => ?_, h.ended⟩
      · have hmod := Nat.mod_le (s.sentPackets + 1) (2 ^ 32)
        obtain rfl := not_not.1 hnext
        exact hframe.fewer hmod
      · rcases List.mem_append.1 hother with hold | hnew
        · exact h.sent other hold
        · rw [List.mem_singleton.1 hnew]
          exact hframe

theorem Kept.streamTerminal (h : Kept s) (answer : StreamAnswer) : Kept (s.streamTerminal answer) := by
  rw [Recording.streamTerminal]
  split
  · refine ⟨h.past, h.stopped, h.read, h.paced, h.captured, h.queued, h.pending, h.counted, h.sent,
      fun final hfinal => ?_⟩
    rcases List.mem_append.1 hfinal with hold | hnew
    · exact h.ended final hold
    · rw [List.mem_singleton.1 hnew]
      exact h.counted
  · exact h.point

/-! ### The capture task -/

/-- The captured frames keep their pace where there are no more of them. -/
theorem Paced.fewer (h : s.Paced) {sequence : Nat} {point : CapturePoint}
    (hle : sequence + CapturePoint.inFlight point ≤ s.captureSequence + CapturePoint.inFlight s.capture)
    (misses failures : Nat) (queue : List Nat) :
    Paced { s with
      captureSequence := sequence
      capture := point
      consecutiveReadMisses := misses
      consecutiveRecoveryFailures := failures
      frameQueue := queue } := by
  have hmul := Nat.mul_le_mul_left kAudioFrameMs hle
  rw [Paced] at h ⊢
  dsimp only
  cases hmicrophone : s.microphone with
  | none =>
    rw [hmicrophone] at h
    exact hmul.trans h
  | some microphone =>
    rw [hmicrophone] at h
    obtain ⟨hbegun, hsome, hpast, hframes, htotal⟩ := h
    exact ⟨hbegun, hsome, hpast, hframes, hmul.trans htotal⟩

/-- The capture task goes on without a frame. -/
theorem Kept.idle (h : Kept s) (point : CapturePoint) (hflight : CapturePoint.inFlight point = 0)
    (haccepted : CapturePoint.accepted point = 0) (misses failures : Nat) :
    Kept { s with
      capture := point
      consecutiveReadMisses := misses
      consecutiveRecoveryFailures := failures } := by
  have hread := h.read
  refine ⟨h.past, h.stopped, ?_, h.paced.fewer (by omega) misses failures s.frameQueue, ?_, h.queued, h.pending,
    h.counted, h.sent, h.ended⟩
  · dsimp only
    omega
  · exact h.captured.fewer (by dsimp only; omega)

/-- One more frame was read; what fitted still does. -/
theorem Fits.read {frames : Nat} (h : s.Fits frames) (microphone : Microphone) :
    Fits { s with
      microphone := some microphone
      framesRead := s.framesRead + 1
      capture := .checkRunning } frames := by
  refine ⟨h.1, ?_⟩
  have hmost := h.2
  rw [most] at hmost ⊢
  dsimp only
  cases hlimit : s.limit with
  | none =>
    rw [hlimit] at hmost
    exact hmost.trans (Nat.le_succ _)
  | some limit =>
    rw [hlimit] at hmost
    exact hmost

theorem Kept.readFrame (h : Kept s) (hread : s.capture = .read) (hnext : s.readFrame = some t) : Kept t := by
  have hpaced := h.paced
  have hcaptured := h.captured
  have hcount := h.read
  rw [Paced, hread] at hpaced
  rw [hread] at hcaptured hcount
  rw [Recording.readFrame] at hnext
  cases hmicrophone : s.microphone with
  | none =>
    rw [hmicrophone] at hnext
    cases hnext
  | some microphone =>
    rw [hmicrophone] at hnext hpaced
    dsimp only at hnext
    split at hnext
    next hroom =>
      cases hnext
      obtain ⟨hbegun, hsome, hpast, -, htotal⟩ := hpaced
      refine ⟨h.past, h.stopped, Nat.succ_le_succ hcount, ⟨hbegun, hsome, hpast, hroom, ?_⟩, hcaptured.read _,
        fun frame hframe => (h.queued frame hframe).read _, fun frame hframe => (h.pending frame hframe).read _,
        h.counted.read _, fun frame hframe => (h.sent frame hframe).read _,
        fun final hfinal => (h.ended final hfinal).read _⟩
      show kAudioFrameMs * (s.captureSequence + 1) ≤
        kAudioFrameMs * (microphone.frames + 1) + (microphone.enabledAt - s.begun)
      rw [show CapturePoint.inFlight .read = 0 from rfl, Nat.add_zero] at htotal
      rw [Nat.mul_add, Nat.mul_add]
      omega
    next => cases hnext

theorem Kept.recoveryFailed (h : Kept s) : Kept s.recoveryFailed := by
  rw [Recording.recoveryFailed]
  dsimp only
  split
  · have hidle := h.idle .completing rfl rfl 0 (s.consecutiveRecoveryFailures + 1)
    exact hidle.requestStop .i2sRecoveryExhausted
  · exact h.idle .top rfl rfl 0 (s.consecutiveRecoveryFailures + 1)

/-- A frame behind the second check had its time before the horizon. -/
theorem Kept.checkRunning (h : Kept s) (hcheck : s.capture = .checkRunning) :
    Kept { s with
      consecutiveReadMisses := 0
      consecutiveRecoveryFailures := 0
      capture := if s.shouldRun then .enqueue else .completing } := by
  by_cases hrunning : s.shouldRun = true
  · have htotal := h.total
    have hread := h.read
    have hopen : s.horizon = s.clock ∧ s.most = s.framesRead := by
      rw [horizon, limitedAt, most]
      cases hlimit : s.limit with
      | none => exact ⟨rfl, rfl⟩
      | some limit =>
        have hstopped := h.stopped (by rw [hlimit]; rfl)
        rw [hrunning] at hstopped
        cases hstopped
    obtain ⟨hhorizon, hmost⟩ := hopen
    rw [hcheck, ← hhorizon] at htotal
    rw [hcheck, ← hmost] at hread
    have hpaced : s.captureSequence + CapturePoint.inFlight .enqueue ≤
        s.captureSequence + CapturePoint.inFlight s.capture := by
      rw [hcheck]
      exact le_rfl
    rw [if_pos hrunning]
    exact ⟨h.past, h.stopped, hread.trans hmost.le, h.paced.fewer hpaced 0 0 s.frameQueue, ⟨htotal, hread⟩, h.queued,
      h.pending, h.counted, h.sent, h.ended⟩
  · rw [if_neg hrunning]
    exact h.idle .completing rfl rfl 0 0

theorem Kept.enqueueFrame (h : Kept s) (henqueue : s.capture = .enqueue) : Kept s.enqueueFrame := by
  have hcaptured := h.captured
  rw [henqueue] at hcaptured
  have hmod := Nat.mod_le (s.captureSequence + 1) (2 ^ 32)
  rw [Recording.enqueueFrame]
  have hread := h.read
  rw [henqueue] at hread
  refine ⟨h.past, h.stopped, hmod.trans hread, h.paced.fewer ?_ _ _ _, hcaptured.fewer hmod, fun frame hframe => ?_,
    h.pending, h.counted, h.sent, h.ended⟩
  · rw [henqueue]
    exact hmod
  · rcases List.mem_append.1 hframe with hold | hnew
    · refine h.queued frame ?_
      split at hold
      · exact List.mem_of_mem_tail hold
      · exact hold
    · rw [List.mem_singleton.1 hnew]
      exact hcaptured

theorem Kept.resetChannel (h : Kept s) (hreset : s.capture = .resetChannel) :
    Kept { s with microphone := none, capture := .recover } := by
  have hread := h.read
  have htotal := h.total
  have hcaptured := h.captured
  rw [hreset] at hread htotal hcaptured
  exact ⟨h.past, h.stopped, hread, htotal, hcaptured, h.queued, h.pending, h.counted, h.sent, h.ended⟩

/-! ### Steps -/

theorem Kept.streamStep (h : Kept s) {answer : StreamAnswer} (hnext : s.streamStep answer = some t) : Kept t := by
  rw [Recording.streamStep] at hnext
  split at hnext
  · cases hnext
    split
    · exact h.enable.point
    · exact h.point
  · cases hnext
    have hidle := h.idle .top rfl rfl s.consecutiveReadMisses s.consecutiveRecoveryFailures
    exact ⟨hidle.past, hidle.stopped, hidle.read, hidle.paced, hidle.captured, fun frame hframe => (nomatch hframe),
      hidle.pending, hidle.counted, hidle.sent, hidle.ended⟩
  · cases hnext
    exact h.point
  · cases hnext
    exact h.streamTop
  · cases hnext
    exact h.streamCheckDuration _
  · cases hnext
    split
    · exact h.leave _
    · exact h.point
  · cases hnext
    exact h.streamTakeFrame
  · cases hnext
    exact h.streamTakeCompletion
  · split at hnext
    next hpending =>
      cases hnext
      exact h.streamSend answer hpending
    next => cases hnext
  · cases hnext
    exact (h.requestStop s.stopReason).point
  · split at hnext
    · cases hnext
      exact h.point
    · cases hnext
  · cases hnext
    exact h.streamTerminal answer
  · cases hnext

theorem Kept.captureStep (h : Kept s) {ok : Bool} (hnext : s.captureStep ok = some t) : Kept t := by
  rw [Recording.captureStep] at hnext
  split at hnext
  · cases hnext
  · cases hnext
    split
    · exact h.idle .read rfl rfl s.consecutiveReadMisses s.consecutiveRecoveryFailures
    · exact h.idle .completing rfl rfl s.consecutiveReadMisses s.consecutiveRecoveryFailures
  next hread =>
    split at hnext
    · exact h.readFrame hread hnext
    · cases hnext
      rw [readMiss]
      dsimp only
      split
      · exact h.idle .top rfl rfl (s.consecutiveReadMisses + 1) s.consecutiveRecoveryFailures
      · exact h.idle .resetChannel rfl rfl (s.consecutiveReadMisses + 1) s.consecutiveRecoveryFailures
  next hcheck =>
    cases hnext
    exact h.checkRunning hcheck
  next henqueue =>
    cases hnext
    exact h.enqueueFrame henqueue
  next hreset =>
    cases hnext
    exact h.resetChannel hreset
  · cases hnext
    split
    · exact h.idle .ensureReady rfl rfl s.consecutiveReadMisses s.consecutiveRecoveryFailures
    · exact h.recoveryFailed
  · cases hnext
    split
    · exact h.enable.idle .top rfl rfl 0 0
    · exact h.recoveryFailed
  · cases hnext
    exact h.idle .completed rfl rfl s.consecutiveReadMisses s.consecutiveRecoveryFailures
  · cases hnext

theorem Kept.step (h : Kept s) (hnext : s.step action = some t) : Kept t := by
  cases action with
  | pass ms =>
    cases hnext
    exact h.pass ms
  | stop reason =>
    rw [Recording.step] at hnext
    split at hnext
    · cases hnext
    · cases hnext
      exact h.requestStop reason
  | stream answer => exact h.streamStep hnext
  | capture ok => exact h.captureStep hnext

theorem Run.kept {cond : Recording → Action → Prop} (h : Run cond s t) (hkept : Kept s) : Kept t := by
  induction h with
  | refl => exact hkept
  | step run action meets next ih => exact ih.step next

/-! ### The limit -/

/-- What a step does to the times of the limit and of the microphone. -/
inductive Times (s t : Recording) (action : Action) : Prop
  | same (limited : t.limit = s.limit) (enabled : t.firstEnabledAt = s.firstEnabledAt)
  | enables (limited : t.limit = s.limit) (enabled : t.firstEnabledAt = (s.firstEnabledAt <|> some s.clock))
  | limits {answer : StreamAnswer} (action : action = .stream answer) (point : s.stream = .checkDuration true)
    (elapsed : kAudioRuntimeMaxStreamMs ≤ s.elapsedMs)
    (limited : t.limit = (s.limit <|> some ⟨s.clock, s.framesRead⟩))
    (enabled : t.firstEnabledAt = s.firstEnabledAt)

theorem streamSend_times (s : Recording) (answer : StreamAnswer) (frame : Nat) :
    (s.streamSend answer frame).limit = s.limit ∧
      (s.streamSend answer frame).firstEnabledAt = s.firstEnabledAt := by
  rw [Recording.streamSend]
  split_ifs
  all_goals exact ⟨rfl, rfl⟩

theorem streamStep_times {answer : StreamAnswer} (hnext : s.streamStep answer = some t) :
    Times s t (.stream answer) := by
  rw [Recording.streamStep] at hnext
  split at hnext
  · cases hnext
    split
    · exact .enables rfl rfl
    · exact .same rfl rfl
  · cases hnext
    exact .same rfl rfl
  · cases hnext
    exact .same rfl rfl
  · cases hnext
    rw [Recording.streamTop]
    dsimp only
    split_ifs
    all_goals exact .same rfl rfl
  next streamRunning hpoint =>
    cases hnext
    rw [Recording.streamCheckDuration]
    split
    next hlimit =>
      rw [Bool.and_eq_true, decide_eq_true_iff] at hlimit
      obtain ⟨rfl, helapsed⟩ := hlimit
      exact .limits rfl hpoint helapsed rfl rfl
    next => exact .same rfl rfl
  · cases hnext
    split
    all_goals exact .same rfl rfl
  · cases hnext
    rw [Recording.streamTakeFrame]
    split
    all_goals exact .same rfl rfl
  · cases hnext
    rw [Recording.streamTakeCompletion]
    split_ifs
    all_goals exact .same rfl rfl
  · split at hnext
    next frame hpending =>
      cases hnext
      obtain ⟨hlimited, henabled⟩ := streamSend_times s answer frame
      exact .same hlimited henabled
    next => cases hnext
  · cases hnext
    exact .same rfl rfl
  · split at hnext
    · cases hnext
      exact .same rfl rfl
    · cases hnext
  · cases hnext
    rw [Recording.streamTerminal]
    split
    all_goals exact .same rfl rfl
  · cases hnext

theorem recoveryFailed_times (s : Recording) :
    s.recoveryFailed.limit = s.limit ∧ s.recoveryFailed.firstEnabledAt = s.firstEnabledAt := by
  rw [Recording.recoveryFailed]
  dsimp only
  split
  all_goals exact ⟨rfl, rfl⟩

theorem captureStep_times {ok : Bool} (hnext : s.captureStep ok = some t) : Times s t (.capture ok) := by
  obtain ⟨hlimited, henabled⟩ := recoveryFailed_times s
  rw [Recording.captureStep] at hnext
  split at hnext
  · cases hnext
  · cases hnext
    exact .same rfl rfl
  · split at hnext
    · rw [Recording.readFrame] at hnext
      split at hnext
      · split at hnext
        · cases hnext
          exact .same rfl rfl
        · cases hnext
      · cases hnext
    · cases hnext
      rw [readMiss]
      dsimp only
      split
      all_goals exact .same rfl rfl
  · cases hnext
    exact .same rfl rfl
  · cases hnext
    exact .same rfl rfl
  · cases hnext
    exact .same rfl rfl
  · cases hnext
    split
    · exact .same rfl rfl
    · exact .same hlimited henabled
  · cases hnext
    split
    · exact .enables rfl rfl
    · exact .same hlimited henabled
  · cases hnext
    exact .same rfl rfl
  · cases hnext

theorem step_times (hnext : s.step action = some t) : Times s t action := by
  cases action with
  | pass ms =>
    cases hnext
    exact .same rfl rfl
  | stop reason =>
    rw [Recording.step] at hnext
    split at hnext
    · cases hnext
    · cases hnext
      exact .same rfl rfl
  | stream answer => exact streamStep_times hnext
  | capture ok => exact captureStep_times hnext

/-- The limit came before there could be another frame, or before as many were read. -/
def LimitInTime (s : Recording) : Prop :=
  ∀ limit ∈ s.limit,
    (∀ enabledAt ∈ s.firstEnabledAt, limit.clock < enabledAt + kAudioRuntimeMaxStreamMs + kAudioFrameMs) ∨
    kAudioFrameMs * limit.framesRead ≤ kAudioRuntimeMaxStreamMs

theorem LimitInTime.step (h : s.LimitInTime) (hkept : Kept s) (hnext : s.step action = some t)
    (hinTime : InTime s action) : t.LimitInTime := by
  have hpast := hkept.past.2
  rw [LimitInTime]
  cases step_times hnext with
  | same limited enabled =>
    rw [limited, enabled]
    exact h
  | enables limited enabled =>
    rw [limited, enabled]
    intro limit hlimit
    cases hfirst : s.firstEnabledAt with
    | some first =>
      rw [LimitInTime, hfirst] at h
      exact h limit hlimit
    | none =>
      left
      intro enabledAt henabledAt
      cases henabledAt
      rw [horizon, limitedAt, Option.mem_def.1 hlimit, Option.map_some, Option.getD_some] at hpast
      rw [kAudioRuntimeMaxStreamMs]
      omega
  | limits action point elapsed limited enabled =>
    rw [limited, enabled]
    intro limit hlimit
    cases hold : s.limit with
    | some old =>
      rw [hold] at hlimit
      exact h limit (by rw [hold]; exact hlimit)
    | none =>
      rw [hold] at hlimit
      cases hlimit
      subst action
      exact hinTime true point rfl elapsed

theorem Run.limitInTime (h : Run InTime s t) (hkept : Kept s) (hlimit : s.LimitInTime) : Kept t ∧ t.LimitInTime := by
  induction h with
  | refl => exact ⟨hkept, hlimit⟩
  | step run action meets next ih => exact ⟨ih.1.step next, ih.2.step ih.1 next meets⟩

/-- Up to a limit in time there are no more frames than the Host takes. -/
theorem Fits.host {frames : Nat} (h : s.Fits frames) (hkept : Kept s) (hlimited : s.limitedAt.isSome)
    (hlimit : s.LimitInTime) : Lan.audioFrameBytes * frames ≤ Lan.maxCaptureBytes := by
  rw [limitedAt, Option.isSome_map] at hlimited
  obtain ⟨limit, hsome⟩ := Option.isSome_iff_exists.1 hlimited
  have hpast := hkept.past.2
  have hframes : kAudioFrameMs * frames < kAudioRuntimeMaxStreamMs + kAudioFrameMs := by
    obtain ⟨htime, hmost⟩ := h
    have hpositive : 0 < kAudioFrameMs := by decide
    rw [horizon, limitedAt, hsome, Option.map_some, Option.getD_some] at hpast htime
    rw [most, hsome, Option.map_some, Option.getD_some] at hmost
    rcases hlimit limit hsome with hearly | hfew
    · rw [begun] at htime
      cases hfirst : s.firstEnabledAt with
      | none =>
        rw [hfirst, Option.getD_none] at htime
        omega
      | some enabledAt =>
        have hbefore := hearly enabledAt hfirst
        rw [hfirst, Option.getD_some] at htime
        omega
    · have hread := Nat.mul_le_mul_left kAudioFrameMs hmost
      omega
  simp only [kAudioFrameMs, kAudioRuntimeMaxStreamMs] at hframes
  simp only [Lan.audioFrameBytes, Lan.audioFrameSamples, Lan.maxCaptureBytes, Lan.audioSampleRate]
  omega

/-- What a recording that the duration limit has stopped sends fits the Host. -/
structure FitsHost (s : Recording) : Prop where
  frames : ∀ frame ∈ s.frames, Lan.audioFrameBytes * (frame + 1) ≤ Lan.maxCaptureBytes
  terminals : ∀ final ∈ s.terminals, Lan.audioFrameBytes * final ≤ Lan.maxCaptureBytes

open Lan CaptureAssembler in
/-- The assembler refuses no frame of such a recording as one too many. -/
theorem FitsHost.assembled (h : FitsHost s) {a : CaptureAssembler} (ha : a.Inv) {frame : ParsedFrame}
    (hframe : FrameOk frame)
    {capture : ActiveCapture} (hactive : a.active[frame.sessionId]? = some capture) (hsent : frame.sequence ∈ s.frames)
    (source : SocketAddr) (now : Nat) : (a.acceptFrame capture frame source now).1 ≠ .error .captureLimit := by
  have hfits := h.frames frame.sequence hsent
  rw [Nat.mul_comm] at hfits
  have hcapture := ha.captures frame.sessionId capture hactive
  by_cases hmatch : capture.source ≠ source ∨ capture.identity ≠ frame.identity ∨
      capture.finalSequence.any (fun finalSequence => decide (finalSequence ≤ frame.sequence))
  · rw [acceptFrame, if_pos hmatch]
    simp
  rcases Nat.lt_or_ge frame.sequence capture.nextSequence with hlate | hahead
  · rw [acceptFrame, if_neg hmatch, if_pos hlate]
    simp
  by_cases hgap : maxCaptureGapFrames < frame.sequence - capture.nextSequence
  · rw [acceptFrame, if_neg hmatch, if_neg (Nat.not_lt.2 hahead)]
    simp only [if_pos hgap]
    simp
  · rw [acceptFrame_ahead hcapture hframe hmatch hahead (Nat.not_lt.1 hgap) hfits]
    simp

/-- A recording stopped by the duration limit fits the Host if the limit comes before there can be another
    frame, or before as many were read. -/
theorem recording_fits (clock : Nat) (s : Recording) (h : Run InTime (start clock) s) (hlimited : s.limitedAt.isSome) :
    FitsHost s := by
  have hstart : (start clock).LimitInTime := fun _ hlimit => nomatch hlimit
  obtain ⟨hkept, hlimit⟩ := h.limitInTime (start_kept clock) hstart
  exact ⟨fun frame hframe => (hkept.sent frame hframe).host hkept hlimited hlimit,
    fun final hfinal => (hkept.ended final hfinal).host hkept hlimited hlimit⟩

namespace RecordingSample

/-- A run of given actions. -/
def follow : Recording → List Action → Option Recording
  | s, [] => some s
  | s, action :: actions =>
    match s.step action with
    | some next => follow next actions
    | none => none

/-- The limit stops the recording in time. -/
def inTime (s : Recording) : Action → Bool
  | .stream _ => s.stream != .checkDuration true ||
      decide (s.clock < s.begun + kAudioRuntimeMaxStreamMs + kAudioFrameMs) ||
      decide (kAudioFrameMs * s.framesRead ≤ kAudioRuntimeMaxStreamMs)
  | _ => true

def followInTime : Recording → List Action → Option Recording
  | s, [] => some s
  | s, action :: actions =>
    if inTime s action then
      match s.step action with
      | some next => followInTime next actions
      | none => none
    else none

theorem inTime_of (u : Recording) (action : Action) (h : inTime u action = true) : InTime u action := by
  cases action with
  | stream answer =>
    rintro streamRunning hpoint rfl -
    rw [inTime, hpoint] at h
    simp only [bne_self_eq_false, Bool.false_or, Bool.or_eq_true, decide_eq_true_eq] at h
    refine h.imp_left fun hearly enabledAt henabledAt => ?_
    rw [begun, henabledAt] at hearly
    exact hearly
  | _ => trivial

theorem follow_run {start : Recording} (hrun : Run (fun _ _ => True) start s) {actions : List Action}
    (h : follow s actions = some t) : Run (fun _ _ => True) start t := by
  induction actions generalizing s with
  | nil =>
    cases h
    exact hrun
  | cons action actions ih =>
    rw [follow] at h
    split at h
    next next hnext => exact ih (.step hrun action trivial hnext) h
    next => cases h

theorem followInTime_run {start : Recording} (hrun : Run InTime start s) {actions : List Action}
    (h : followInTime s actions = some t) : Run InTime start t := by
  induction actions generalizing s with
  | nil =>
    cases h
    exact hrun
  | cons action actions ih =>
    rw [followInTime] at h
    split at h
    next hmeets =>
      split at h
      next next hnext => exact ih (.step hrun action (inTime_of _ _ hmeets) hnext) h
      next => cases h
    next => cases h

/-- The microphone is enabled, and the clock of the stream starts 5 ms later. -/
def opening : List Action := [.stream {}, .stream {}, .pass 5, .stream {}]

/-- A turn of the stream, with a frame of the capture before its queue is read. -/
def turn (ms : Nat) : List Action :=
  [.stream {}, .stream {}, .stream {}, .pass ms, .capture true, .capture true, .capture true, .capture true, .stream {},
    .stream {}]

/-- The limit, the end of the capture, and the end record. -/
def closing : List Action :=
  [.stream {}, .stream {}, .capture true, .capture true] ++ List.replicate 8 (.stream {})

/-- Three frames are read and sent; then both tasks are delayed, and the limit is seen late. -/
theorem recording_fits_three : ∃ s, Run InTime (start 0) s ∧ s.limitedAt = some 90125 ∧ s.frames = [0, 1, 2] ∧
    s.terminals = [3] ∧ FitsHost s := by
  have hrun : (followInTime (start 0) (opening ++ turn 15 ++ turn 20 ++ turn 20 ++ .pass 90065 :: closing)).any
      (fun s => decide (s.limitedAt = some 90125 ∧ s.frames = [0, 1, 2] ∧ s.terminals = [3])) = true := by
    decide +kernel
  obtain ⟨hs, hend⟩ := (Option.any_eq_true_iff_get _ _).1 hrun
  obtain ⟨hlimited, hframes, hterminals⟩ := of_decide_eq_true hend
  have hrun := followInTime_run .refl (Option.some_get hs).symm
  exact ⟨_, hrun, hlimited, hframes, hterminals, recording_fits 0 _ hrun (by rw [hlimited]; rfl)⟩

/-- After so many frames of 20 ms. -/
def recorded (frames : Nat) : Recording where
  clock := 20 * frames
  microphone := some ⟨0, frames⟩
  stream := .top
  startedTick := 5
  sentPackets := frames
  capture := .top
  captureSequence := frames
  frames := List.range frames
  firstEnabledAt := some 0
  framesRead := frames

theorem turn_recorded {n : Nat} (hfirst : 1 ≤ n) (hn : n ≤ 4500) :
    follow (recorded n) (turn 20) = some (recorded (n + 1)) := by
  have helapsed : ¬ kAudioRuntimeMaxStreamMs ≤ (20 * n - 5) % 2 ^ 32 := by
    have hsmall : 20 * n - 5 < 2 ^ 32 := by omega
    rw [Nat.mod_eq_of_lt hsmall, kAudioRuntimeMaxStreamMs]
    omega
  have hroom : kAudioFrameMs * (n + 1) ≤ 20 * n + 20 - 0 := by
    rw [kAudioFrameMs]
    omega
  have hcount : (n + 1) % 2 ^ 32 = n + 1 := by omega
  have hsequence : ¬ n ≠ n := by simp
  have hempty : ¬ 0 = 64 := by decide
  rw [turn]
  simp only [follow, step, streamStep, streamTop, streamCheckDuration, elapsedMs, recorded, if_true, helapsed,
    decide_false, Bool.and_false, Bool.false_eq_true, if_false, captureStep, readFrame, hroom, enqueueFrame,
    streamTakeFrame, streamSend, hsequence, hcount, Bool.not_true, List.range_succ, List.length_nil,
    kAudioCaptureQueueFrames, hempty, List.nil_append]
  rfl

theorem recorded_run {n : Nat} (hn : n ≤ 4500) : Run (fun _ _ => True) (start 0) (recorded (n + 1)) := by
  induction n with
  | zero =>
    have hopened : follow (start 0) (opening ++ turn 15) = some (recorded 1) := by decide +kernel
    exact follow_run .refl hopened
  | succ n ih =>
    have hrun := ih (by omega)
    exact follow_run hrun (turn_recorded (by omega) hn)

theorem closing_recorded (frames : List Nat) : ∃ s, follow { recorded 4501 with frames } closing = some s ∧
    s.limitedAt = some 90020 ∧ s.frames = frames ∧ s.terminals = [4501] :=
  ⟨_, rfl, rfl, rfl, rfl⟩

/-- The check before the frame 4501 is 5 ms early, so the limit comes behind it. -/
theorem recording_too_long : ∃ s, Run (fun _ _ => True) (start 0) s ∧ s.limitedAt = some 90020 ∧
    ¬ (∀ frame ∈ s.frames, Lan.audioFrameBytes * (frame + 1) ≤ Lan.maxCaptureBytes) ∧
    ¬ (∀ final ∈ s.terminals, Lan.audioFrameBytes * final ≤ Lan.maxCaptureBytes) := by
  obtain ⟨s, hclosed, hlimited, hframes, hterminals⟩ := closing_recorded (List.range 4501)
  have hsize : ¬ Lan.audioFrameBytes * 4501 ≤ Lan.maxCaptureBytes := by decide
  refine ⟨s, follow_run (recorded_run (Nat.le_refl 4500)) hclosed, hlimited, fun hfits => ?_, fun hfits => ?_⟩
  · rw [hframes] at hfits
    exact hsize (hfits 4500 (List.mem_range.2 (by decide)))
  · rw [hterminals] at hfits
    exact hsize (hfits 4501 (List.mem_singleton.2 rfl))

end RecordingSample

end CodexKeyboard.Audio.Recording
