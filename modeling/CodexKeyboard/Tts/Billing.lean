import CodexKeyboard.Tts.Ambiguous

/-! A billable synthesis is submitted once.

    After its submission an attempt must not fail in a way that lets the next attempt submit again, nor
    hide that the submission may have been accepted. `Meets` says when it does neither; a whole call is
    billed once just when each of its attempts meets it. -/

namespace CodexKeyboard.Tts

open Schemes.Transact Schemes.Bytes Summary Store Audio

variable {libs : Libs}

/-! ### Reading an answer -/

theorem ends_readHeader {buffer : Nat} {response arriving : List UInt8} {reads : List Nat} :
    Ends (· = ambiguousAfterCommit) (fun _ => True)
      (readHeader afterSubmission buffer response arriving reads) := by
  induction reads generalizing response arriving with
  | nil =>
    rw [readHeader]
    split <;> trivial
  | cons size reads ih =>
    rw [readHeader]
    split
    · trivial
    · trivial
    · dsimp only
      split
      · trivial
      · exact ih

theorem ends_answerHeader {connection : Connection} :
    Ends (· = ambiguousAfterCommit) (fun _ => True) (answerHeader connection) :=
  ends_readHeader.bind fun _ _ => trivial

theorem ends_readBody {buffer total : Nat} {response arriving : List UInt8} {reads : List Nat} :
    Ends (· = ambiguousAfterCommit) (fun _ => True) (readBody buffer total response arriving reads) := by
  induction reads generalizing response arriving with
  | nil =>
    rw [readBody]
    split <;> trivial
  | cons size reads ih =>
    rw [readBody]
    split
    · trivial
    · dsimp only
      split
      · trivial
      · exact ih

/-- An answer fails as ambiguous, by the check of its header, or over its limit. -/
theorem ends_readAnswer {validate : List UInt8 → Except AttemptFailure Nat} {maximum buffer : Nat}
    {overLimit : AttemptFailure} {connection : Connection} :
    Ends
      (fun failure => failure = ambiguousAfterCommit ∨
        ∃ header received, answerHeader connection = .ok (header, received) ∧
          (validate header = .error failure ∨
            failure = overLimit ∧ ∃ length, validate header = .ok length ∧ maximum < length))
      (fun _ => ∃ header received length, answerHeader connection = .ok (header, received) ∧
        validate header = .ok length)
      (readAnswer validate maximum overLimit buffer connection) := by
  rw [readAnswer]
  refine (ends_answerHeader.value.weaken (fun _ h => Or.inl h) fun _ h => h).bind ?_
  rintro ⟨header, received⟩ ⟨hheader, -⟩
  refine ((ends_self (validate header)).weaken
    (fun _ h => Or.inr ⟨header, received, hheader, Or.inl h⟩) fun _ h => h).bind fun length hvalid => ?_
  refine Ends.bind (Q := fun _ => True) ?_ fun _ _ => ?_
  · by_cases hover : length ≤ maximum
    · rw [ensure_of hover]
      trivial
    · rw [ensure_error.2 ⟨hover, rfl⟩]
      exact Or.inr ⟨header, received, hheader, Or.inr ⟨rfl, length, hvalid, by omega⟩⟩
  refine (ends_readBody.weaken (fun _ h => Or.inl h) fun _ h => h).bind fun body _ => ?_
  exact ends_ensure_bind (Or.inl rfl) fun _ => ⟨header, received, length, hheader, hvalid⟩

/-! ### The headers -/

/-- The status of an HTTP/1.1 header. -/
def statusOf (libs : Libs) (header : List UInt8) : Option Nat :=
  (libs.parseResponse header).bind fun parsed => if parsed.version = 1 then some parsed.code else none

theorem ends_contentLength {parsed : ParsedResponse} :
    Ends (· = ambiguousAfterCommit) (fun _ => True) (contentLength parsed) := by
  rw [contentLength]
  refine ends_orThrow_bind rfl fun encoding _ => ?_
  refine ends_ensure_bind rfl fun _ => ?_
  refine ends_orThrow_bind rfl fun length _ => ?_
  refine ends_orThrow_bind rfl fun length _ => ?_
  exact (ends_orThrow (P := (· = ambiguousAfterCommit)) rfl).weaken (fun _ h => h) fun _ _ => trivial

theorem statusOf_eq {header : List UInt8} {parsed : ParsedResponse}
    (hparsed : libs.parseResponse header = some parsed) (hversion : parsed.version = 1) :
    statusOf libs header = some parsed.code := by
  rw [statusOf, hparsed, Option.bind_some, if_pos hversion]

/-- The check of the answer's header: ambiguous, or a status other than 200, which is never retried. -/
theorem ends_validateBatchTtsHeader {header : List UInt8} :
    Ends
      (fun failure => failure = ambiguousAfterCommit ∨
        failure.retryable = false ∧ ∃ status, statusOf libs header = some status ∧ status ≠ 200)
      (fun _ => statusOf libs header = some 200) (validateBatchTtsHeader libs header) := by
  rw [validateBatchTtsHeader]
  refine ends_orThrow_bind (Or.inl rfl) fun parsed hparsed => ?_
  refine ends_ensure_bind (Or.inl rfl) fun hversion => ?_
  have hstatus := statusOf_eq hparsed hversion
  split
  next h200 => exact ends_contentLength.weaken (fun _ h => Or.inl h) fun _ _ => by rw [hstatus, h200]
  next h200 =>
    have hrefused : ∃ status, statusOf libs header = some status ∧ status ≠ 200 := ⟨_, hstatus, h200⟩
    split
    · exact Or.inr ⟨rfl, hrefused⟩
    split
    · exact Or.inr ⟨rfl, hrefused⟩
    split <;> exact Or.inr ⟨rfl, hrefused⟩

/-- A status other than 200 is answered with the kind of its refusal, never as ambiguous. -/
theorem validateBatchTtsHeader_refused {header : List UInt8} {status : Nat}
    (hstatus : statusOf libs header = some status) (h200 : status ≠ 200) :
    ∃ e, e ≠ .ambiguousAfterCommit ∧ validateBatchTtsHeader libs header = .error (.terminal e) := by
  obtain ⟨parsed, hparsed, hcode⟩ := Option.bind_eq_some_iff.1 hstatus
  split at hcode
  next hversion =>
    obtain rfl := Option.some.inj hcode
    simp only [validateBatchTtsHeader, hparsed, orThrow, ensure_of hversion, bind, Except.bind, if_neg h200]
    split
    · exact ⟨.rejected, by decide, rfl⟩
    split
    · exact ⟨.rateLimited, by decide, rfl⟩
    split
    · exact ⟨.unavailable, by decide, rfl⟩
    · exact ⟨.protocol, by decide, rfl⟩
  next => cases hcode

theorem ends_validateBatchTtsAudioHeader {header : List UInt8} :
    Ends (· = ambiguousAfterCommit) (fun _ => True) (validateBatchTtsAudioHeader libs header) := by
  rw [validateBatchTtsAudioHeader]
  refine ends_orThrow_bind rfl fun parsed _ => ?_
  refine ends_ensure_bind rfl fun _ => ?_
  refine ends_orThrow_bind rfl fun contentType _ => ?_
  refine ends_orThrow_bind rfl fun contentType _ => ?_
  exact ends_ensure_bind rfl fun _ => ends_contentLength

theorem ends_parseBatchTtsAudioUrl {url : String} :
    Ends (· = ambiguousAfterCommit) (fun _ => True) (parseBatchTtsAudioUrl url) := by
  rw [parseBatchTtsAudioUrl]
  refine ends_orThrow_bind rfl fun target _ => ?_
  exact ends_ensure_bind rfl fun _ => trivial

theorem ends_parseBatchTtsResponse {response : List UInt8} :
    Ends (· = ambiguousAfterCommit) (fun _ => True) (parseBatchTtsResponse libs response) := by
  rw [parseBatchTtsResponse]
  refine ends_orThrow_bind rfl fun value _ => ?_
  refine ends_ensure_bind rfl fun _ => ?_
  refine ends_orThrow_bind rfl fun url _ => ?_
  exact ends_parseBatchTtsAudioUrl.bind fun _ _ => trivial

/-- No WAV the client takes has more samples than the limit on its length leaves room for. -/
theorem decodeWav_length {wav pcm : List UInt8} (h : decodeWav wav = .ok pcm) :
    pcm.length / 2 < 2 ^ 64 := by
  simp only [decodeWav, bind_ok] at h
  obtain ⟨-, -, -, -, samples, hvalid, heq⟩ := h
  cases heq
  have hsamples : validatePcm (wav.drop 44) = .ok samples := by
    cases hpcm : validatePcm (wav.drop 44) with
    | error e => rw [hpcm] at hvalid; cases hvalid
    | ok n => rw [hpcm] at hvalid; exact hvalid
  unfold validatePcm at hsamples
  split at hsamples
  · cases hsamples
  · dsimp only at hsamples
    split at hsamples
    · cases hsamples
    next hbound =>
      simp only [ttsSampleRate, maxTtsSeconds, Nat.not_lt] at hbound
      omega

/-! ### What an attempt meets -/

/-- The connection on which the POST was written whole, when the attempt comes to that. -/
def posting (answers : AttemptAnswers) : Option Connection :=
  match connect answers with
  | .ok connected =>
    if connected.target.requestTarget = ttsRequestTarget then connected.stream.write else none
  | .error _ => none

/-- The status the server answers the POST with. -/
def answeredStatus (libs : Libs) (answers : AttemptAnswers) : Option Nat :=
  (posting answers).bind fun stream =>
    match answerHeader stream with
    | .ok (header, _) => statusOf libs header
    | .error _ => none

/-- The server answers the POST with an explicit error status. -/
def ErrorStatus (libs : Libs) (answers : AttemptAnswers) : Prop :=
  ∃ status, answeredStatus libs answers = some status ∧ 400 ≤ status

/-- The server's answer to the POST arrives whole and points at the audio. -/
def Accepted (libs : Libs) (answers : AttemptAnswers) : Prop :=
  ∃ stream response target, posting answers = some stream ∧
    readBatchTtsResponse libs stream = .ok response ∧ parseBatchTtsResponse libs response = .ok target

/-- The audio of an accepted answer is announced with a length over the limit. -/
def AudioOver (libs : Libs) (answers : AttemptAnswers) : Prop :=
  Accepted libs answers ∧ answers.audio.platform = .ok () ∧
  ∃ stream stream' header received length, answers.audio.tls = .ok stream ∧ stream.write = some stream' ∧
    answerHeader stream' = .ok (header, received) ∧
    validateBatchTtsAudioHeader libs header = .ok length ∧ maxTtsWavBytes < length

/-- A failure for good, and as ambiguous unless the server refused the request or the audio is over its
    limit. -/
def SafeFailure (libs : Libs) (answers : AttemptAnswers) (failure : AttemptFailure) : Prop :=
  failure.retryable = false ∧
  (failure.error = .ambiguousAfterCommit ∨ ErrorStatus libs answers ∨ AudioOver libs answers)

/-- After its submission an attempt fails in no other way. -/
def SafeAttempt (libs : Libs) (answers : AttemptAnswers) (attempt : Attempt) : Prop :=
  attempt.submitted = true → ∀ failure, attempt.outcome = .error failure → SafeFailure libs answers failure

/-- The condition: the answer to the POST has status 200 or an explicit error status, and once it is
    accepted the platform for the audio can be prepared. -/
structure Meets (libs : Libs) (answers : AttemptAnswers) : Prop where
  status : ∀ status, answeredStatus libs answers = some status → status = 200 ∨ 400 ≤ status
  prepared : Accepted libs answers → answers.audio.platform = .ok ()

/-! ### One attempt -/

variable {request : TtsRequest} {answers : AttemptAnswers} {connected : Connected}
  {stream : Connection} {failure : AttemptFailure}

theorem posting_eq (hconnect : connect answers = .ok connected)
    (htarget : connected.target.requestTarget = ttsRequestTarget) :
    posting answers = connected.stream.write := by
  simp only [posting, hconnect, htarget, if_true]

theorem answeredStatus_eq {header : List UInt8} {received : Received}
    (hpost : posting answers = some stream) (hheader : answerHeader stream = .ok (header, received)) :
    answeredStatus libs answers = statusOf libs header := by
  simp only [answeredStatus, hpost, Option.bind_some, hheader]

/-- An accepted answer has status 200. -/
theorem Accepted.status (h : Accepted libs answers) : answeredStatus libs answers = some 200 := by
  obtain ⟨stream, response, -, hpost, hread, -⟩ := h
  have hends : Ends (fun _ => True) (fun _ => ∃ header received length,
      answerHeader stream = .ok (header, received) ∧
      validateBatchTtsHeader libs header = .ok length) (readBatchTtsResponse libs stream) :=
    ends_readAnswer.weaken (fun _ _ => trivial) fun _ h => h
  obtain ⟨header, received, length, hheader, hvalid⟩ := hends.of_ok hread
  rw [answeredStatus_eq hpost hheader]
  exact ends_validateBatchTtsHeader.of_ok hvalid

theorem ends_readBatchTtsResponse (hpost : posting answers = some stream) :
    Ends
      (fun failure => failure = ambiguousAfterCommit ∨ failure.retryable = false ∧
        ∃ status, answeredStatus libs answers = some status ∧ status ≠ 200)
      (fun _ => True) (readBatchTtsResponse libs stream) := by
  refine ends_readAnswer.weaken ?_ fun _ _ => trivial
  rintro failure (rfl | ⟨header, received, hheader, hvalid | ⟨rfl, -⟩⟩)
  · exact Or.inl rfl
  · rw [answeredStatus_eq hpost hheader]
    exact ends_validateBatchTtsHeader.of_error hvalid
  · exact Or.inl rfl

/-- The audio fails as ambiguous, or because more of it is announced than the limit allows. -/
theorem ends_getBatchTtsAudio {audio : AudioAnswers} :
    Ends
      (fun failure => failure = ambiguousAfterCommit ∨ failure.retryable = false ∧
        ∃ stream stream' header received length, audio.tls = .ok stream ∧ stream.write = some stream' ∧
          answerHeader stream' = .ok (header, received) ∧
          validateBatchTtsAudioHeader libs header = .ok length ∧ maxTtsWavBytes < length)
      (fun _ => True) (getBatchTtsAudio libs audio) := by
  rw [getBatchTtsAudio]
  refine ends_mapError_bind (Or.inl rfl) fun _ _ => ?_
  refine ends_mapError_bind (Or.inl rfl) fun stream htls => ?_
  refine ends_orThrow_bind (Or.inl rfl) fun stream' hwrite => ?_
  refine ends_readAnswer.weaken ?_ fun _ _ => trivial
  rintro failure (rfl | ⟨header, received, hheader, hvalid | ⟨rfl, length, hvalid, hover⟩⟩)
  · exact Or.inl rfl
  · exact Or.inl (ends_validateBatchTtsAudioHeader.of_error hvalid)
  · exact Or.inr ⟨rfl, stream, stream', header, received, length, htls, hwrite, hheader, hvalid, hover⟩

/-- How an attempt that posted may fail, when it meets the condition. -/
theorem ends_synthesizeHttpOnce (hmeets : Meets libs answers) (hpost : posting answers = stream.write) :
    Ends (SafeFailure libs answers) (fun _ => True)
      (synthesizeHttpOnce libs request connected.transport stream answers.audio) := by
  have hambiguous : ∀ failure, failure = ambiguousAfterCommit → SafeFailure libs answers failure := by
    rintro failure rfl
    exact ⟨rfl, Or.inl rfl⟩
  have hread : Ends (SafeFailure libs answers) (fun response => ∃ written, posting answers = some written ∧
      readBatchTtsResponse libs written = .ok response) (postBatchTtsRequest libs stream) := by
    rw [postBatchTtsRequest]
    refine ends_orThrow_bind (hambiguous _ rfl) fun written hwrite => ?_
    rw [hwrite] at hpost
    refine ((ends_readBatchTtsResponse hpost).value).weaken ?_ fun response h => ⟨written, hpost, h.1⟩
    rintro failure (hfailure | ⟨hretry, status, hstatus, h200⟩)
    · exact hambiguous _ hfailure
    · exact ⟨hretry, Or.inr (Or.inl ⟨status, hstatus, (hmeets.status status hstatus).resolve_left h200⟩)⟩
  rw [synthesizeHttpOnce]
  refine hread.bind fun response hresponse => ?_
  obtain ⟨written, hwritten, hresponse⟩ := hresponse
  refine (ends_parseBatchTtsResponse.value.weaken hambiguous fun _ h => h.1).bind fun target htarget => ?_
  have haccepted : Accepted libs answers := ⟨written, response, target, hwritten, hresponse, htarget⟩
  have hplatform := hmeets.prepared haccepted
  refine Ends.bind (Q := fun _ => True) ?_ fun _ _ => ?_
  · rw [prepareTtsAudioPlatform, hplatform]
    trivial
  refine (ends_getBatchTtsAudio.weaken ?_ fun _ h => h).bind fun wav _ => ?_
  · rintro failure (hfailure | ⟨hretry, hover⟩)
    · exact hambiguous _ hfailure
    · exact ⟨hretry, Or.inr (Or.inr ⟨haccepted, hplatform, hover⟩)⟩
  refine ends_mapError_bind (hambiguous _ rfl) fun pcm hpcm => ?_
  rw [ensure_of (decodeWav_length hpcm)]
  trivial

/-- An answer of another status: the attempt fails with the kind of its refusal. -/
theorem synthesizeHttpOnce_refused {status : Nat} (hpost : posting answers = stream.write)
    (hstatus : answeredStatus libs answers = some status) (h200 : status ≠ 200) :
    ∃ e, e ≠ .ambiguousAfterCommit ∧
      synthesizeHttpOnce libs request connected.transport stream answers.audio = .error (.terminal e) := by
  obtain ⟨written, hwritten, hheader⟩ := Option.bind_eq_some_iff.1 hstatus
  split at hheader
  next header received hanswer =>
    obtain ⟨e, he, hvalid⟩ := validateBatchTtsHeader_refused hheader h200
    refine ⟨e, he, ?_⟩
    have hread : readBatchTtsResponse libs written = .error (.terminal e) := by
      rw [readBatchTtsResponse, readAnswer, hanswer]
      simp only [bind, Except.bind, hvalid]
    rw [synthesizeHttpOnce, postBatchTtsRequest, ← hpost, hwritten]
    simp only [orThrow, bind, Except.bind, hread]
  next => cases hheader

/-- An accepted answer whose audio cannot be prepared for: the failure of the preparation. -/
theorem synthesizeHttpOnce_unprepared {e : VerificationError} (hpost : posting answers = stream.write)
    (haccepted : Accepted libs answers) (hplatform : answers.audio.platform = .error e) :
    synthesizeHttpOnce libs request connected.transport stream answers.audio =
      .error (.transport e) := by
  obtain ⟨written, response, target, hwritten, hread, hparse⟩ := haccepted
  rw [synthesizeHttpOnce, postBatchTtsRequest, ← hpost, hwritten]
  simp only [orThrow, bind, Except.bind, hread, hparse, prepareTtsAudioPlatform, hplatform,
    Except.mapError]

theorem meets_of_posting_none (h : posting answers = none) : Meets libs answers := by
  refine ⟨?_, ?_⟩
  · intro status hstatus
    rw [answeredStatus, h] at hstatus
    cases hstatus
  · rintro ⟨stream, -, -, hpost, -⟩
    rw [h] at hpost
    cases hpost

/-- A refusal of the answer is safe just when the status is an explicit error. -/
theorem status_of_safeFailure {e : TtsError} {status : Nat}
    (hsafe : SafeFailure libs answers (.terminal e)) (he : e ≠ .ambiguousAfterCommit)
    (hstatus : answeredStatus libs answers = some status) (h200 : status ≠ 200) : 400 ≤ status := by
  rcases hsafe.2 with hambiguous | ⟨other, hother, herror⟩ | ⟨haccepted, -⟩
  · exact absurd hambiguous he
  · rw [hstatus] at hother
    cases hother
    exact herror
  · have := haccepted.status
    rw [hstatus] at this
    cases this
    exact absurd rfl h200

/-- No failure to prepare for the audio of an accepted answer is safe. -/
theorem not_safeFailure_unprepared {e : VerificationError} (haccepted : Accepted libs answers)
    (hplatform : answers.audio.platform = .error e) : ¬ SafeFailure libs answers (.transport e) := by
  rintro ⟨-, hambiguous | ⟨status, hstatus, herror⟩ | ⟨-, hprepared, -⟩⟩
  · cases e <;> cases hambiguous
  · rw [haccepted.status] at hstatus
    cases hstatus
    omega
  · rw [hplatform] at hprepared
    cases hprepared

theorem meets_of_safe_http (hpost : posting answers = stream.write)
    (hsafe : SafeAttempt libs answers
      ⟨true, synthesizeHttpOnce libs request connected.transport stream answers.audio⟩) :
    Meets libs answers := by
  refine ⟨?_, ?_⟩
  · intro status hstatus
    by_cases h200 : status = 200
    · exact Or.inl h200
    · obtain ⟨e, he, hrefused⟩ := synthesizeHttpOnce_refused hpost hstatus h200
      exact Or.inr (status_of_safeFailure (hsafe rfl _ hrefused) he hstatus h200)
  · intro haccepted
    cases hplatform : answers.audio.platform with
    | ok _ => rfl
    | error e =>
      exact absurd (hsafe rfl _ (synthesizeHttpOnce_unprepared hpost haccepted hplatform))
        (not_safeFailure_unprepared haccepted hplatform)

theorem safe_websocket : SafeAttempt libs answers
    (synthesizeWebsocketOnce libs request answers connected) := by
  rw [synthesizeWebsocketOnce]
  split
  next =>
    intro hsubmitted
    cases hsubmitted
  next state ws _ =>
    rintro - failure hfailure
    obtain rfl := ends_commitTtsSession.of_error hfailure
    exact ⟨rfl, Or.inl rfl⟩

/-- An attempt is safe just when it meets the condition. -/
theorem safe_iff_meets :
    SafeAttempt libs answers (synthesizeOnce libs request answers) ↔ Meets libs answers := by
  rw [synthesizeOnce]
  cases hconnect : connect answers with
  | error failure =>
    have hnone : posting answers = none := by simp only [posting, hconnect]
    exact iff_of_true (fun hsubmitted => by cases hsubmitted) (meets_of_posting_none hnone)
  | ok connected =>
    dsimp only
    split
    next htarget =>
      have hpost := posting_eq hconnect htarget
      refine ⟨fun hsafe => meets_of_safe_http hpost hsafe, fun hmeets => ?_⟩
      rintro - failure hfailure
      exact (ends_synthesizeHttpOnce hmeets hpost).of_error hfailure
    next htarget =>
      have hnone : posting answers = none := by simp only [posting, hconnect, if_neg htarget]
      exact iff_of_true safe_websocket (meets_of_posting_none hnone)

/-! ### A whole call -/

/-- A call whose every attempt is safe, and in which no attempt submits after one that did. -/
structure BilledOnce (libs : Libs) (call : Call) : Prop where
  safe : ∀ step ∈ call.made, SafeAttempt libs step.1 step.2
  once : call.made.Pairwise fun step later => step.2.submitted = true → later.2.submitted = false

variable {script : Nat → AttemptAnswers}

theorem attemptsFrom_made {attempt remaining : Nat} :
    ∀ step ∈ (attemptsFrom libs request script attempt remaining).made,
      step.2 = synthesizeOnce libs request step.1 := by
  induction remaining generalizing attempt with
  | zero => simp [attemptsFrom]
  | succ remaining ih =>
    rw [attemptsFrom]
    dsimp only
    split
    · simp
    · split
      · simpa [Call.after] using fun a b hstep => ih (a, b) hstep
      · simp

/-- An attempt that is followed by another was not submitted, when every attempt is safe. -/
theorem attemptsFrom_once {attempt remaining : Nat}
    (h : ∀ step ∈ (attemptsFrom libs request script attempt remaining).made,
      SafeAttempt libs step.1 step.2) :
    (attemptsFrom libs request script attempt remaining).made.Pairwise
      fun step later => step.2.submitted = true → later.2.submitted = false := by
  induction remaining generalizing attempt with
  | zero => simp [attemptsFrom]
  | succ remaining ih =>
    rw [attemptsFrom] at h ⊢
    dsimp only at h ⊢
    split at h
    · exact List.pairwise_singleton ..
    next failure hfailure =>
      split at h
      next hagain =>
        rw [if_pos hagain]
        have hhead := h _ List.mem_cons_self
        refine List.pairwise_cons.2 ⟨?_, ih fun step hstep => h step (List.mem_cons_of_mem _ hstep)⟩
        rintro later - hsubmitted
        have hretry := (hhead hsubmitted failure hfailure).1
        rw [hagain.1] at hretry
        cases hretry
      next hagain =>
        rw [if_neg hagain]
        exact List.pairwise_singleton ..

/-- Whatever the network, the clock, the proxy lookup and the TLS setup do in a call: it is billed once,
    and every failure after a submission is final and says so, if and only if each of its attempts meets
    the condition. -/
theorem synthesize_bills_once_iff (libs : Libs) (maxAttempts : Nat) (secrets : SecretAnswers)
    (request : TtsRequest) (script : Nat → AttemptAnswers) :
    BilledOnce libs (synthesize libs maxAttempts secrets request script) ↔
      ∀ step ∈ (synthesize libs maxAttempts secrets request script).made, Meets libs step.1 := by
  have hmade : ∀ step ∈ (synthesize libs maxAttempts secrets request script).made,
      step.2 = synthesizeOnce libs request step.1 := by
    rw [synthesize]
    split
    · simp
    · exact attemptsFrom_made
  have hsafe : (∀ step ∈ (synthesize libs maxAttempts secrets request script).made,
      SafeAttempt libs step.1 step.2) ↔
      ∀ step ∈ (synthesize libs maxAttempts secrets request script).made, Meets libs step.1 := by
    refine forall₂_congr fun step hstep => ?_
    rw [hmade step hstep, safe_iff_meets]
  refine ⟨fun h => hsafe.1 h.safe, fun h => ⟨hsafe.2 h, ?_⟩⟩
  have hall := hsafe.2 h
  rw [synthesize] at hall ⊢
  split at hall
  next hrefused =>
    exact List.Pairwise.nil
  next => exact attemptsFrom_once hall

/-! ### A call that is billed three times -/

def sampleUrl : String := "https://dashscope-result-bj.oss-cn-beijing.aliyuncs.com/a"

def sampleBody : List UInt8 :=
  ("\x7b\"output\":\x7b\"finish_reason\":\"stop\",\"audio\":\x7b\"url\":\"" ++ sampleUrl ++
    "\"\x7d\x7d\x7d").toUTF8.data.toList

/-- Libraries that know the one answer of the server. -/
def sampleLibs : Libs where
  parseResponse _ := some ⟨1, 200, [("Content-Length", [0x31, 0x31, 0x31])]⟩
  parseJson _ := some (.obj [("output", .obj [("finish_reason", .str "stop"),
    ("audio", .obj [("url", .str sampleUrl)])])])
  decodeBase64 _ := none
  websocketAccept _ := []

/-- The POST is written and answered in full; the platform for the audio is not there in time. -/
def sampleAnswers : AttemptAnswers where
  tls := .ok
    { arriving := "HTTP/1.1 200 OK\r\nContent-Length: 111\r\n\r\n".toUTF8.data.toList ++ sampleBody
      reads := [4096], writes := [true] }
  audio := { platform := .error .unavailable }

def sampleCall : Call :=
  synthesize sampleLibs 3 {} ⟨"Hi", "longanfengyue", ""⟩ fun _ => sampleAnswers

theorem synthesize_bills_thrice :
    sampleCall.made.map (·.2.submitted) = [true, true, true] ∧ ¬ BilledOnce sampleLibs sampleCall := by
  have hmade : sampleCall.made.map (·.2.submitted) = [true, true, true] := by decide +kernel
  refine ⟨hmade, fun hbilled => ?_⟩
  have honce : (sampleCall.made.map (·.2.submitted)).Pairwise
      fun submitted later => submitted = true → later = false := List.pairwise_map.2 hbilled.once
  rw [hmade] at honce
  exact absurd honce (by decide)

end CodexKeyboard.Tts
