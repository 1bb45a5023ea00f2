import CodexKeyboard.Tts.Client

/-! After a submission: how the session over the WebSocket and the two requests over HTTP may fail. -/

namespace CodexKeyboard.Tts

open Schemes.Transact Summary Store Audio

/-! ### The session after its commit -/

/-- Every failure is the one that forbids a retry, and the session goes on as a submitted one. -/
abbrev StaysSubmitted (x : Except AttemptFailure TtsSessionState) : Prop :=
  Ends (· = ambiguousAfterCommit) (fun state => state.requestSubmitted = true) x

variable {libs : Libs} {event : Json} {state : TtsSessionState} {ws : WebSocket}

theorem failure_of_submitted (h : state.requestSubmitted = true) :
    state.failure = ambiguousAfterCommit := by
  simp [TtsSessionState.failure, protocolFailure, h]

theorem protocolFailure_of_submitted {submitted : Bool} (h : submitted = true) :
    protocolFailure submitted = ambiguousAfterCommit := by
  rw [h]
  rfl

theorem ends_serviceId {value : Option Json} {submitted : Bool} (h : submitted = true) :
    Ends (· = ambiguousAfterCommit) (fun _ => True) (serviceId value submitted) :=
  (ends_orThrow (P := (· = ambiguousAfterCommit)) (protocolFailure_of_submitted h)).weaken (fun _ he => he)
    fun _ _ => trivial

theorem ends_requireServiceId {value : Option Json} {allowEmpty submitted : Bool}
    (h : submitted = true) :
    Ends (· = ambiguousAfterCommit) (fun _ => True) (requireServiceId value allowEmpty submitted) := by
  rw [requireServiceId]
  have hfail := protocolFailure_of_submitted h
  refine ends_orThrow_bind hfail fun value _ => ?_
  exact (ends_ensure (P := (· = ambiguousAfterCommit)) hfail).weaken (fun _ he => he) fun _ _ => trivial

theorem stays_registerEvent (h : state.requestSubmitted = true) :
    StaysSubmitted (registerEvent event state) := by
  rw [registerEvent]
  refine ends_ensure_bind (failure_of_submitted h) fun _ => ?_
  refine (ends_serviceId h).bind fun eventId _ => ?_
  exact ends_ensure_bind (failure_of_submitted h) fun _ => h

theorem stays_markCommitted (h : state.requestSubmitted = true) :
    StaysSubmitted (markCommitted event state) := by
  rw [markCommitted]
  refine ends_ensure_bind (failure_of_submitted h) fun _ => ?_
  exact (ends_requireServiceId h).bind fun _ _ => h

theorem stays_parseResponseCreated {voice : String} (h : state.requestSubmitted = true) :
    StaysSubmitted (parseResponseCreated voice event state) := by
  rw [parseResponseCreated]
  have hfail := failure_of_submitted h
  refine ends_ensure_bind hfail fun _ => ?_
  refine ends_orThrow_bind hfail fun response _ => ?_
  refine (ends_serviceId h).bind fun responseId _ => ?_
  exact ends_ensure_bind hfail fun _ => h

theorem stays_bindItemId {itemId : String} (h : state.requestSubmitted = true) :
    StaysSubmitted (bindItemId itemId state) := by
  unfold bindItemId
  split
  · split
    · exact h
    · exact failure_of_submitted h
  · exact h

theorem stays_contentPart {done : Bool} (h : state.requestSubmitted = true) :
    StaysSubmitted (contentPart done event state) := by
  rw [contentPart]
  refine ends_ensure_bind (failure_of_submitted h) fun _ => ?_
  refine (ends_serviceId h).bind fun itemId _ => ?_
  refine (stays_bindItemId h).bind fun bound hbound => ?_
  refine ends_ensure_bind (failure_of_submitted hbound) fun _ => ?_
  cases done <;> exact hbound

theorem stays_outputItem {done : Bool} (h : state.requestSubmitted = true) :
    StaysSubmitted (outputItem done event state) := by
  rw [outputItem]
  refine ends_ensure_bind (failure_of_submitted h) fun _ => ?_
  refine (ends_serviceId h).bind fun itemId _ => ?_
  refine (stays_bindItemId h).bind fun bound hbound => ?_
  refine ends_ensure_bind (failure_of_submitted hbound) fun _ => ?_
  cases done <;> exact hbound

theorem stays_validateResponseScaffold (h : state.requestSubmitted = true) :
    StaysSubmitted (validateResponseScaffold event state) := by
  rw [validateResponseScaffold]
  have hfail := failure_of_submitted h
  refine ends_orThrow_bind hfail fun responseId _ => ?_
  refine ends_ensure_bind hfail fun _ => ?_
  refine ends_ensure_bind hfail fun _ => ?_
  split
  · exact stays_contentPart h
  split
  · exact stays_contentPart h
  split
  · exact stays_outputItem h
  split
  · exact stays_outputItem h
  · exact hfail

theorem stays_validateAudioIdentity (h : state.requestSubmitted = true) :
    StaysSubmitted (validateAudioIdentity event state) := by
  rw [validateAudioIdentity]
  have hfail := failure_of_submitted h
  refine ends_orThrow_bind hfail fun responseId _ => ?_
  refine (ends_serviceId h).bind fun itemId _ => ?_
  exact ends_ensure_bind hfail fun _ => stays_bindItemId h

theorem stays_appendAudioDelta (h : state.requestSubmitted = true) :
    StaysSubmitted (appendAudioDelta libs event state) := by
  rw [appendAudioDelta]
  refine (stays_validateAudioIdentity h).bind fun state h => ?_
  have hfail := failure_of_submitted h
  refine ends_ensure_bind hfail fun _ => ?_
  refine ends_ensure_bind hfail fun _ => ?_
  refine ends_orThrow_bind hfail fun delta _ => ?_
  refine ends_orThrow_bind hfail fun decoded _ => ?_
  refine ends_ensure_bind hfail fun _ => ?_
  exact ends_ensure_bind (by rfl) fun _ => h

theorem stays_markAudioDone (h : state.requestSubmitted = true) :
    StaysSubmitted (markAudioDone event state) := by
  rw [markAudioDone]
  refine (stays_validateAudioIdentity h).bind fun state h => ?_
  exact ends_ensure_bind (failure_of_submitted h) fun _ => h

theorem stays_markResponseDone (h : state.requestSubmitted = true) :
    StaysSubmitted (markResponseDone event state) := by
  rw [markResponseDone]
  have hfail := failure_of_submitted h
  refine ends_ensure_bind hfail fun _ => ?_
  refine ends_orThrow_bind hfail fun response _ => ?_
  exact ends_ensure_bind hfail fun _ => h

theorem classify_of_submitted : classifyTtsServiceError event true = ambiguousAfterCommit := rfl

theorem stays_handleEvent {voice : String} (h : state.requestSubmitted = true) :
    StaysSubmitted (handleEvent libs voice event state) := by
  rw [handleEvent]
  refine ends_orThrow_bind (by rfl) fun eventType _ => ?_
  split
  · exact stays_markCommitted h
  split
  · exact stays_parseResponseCreated h
  split
  · exact stays_validateResponseScaffold h
  split
  · exact stays_appendAudioDelta h
  split
  · exact stays_markAudioDone h
  split
  · exact stays_markResponseDone h
  split
  · rw [h]
    exact classify_of_submitted
  · exact failure_of_submitted h

theorem frameFailure_of_submitted (e : VerificationError) :
    frameFailure true e = ambiguousAfterCommit := by
  cases e <;> rfl

/-- However the peer goes on, an event that cannot be read is an ambiguous end. -/
theorem ends_readTtsEvent :
    Ends (· = ambiguousAfterCommit) (fun _ => True) (readTtsEvent libs true ws) := by
  generalize hsubmitted : true = submitted
  fun_induction readTtsEvent libs submitted ws with
  | case1 ws e => exact hsubmitted ▸ frameFailure_of_submitted e
  | case2 => exact hsubmitted ▸ rfl
  | case3 ws frame ws₁ hframe _ payload ws₂ hmessage =>
    exact ends_orThrow_bind (hsubmitted ▸ rfl) fun _ _ => trivial
  | case4 ws frame ws₁ hframe _ ws₂ hmessage ih => exact ih
  | case5 => exact hsubmitted ▸ rfl
  | case6 ws frame ws₁ hframe _ _ ws₂ hpong ih => exact ih
  | case7 ws frame ws₁ hframe _ _ _ ih => exact ih
  | case8 => exact hsubmitted ▸ rfl

theorem stays_listen {voice : String} (h : state.requestSubmitted = true) :
    StaysSubmitted (listen libs voice state ws) := by
  fun_induction listen libs voice state ws with
  | case1 => exact h
  | case2 state ws _ failure hevent => exact ends_readTtsEvent.of_error hevent
  | case3 state ws _ event ws' hevent ih =>
    refine (stays_registerEvent h).bind fun registered hregistered => ?_
    refine (stays_handleEvent hregistered).bind fun handled hhandled => ?_
    exact ih handled hhandled

/-- From the write of the commit on, a session fails in one way only. -/
theorem ends_commitTtsSession {request : TtsRequest} {transport : TransportRoute}
    {eventId : Nat → String} :
    Ends (· = ambiguousAfterCommit) (fun _ => True)
      (commitTtsSession libs request transport eventId state ws) := by
  rw [commitTtsSession]
  refine ends_mapError_bind rfl fun ws _ => ?_
  refine (stays_listen rfl).bind fun state _ => ?_
  exact ends_ensure_bind rfl fun _ => trivial

end CodexKeyboard.Tts
