import CodexKeyboard.Usb.Transport

/-! The five classes of reports share the endpoint fairly: whoever waits sees at most one report of each other class. -/

namespace CodexKeyboard.Usb

open Schemes Keyboard

variable {transport : UsbHidTransport} {call : UsbCall} {answers : UsbAnswers} {kind : UsbHidEndpointReportKind}
  {expectedEpoch remaining : ℕ} {events rest : List UsbEvent} {changes : UsbBus → UsbChange → Prop}

def UsbEvent.isSent : UsbEvent → Bool
  | .sent _ _ => true
  | .taken _ _ => false

/-! ### Only an accepted report turns the arbiter -/

theorem fixedText_arbiter (totalChunks nowMs epoch : ℕ) (chunks : List Config.Bytes) (index : ℕ) :
    (UsbHidTransport.pushFixedText totalChunks nowMs epoch transport index chunks).1.endpointArbiter =
      transport.endpointArbiter := by
  induction chunks generalizing transport index with
  | nil => rfl
  | cons chunk chunks ih =>
    have hpush : (transport.pushAppCommandReportLocked kAppCommandKindFixedText (UInt8.ofNat index)
        (UInt8.ofNat totalChunks) chunk kAppCommandStatefulReserve nowMs epoch).1.endpointArbiter =
        transport.endpointArbiter := by
      rw [UsbHidTransport.pushAppCommandReportLocked]
      split <;> rfl
    rw [UsbHidTransport.pushFixedText]
    split
    · rw [ih, hpush]
    · exact hpush

theorem take_arbiter (nowMs epoch : ℕ) (call : UsbCall) :
    (call.take transport nowMs epoch).1.endpointArbiter = transport.endpointArbiter := by
  cases call with
  | keyboardReport snapshot reportClass =>
    rw [UsbCall.take, UsbHidTransport.queueKeyboardReport]
    split
    · rfl
    · dsimp only
      split <;> rfl
  | mouseWheel vertical horizontal => rfl
  | tapHotkey tap =>
    rw [UsbCall.take, UsbHidTransport.pushSyntheticOperation]
    split <;> rfl
  | typeText text =>
    rw [UsbCall.take, UsbHidTransport.pushSyntheticOperation]
    split <;> rfl
  | appCommand commandKind chunkIndex totalChunks data reservedFreeSlots =>
    rw [UsbCall.take, UsbHidTransport.pushAppCommandReportLocked]
    split <;> rfl
  | fixedText text =>
    rw [UsbCall.take]
    split
    · rfl
    · exact fixedText_arbiter _ _ _ _ _
  | statusResponse requestId json =>
    rw [UsbCall.take, UsbHidTransport.queueStatusResponse]
    split <;> rfl
  | speakerAssetsResponse runtimeReplySequence frame =>
    rw [UsbCall.take, UsbHidTransport.queueSpeakerAssetsResponse]
    split <;> rfl

theorem pop_arbiter : transport.popSyntheticOperation.endpointArbiter = transport.endpointArbiter := by
  rw [UsbHidTransport.popSyntheticOperation]
  split <;> rfl

theorem pair_arbiter (pressed restored : HidKeyboardSnapshot) (nowMs epoch : ℕ) :
    (transport.pushSyntheticPair pressed restored nowMs epoch).1.endpointArbiter = transport.endpointArbiter := by
  rw [UsbHidTransport.pushSyntheticPair]
  generalize (if restored.empty = true then HidReportClass.keyboardAllReleased else .keyboardRelease) = restoreClass
  split <;> rfl

theorem pump_arbiter (nowMs : ℕ) :
    (transport.pumpSyntheticKeyboardReports nowMs).endpointArbiter = transport.endpointArbiter := by
  rw [UsbHidTransport.pumpSyntheticKeyboardReports]
  split
  · rfl
  split
  · rfl
  split
  · exact pop_arbiter
  split
  · exact pop_arbiter
  split
  · rfl
  next pressed restored _ =>
    split
    · exact pop_arbiter
    dsimp only
    split
    · exact pair_arbiter pressed restored nowMs _
    split
    · exact pair_arbiter pressed restored nowMs _
    · rw [pop_arbiter]
      exact pair_arbiter pressed restored nowMs _

/-- An attempt of a class leaves the arbiter, and what it sends is of that class. -/
structure Attempted (transport : UsbHidTransport) (kind : UsbHidEndpointReportKind)
    (attempt : UsbHidTransport.PollAttempt) :
    Prop where
  arbiter : attempt.transport.endpointArbiter = transport.endpointArbiter
  sent : attempt.result = .accepted → ∃ epoch report, attempt.sent = [.sent epoch report] ∧ report.kind = kind
  silent : attempt.result ≠ .accepted → attempt.sent = []

theorem attempted_silent {after : UsbHidTransport} {result : PollAttemptResult}
    (harbiter : after.endpointArbiter = transport.endpointArbiter) (hresult : result ≠ .accepted) :
    Attempted transport kind ⟨after, result, []⟩ :=
  ⟨harbiter, fun h => absurd h hresult, fun _ => rfl⟩

theorem attempted_sent {after : UsbHidTransport} {epoch : ℕ} {report : UsbReport}
    (harbiter : after.endpointArbiter = transport.endpointArbiter) (hkind : report.kind = kind) :
    Attempted transport kind ⟨after, .accepted, [.sent epoch report]⟩ :=
  ⟨harbiter, fun _ => ⟨epoch, report, rfl, hkind⟩, fun h => absurd rfl h⟩

theorem trySend_attempted (transport : UsbHidTransport) (answers : UsbAnswers) (kind : UsbHidEndpointReportKind) :
    Attempted transport kind (transport.trySend answers kind) := by
  cases kind with
  | keyboard =>
    rw [UsbHidTransport.trySend, UsbHidTransport.trySendKeyboardReport]
    split
    · exact attempted_silent rfl (by decide)
    split
    · exact attempted_silent rfl (by decide)
    split
    · exact attempted_silent rfl (by decide)
    · exact attempted_sent rfl rfl
  | mouseWheel =>
    rw [UsbHidTransport.trySend, UsbHidTransport.trySendMouseWheelReport]
    split
    · exact attempted_silent rfl (by decide)
    dsimp only
    split
    · exact attempted_silent rfl (by decide)
    split
    · exact attempted_silent rfl (by decide)
    · exact attempted_sent rfl rfl
  | appCommand =>
    rw [UsbHidTransport.trySend, UsbHidTransport.trySendAppCommandReport]
    split
    · exact attempted_silent rfl (by decide)
    split
    · exact attempted_silent rfl (by decide)
    split
    · exact attempted_silent rfl (by decide)
    · exact attempted_sent rfl rfl
  | statusResponse =>
    rw [UsbHidTransport.trySend, UsbHidTransport.trySendStatusResponse]
    split
    · exact attempted_silent rfl (by decide)
    split
    · exact attempted_silent rfl (by decide)
    split
    · exact attempted_silent rfl (by decide)
    split
    · exact attempted_silent rfl (by decide)
    · exact attempted_sent rfl rfl
  | speakerAssets =>
    rw [UsbHidTransport.trySend, UsbHidTransport.trySendSpeakerAssetsResponse]
    split
    · exact attempted_silent rfl (by decide)
    split
    · exact attempted_silent rfl (by decide)
    split
    · exact attempted_silent rfl (by decide)
    · exact attempted_sent rfl rfl

/-! ### The wait of a class -/

theorem clear_pending (kind : UsbHidEndpointReportKind) :
    transport.clearPendingReportsOnUnmount.pending.has kind = false := by
  cases kind <;> rfl

theorem reset_arbiter (h : transport.applyPendingLifetimeReset.pending.has kind = true) :
    transport.applyPendingLifetimeReset.endpointArbiter = transport.endpointArbiter := by
  rw [UsbHidTransport.applyPendingLifetimeReset] at h ⊢
  split
  next hpending =>
    rw [if_pos hpending] at h
    exact absurd ((clear_pending kind).symm.trans h) Bool.false_ne_true
  · rfl

/-- The reports that were sent, of which none is of the class, and the way that is left, do not exceed the way
    there was. -/
def Nears (kind : UsbHidEndpointReportKind) (before after : UsbHidTransport) (events : List UsbEvent) : Prop :=
  (∀ epoch report, .sent epoch report ∈ events → report.kind ≠ kind) →
    (events.filter UsbEvent.isSent).length + after.endpointArbiter.ahead kind ≤ before.endpointArbiter.ahead kind

theorem nears_silent {after : UsbHidTransport} (harbiter : after.endpointArbiter = transport.endpointArbiter)
    (hsilent : events.filter UsbEvent.isSent = []) : Nears kind transport after events := by
  intro _
  rw [hsilent, harbiter, List.length_nil, Nat.zero_add]

theorem attempt_nears (hwaits : transport.pending.has kind = true) :
    Nears kind transport (transport.attempt answers remaining).1.transport (transport.attempt answers remaining).2 := by
  rw [UsbHidTransport.attempt]
  split
  · exact nears_silent rfl rfl
  next served hselect =>
    obtain ⟨harbiter, hsent, hsilent⟩ := trySend_attempted transport answers served
    dsimp only
    split
    next haccepted =>
      obtain ⟨epoch, report, hevents, hkind⟩ := hsent haccepted
      intro hother
      rw [hevents] at hother ⊢
      have hne : served ≠ kind := hkind ▸ hother epoch report (List.mem_singleton.2 rfl)
      have hnear := UsbHidEndpointArbiter.ahead_markAccepted hne
        ((UsbHidEndpointArbiter.select_some hselect).2 kind hwaits)
      rw [Nat.add_comm]
      exact hnear
    next hretry =>
      refine nears_silent harbiter ?_
      rw [hsilent (by rw [hretry]; decide)]
      rfl
    next haccepted _ =>
      refine nears_silent harbiter ?_
      rw [hsilent haccepted]
      rfl

theorem letIn_nears : Nears kind transport (transport.letIn call expectedEpoch answers).1.transport
    (transport.letIn call expectedEpoch answers).2 := by
  rw [UsbHidTransport.letIn]
  split
  · exact nears_silent rfl rfl
  dsimp only
  split
  · exact nears_silent (take_arbiter _ _ _) rfl
  · exact nears_silent (take_arbiter _ _ _) rfl

theorem section_nears {next : UsbSection} (hwaits : transport.pending.has kind = true)
    (hstill : (transport.runSection answers next).1.transport.pending.has kind = true) :
    Nears kind transport (transport.runSection answers next).1.transport (transport.runSection answers next).2 := by
  cases next with
  | idle => exact nears_silent rfl rfl
  | letIn call expectedEpoch => exact letIn_nears
  | pollReset => exact nears_silent (reset_arbiter hstill) rfl
  | pollMounted =>
    rw [UsbHidTransport.runSection] at hstill ⊢
    split
    next hgone =>
      rw [if_pos hgone] at hstill
      exact absurd ((clear_pending kind).symm.trans hstill) Bool.false_ne_true
    · exact nears_silent rfl rfl
  | pump => exact nears_silent (pump_arbiter _) rfl
  | attempt remaining => exact attempt_nears hwaits

theorem step_nears {first last : UsbOwner} (hstep : UsbStep changes first events last)
    (hwaits : first.transport.pending.has kind = true) (hstill : last.transport.pending.has kind = true) :
    Nears kind first.transport last.transport events := by
  cases hstep with
  | change change => exact nears_silent rfl rfl
  | request call expectedEpoch hidle hbegins hknown => exact nears_silent (reset_arbiter hstill) rfl
  | poll hidle => exact nears_silent rfl rfl
  | run answers => exact section_nears hwaits hstill

theorem run_last {holds : UsbOwner → Prop} {first last : UsbOwner} (h : UsbRun changes holds first events last) :
    holds last := by
  cases h with
  | refl hholds => exact hholds
  | step hrun hstep hholds => exact hholds

theorem run_nears {first last : UsbOwner}
    (hrun : UsbRun changes (fun owner => owner.transport.pending.has kind = true) first events last) :
    Nears kind first.transport last.transport events := by
  induction hrun with
  | refl => exact nears_silent rfl rfl
  | step hrun hstep hstill ih =>
    intro hother
    have hbefore := ih fun epoch report h => hother epoch report (List.mem_append_left _ h)
    have hafter := step_nears hstep (run_last hrun) hstill fun epoch report h =>
      hother epoch report (List.mem_append_right _ h)
    rw [List.filter_append, List.length_append]
    omega

/-- As long as a class has a report pending, however requests, polls and changes of the endpoint of any kind
    interleave, at most four reports of the other classes are accepted before one of its own. -/
theorem waits_for_four {first last : UsbOwner}
    (hrun : UsbRun changes (fun owner => owner.transport.pending.has kind = true) first events last)
    (hother : ∀ epoch report, .sent epoch report ∈ events → report.kind ≠ kind) :
    (events.filter UsbEvent.isSent).length ≤ 4 := by
  have hnears := run_nears hrun hother
  have hway := UsbHidEndpointArbiter.ahead_le first.transport.endpointArbiter kind
  omega

/-- A key and an app command wait for the endpoint. -/
def busyEndpoint : UsbOwner where
  transport :=
    { bus := { lifetime := { tinyusbMounted := true, epoch := 1 }, tudMounted := true }
      pendingKeyboardReports := (HidReportQueue.pushClassified {} (keyboardPush { modifier := 1 } 0 1) .keyboardPress).1
      pendingAppCommandReports :=
        (HidReportQueue.push {}
          { reportId := kReportIdAppCommand, data := some (appCommandBytes 3 0 1 []), len := kAppCommandReportPayloadLen
            queuedMs := 0, usbEpoch := 1 } 2).1 }
  next := .attempt 4

theorem waits_for_four_press : ∃ last,
    UsbRun (fun _ _ => True) (fun owner => owner.transport.pending.has .appCommand = true) busyEndpoint
        [.sent 1 (.keyboard [1, 0, 0, 0, 0, 0, 0, 0])] last ∧
      ([.sent 1 (.keyboard [1, 0, 0, 0, 0, 0, 0, 0])].filter UsbEvent.isSent).length ≤ 4 := by
  have hwaits : busyEndpoint.transport.pending.has .appCommand = true := by decide +kernel
  have hstill :
      (busyEndpoint.transport.runSection {} busyEndpoint.next).1.transport.pending.has .appCommand = true := by
    decide +kernel
  have hevents : (busyEndpoint.transport.runSection {} busyEndpoint.next).2 =
      [.sent 1 (.keyboard [1, 0, 0, 0, 0, 0, 0, 0])] := by decide +kernel
  have hstart : UsbRun (fun _ _ => True) (fun owner => owner.transport.pending.has .appCommand = true) busyEndpoint []
      busyEndpoint := .refl busyEndpoint hwaits
  have hrun := hstart.step (.run busyEndpoint {}) hstill
  rw [List.nil_append, hevents] at hrun
  refine ⟨_, hrun, waits_for_four hrun fun epoch report hsent => ?_⟩
  cases List.mem_singleton.1 hsent
  decide

end CodexKeyboard.Usb
