import CodexKeyboard.Usb.Typed

/-! Over every run of the transport, every section keeps the typing of the endpoint's lifetime. -/

namespace CodexKeyboard.Usb

open Schemes Keyboard Config

variable {transport after : UsbHidTransport} {events rest : List UsbEvent} {newest epoch : ℕ} {answers : UsbAnswers}

theorem KeysKept.pumped (h : KeysKept newest transport events) (nowMs : ℕ) :
    KeysKept newest (transport.pumpSyntheticKeyboardReports nowMs) events := by
  rw [UsbHidTransport.pumpSyntheticKeyboardReports]
  split
  · exact h
  next hqueue =>
    have hempty : transport.pendingKeyboardReports.contents = [] := by
      simpa only [Bool.not_eq_true', Bool.not_eq_false, List.isEmpty_iff] using hqueue
    split
    · exact h
    next operation hfront =>
      rw [Ring.front_eq] at hfront
      obtain ⟨operations, hcontents⟩ := List.head?_eq_some_iff.1 hfront
      obtain ⟨htypable, hzero, hknown⟩ := h.formed.operations operation (hcontents ▸ List.mem_cons_self)
      rw [if_neg hzero]
      obtain ⟨synthetic, hnext, -, -⟩ := typable_next htypable
      rw [hnext]
      dsimp only
      split
      · exact h
      next pressed restored hcompose =>
        cases compose_restores hcompose
        split
        next hlock =>
          refine h.dropOperation hcontents fun hlive hnow => ?_
          obtain ⟨-, actions, reports, hcurrent⟩ := h.here hlive hnow
          have hepoch := hcurrent.pending operation (hcontents ▸ List.mem_cons_self)
          have hheld := lockCurrentEpoch_iff.2 ⟨hzero, hlive, hnow.trans hepoch.symm⟩
          rw [hheld] at hlock
          exact absurd hlock (by decide)
        next hlock =>
          have hheld : transport.bus.lockCurrentEpoch operation.usbEpoch = true := by simpa using hlock
          obtain ⟨hepoch, hlive, hnow⟩ := h.locked hheld hknown
          split
          next hrefused =>
            exact h.unheard (pushSyntheticPair_refused hempty (by simpa using hrefused))
          next hpair =>
            obtain ⟨queue, hpushed, hruns, hqueued⟩ := pushSyntheticPair_queued hempty (by simpa using hpair)
            rw [hpushed]
            have hsnapshots : ∀ report ∈ queue.contents, IsSnapshot newest report := hepoch ▸ hqueued
            split
            next rest htyped =>
              refine h.types hlive hnow hempty hcontents hnext hcompose rfl rfl hruns hsnapshots ?_
              rw [htyped]
              exact Ring.contents_setFront hcontents
            next htyped =>
              obtain ⟨hbus, hkeyboard, hphysical⟩ :=
                popSyntheticOperation_keeps { transport with pendingKeyboardReports := queue }
              refine h.types hlive hnow hempty hcontents hnext hcompose hbus hphysical (hkeyboard ▸ hruns)
                (hkeyboard ▸ hsnapshots) ?_
              rw [htyped]
              exact popSyntheticOperation_contents hcontents

/-! ### An attempt of a poll -/

theorem dropKeyboardReport_contents {report : QueuedHidReport} {reports : List QueuedHidReport}
    (h : transport.pendingKeyboardReports.contents = report :: reports) :
    (transport.dropKeyboardReport report.sequence).pendingKeyboardReports.contents = reports := by
  obtain ⟨queue, hpop, hcontents⟩ := HidReportQueue.popIfSequence_head h
  rw [UsbHidTransport.dropKeyboardReport, hpop]
  exact hcontents

/-- The head of the queue is sent, or dropped where its lifetime is over. -/
theorem KeysKept.sends (h : KeysKept newest transport events) (accepts : Bool) :
    KeysKept newest (transport.trySendKeyboardReport accepts).transport
      (events ++ (transport.trySendKeyboardReport accepts).sent) := by
  rw [UsbHidTransport.trySendKeyboardReport]
  split
  · rw [List.append_nil]
    exact h
  next report hfront =>
    rw [HidReportQueue.front_eq] at hfront
    obtain ⟨reports, hcontents⟩ := List.head?_eq_some_iff.1 hfront
    obtain ⟨hid, hlen, hzero, hknown⟩ := h.formed.reports report (hcontents ▸ List.mem_cons_self)
    have hdropped := dropKeyboardReport_contents hcontents
    have hformed : WellFormed newest (transport.dropKeyboardReport report.sequence) := by
      refine ⟨fun other hother => ?_, h.formed.operations⟩
      rw [hdropped] at hother
      exact h.formed.reports other (hcontents ▸ List.mem_cons_of_mem _ hother)
    split
    next hdrop =>
      rw [List.append_nil]
      refine h.stale rfl hformed fun hlive hnow => ?_
      obtain ⟨-, actions, typed, hcurrent⟩ := h.here hlive hnow
      have hepoch := hcurrent.queued report (hcontents ▸ List.mem_cons_self)
      have hheld := lockCurrentEpoch_iff.2 ⟨hzero, hlive, hnow.trans hepoch.symm⟩
      rcases hdrop with hbad | hbad | hbad | hbad
      · exact hbad hid
      · exact hbad hlen
      · exact hzero hbad
      · exact Bool.false_ne_true (hbad.symm.trans hheld)
    next hgood =>
      split
      · rw [List.append_nil]
        exact h
      · have hheld : transport.bus.lockCurrentEpoch report.usbEpoch = true := by
          by_contra hnot
          exact hgood (.inr (.inr (.inr (Bool.eq_false_iff.2 hnot))))
        obtain ⟨hepoch, hlive, hnow⟩ := h.locked hheld hknown
        obtain ⟨-, actions, typed, hcurrent⟩ := h.here hlive hnow
        have hevent : (UsbEvent.sent report.usbEpoch (.keyboard report.data)).epoch = newest := hepoch
        refine h.goes_on actions typed rfl hformed (fun event hin => (List.mem_singleton.1 hin) ▸ hevent) hlive hnow
          ⟨hcurrent.typing, ?_, ?_, ?_, fun other hother => ?_, hcurrent.pending⟩
        · rw [takenSnapshots_snoc hevent, hcurrent.held]
          exact (List.append_nil _).symm
        · rw [takenTaps_snoc hevent, ← hcurrent.taps]
          exact (List.append_nil _).symm
        · have hsent := hcurrent.sent
          rw [hcontents, List.map_cons] at hsent
          rw [sentKeyboard_snoc hevent, hdropped, List.append_assoc]
          exact hsent
        · rw [hdropped] at hother
          exact hcurrent.queued other (hcontents ▸ List.mem_cons_of_mem _ hother)

/-- The other classes do not touch the keyboard. -/
structure Apart (before : UsbHidTransport) (attempt : UsbHidTransport.PollAttempt) : Prop where
  same : SameKeys before attempt.transport
  silent : ∀ event ∈ attempt.sent, event.Silent

theorem apart_unsent {result : PollAttemptResult} (hsame : SameKeys transport after) :
    Apart transport ⟨after, result, []⟩ :=
  ⟨hsame, fun _ hevent => absurd hevent List.not_mem_nil⟩

theorem apart_sent {result : PollAttemptResult} {event : UsbEvent} (hsame : SameKeys transport after)
    (hsilent : event.Silent) :
    Apart transport ⟨after, result, [event]⟩ :=
  ⟨hsame, fun _ hevent => (List.mem_singleton.1 hevent) ▸ hsilent⟩

theorem trySend_apart (transport : UsbHidTransport) (answers : UsbAnswers) {kind : UsbHidEndpointReportKind}
    (hkind : kind ≠ .keyboard) :
    Apart transport (transport.trySend answers kind) := by
  cases kind with
  | keyboard => exact absurd rfl hkind
  | mouseWheel =>
    rw [UsbHidTransport.trySend, UsbHidTransport.trySendMouseWheelReport]
    split
    · exact apart_unsent (.refl transport)
    dsimp only
    split
    · exact apart_unsent ⟨rfl, rfl, rfl, rfl⟩
    split
    · exact apart_unsent (.refl transport)
    · exact apart_sent ⟨rfl, rfl, rfl, rfl⟩ ⟨rfl, rfl, rfl⟩
  | appCommand =>
    rw [UsbHidTransport.trySend, UsbHidTransport.trySendAppCommandReport]
    split
    · exact apart_unsent (.refl transport)
    split
    · exact apart_unsent ⟨rfl, rfl, rfl, rfl⟩
    split
    · exact apart_unsent (.refl transport)
    · exact apart_sent ⟨rfl, rfl, rfl, rfl⟩ ⟨rfl, rfl, rfl⟩
  | statusResponse =>
    rw [UsbHidTransport.trySend, UsbHidTransport.trySendStatusResponse]
    split
    · exact apart_unsent (.refl transport)
    split
    · exact apart_unsent ⟨rfl, rfl, rfl, rfl⟩
    split
    · exact apart_unsent ⟨rfl, rfl, rfl, rfl⟩
    split
    · exact apart_unsent (.refl transport)
    · exact apart_sent ⟨rfl, rfl, rfl, rfl⟩ ⟨rfl, rfl, rfl⟩
  | speakerAssets =>
    rw [UsbHidTransport.trySend, UsbHidTransport.trySendSpeakerAssetsResponse]
    split
    · exact apart_unsent (.refl transport)
    split
    · exact apart_unsent ⟨rfl, rfl, rfl, rfl⟩
    split
    · exact apart_unsent (.refl transport)
    · exact apart_sent ⟨rfl, rfl, rfl, rfl⟩ ⟨rfl, rfl, rfl⟩

theorem KeysKept.tries (h : KeysKept newest transport events) (answers : UsbAnswers) (kind : UsbHidEndpointReportKind) :
    KeysKept newest (transport.trySend answers kind).transport (events ++ (transport.trySend answers kind).sent) := by
  by_cases hkind : kind = .keyboard
  · rw [hkind]
    exact h.sends answers.accepts
  · obtain ⟨hsame, hsilent⟩ := trySend_apart transport answers hkind
    exact h.silent hsame hsilent

theorem KeysKept.attempted (h : KeysKept newest transport events) (answers : UsbAnswers) (remaining : ℕ) :
    KeysKept newest (transport.attempt answers remaining).1.transport
      (events ++ (transport.attempt answers remaining).2) := by
  rw [UsbHidTransport.attempt]
  split
  · rw [List.append_nil]
    exact h
  next kind hselect =>
    have htried := h.tries answers kind
    dsimp only
    split
    · exact htried.unheard ⟨rfl, rfl, rfl, rfl⟩
    · exact htried
    · exact htried

/-! ### A request is let in -/

theorem appCommand_same (transport : UsbHidTransport) (commandKind chunkIndex totalChunks : UInt8) (data : Bytes)
    (reservedFreeSlots nowMs epoch : ℕ) :
    SameKeys transport
      (transport.pushAppCommandReportLocked commandKind chunkIndex totalChunks data reservedFreeSlots nowMs
        epoch).1 := by
  rw [UsbHidTransport.pushAppCommandReportLocked]
  split
  · exact .refl transport
  · exact ⟨rfl, rfl, rfl, rfl⟩

theorem fixedText_same (transport : UsbHidTransport) (totalChunks nowMs epoch : ℕ) (chunks : List Bytes) (index : ℕ) :
    SameKeys transport (UsbHidTransport.pushFixedText totalChunks nowMs epoch transport index chunks).1 := by
  induction chunks generalizing transport index with
  | nil => exact .refl transport
  | cons chunk chunks ih =>
    have hpush := appCommand_same transport kAppCommandKindFixedText (UInt8.ofNat index) (UInt8.ofNat totalChunks) chunk
      kAppCommandStatefulReserve nowMs epoch
    rw [UsbHidTransport.pushFixedText]
    split
    · obtain ⟨hbus, hkeyboard, hoperations, hphysical⟩ := ih (transport.pushAppCommandReportLocked
        kAppCommandKindFixedText (UInt8.ofNat index) (UInt8.ofNat totalChunks) chunk kAppCommandStatefulReserve nowMs
        epoch).1 (index + 1)
      exact ⟨hbus.trans hpush.bus, hkeyboard.trans hpush.keyboard, hoperations.trans hpush.operations,
        hphysical.trans hpush.physical⟩
    · exact hpush

/-- A request for the keyboard. -/
def UsbCall.types : UsbCall → Bool
  | keyboardReport _ _ => true
  | tapHotkey _ => true
  | typeText _ => true
  | _ => false

theorem silent_call {call : UsbCall} (h : call.types = false) (epoch : ℕ) : (UsbEvent.taken epoch call).Silent := by
  cases call with
  | keyboardReport snapshot reportClass => exact (Bool.false_ne_true h.symm).elim
  | tapHotkey tap => exact (Bool.false_ne_true h.symm).elim
  | typeText text => exact (Bool.false_ne_true h.symm).elim
  | mouseWheel vertical horizontal => exact ⟨rfl, rfl, rfl⟩
  | appCommand commandKind chunkIndex totalChunks data reservedFreeSlots => exact ⟨rfl, rfl, rfl⟩
  | fixedText text => exact ⟨rfl, rfl, rfl⟩
  | statusResponse requestId json => exact ⟨rfl, rfl, rfl⟩
  | speakerAssetsResponse runtimeReplySequence frame => exact ⟨rfl, rfl, rfl⟩

/-- A request about something else does not touch the keyboard. -/
theorem take_same {call : UsbCall} (h : call.types = false) (nowMs epoch : ℕ) :
    SameKeys transport (call.take transport nowMs epoch).1 := by
  cases call with
  | keyboardReport snapshot reportClass => exact (Bool.false_ne_true h.symm).elim
  | mouseWheel vertical horizontal => exact ⟨rfl, rfl, rfl, rfl⟩
  | tapHotkey tap => exact (Bool.false_ne_true h.symm).elim
  | typeText text => exact (Bool.false_ne_true h.symm).elim
  | appCommand commandKind chunkIndex totalChunks data reservedFreeSlots =>
    exact appCommand_same transport commandKind chunkIndex totalChunks data reservedFreeSlots nowMs epoch
  | fixedText text =>
    rw [UsbCall.take]
    split
    · exact .refl transport
    · exact fixedText_same transport _ _ _ _ _
  | statusResponse requestId json =>
    rw [UsbCall.take, UsbHidTransport.queueStatusResponse]
    split
    · exact .refl transport
    · exact ⟨rfl, rfl, rfl, rfl⟩
  | speakerAssetsResponse runtimeReplySequence frame =>
    rw [UsbCall.take, UsbHidTransport.queueSpeakerAssetsResponse]
    split
    · exact .refl transport
    · exact ⟨rfl, rfl, rfl, rfl⟩

theorem typable_text {text : Bytes} {epoch : ℕ} (h : (UsbCall.typeText text).begins epoch = true) :
    Typable (.text text 0 epoch) := by
  simp only [UsbCall.begins, Bool.and_eq_true, Bool.not_eq_true'] at h
  obtain ⟨⟨-, hvalid⟩, hsome⟩ := h
  refine ⟨List.length_pos_iff.2 fun hempty => ?_, List.all_eq_true.1 hvalid⟩
  rw [hempty] at hsome
  exact absurd hsome (by decide)

theorem KeysKept.takes {call : UsbCall} (h : KeysKept newest transport events)
    (hlock : transport.bus.lockCurrentEpoch epoch = true) (hknown : epoch ≤ newest) (hbegins : call.begins epoch = true)
    (nowMs : ℕ) (htaken : (call.take transport nowMs epoch).2 = true) :
    KeysKept newest (call.take transport nowMs epoch).1 (events ++ [.taken epoch call]) := by
  by_cases htypes : call.types = true
  · cases call with
    | keyboardReport snapshot reportClass => exact h.queues hlock hknown htaken
    | tapHotkey tap => exact h.operates hlock hknown rfl rfl trivial rfl rfl rfl htaken
    | typeText text => exact h.operates hlock hknown rfl rfl (typable_text hbegins) rfl rfl rfl htaken
    | mouseWheel vertical horizontal => exact (Bool.false_ne_true htypes).elim
    | appCommand commandKind chunkIndex totalChunks data reservedFreeSlots => exact (Bool.false_ne_true htypes).elim
    | fixedText text => exact (Bool.false_ne_true htypes).elim
    | statusResponse requestId json => exact (Bool.false_ne_true htypes).elim
    | speakerAssetsResponse runtimeReplySequence frame => exact (Bool.false_ne_true htypes).elim
  · have hother := Bool.eq_false_iff.2 htypes
    refine h.silent (take_same hother nowMs epoch) fun event hevent => ?_
    rw [List.mem_singleton.1 hevent]
    exact silent_call hother epoch

theorem KeysKept.refuses {call : UsbCall} (h : KeysKept newest transport events) (nowMs : ℕ)
    (hrefused : (call.take transport nowMs epoch).2 = false) :
    KeysKept newest (call.take transport nowMs epoch).1 events := by
  by_cases htypes : call.types = true
  · cases call with
    | keyboardReport snapshot reportClass => exact h.unheard (snapshot_refused hrefused)
    | tapHotkey tap => exact h.unheard (operation_refused hrefused)
    | typeText text => exact h.unheard (operation_refused hrefused)
    | mouseWheel vertical horizontal => exact (Bool.false_ne_true htypes).elim
    | appCommand commandKind chunkIndex totalChunks data reservedFreeSlots => exact (Bool.false_ne_true htypes).elim
    | fixedText text => exact (Bool.false_ne_true htypes).elim
    | statusResponse requestId json => exact (Bool.false_ne_true htypes).elim
    | speakerAssetsResponse runtimeReplySequence frame => exact (Bool.false_ne_true htypes).elim
  · exact h.unheard (take_same (Bool.eq_false_iff.2 htypes) nowMs epoch)

theorem KeysKept.letsIn {call : UsbCall} (h : KeysKept newest transport events) (hknown : epoch ≤ newest)
    (hbegins : call.begins epoch = true) (answers : UsbAnswers) :
    KeysKept newest (transport.letIn call epoch answers).1.transport
      (events ++ (transport.letIn call epoch answers).2) := by
  rw [UsbHidTransport.letIn]
  split
  · rw [List.append_nil]
    exact h
  next hlock =>
    have hheld : transport.bus.lockCurrentEpoch epoch = true := by simpa using hlock
    dsimp only
    split
    next htaken => exact h.takes hheld hknown hbegins answers.nowMs htaken
    next hrefused =>
      rw [List.append_nil]
      exact h.refuses answers.nowMs (Bool.eq_false_iff.2 hrefused)

/-! ### Over a run -/

/-- What holds between two sections: a request that is to be let in has an epoch that is known. -/
structure OwnerKept (newest : ℕ) (owner : UsbOwner) (events : List UsbEvent) : Prop where
  keys : KeysKept newest owner.transport events
  known : ∀ call epoch, owner.next = .letIn call epoch → epoch ≤ newest ∧ call.begins epoch = true

variable {owner first last : UsbOwner} {next : UsbSection}

theorem attempt_next {call : UsbCall} {remaining : ℕ} :
    (transport.attempt answers remaining).1.next ≠ .letIn call epoch := by
  rw [UsbHidTransport.attempt]
  split
  · exact UsbSection.noConfusion
  · dsimp only
    split
    · exact UsbSection.noConfusion
    · exact UsbSection.noConfusion
    · split
      · exact UsbSection.noConfusion
      · exact UsbSection.noConfusion

theorem letIn_next {call other : UsbCall} {expected : ℕ} :
    (transport.letIn call expected answers).1.next ≠ .letIn other epoch := by
  rw [UsbHidTransport.letIn]
  split
  · exact UsbSection.noConfusion
  · dsimp only
    split
    · split
      · exact UsbSection.noConfusion
      · exact UsbSection.noConfusion
    · exact UsbSection.noConfusion

theorem OwnerKept.section (h : OwnerKept newest owner events) (answers : UsbAnswers) :
    ∃ newest, OwnerKept newest (owner.transport.runSection answers owner.next).1
      (events ++ (owner.transport.runSection answers owner.next).2) := by
  obtain ⟨transport, next⟩ := owner
  obtain ⟨hkeys, hknown⟩ := h
  cases next with
  | idle => exact ⟨newest, (List.append_nil events).symm ▸ hkeys, fun call epoch hnext => by cases hnext⟩
  | letIn call epoch =>
    obtain ⟨hepoch, hbegins⟩ := hknown call epoch rfl
    exact ⟨newest, hkeys.letsIn hepoch hbegins answers, fun other expected hnext => absurd hnext letIn_next⟩
  | pollReset =>
    exact ⟨_, (List.append_nil events).symm ▸ hkeys.reset, fun call epoch hnext => by cases hnext⟩
  | pollMounted =>
    rw [UsbHidTransport.runSection]
    split
    next hgone =>
      refine ⟨newest, ?_, fun call epoch hnext => by cases hnext⟩
      rw [List.append_nil]
      refine hkeys.clear (Bool.eq_false_iff.2 fun hlive => ?_)
      rw [UsbBus.connectionEpoch, if_pos hlive] at hgone
      exact absurd hgone (Nat.ne_of_gt (hkeys.born hlive))
    · exact ⟨newest, (List.append_nil events).symm ▸ hkeys, fun call epoch hnext => by cases hnext⟩
  | pump =>
    refine ⟨newest, (List.append_nil events).symm ▸ hkeys.pumped answers.nowMs, fun call epoch hnext => ?_⟩
    rw [UsbHidTransport.runSection] at hnext
    dsimp only at hnext
    split at hnext
    · cases hnext
    · cases hnext
  | attempt remaining =>
    exact ⟨newest, hkeys.attempted answers remaining, fun call epoch hnext => absurd hnext attempt_next⟩

theorem OwnerKept.step (h : OwnerKept newest first events) (hstep : UsbStep UsbBus.Orderly first rest last) :
    ∃ newest, OwnerKept newest last (events ++ rest) := by
  cases hstep with
  | change change horderly =>
    rw [List.append_nil]
    exact ⟨newest, h.keys.change horderly, h.known⟩
  | request call expectedEpoch hidle hbegins hknown =>
    rw [List.append_nil]
    refine ⟨_, h.keys.reset, fun other epoch hnext => ?_⟩
    cases hnext
    exact ⟨hknown, hbegins⟩
  | poll hidle =>
    rw [List.append_nil]
    exact ⟨newest, h.keys, fun call epoch hnext => by cases hnext⟩
  | run answers => exact h.section answers

/-- The transport as `begin` leaves it: with a monitor of the presence, or without. -/
def UsbOwner.started (present : Option Bool) : UsbOwner where
  transport := { bus := { lifetime := (present.map (UsbEndpointLifetime.enablePhysicalPresenceMonitor {})).getD {} } }
  next := .idle

theorem started_kept (present : Option Bool) : OwnerKept 0 (UsbOwner.started present) [] := by
  have hkept (bus : UsbBus) (hdead : bus.live = false) (hreset : bus.lifetimeResetPending = false) :
      KeysKept 0 { bus := bus } [] := by
    have hnot (hlive : bus.live = true) : False := Bool.false_ne_true (hdead.symm.trans hlive)
    exact ⟨⟨fun report hreport => absurd hreport List.not_mem_nil,
      fun operation hoperation => absurd hoperation List.not_mem_nil⟩, Nat.zero_le _, fun hlive => (hnot hlive).elim,
      fun event hevent => absurd hevent List.not_mem_nil,
      fun epoch => .fresh fun event hevent => absurd hevent List.not_mem_nil,
      fun hlive => (hnot hlive).elim, fun hlive => (hnot hlive).elim⟩
  cases present with
  | none => exact ⟨hkept {} rfl rfl, fun call epoch hnext => by cases hnext⟩
  | some present => exact ⟨hkept _ rfl rfl, fun call epoch hnext => by cases hnext⟩

theorem run_kept {holds : UsbOwner → Prop} {before : List UsbEvent} (h : OwnerKept newest first before)
    (hrun : UsbRun UsbBus.Orderly holds first events last) : ∃ newest, OwnerKept newest last (before ++ events) := by
  induction hrun with
  | refl => exact ⟨newest, (List.append_nil before).symm ▸ h⟩
  | step hrun hstep hholds ih =>
    obtain ⟨known, hkept⟩ := ih
    rw [← List.append_assoc]
    exact hkept.step hstep

/-- However requests, polls and orderly changes of the endpoint interleave, the keyboard reports that the
    endpoint accepts in a lifetime are typed by what was taken for it: the held snapshots in order, and between
    them each tap in order, pressed over the last held snapshot and restored to it, nothing skipped, split or
    repeated. While the lifetime lasts, what was taken and is not sent is queued. -/
theorem typed_in_order {holds : UsbOwner → Prop} {present : Option Bool}
    (hrun : UsbRun UsbBus.Orderly holds (UsbOwner.started present) events last) :
    (∀ epoch, Delivered epoch events) ∧
      (last.transport.bus.live = true → last.transport.bus.lifetimeResetPending = false →
        ∃ actions reports, Current last.transport.bus.lifetime.epoch last.transport events actions reports) := by
  obtain ⟨newest, hkeys, -⟩ := run_kept (started_kept present) hrun
  rw [List.nil_append] at hkeys
  refine ⟨hkeys.delivered, fun hlive hquiet => ?_⟩
  have hnewest : last.transport.bus.lifetime.epoch = newest := by
    by_contra hnot
    exact Bool.false_ne_true (hquiet.symm.trans (hkeys.later hlive hnot))
  rw [hnewest]
  exact (hkeys.here hlive hnewest).2

/-- The letter a, typed in the first lifetime. -/
theorem typed_in_order_letter : ∃ events last,
    UsbRun UsbBus.Orderly (fun _ => True) (UsbOwner.started none) events last ∧
    sentKeyboard 1 events = [[0, 0, 4, 0, 0, 0, 0, 0], [0, 0, 0, 0, 0, 0, 0, 0]] ∧ Delivered 1 events := by
  have hmounted : UsbRun UsbBus.Orderly (fun _ => True) (UsbOwner.started none) _ _ :=
    UsbRun.step (UsbRun.refl (UsbOwner.started none) trivial)
      (.change _ (.mount true) ⟨by decide, fun h => by cases h⟩) trivial
  have hasked := hmounted.step (.request _ (.typeText [97]) 1 rfl (by decide) (by decide)) trivial
  have hpumped := (((hasked.step (.run _ {}) trivial).step (.run _ {}) trivial).step (.run _ {}) trivial).step
    (.run _ {}) trivial
  have hpressed := hpumped.step (.run _ {}) trivial
  have hpolled := hpressed.step (.poll _ (by decide +kernel)) trivial
  have hrestored := (((hpolled.step (.run _ {}) trivial).step (.run _ {}) trivial).step (.run _ {}) trivial).step
    (.run _ {}) trivial
  exact ⟨_, _, hrestored, by decide +kernel, (typed_in_order hrestored).1 1⟩

end CodexKeyboard.Usb
