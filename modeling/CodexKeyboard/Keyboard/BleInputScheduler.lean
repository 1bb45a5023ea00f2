import CodexKeyboard.Keyboard.HidReportQueue

/-! `ble_input_scheduler.cpp`: one report at a time from the two queues to the transport. -/

namespace CodexKeyboard.Keyboard

open Schemes

inductive BleInputTxResult where
  | accepted
  | droppedUnsupported
  | retryableNoBuffer
  | retryableBusy
  | disconnected
  | fatal
  deriving DecidableEq

inductive BleInputPollResult where
  | idle
  | throttled
  | accepted
  | droppedUnsupported
  | retryable
  | disconnected
  | fatal
  deriving DecidableEq

inductive BleScheduledReportKind where
  | hid
  | mouseWheel
  deriving DecidableEq

structure BleScheduledReport where
  kind : BleScheduledReportKind := .hid
  sequence : Nat := 0
  reportId : UInt8 := 0
  data : List UInt8 := []
  len : Nat := 0
  reportClass : HidReportClass := .appCommand
  wheelVertical : Int := 0
  wheelHorizontal : Int := 0
  bleOwner : BleOwnerToken := {}
  deriving DecidableEq

structure BleInputSchedulerConfig where
  fallbackPeriodUs : Nat := 30000
  minimumPeriodUs : Nat := 7500
  maximumPeriodUs : Nat := 200000
  maximumRetryBackoffUs : Nat := 200000
  maximumRetryShift : UInt8 := 2
  maximumConsecutiveHid : UInt8 := 3
  wheelChunkLimit : Int := 127

structure BleInputSchedulerDiagnostics where
  pollAttempts : Nat := 0
  accepted : Nat := 0
  droppedUnsupported : Nat := 0
  hidDroppedUnsupported : Nat := 0
  wheelDroppedUnsupported : Nat := 0
  retryableNoBuffer : Nat := 0
  retryableBusy : Nat := 0
  disconnected : Nat := 0
  fatal : Nat := 0
  hidAccepted : Nat := 0
  wheelAccepted : Nat := 0
  retryStreakPeak : Nat := 0
  hidQueueHighWatermark : Nat := 0
  wheelQueueHighWatermark : Nat := 0

def kBleConnectionIntervalUnitUs : Nat := 1250

/-- The largest 64-bit number. -/
def maxU64 : Nat := 2 ^ 64 - 1

def saturatingAdd (lhs rhs : Nat) : Nat := if maxU64 - lhs < rhs then maxU64 else lhs + rhs

/-- A 32-bit counter, one further. -/
def counted (counter : Nat) : Nat := (counter + 1) % 2 ^ 32

def releaseMustKeepOrder (reportClass : HidReportClass) : Bool :=
  reportClass = .keyboardRelease || reportClass = .keyboardAllReleased ||
    reportClass = .appCommandStatefulRelease

structure BleInputScheduler where
  config : BleInputSchedulerConfig
  diagnostics : BleInputSchedulerDiagnostics := {}
  deliveryPeriodUs : Nat := 0
  nextAttemptUs : Nat := 0
  lastAttemptUs : Nat := 0
  retryStreak : Nat := 0
  consecutiveHid : Nat := 0
  hasAttempted : Bool := false
  stateResyncRequired : Bool := false

/-- `std::clamp` of a period. -/
def clampPeriod (low high value : Nat) : Nat :=
  if value < low then low else if high < value then high else value

/-- The configuration as the constructor puts it in order. -/
def BleInputSchedulerConfig.ordered (config : BleInputSchedulerConfig) : BleInputSchedulerConfig :=
  let minimumPeriodUs := if config.minimumPeriodUs = 0 then 1 else config.minimumPeriodUs
  let maximumPeriodUs :=
    if config.maximumPeriodUs < minimumPeriodUs then minimumPeriodUs else config.maximumPeriodUs
  { fallbackPeriodUs := clampPeriod minimumPeriodUs maximumPeriodUs config.fallbackPeriodUs
    minimumPeriodUs, maximumPeriodUs
    maximumRetryBackoffUs :=
      if config.maximumRetryBackoffUs < minimumPeriodUs then minimumPeriodUs else config.maximumRetryBackoffUs
    maximumRetryShift := min config.maximumRetryShift 20
    maximumConsecutiveHid := if config.maximumConsecutiveHid = 0 then 1 else config.maximumConsecutiveHid
    wheelChunkLimit := clampBetween 1 127 config.wheelChunkLimit }

namespace BleInputScheduler

/-- The constructor. -/
def create (config : BleInputSchedulerConfig) : BleInputScheduler :=
  { config := config.ordered, deliveryPeriodUs := config.ordered.fallbackPeriodUs }

def retryDelayUs (scheduler : BleInputScheduler) : Nat :=
  let shift :=
    if scheduler.retryStreak = 0 then 0
    else min (scheduler.retryStreak - 1) scheduler.config.maximumRetryShift.toNat
  let maximum := scheduler.config.maximumRetryBackoffUs
  if maximum / 2 ^ shift < scheduler.deliveryPeriodUs then maximum
  else min (scheduler.deliveryPeriodUs * 2 ^ shift) maximum

def setNextAttempt (scheduler : BleInputScheduler) (nowUs delayUs : Nat) : BleInputScheduler :=
  { scheduler with nextAttemptUs := saturatingAdd nowUs delayUs }

def noteRetry (scheduler : BleInputScheduler) : BleInputScheduler :=
  let retryStreak :=
    if scheduler.retryStreak < 2 ^ 32 - 1 then scheduler.retryStreak + 1 else scheduler.retryStreak
  { scheduler with
    retryStreak
    diagnostics := { scheduler.diagnostics with
      retryStreakPeak := max scheduler.diagnostics.retryStreakPeak retryStreak } }

/-- The period of a connection interval, which the scheduler takes where it is valid. -/
def periodOf (scheduler : BleInputScheduler) (intervalUnits : Nat) (valid : Bool) : Nat :=
  if valid && intervalUnits != 0 then
    clampPeriod scheduler.config.minimumPeriodUs scheduler.config.maximumPeriodUs
      (intervalUnits * kBleConnectionIntervalUnitUs)
  else scheduler.config.fallbackPeriodUs

def setConnectionInterval (scheduler : BleInputScheduler) (intervalUnits : Nat) (valid : Bool) :
    BleInputScheduler :=
  let periodUs := scheduler.periodOf intervalUnits valid
  if periodUs = scheduler.deliveryPeriodUs then scheduler
  else
    let scheduler := { scheduler with deliveryPeriodUs := periodUs }
    if scheduler.hasAttempted then
      let rebasedDeadline := saturatingAdd scheduler.lastAttemptUs
        (if scheduler.retryStreak = 0 then scheduler.deliveryPeriodUs else scheduler.retryDelayUs)
      { scheduler with
        nextAttemptUs :=
          if scheduler.retryStreak = 0 then rebasedDeadline
          else max scheduler.nextAttemptUs rebasedDeadline }
    else scheduler

def resetDeliveryClock (scheduler : BleInputScheduler) : BleInputScheduler :=
  { scheduler with
    nextAttemptUs := 0, lastAttemptUs := 0, retryStreak := 0, consecutiveHid := 0, hasAttempted := false }

def markDisconnected (scheduler : BleInputScheduler) : BleInputScheduler :=
  { scheduler with stateResyncRequired := true }.resetDeliveryClock

def takeStateResyncRequired (scheduler : BleInputScheduler) : BleInputScheduler × Bool :=
  ({ scheduler with stateResyncRequired := false }, scheduler.stateResyncRequired)

def shouldSendHid (scheduler : BleInputScheduler) (hidReport : QueuedHidReport) (hasWheelReport : Bool) : Bool :=
  if !hasWheelReport then true
  else if releaseMustKeepOrder hidReport.reportClass then true
  else decide (scheduler.consecutiveHid < scheduler.config.maximumConsecutiveHid.toNat)

def scheduledHid (report : QueuedHidReport) : BleScheduledReport :=
  { kind := .hid, sequence := report.sequence, reportId := report.reportId, data := report.data
    len := report.len, reportClass := report.reportClass, bleOwner := report.bleOwner }

def scheduledWheel (scheduler : BleInputScheduler) (report : QueuedMouseWheel) : BleScheduledReport :=
  { kind := .mouseWheel, sequence := report.sequence
    wheelVertical :=
      clampBetween (-scheduler.config.wheelChunkLimit) scheduler.config.wheelChunkLimit report.vertical
    wheelHorizontal :=
      clampBetween (-scheduler.config.wheelChunkLimit) scheduler.config.wheelChunkLimit report.horizontal
    bleOwner := report.bleOwner }

end BleInputScheduler

/-- What one poll works on: the scheduler, the two queues and what the callback is given as its context. -/
structure BleInput (σ : Type) where
  scheduler : BleInputScheduler
  hid : HidReportQueue
  wheel : MouseWheelQueue
  context : σ

namespace BleInput

variable {σ : Type}

/-- The counters of a report that left the HID queue. -/
def hidGone (scheduler : BleInputScheduler) (diagnostics : BleInputSchedulerDiagnostics) : BleInputScheduler :=
  { scheduler with
    diagnostics
    consecutiveHid :=
      if scheduler.consecutiveHid < 255 then scheduler.consecutiveHid + 1 else scheduler.consecutiveHid }

/-- The counters of a report that left the wheel queue. -/
def wheelGone (scheduler : BleInputScheduler) (diagnostics : BleInputSchedulerDiagnostics) : BleInputScheduler :=
  { scheduler with diagnostics, consecutiveHid := 0 }

/-- The accepted report taken from its queue. -/
def takeAccepted (input : BleInput σ) (sendHid : Bool) (scheduled : BleScheduledReport) : BleInput σ :=
  let diagnostics := input.scheduler.diagnostics
  if sendHid then
    let (hid, popped) := input.hid.popIfSequence scheduled.sequence
    if popped then
      { input with
        hid
        scheduler := hidGone input.scheduler { diagnostics with
          accepted := counted diagnostics.accepted, hidAccepted := counted diagnostics.hidAccepted } }
    else { input with hid }
  else
    let (wheel, consumed) :=
      input.wheel.consumeIfSequence scheduled.sequence scheduled.wheelVertical scheduled.wheelHorizontal
    if consumed then
      { input with
        wheel
        scheduler := wheelGone input.scheduler { diagnostics with
          accepted := counted diagnostics.accepted, wheelAccepted := counted diagnostics.wheelAccepted } }
    else { input with wheel }

/-- The report the protocol cannot represent taken from its queue, of the wheel the whole run. -/
def takeDropped (input : BleInput σ) (sendHid : Bool) (scheduled : BleScheduledReport) : BleInput σ :=
  let diagnostics := input.scheduler.diagnostics
  if sendHid then
    let (hid, popped) := input.hid.popIfSequence scheduled.sequence
    if popped then
      { input with
        hid
        scheduler := hidGone input.scheduler { diagnostics with
          droppedUnsupported := counted diagnostics.droppedUnsupported
          hidDroppedUnsupported := counted diagnostics.hidDroppedUnsupported } }
    else { input with hid }
  else
    let (wheel, popped) := input.wheel.popIfSequence scheduled.sequence
    if popped then
      { input with
        wheel
        scheduler := wheelGone input.scheduler { diagnostics with
          droppedUnsupported := counted diagnostics.droppedUnsupported
          wheelDroppedUnsupported := counted diagnostics.wheelDroppedUnsupported } }
    else { input with wheel }

/-- The next attempt one period after a report has left. -/
def settled (input : BleInput σ) (nowUs : Nat) : BleInput σ :=
  let scheduler := { input.scheduler with retryStreak := 0 }
  { input with scheduler := scheduler.setNextAttempt nowUs scheduler.deliveryPeriodUs }

/-- The next attempt after the backoff of a failure. -/
def postponed (input : BleInput σ) (nowUs : Nat) (diagnostics : BleInputSchedulerDiagnostics) : BleInput σ :=
  let scheduler := { input.scheduler with diagnostics }.noteRetry
  { input with scheduler := scheduler.setNextAttempt nowUs scheduler.retryDelayUs }

/-- What the answer of the callback does. -/
def answered (input : BleInput σ) (nowUs : Nat) (sendHid : Bool) (scheduled : BleScheduledReport) :
    BleInputTxResult → BleInput σ × BleInputPollResult
  | .accepted => ((input.takeAccepted sendHid scheduled).settled nowUs, .accepted)
  | .droppedUnsupported => ((input.takeDropped sendHid scheduled).settled nowUs, .droppedUnsupported)
  | .retryableNoBuffer =>
    (input.postponed nowUs { input.scheduler.diagnostics with
      retryableNoBuffer := counted input.scheduler.diagnostics.retryableNoBuffer }, .retryable)
  | .retryableBusy =>
    (input.postponed nowUs { input.scheduler.diagnostics with
      retryableBusy := counted input.scheduler.diagnostics.retryableBusy }, .retryable)
  | .disconnected =>
    ({ input with scheduler := { input.scheduler with stateResyncRequired := true } }.postponed nowUs
      { input.scheduler.diagnostics with
        disconnected := counted input.scheduler.diagnostics.disconnected }, .disconnected)
  | .fatal =>
    (input.postponed nowUs { input.scheduler.diagnostics with
      fatal := counted input.scheduler.diagnostics.fatal }, .fatal)

/-- The queue lengths as far as they have ever been seen. -/
def watermarked (input : BleInput σ) : BleInput σ :=
  let diagnostics := input.scheduler.diagnostics
  { input with scheduler := { input.scheduler with diagnostics := { diagnostics with
      hidQueueHighWatermark := max diagnostics.hidQueueHighWatermark input.hid.reports.size
      wheelQueueHighWatermark := max diagnostics.wheelQueueHighWatermark input.wheel.reports.size } } }

/-- The attempt is counted and made. -/
def attempt (input : BleInput σ) (nowUs : Nat) (callback : σ → BleScheduledReport → BleInputTxResult × σ)
    (sendHid : Bool) (scheduled : BleScheduledReport) : BleInput σ × BleInputPollResult :=
  let diagnostics := input.scheduler.diagnostics
  let (txResult, context) := callback input.context scheduled
  { input with
    context
    scheduler := { input.scheduler with
      diagnostics := { diagnostics with pollAttempts := counted diagnostics.pollAttempts }
      hasAttempted := true
      lastAttemptUs := nowUs } }.answered nowUs sendHid scheduled txResult

/-- The report for the next attempt, and whether it is the one of the HID queue. -/
def chosen (input : BleInput σ) : Option (Bool × BleScheduledReport) :=
  match input.hid.front, input.wheel.front with
  | none, wheelReport => wheelReport.map fun report => (false, input.scheduler.scheduledWheel report)
  | some hidReport, wheelReport =>
    if input.scheduler.shouldSendHid hidReport wheelReport.isSome then
      some (true, BleInputScheduler.scheduledHid hidReport)
    else wheelReport.map fun report => (false, input.scheduler.scheduledWheel report)

def poll (input : BleInput σ) (nowUs : Nat) (callback : σ → BleScheduledReport → BleInputTxResult × σ) :
    BleInput σ × BleInputPollResult :=
  let input := input.watermarked
  match input.chosen with
  | none => (input, .idle)
  | some (sendHid, scheduled) =>
    if input.scheduler.hasAttempted && decide (nowUs < input.scheduler.nextAttemptUs) then (input, .throttled)
    else input.attempt nowUs callback sendHid scheduled

/-! ### What a poll does -/

/-- The attempt took something from a queue. -/
def takes : BleInputTxResult → Bool
  | .accepted | .droppedUnsupported => true
  | _ => false

/-- The HID queue after an attempt. -/
def hidAfter (reports : List QueuedHidReport) (sendHid : Bool) (result : BleInputTxResult) :
    List QueuedHidReport :=
  if sendHid && takes result then reports.tail else reports

/-- The reports of the wheel queue with a chunk taken from the first. -/
def withoutChunk (scheduled : BleScheduledReport) : List QueuedMouseWheel → List QueuedMouseWheel
  | [] => []
  | head :: rest =>
    if head.vertical - scheduled.wheelVertical = 0 ∧ head.horizontal - scheduled.wheelHorizontal = 0 then rest
    else MouseWheelQueue.remainder head scheduled.wheelVertical scheduled.wheelHorizontal :: rest

/-- The wheel queue after an attempt. -/
def wheelAfter (reports : List QueuedMouseWheel) (sendHid : Bool) (scheduled : BleScheduledReport) :
    BleInputTxResult → List QueuedMouseWheel
  | .accepted => if sendHid then reports else withoutChunk scheduled reports
  | .droppedUnsupported => if sendHid then reports else reports.tail
  | _ => reports

/-- What a taken report changes, with what it leaves. -/
structure Took (input after : BleInput σ) (hid : List QueuedHidReport) (wheel : List QueuedMouseWheel)
    (consecutiveHid : Nat) : Prop where
  hid : after.hid.contents = hid
  wheel : after.wheel.contents = wheel
  consecutiveHid : after.scheduler.consecutiveHid = consecutiveHid
  config : after.scheduler.config = input.scheduler.config
  deliveryPeriodUs : after.scheduler.deliveryPeriodUs = input.scheduler.deliveryPeriodUs
  hasAttempted : after.scheduler.hasAttempted = input.scheduler.hasAttempted
  lastAttemptUs : after.scheduler.lastAttemptUs = input.scheduler.lastAttemptUs
  context : after.context = input.context

/-- One more report, as far as the counter goes. -/
def bumped (limit counter : Nat) : Nat := if counter < limit then counter + 1 else counter

/-- What an attempt does. -/
structure Called (input after : BleInput σ) (nowUs : Nat) (sendHid : Bool) (scheduled : BleScheduledReport)
    (result : BleInputTxResult) : Prop where
  hid : after.hid.contents = hidAfter input.hid.contents sendHid result
  wheel : after.wheel.contents = wheelAfter input.wheel.contents sendHid scheduled result
  config : after.scheduler.config = input.scheduler.config
  deliveryPeriodUs : after.scheduler.deliveryPeriodUs = input.scheduler.deliveryPeriodUs
  hasAttempted : after.scheduler.hasAttempted = true
  lastAttemptUs : after.scheduler.lastAttemptUs = nowUs
  consecutiveHid : after.scheduler.consecutiveHid =
    if takes result then (if sendHid then bumped 255 input.scheduler.consecutiveHid else 0)
    else input.scheduler.consecutiveHid
  retryStreak : after.scheduler.retryStreak =
    if takes result then 0 else bumped (2 ^ 32 - 1) input.scheduler.retryStreak
  nextAttemptUs : after.scheduler.nextAttemptUs = saturatingAdd nowUs
    (if takes result then input.scheduler.deliveryPeriodUs else after.scheduler.retryDelayUs)

section
variable {input : BleInput σ} {sendHid : Bool} {scheduled : BleScheduledReport}

theorem ordered_chunk (config : BleInputSchedulerConfig) : 1 ≤ config.ordered.wheelChunkLimit := by
  show 1 ≤ clampBetween 1 127 config.wheelChunkLimit
  rw [clampBetween]
  split
  · exact Int.le_refl 1
  · split <;> omega

/-- A chunk has the direction of its run and goes no further. -/
theorem chunk_cases {limit : Int} (h : 1 ≤ limit) (value : Int) :
    (value = 0 ∧ clampBetween (-limit) limit value = 0) ∨
      (0 < value ∧ 0 < clampBetween (-limit) limit value ∧ clampBetween (-limit) limit value ≤ value) ∨
      (value < 0 ∧ clampBetween (-limit) limit value < 0 ∧ value ≤ clampBetween (-limit) limit value) := by
  rw [clampBetween]
  split
  · omega
  · split <;> omega

theorem chunk_valid {limit : Int} (h : 1 ≤ limit) (value : Int) :
    validConsumption value (clampBetween (-limit) limit value) = true := by
  have hchunk := chunk_cases h value
  generalize clampBetween (-limit) limit value = chunk at hchunk
  rw [validConsumption]
  split
  · rfl
  · simp only [ne_eq, Bool.and_eq_true, decide_eq_true_eq, beq_iff_eq, decide_eq_decide]
    omega

/-- The report for the next attempt is the head of its queue. -/
inductive Chosen (input : BleInput σ) : Bool → BleScheduledReport → Prop where
  | hid (head : QueuedHidReport) (rest : List QueuedHidReport) : input.hid.contents = head :: rest →
    input.scheduler.shouldSendHid head (!input.wheel.contents.isEmpty) = true →
    Chosen input true (BleInputScheduler.scheduledHid head)
  | wheel (head : QueuedMouseWheel) (rest : List QueuedMouseWheel) : input.wheel.contents = head :: rest →
    (∀ report, input.hid.contents.head? = some report → input.scheduler.shouldSendHid report true = false) →
    Chosen input false (input.scheduler.scheduledWheel head)

theorem chosen_some (h : input.chosen = some (sendHid, scheduled)) : Chosen input sendHid scheduled := by
  rw [chosen, HidReportQueue.front_eq, MouseWheelQueue.front_eq] at h
  cases hhid : input.hid.contents with
  | nil =>
    cases hwheel : input.wheel.contents with
    | nil => simp [hhid, hwheel] at h
    | cons head rest =>
      simp only [hhid, hwheel, List.head?_nil, List.head?_cons, Option.map_some, Option.some.injEq,
        Prod.mk.injEq] at h
      obtain ⟨rfl, rfl⟩ := h
      exact .wheel head rest hwheel (by simp [hhid])
  | cons report reports =>
    cases hwheel : input.wheel.contents with
    | nil =>
      simp only [hhid, hwheel, List.head?_nil, List.head?_cons, Option.map_none] at h
      split at h
      next hsend =>
        simp only [Option.some.injEq, Prod.mk.injEq] at h
        obtain ⟨rfl, rfl⟩ := h
        exact .hid report reports hhid (by rw [hwheel]; exact hsend)
      · exact absurd h (by simp)
    | cons head rest =>
      simp only [hhid, hwheel, List.head?_cons, Option.map_some] at h
      split at h
      next hsend =>
        simp only [Option.some.injEq, Prod.mk.injEq] at h
        obtain ⟨rfl, rfl⟩ := h
        exact .hid report reports hhid (by rw [hwheel]; exact hsend)
      next hkeep =>
        simp only [Option.some.injEq, Prod.mk.injEq] at h
        obtain ⟨rfl, rfl⟩ := h
        refine .wheel head rest hwheel ?_
        rintro other hother
        rw [hhid, List.head?_cons] at hother
        obtain rfl := Option.some.inj hother
        exact Bool.eq_false_iff.2 hkeep

theorem took_accepted (hchunk : 1 ≤ input.scheduler.config.wheelChunkLimit)
    (h : Chosen input sendHid scheduled) :
    Took input (input.takeAccepted sendHid scheduled) (hidAfter input.hid.contents sendHid .accepted)
      (wheelAfter input.wheel.contents sendHid scheduled .accepted)
      (if sendHid then bumped 255 input.scheduler.consecutiveHid else 0) := by
  cases h with
  | hid head rest hhid hsend =>
    obtain ⟨after, hpop, hafter⟩ := HidReportQueue.popIfSequence_head hhid
    rw [takeAccepted, if_pos rfl, show (BleInputScheduler.scheduledHid head).sequence = head.sequence from rfl,
        hpop]
    refine ⟨?_, rfl, rfl, rfl, rfl, rfl, rfl, rfl⟩
    rw [hhid]
    exact hafter
  | wheel head rest hwheel _ =>
    have hvertical : validConsumption head.vertical (input.scheduler.scheduledWheel head).wheelVertical = true :=
      chunk_valid hchunk head.vertical
    have hhorizontal :
        validConsumption head.horizontal (input.scheduler.scheduledWheel head).wheelHorizontal = true :=
      chunk_valid hchunk head.horizontal
    obtain ⟨after, hconsume, hafter⟩ :=
      MouseWheelQueue.consumeIfSequence_head hwheel hvertical hhorizontal
    rw [takeAccepted, if_neg (by simp),
        show (input.scheduler.scheduledWheel head).sequence = head.sequence from rfl, hconsume]
    refine ⟨rfl, ?_, rfl, rfl, rfl, rfl, rfl, rfl⟩
    rw [hwheel]
    exact hafter

theorem took_dropped (h : Chosen input sendHid scheduled) :
    Took input (input.takeDropped sendHid scheduled) (hidAfter input.hid.contents sendHid .droppedUnsupported)
      (wheelAfter input.wheel.contents sendHid scheduled .droppedUnsupported)
      (if sendHid then bumped 255 input.scheduler.consecutiveHid else 0) := by
  cases h with
  | hid head rest hhid hsend =>
    obtain ⟨after, hpop, hafter⟩ := HidReportQueue.popIfSequence_head hhid
    rw [takeDropped, if_pos rfl, show (BleInputScheduler.scheduledHid head).sequence = head.sequence from rfl,
        hpop]
    refine ⟨?_, rfl, rfl, rfl, rfl, rfl, rfl, rfl⟩
    rw [hhid]
    exact hafter
  | wheel head rest hwheel _ =>
    obtain ⟨after, hpop, hafter⟩ := MouseWheelQueue.popIfSequence_head hwheel
    rw [takeDropped, if_neg (by simp),
        show (input.scheduler.scheduledWheel head).sequence = head.sequence from rfl, hpop]
    refine ⟨rfl, ?_, rfl, rfl, rfl, rfl, rfl, rfl⟩
    rw [hwheel]
    exact hafter

/-- An attempt that takes nothing. -/
theorem postponed_called {made : BleInput σ} {nowUs : Nat} (diagnostics : BleInputSchedulerDiagnostics)
    {result : BleInputTxResult} (hresult : takes result = false) (hhid : made.hid = input.hid)
    (hwheel : made.wheel = input.wheel) (hmade : made.scheduler =
      { input.scheduler with
        diagnostics := made.scheduler.diagnostics, hasAttempted := true, lastAttemptUs := nowUs
        stateResyncRequired := made.scheduler.stateResyncRequired }) :
    Called input (made.postponed nowUs diagnostics) nowUs sendHid scheduled result := by
  have hwheelAfter : wheelAfter input.wheel.contents sendHid scheduled result = input.wheel.contents := by
    cases result <;> first | rfl | exact absurd hresult (by decide)
  refine ⟨?_, ?_, ?_, ?_, ?_, ?_, ?_, ?_, ?_⟩
  · rw [hidAfter, hresult, Bool.and_false, if_neg (by decide), ← hhid]
    rfl
  · rw [hwheelAfter, ← hwheel]
    rfl
  · show made.scheduler.config = _
    rw [hmade]
  · show made.scheduler.deliveryPeriodUs = _
    rw [hmade]
  · show made.scheduler.hasAttempted = _
    rw [hmade]
  · show made.scheduler.lastAttemptUs = _
    rw [hmade]
  · rw [hresult]
    show made.scheduler.consecutiveHid = _
    rw [hmade]
    rfl
  · rw [hresult, ← congrArg BleInputScheduler.retryStreak hmade]
    rfl
  · rw [hresult]
    rfl

theorem attempt_called {nowUs : Nat} {callback : σ → BleScheduledReport → BleInputTxResult × σ}
    (hchunk : 1 ≤ input.scheduler.config.wheelChunkLimit) (h : Chosen input sendHid scheduled) :
    Called input (input.attempt nowUs callback sendHid scheduled).1 nowUs sendHid scheduled
        (callback input.context scheduled).1 ∧
      (input.attempt nowUs callback sendHid scheduled).1.context = (callback input.context scheduled).2 := by
  rw [attempt]
  generalize callback input.context scheduled = answer
  obtain ⟨result, context⟩ := answer
  dsimp only
  generalize hmade : ({ input with
    context
    scheduler := { input.scheduler with
      diagnostics := { input.scheduler.diagnostics with
        pollAttempts := counted input.scheduler.diagnostics.pollAttempts }
      hasAttempted := true
      lastAttemptUs := nowUs } } : BleInput σ) = made
  have hchosen : Chosen made sendHid scheduled := by
    rw [← hmade]
    cases h with
    | hid head rest hhid hsend => exact .hid head rest hhid hsend
    | wheel head rest hwheel hkeep => exact .wheel head rest hwheel hkeep
  cases result with
  | accepted =>
    have htook := took_accepted (by rw [← hmade]; exact hchunk) hchosen
    rw [← hmade] at htook ⊢
    exact ⟨⟨htook.hid, htook.wheel, htook.config, htook.deliveryPeriodUs, htook.hasAttempted,
      htook.lastAttemptUs, htook.consecutiveHid, rfl, by
        show saturatingAdd nowUs _ = _
        rw [htook.deliveryPeriodUs]
        rfl⟩, htook.context⟩
  | droppedUnsupported =>
    have htook := took_dropped hchosen
    rw [← hmade] at htook ⊢
    exact ⟨⟨htook.hid, htook.wheel, htook.config, htook.deliveryPeriodUs, htook.hasAttempted,
      htook.lastAttemptUs, htook.consecutiveHid, rfl, by
        show saturatingAdd nowUs _ = _
        rw [htook.deliveryPeriodUs]
        rfl⟩, htook.context⟩
  | retryableNoBuffer | retryableBusy | disconnected | fatal =>
    rw [← hmade]
    exact ⟨postponed_called _ rfl rfl rfl rfl, rfl⟩

/-- A poll leaves everything but the counters, or makes one attempt, with a due report. -/
theorem poll_cases (input : BleInput σ) (nowUs : Nat)
    (callback : σ → BleScheduledReport → BleInputTxResult × σ)
    (hchunk : 1 ≤ input.scheduler.config.wheelChunkLimit) :
    (input.poll nowUs callback).1 = input.watermarked ∨
      ∃ sendHid scheduled, Chosen input sendHid scheduled ∧
        (input.scheduler.hasAttempted = true → input.scheduler.nextAttemptUs ≤ nowUs) ∧
        Called input (input.poll nowUs callback).1 nowUs sendHid scheduled
          (callback input.context scheduled).1 ∧
        (input.poll nowUs callback).1.context = (callback input.context scheduled).2 := by
  rw [poll]
  split
  · exact .inl rfl
  next sendHid scheduled hchosen =>
    split
    · exact .inl rfl
    next hdue =>
      have hchosen : Chosen input sendHid scheduled := chosen_some hchosen
      have hmarked : Chosen input.watermarked sendHid scheduled := by
        cases hchosen with
        | hid head rest hhid hsend => exact .hid head rest hhid hsend
        | wheel head rest hwheel hkeep => exact .wheel head rest hwheel hkeep
      have hcalled : Called input.watermarked
          (input.watermarked.attempt nowUs callback sendHid scheduled).1 nowUs sendHid scheduled _ ∧ _ :=
        attempt_called hchunk hmarked
      refine .inr ⟨sendHid, scheduled, hchosen, ?_, ?_, hcalled.2⟩
      · rintro hattempted
        have hlate : ¬ nowUs < input.scheduler.nextAttemptUs := by
          rintro hearly
          have hdecide : decide (nowUs < input.watermarked.scheduler.nextAttemptUs) = true := decide_eq_true hearly
          exact hdue (by rw [show input.watermarked.scheduler.hasAttempted = true from hattempted, hdecide]; rfl)
        omega
      · obtain ⟨hid, wheel, config, period, attempted, last, consecutive, streak, next⟩ := hcalled.1
        exact ⟨hid, wheel, config, period, attempted, last, consecutive, streak, next⟩

end

end BleInput

end CodexKeyboard.Keyboard
