import CodexKeyboard.Keyboard.BleInputScheduler
import CodexKeyboard.Schemes.Runs

/-! Runs of the BLE input: what was pushed is what has left and what is queued, in order, and every attempt
    keeps its time and its turn. -/

namespace CodexKeyboard.Keyboard

open Schemes

/-- One call of the transmit callback. -/
structure BleCall where
  nowUs : Nat
  report : BleScheduledReport
  result : BleInputTxResult

abbrev BleWorld := BleInput (List BleCall)

inductive BleOp where
  | pushClassified (push : HidPush) (reportClass : HidReportClass)
  | push (push : HidPush) (reservedFreeSlots : Nat)
  | pushWheel (push : WheelPush)
  | clearHid
  | clearWheel
  | setConnectionInterval (intervalUnits : Nat) (valid : Bool)
  | resetDeliveryClock
  | markDisconnected
  | takeStateResyncRequired
  | poll (nowUs : Nat) (answer : BleScheduledReport → BleInputTxResult)

/-- A push whose components are within the limit, as its callers keep them. -/
def BleOp.WithinLimit : BleOp → Prop
  | .pushWheel wheel =>
    (-kMouseWheelAccumulationLimit ≤ wheel.vertical ∧ wheel.vertical ≤ kMouseWheelAccumulationLimit) ∧
      (-kMouseWheelAccumulationLimit ≤ wheel.horizontal ∧ wheel.horizontal ≤ kMouseWheelAccumulationLimit)
  | _ => True

/-- What an operation returns. -/
inductive BleAnswer where
  | hidPushed (result : HidQueuePushResult)
  | wheelPushed (result : WheelPushResult)
  | polled (result : BleInputPollResult)
  | resync (required : Bool)
  | done

namespace BleInput

/-- The callback writes down what it was called with. -/
def recording (nowUs : Nat) (answer : BleScheduledReport → BleInputTxResult) (calls : List BleCall)
    (report : BleScheduledReport) : BleInputTxResult × List BleCall :=
  (answer report, calls ++ [⟨nowUs, report, answer report⟩])

def start (config : BleInputSchedulerConfig) : BleWorld := ⟨.create config, {}, {}, []⟩

def step (world : BleWorld) : BleOp → BleWorld × BleAnswer
  | .pushClassified push reportClass =>
    let (hid, result) := world.hid.pushClassified push reportClass
    ({ world with hid }, .hidPushed result)
  | .push push reservedFreeSlots =>
    let (hid, result) := world.hid.push push reservedFreeSlots
    ({ world with hid }, .hidPushed result)
  | .pushWheel push =>
    let (wheel, result) := world.wheel.push push
    ({ world with wheel }, .wheelPushed result)
  | .clearHid => ({ world with hid := world.hid.clear }, .done)
  | .clearWheel => ({ world with wheel := world.wheel.clear }, .done)
  | .setConnectionInterval intervalUnits valid =>
    ({ world with scheduler := world.scheduler.setConnectionInterval intervalUnits valid }, .done)
  | .resetDeliveryClock => ({ world with scheduler := world.scheduler.resetDeliveryClock }, .done)
  | .markDisconnected => ({ world with scheduler := world.scheduler.markDisconnected }, .done)
  | .takeStateResyncRequired =>
    let (scheduler, required) := world.scheduler.takeStateResyncRequired
    ({ world with scheduler }, .resync required)
  | .poll nowUs answer =>
    let (world, result) := world.poll nowUs (recording nowUs answer)
    (world, .polled result)

/-! ### What is pushed and what leaves -/

inductive BleFate where
  | accepted
  | dropped
  | cleared
  deriving DecidableEq

inductive WheelAxis where
  | vertical
  | horizontal
  deriving DecidableEq

/-- Counts of an owner on both axes. -/
structure WheelMovement where
  bleOwner : BleOwnerToken
  vertical : Int
  horizontal : Int

def WheelMovement.on (movement : WheelMovement) : WheelAxis → Int
  | .vertical => movement.vertical
  | .horizontal => movement.horizontal

def movementOf (report : QueuedMouseWheel) : WheelMovement :=
  ⟨report.bleOwner, report.vertical, report.horizontal⟩

/-- The counts of an owner on an axis. -/
def total (owner : BleOwnerToken) (axis : WheelAxis) (movements : List WheelMovement) : Int :=
  (movements.map fun movement => if movement.bleOwner = owner then movement.on axis else 0).sum

/-- The direction of a count, if it has one. -/
def directionOf (count : Int) : Option Bool := if count = 0 then none else some (decide (0 < count))

def directions (axis : WheelAxis) (movements : List WheelMovement) : List Bool :=
  movements.filterMap fun movement => directionOf (movement.on axis)

/-- The call an operation made. -/
def callIn (world after : BleWorld) : Option BleCall := after.context[world.context.length]?

/-- The report a push queued. -/
def hidQueued (push : HidPush) (reportClass : HidReportClass) (result : HidQueuePushResult) :
    List BleScheduledReport :=
  if result.status = .queued then
    [{ kind := .hid, sequence := result.sequence, reportId := push.reportId, data := push.bytes, len := push.len
       reportClass, bleOwner := push.bleOwner }]
  else []

def hidPushedIn : BleOp → BleAnswer → List BleScheduledReport
  | .pushClassified push reportClass, .hidPushed result => hidQueued push reportClass result
  | .push push _, .hidPushed result => hidQueued push .appCommand result
  | _, _ => []

def hidLeftIn (world : BleWorld) (op : BleOp) (after : BleWorld) : List (BleScheduledReport × BleFate) :=
  match op with
  | .clearHid => world.hid.contents.map fun report => (BleInputScheduler.scheduledHid report, .cleared)
  | .poll _ _ =>
    match callIn world after with
    | some ⟨_, report, .accepted⟩ => if report.kind = .hid then [(report, .accepted)] else []
    | some ⟨_, report, .droppedUnsupported⟩ => if report.kind = .hid then [(report, .dropped)] else []
    | _ => []
  | _ => []

def wheelPushedIn : BleOp → BleAnswer → List WheelMovement
  | .pushWheel push, .wheelPushed result =>
    if result.accepted then [⟨push.bleOwner, push.vertical, push.horizontal⟩] else []
  | _, _ => []

/-- What a sum has beyond the limit. -/
def excess (current incoming : Int) : Int :=
  current + incoming -
    clampBetween (-kMouseWheelAccumulationLimit) kMouseWheelAccumulationLimit (current + incoming)

/-- What is cut from a push that reports saturation. -/
def wheelCutIn (world : BleWorld) : BleOp → BleAnswer → List WheelMovement
  | .pushWheel push, .wheelPushed result =>
    match world.wheel.contents.getLast? with
    | some tail =>
      if result.saturated then
        [⟨push.bleOwner, excess tail.vertical push.vertical, excess tail.horizontal push.horizontal⟩]
      else []
    | none => []
  | _, _ => []

def wheelLeftIn (world : BleWorld) (op : BleOp) (after : BleWorld) : List (WheelMovement × BleFate) :=
  match op with
  | .clearWheel => world.wheel.contents.map fun report => (movementOf report, .cleared)
  | .poll _ _ =>
    match callIn world after with
    | some ⟨_, report, .accepted⟩ =>
      if report.kind = .mouseWheel then
        [(⟨report.bleOwner, report.wheelVertical, report.wheelHorizontal⟩, .accepted)]
      else []
    | some ⟨_, report, .droppedUnsupported⟩ =>
      if report.kind = .mouseWheel then
        (world.wheel.contents.take 1).map fun run => (movementOf run, .dropped)
      else []
    | _ => []
  | _ => []

/-- What was pushed, what was cut from it and what has left. -/
structure BleLedger where
  hidPushed : List BleScheduledReport := []
  hidLeft : List (BleScheduledReport × BleFate) := []
  wheelPushed : List WheelMovement := []
  wheelCut : List WheelMovement := []
  wheelLeft : List (WheelMovement × BleFate) := []

def BleLedger.entered (ledger : BleLedger) (world : BleWorld) (op : BleOp) : BleLedger :=
  let (after, answer) := world.step op
  { hidPushed := ledger.hidPushed ++ hidPushedIn op answer
    hidLeft := ledger.hidLeft ++ hidLeftIn world op after
    wheelPushed := ledger.wheelPushed ++ wheelPushedIn op answer
    wheelCut := ledger.wheelCut ++ wheelCutIn world op answer
    wheelLeft := ledger.wheelLeft ++ wheelLeftIn world op after }

/-! ### When attempts are made -/

/-- The attempts since the clock was reset: when the last was made and with which period, how many have failed
    since one took something, and how many HID reports have left since a wheel report did. -/
structure BlePace where
  attempt : Option (Nat × Nat) := none
  failures : Nat := 0
  sinceWheel : Nat := 0

def BlePace.entered (pace : BlePace) (world : BleWorld) (op : BleOp) : BlePace :=
  match op with
  | .resetDeliveryClock | .markDisconnected => {}
  | .poll _ _ =>
    match callIn world (world.step op).1 with
    | none => pace
    | some call =>
      { attempt := some (call.nowUs, world.scheduler.deliveryPeriodUs)
        failures := if takes call.result then 0 else pace.failures + 1
        sinceWheel :=
          if takes call.result then (if call.report.kind = .hid then pace.sinceWheel + 1 else 0)
          else pace.sinceWheel }
  | _ => pace

/-- A run, with what it has moved and its pace. -/
structure BleRun where
  world : BleWorld
  ledger : BleLedger := {}
  pace : BlePace := {}

def BleRun.next (run : BleRun) (op : BleOp) : BleRun :=
  ⟨(run.world.step op).1, run.ledger.entered run.world op, run.pace.entered run.world op⟩

def ran (config : BleInputSchedulerConfig) (ops : List BleOp) : BleRun :=
  ops.foldl BleRun.next { world := start config }

end BleInput

end CodexKeyboard.Keyboard
