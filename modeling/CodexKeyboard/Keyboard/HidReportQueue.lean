import CodexKeyboard.Schemes.Ring
import CodexKeyboard.Keyboard.Delivery

/-! The two queues of `hid_report_queue.cpp` between the keyboard and the BLE transport. -/

namespace CodexKeyboard.Keyboard

open Schemes

def kHidReportQueueCapacity : Nat := 32
def kHidReportMaxPayload : Nat := 63
def kMouseWheelQueueCapacity : Nat := 32
def kKeyboardStateSourceCount : Nat := 11
def kKeyboardSnapshotPayloadSize : Nat := 8
def kMouseWheelAccumulationLimit : Int := 32767

theorem hidReportQueueCapacity_pos : 0 < kHidReportQueueCapacity := by decide

theorem mouseWheelQueueCapacity_pos : 0 < kMouseWheelQueueCapacity := by decide

def kNoConnection : Nat := 0xFFFF

structure BleOwnerToken where
  connHandle : Nat := kNoConnection
  generation : Nat := 0
  deriving DecidableEq

inductive HidQueuePushStatus where
  | queued
  | coalesced
  | full
  | invalid
  deriving DecidableEq

structure HidQueuePushResult where
  status : HidQueuePushStatus := .invalid
  sequence : Nat := 0
  deriving DecidableEq

def HidQueuePushResult.accepted (result : HidQueuePushResult) : Bool :=
  result.status = .queued || result.status = .coalesced

/-- `data` has the first `len` bytes of the report's array, which is zero behind them. -/
structure QueuedHidReport where
  sequence : Nat := 0
  reportId : UInt8 := 0
  data : List UInt8 := []
  len : Nat := 0
  queuedMs : Nat := 0
  reportClass : HidReportClass := .appCommand
  bleOwner : BleOwnerToken := {}
  usbEpoch : Nat := 0
  deriving DecidableEq

/-- What a caller pushes: `data` is `none` for a null pointer. -/
structure HidPush where
  reportId : UInt8
  data : Option (List UInt8)
  len : Nat
  queuedMs : Nat
  bleOwner : BleOwnerToken := {}
  usbEpoch : Nat := 0

/-- The bytes a push copies. -/
def HidPush.bytes (push : HidPush) : List UInt8 := (push.data.getD []).take push.len

structure HidReportQueue where
  reports : Ring QueuedHidReport kHidReportQueueCapacity :=
    Ring.empty {} hidReportQueueCapacity_pos
  nextSequence : Nat := 1

/-- A sequence number after another, in 32 bits without 0. -/
def sequenceAfter (sequence : Nat) : Nat :=
  if (sequence + 1) % 2 ^ 32 = 0 then 1 else (sequence + 1) % 2 ^ 32

def classifiedCapacity : HidReportClass → Nat
  | .keyboardPress => kHidReportQueueCapacity - kKeyboardStateSourceCount
  | .appCommand | .appCommandStatefulPress => kHidReportQueueCapacity - 2 * kKeyboardStateSourceCount
  | .keyboardRelease | .appCommandStatefulRelease => kHidReportQueueCapacity - 1
  | .keyboardAllReleased => kHidReportQueueCapacity

def isKeyboardSnapshot (reportClass : HidReportClass) : Bool :=
  reportClass = .keyboardPress || reportClass = .keyboardRelease || reportClass = .keyboardAllReleased

def isAppCommand (reportClass : HidReportClass) : Bool :=
  reportClass = .appCommand || reportClass = .appCommandStatefulPress ||
    reportClass = .appCommandStatefulRelease

def HidPush.isAllZero (push : HidPush) : Bool :=
  0 < push.len && push.data.isSome && push.bytes.all (· == 0)

/-- No payload of this length can be read or kept. -/
def HidPush.unreadable (push : HidPush) : Bool :=
  kHidReportMaxPayload < push.len || (0 < push.len && push.data.isNone)

namespace HidReportQueue

def contents (queue : HidReportQueue) : List QueuedHidReport := queue.reports.contents

/-- The sequence of the tail where `tail_matches` holds. -/
def tailMatches (queue : HidReportQueue) (push : HidPush) : Option Nat :=
  match queue.reports.back with
  | none => none
  | some tail =>
    if push.unreadable then none
    else if isAppCommand tail.reportClass || tail.reportId != push.reportId || tail.len != push.len ||
        tail.bleOwner != push.bleOwner || tail.usbEpoch != push.usbEpoch then none
    else if tail.data != push.bytes then none
    else some tail.sequence

/-- The report a push puts into the queue. -/
def reportOf (queue : HidReportQueue) (push : HidPush) (reportClass : HidReportClass) : QueuedHidReport :=
  { sequence := queue.nextSequence, reportId := push.reportId, data := push.bytes, len := push.len,
    queuedMs := push.queuedMs, reportClass, bleOwner := push.bleOwner, usbEpoch := push.usbEpoch }

def append (queue : HidReportQueue) (push : HidPush) (reportClass : HidReportClass) (usableCapacity : Nat) :
    HidReportQueue × HidQueuePushResult :=
  if h : queue.reports.size < usableCapacity ∧ queue.reports.size < kHidReportQueueCapacity then
    ({ queue with
        reports := queue.reports.pushBack (queue.reportOf push reportClass) h.2
        nextSequence := sequenceAfter queue.nextSequence },
      ⟨.queued, queue.nextSequence⟩)
  else (queue, ⟨.full, 0⟩)

def pushWithLimit (queue : HidReportQueue) (push : HidPush) (reportClass : HidReportClass)
    (usableCapacity : Nat) (coalesceKeyboardSnapshot : Bool) : HidReportQueue × HidQueuePushResult :=
  if push.unreadable || usableCapacity = 0 then (queue, {})
  else if coalesceKeyboardSnapshot then
    match queue.tailMatches push with
    | some existing => (queue, ⟨.coalesced, existing⟩)
    | none => queue.append push reportClass usableCapacity
  else queue.append push reportClass usableCapacity

def pushClassified (queue : HidReportQueue) (push : HidPush) (reportClass : HidReportClass) :
    HidReportQueue × HidQueuePushResult :=
  if push.unreadable then (queue, {})
  else if isKeyboardSnapshot reportClass && push.len != kKeyboardSnapshotPayloadSize then (queue, {})
  else if reportClass = .keyboardAllReleased && !push.isAllZero then (queue, {})
  else queue.pushWithLimit push reportClass (classifiedCapacity reportClass) (isKeyboardSnapshot reportClass)

/-- `push`, with the class it gives a report. -/
def push (queue : HidReportQueue) (push : HidPush) (reservedFreeSlots : Nat) :
    HidReportQueue × HidQueuePushResult :=
  queue.pushWithLimit push .appCommand
    (if kHidReportQueueCapacity ≤ reservedFreeSlots then 0 else kHidReportQueueCapacity - reservedFreeSlots) false

def front (queue : HidReportQueue) : Option QueuedHidReport := queue.reports.front

def popIfSequence (queue : HidReportQueue) (sequence : Nat) : HidReportQueue × Bool :=
  match queue.front with
  | none => (queue, false)
  | some head =>
    if head.sequence != sequence then (queue, false)
    else ({ queue with reports := queue.reports.popFront {} }, true)

def clear (queue : HidReportQueue) : HidReportQueue :=
  { queue with reports := Ring.empty {} hidReportQueueCapacity_pos }

/-- A push is the snapshot that is already at the tail. -/
structure Repeats (tail : QueuedHidReport) (push : HidPush) : Prop where
  snapshot : isKeyboardSnapshot tail.reportClass = true
  reportId : tail.reportId = push.reportId
  data : tail.data = push.bytes
  len : tail.len = push.len
  bleOwner : tail.bleOwner = push.bleOwner
  usbEpoch : tail.usbEpoch = push.usbEpoch

/-- What a push does. -/
inductive Move (queue : HidReportQueue) (push : HidPush) (reportClass : HidReportClass) :
    HidReportQueue × HidQueuePushResult → Prop where
  | queued (after : HidReportQueue) :
    after.contents = queue.contents ++ [queue.reportOf push reportClass] →
    Move queue push reportClass (after, ⟨.queued, queue.nextSequence⟩)
  | coalesced (tail : QueuedHidReport) : queue.contents.getLast? = some tail → Repeats tail push →
    Move queue push reportClass (queue, ⟨.coalesced, tail.sequence⟩)
  | refused (result : HidQueuePushResult) : result.status = .full ∨ result.status = .invalid →
    Move queue push reportClass (queue, result)

variable {queue : HidReportQueue} {push : HidPush} {reportClass : HidReportClass}

theorem isKeyboardSnapshot_iff (reportClass : HidReportClass) :
    isKeyboardSnapshot reportClass = !isAppCommand reportClass := by
  cases reportClass <;> rfl

theorem tailMatches_some {sequence : Nat} (h : queue.tailMatches push = some sequence) :
    ∃ tail, queue.contents.getLast? = some tail ∧ Repeats tail push ∧ tail.sequence = sequence := by
  rw [tailMatches, Ring.back_eq] at h
  split at h
  · exact absurd h (by simp)
  next tail htail =>
    split at h
    · exact absurd h (by simp)
    split at h
    · exact absurd h (by simp)
    next hsame =>
      split at h
      · exact absurd h (by simp)
      next hdata =>
        simp only [Bool.or_eq_true, bne_iff_ne, not_or, ne_eq, not_not] at hsame hdata
        obtain ⟨⟨⟨⟨happ, hid⟩, hlen⟩, howner⟩, hepoch⟩ := hsame
        refine ⟨tail, htail, ⟨?_, hid, hdata, hlen, howner, hepoch⟩, Option.some.inj h⟩
        rw [isKeyboardSnapshot_iff, Bool.eq_false_iff.2 happ, Bool.not_false]

theorem append_move (usableCapacity : Nat) :
    Move queue push reportClass (queue.append push reportClass usableCapacity) := by
  rw [append]
  split
  · exact .queued _ (Ring.contents_pushBack _)
  · exact .refused _ (.inl rfl)

theorem pushWithLimit_move (usableCapacity : Nat) (coalesceKeyboardSnapshot : Bool) :
    Move queue push reportClass
      (queue.pushWithLimit push reportClass usableCapacity coalesceKeyboardSnapshot) := by
  rw [pushWithLimit]
  split
  · exact .refused _ (.inr rfl)
  split
  · split
    next existing hmatch =>
      obtain ⟨tail, htail, hrepeats, rfl⟩ := tailMatches_some hmatch
      exact .coalesced tail htail hrepeats
    · exact append_move _
  · exact append_move _

theorem pushClassified_move (queue : HidReportQueue) (push : HidPush) (reportClass : HidReportClass) :
    Move queue push reportClass (queue.pushClassified push reportClass) := by
  rw [pushClassified]
  split
  · exact .refused _ (.inr rfl)
  split
  · exact .refused _ (.inr rfl)
  split
  · exact .refused _ (.inr rfl)
  · exact pushWithLimit_move _ _

theorem push_move (queue : HidReportQueue) (push : HidPush) (reservedFreeSlots : Nat) :
    Move queue push .appCommand (queue.push push reservedFreeSlots) :=
  pushWithLimit_move _ _

/-- The compatibility entry point never coalesces. -/
theorem push_separate (queue : HidReportQueue) (push : HidPush) (reservedFreeSlots : Nat) :
    (queue.push push reservedFreeSlots).2.status ≠ .coalesced := by
  rw [HidReportQueue.push, pushWithLimit]
  generalize (if kHidReportQueueCapacity ≤ reservedFreeSlots then 0 else _) = usableCapacity
  split
  · simp
  · rw [if_neg (by decide), append]
    split <;> simp

theorem front_eq : queue.front = queue.contents.head? := Ring.front_eq

/-- The head is taken by its own sequence. -/
theorem popIfSequence_head {head : QueuedHidReport} {rest : List QueuedHidReport}
    (h : queue.contents = head :: rest) :
    ∃ after, queue.popIfSequence head.sequence = (after, true) ∧ after.contents = rest := by
  have hfront : queue.front = some head := by rw [front_eq, h, List.head?_cons]
  have hpop := (Ring.contents_of_front hfront {}).symm.trans h
  refine ⟨{ queue with reports := queue.reports.popFront {} }, ?_, (List.cons.inj hpop).2⟩
  rw [popIfSequence, hfront]
  exact if_neg (by simp)

end HidReportQueue

/-! ### The mouse wheel -/

structure QueuedMouseWheel where
  sequence : Nat := 0
  vertical : Int := 0
  horizontal : Int := 0
  queuedMs : Nat := 0
  bleOwner : BleOwnerToken := {}
  usbEpoch : Nat := 0
  deriving DecidableEq

structure MouseWheelQueue where
  reports : Ring QueuedMouseWheel kMouseWheelQueueCapacity :=
    Ring.empty {} mouseWheelQueueCapacity_pos
  nextSequence : Nat := 1

structure WheelPush where
  vertical : Int
  horizontal : Int
  queuedMs : Nat
  bleOwner : BleOwnerToken := {}
  usbEpoch : Nat := 0

/-- What `push` returns and writes to the variables it is given; `sequence` is written on success only. -/
structure WheelPushResult where
  accepted : Bool
  sequence : Option Nat := none
  coalesced : Bool := false
  saturated : Bool := false

/-- The sum within the limit, and whether it was cut. -/
def saturatingWheelAdd (current incoming : Int) : Int × Bool :=
  if kMouseWheelAccumulationLimit < current + incoming then (kMouseWheelAccumulationLimit, true)
  else if current + incoming < -kMouseWheelAccumulationLimit then (-kMouseWheelAccumulationLimit, true)
  else (current + incoming, false)

def sameOrEmptyDirection (current incoming : Int) : Bool :=
  current = 0 || incoming = 0 || decide (0 < current) == decide (0 < incoming)

def validConsumption (pending consumed : Int) : Bool :=
  if consumed = 0 then true
  else pending ≠ 0 && decide (0 < pending) == decide (0 < consumed) && consumed.natAbs ≤ pending.natAbs

/-- `std::clamp`. -/
def clampBetween (low high value : Int) : Int :=
  if value < low then low else if high < value then high else value

namespace MouseWheelQueue

def contents (queue : MouseWheelQueue) : List QueuedMouseWheel := queue.reports.contents

/-- A push goes into the report it finds at the tail. -/
def joins (tail : QueuedMouseWheel) (push : WheelPush) : Bool :=
  tail.bleOwner = push.bleOwner && tail.usbEpoch = push.usbEpoch &&
    sameOrEmptyDirection tail.vertical push.vertical && sameOrEmptyDirection tail.horizontal push.horizontal

/-- The tail with a push in it. -/
def joined (tail : QueuedMouseWheel) (push : WheelPush) : QueuedMouseWheel :=
  { tail with
    vertical := (saturatingWheelAdd tail.vertical push.vertical).1
    horizontal := (saturatingWheelAdd tail.horizontal push.horizontal).1 }

/-- The report a push puts into the queue. -/
def reportOf (queue : MouseWheelQueue) (push : WheelPush) : QueuedMouseWheel :=
  { sequence := queue.nextSequence
    vertical := clampBetween (-kMouseWheelAccumulationLimit) kMouseWheelAccumulationLimit push.vertical
    horizontal := clampBetween (-kMouseWheelAccumulationLimit) kMouseWheelAccumulationLimit push.horizontal
    queuedMs := push.queuedMs, bleOwner := push.bleOwner, usbEpoch := push.usbEpoch }

def append (queue : MouseWheelQueue) (push : WheelPush) : MouseWheelQueue × WheelPushResult :=
  if h : queue.reports.size < kMouseWheelQueueCapacity then
    ({ queue with
        reports := queue.reports.pushBack (queue.reportOf push) h
        nextSequence := sequenceAfter queue.nextSequence },
      { accepted := true, sequence := some queue.nextSequence })
  else (queue, { accepted := false })

def push (queue : MouseWheelQueue) (push : WheelPush) : MouseWheelQueue × WheelPushResult :=
  if push.vertical = 0 && push.horizontal = 0 then (queue, { accepted := false })
  else
    match queue.reports.back with
    | some tail =>
      if joins tail push then
        ({ queue with reports := queue.reports.set (queue.reports.size - 1) (joined tail push) },
          { accepted := true, sequence := some tail.sequence, coalesced := true
            saturated := (saturatingWheelAdd tail.vertical push.vertical).2 ||
              (saturatingWheelAdd tail.horizontal push.horizontal).2 })
      else queue.append push
    | none => queue.append push

def front (queue : MouseWheelQueue) : Option QueuedMouseWheel := queue.reports.front

def popIfSequence (queue : MouseWheelQueue) (sequence : Nat) : MouseWheelQueue × Bool :=
  match queue.front with
  | none => (queue, false)
  | some head =>
    if head.sequence != sequence then (queue, false)
    else ({ queue with reports := queue.reports.popFront {} }, true)

def consumeIfSequence (queue : MouseWheelQueue) (sequence : Nat) (vertical horizontal : Int) :
    MouseWheelQueue × Bool :=
  match queue.front with
  | none => (queue, false)
  | some head =>
    if head.sequence != sequence then (queue, false)
    else if !validConsumption head.vertical vertical || !validConsumption head.horizontal horizontal then
      (queue, false)
    else
      let report :=
        { head with vertical := head.vertical - vertical, horizontal := head.horizontal - horizontal }
      let consumed := { queue with reports := queue.reports.set 0 report }
      if report.vertical = 0 && report.horizontal = 0 then consumed.popIfSequence sequence
      else (consumed, true)

def clear (queue : MouseWheelQueue) : MouseWheelQueue :=
  { queue with reports := Ring.empty {} mouseWheelQueueCapacity_pos }

/-- What a push does. -/
inductive Move (queue : MouseWheelQueue) (push : WheelPush) : MouseWheelQueue × WheelPushResult → Prop where
  | queued (after : MouseWheelQueue) : after.contents = queue.contents ++ [queue.reportOf push] →
    Move queue push (after, { accepted := true, sequence := some queue.nextSequence })
  | joined (front : List QueuedMouseWheel) (tail : QueuedMouseWheel) (after : MouseWheelQueue) :
    queue.contents = front ++ [tail] → joins tail push = true →
    after.contents = front ++ [joined tail push] →
    Move queue push (after, { accepted := true, sequence := some tail.sequence, coalesced := true
                              saturated := (saturatingWheelAdd tail.vertical push.vertical).2 ||
                                (saturatingWheelAdd tail.horizontal push.horizontal).2 })
  | refused : Move queue push (queue, { accepted := false })

variable {queue : MouseWheelQueue}

theorem append_move (queue : MouseWheelQueue) (push : WheelPush) : Move queue push (queue.append push) := by
  rw [append]
  split
  · exact .queued _ (Ring.contents_pushBack _)
  · exact .refused

theorem push_move (queue : MouseWheelQueue) (push : WheelPush) : Move queue push (queue.push push) := by
  rw [MouseWheelQueue.push]
  split
  · exact .refused
  split
  next tail htail =>
    split
    next hjoins =>
      rw [Ring.back_eq] at htail
      obtain ⟨front, hfront⟩ := List.getLast?_eq_some_iff.1 htail
      exact .joined front tail _ hfront hjoins (Ring.contents_setBack hfront)
    · exact append_move queue push
  · exact append_move queue push

theorem front_eq : queue.front = queue.contents.head? := Ring.front_eq

theorem popIfSequence_head {head : QueuedMouseWheel} {rest : List QueuedMouseWheel}
    (h : queue.contents = head :: rest) :
    ∃ after, queue.popIfSequence head.sequence = (after, true) ∧ after.contents = rest := by
  have hfront : queue.front = some head := by rw [front_eq, h, List.head?_cons]
  have hpop := (Ring.contents_of_front hfront {}).symm.trans h
  refine ⟨{ queue with reports := queue.reports.popFront {} }, ?_, (List.cons.inj hpop).2⟩
  rw [popIfSequence, hfront]
  exact if_neg (by simp)

/-- What is left of a report. -/
def remainder (head : QueuedMouseWheel) (vertical horizontal : Int) : QueuedMouseWheel :=
  { head with vertical := head.vertical - vertical, horizontal := head.horizontal - horizontal }

/-- The head is consumed by its own sequence, and leaves when nothing is left of it. -/
theorem consumeIfSequence_head {head : QueuedMouseWheel} {rest : List QueuedMouseWheel}
    {vertical horizontal : Int} (h : queue.contents = head :: rest)
    (hvertical : validConsumption head.vertical vertical = true)
    (hhorizontal : validConsumption head.horizontal horizontal = true) :
    ∃ after, queue.consumeIfSequence head.sequence vertical horizontal = (after, true) ∧
      after.contents = if head.vertical - vertical = 0 ∧ head.horizontal - horizontal = 0 then rest
        else remainder head vertical horizontal :: rest := by
  have hfront : queue.front = some head := by rw [front_eq, h, List.head?_cons]
  have hset : ({ queue with reports := queue.reports.set 0 (remainder head vertical horizontal) } :
      MouseWheelQueue).contents = remainder head vertical horizontal :: rest := Ring.contents_setFront h
  obtain ⟨after, hpop, hafter⟩ := popIfSequence_head hset
  rw [consumeIfSequence, hfront]
  dsimp only
  rw [if_neg (by simp), hvertical, hhorizontal, if_neg (by simp)]
  by_cases hzero : head.vertical - vertical = 0 ∧ head.horizontal - horizontal = 0
  · rw [if_pos (by simpa using hzero), if_pos hzero]
    exact ⟨after, hpop, hafter⟩
  · rw [if_neg (by simpa using hzero), if_neg hzero]
    exact ⟨_, rfl, hset⟩

end MouseWheelQueue

end CodexKeyboard.Keyboard
