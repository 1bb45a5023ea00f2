import CodexKeyboard.Keyboard.BleInputRuns

/-! Nothing is lost, repeated or reordered between the keyboard and the BLE transport. -/

namespace CodexKeyboard.Keyboard

open Schemes Runs

namespace BleInput

variable {world : BleWorld} {op : BleOp} {owner : BleOwnerToken} {axis : WheelAxis}

/-! ### A poll of a run -/

theorem callIn_recorded {after : BleWorld} {call : BleCall} (h : after.context = world.context ++ [call]) :
    callIn world after = some call := by
  rw [callIn, h, List.getElem?_append_right (Nat.le_refl _), Nat.sub_self, List.getElem?_cons_zero]

theorem callIn_none {after : BleWorld} (h : after.context = world.context) : callIn world after = none := by
  rw [callIn, h, List.getElem?_eq_none (Nat.le_refl _)]

/-- What one attempt of a run has done. -/
structure Attempted (world after : BleWorld) (nowUs : Nat) (answer : BleScheduledReport → BleInputTxResult)
    (sendHid : Bool) (scheduled : BleScheduledReport) : Prop where
  chosen : Chosen world sendHid scheduled
  due : world.scheduler.hasAttempted = true → world.scheduler.nextAttemptUs ≤ nowUs
  called : Called world after nowUs sendHid scheduled (answer scheduled)
  context : after.context = world.context ++ [⟨nowUs, scheduled, answer scheduled⟩]

theorem step_poll (hchunk : 1 ≤ world.scheduler.config.wheelChunkLimit) (nowUs : Nat)
    (answer : BleScheduledReport → BleInputTxResult) :
    (world.step (.poll nowUs answer)).1 = world.watermarked ∨
      ∃ sendHid scheduled, Attempted world (world.step (.poll nowUs answer)).1 nowUs answer sendHid scheduled := by
  rcases poll_cases world nowUs (recording nowUs answer) hchunk with h | ⟨sendHid, scheduled, h⟩
  · exact .inl h
  · exact .inr ⟨sendHid, scheduled, h.1, h.2.1, h.2.2.1, h.2.2.2⟩

theorem step_config (hchunk : 1 ≤ world.scheduler.config.wheelChunkLimit) (op : BleOp) :
    (world.step op).1.scheduler.config = world.scheduler.config := by
  cases op with
  | poll nowUs answer =>
    rcases step_poll hchunk nowUs answer with h | ⟨sendHid, scheduled, h⟩
    · rw [h]
      rfl
    · exact h.called.config
  | setConnectionInterval intervalUnits valid =>
    show (world.scheduler.setConnectionInterval intervalUnits valid).config = _
    rw [BleInputScheduler.setConnectionInterval]
    dsimp only
    split
    · rfl
    · split <;> rfl
  | _ => rfl

/-! ### HID reports -/

/-- The HID reports as they are to be sent. -/
def hidHeld (world : BleWorld) : List BleScheduledReport := world.hid.contents.map BleInputScheduler.scheduledHid

theorem hidMove_conserved {push : HidPush} {reportClass : HidReportClass}
    {moved : HidReportQueue × HidQueuePushResult} (h : HidReportQueue.Move world.hid push reportClass moved) :
    hidHeld world ++ hidQueued push reportClass moved.2 =
      moved.1.contents.map BleInputScheduler.scheduledHid := by
  cases h with
  | queued after hafter =>
    rw [hafter, List.map_append, hidQueued, if_pos rfl]
    rfl
  | coalesced tail _ _ =>
    rw [hidQueued, if_neg (by simp), List.append_nil]
    rfl
  | refused result hresult =>
    rw [hidQueued, if_neg (by rcases hresult with h | h <;> simp [h]), List.append_nil]
    rfl

/-- What is queued and pushed is what leaves and what is queued after it, in order. -/
theorem step_hid (hchunk : 1 ≤ world.scheduler.config.wheelChunkLimit) (op : BleOp) :
    hidHeld world ++ hidPushedIn op (world.step op).2 =
      (hidLeftIn world op (world.step op).1).map Prod.fst ++ hidHeld (world.step op).1 := by
  cases op with
  | pushClassified push reportClass =>
    exact hidMove_conserved (HidReportQueue.pushClassified_move world.hid push reportClass)
  | push push reservedFreeSlots =>
    exact hidMove_conserved (HidReportQueue.push_move world.hid push reservedFreeSlots)
  | clearHid =>
    show hidHeld world ++ [] = (world.hid.contents.map _).map Prod.fst ++ []
    rw [List.map_map]
    rfl
  | poll nowUs answer =>
    show hidHeld world ++ [] = _
    rcases step_poll hchunk nowUs answer with h | ⟨sendHid, scheduled, h⟩
    · have hnone : callIn world world.watermarked = none := callIn_none rfl
      rw [h, hidLeftIn, hnone]
      exact List.append_nil _
    · have hafter : hidHeld (world.step (.poll nowUs answer)).1 =
          (hidAfter world.hid.contents sendHid (answer scheduled)).map BleInputScheduler.scheduledHid :=
        congrArg (List.map BleInputScheduler.scheduledHid) h.called.hid
      rw [hafter, hidLeftIn, callIn_recorded h.context, List.append_nil]
      cases h.chosen with
      | hid head rest hhid _ =>
        rw [hidHeld, hhid]
        generalize answer _ = result
        cases result <;> rfl
      | wheel head rest _ _ =>
        generalize answer _ = result
        cases result <;> rfl
  | _ => exact List.append_nil _

/-! ### Counts of the wheel -/

theorem total_append (movements others : List WheelMovement) :
    total owner axis (movements ++ others) = total owner axis movements + total owner axis others := by
  rw [total, List.map_append, List.sum_append]
  rfl

theorem total_singleton (movement : WheelMovement) : total owner axis [movement] =
    if movement.bleOwner = owner then movement.on axis else 0 := by
  rw [total, List.map_singleton, List.sum_singleton]

theorem total_cons (movement : WheelMovement) (movements : List WheelMovement) :
    total owner axis (movement :: movements) =
      (if movement.bleOwner = owner then movement.on axis else 0) + total owner axis movements := by
  rw [total, List.map_cons, List.sum_cons]
  rfl

/-- The movements of the wheel queue. -/
def wheelHeld (world : BleWorld) : List WheelMovement := world.wheel.contents.map movementOf

theorem saturatingWheelAdd_eq (current incoming : Int) :
    (saturatingWheelAdd current incoming).1 = current + incoming - excess current incoming := by
  have hlimit : kMouseWheelAccumulationLimit = 32767 := rfl
  rw [saturatingWheelAdd, excess, clampBetween, hlimit]
  split
  · split
    · omega
    · omega
  · split
    · omega
    · show current + incoming = _
      omega

theorem not_saturated {current incoming : Int} (h : (saturatingWheelAdd current incoming).2 = false) :
    excess current incoming = 0 := by
  have hlimit : kMouseWheelAccumulationLimit = 32767 := rfl
  rw [saturatingWheelAdd, hlimit] at h
  rw [excess, clampBetween, hlimit]
  split at h
  · exact absurd h (by simp)
  · split at h
    · exact absurd h (by simp)
    · rw [if_neg (by omega), if_neg (by omega)]
      omega

theorem clamp_within {limit value : Int} (h : -limit ≤ value ∧ value ≤ limit) :
    clampBetween (-limit) limit value = value := by
  rw [clampBetween, if_neg (by omega), if_neg (by omega)]

/-- What a push adds to the tail is what it brings less what is cut. -/
theorem joined_on (tail : QueuedMouseWheel) (push : WheelPush) :
    (movementOf (MouseWheelQueue.joined tail push)).on axis = (movementOf tail).on axis +
      (⟨push.bleOwner, push.vertical, push.horizontal⟩ : WheelMovement).on axis -
      (⟨push.bleOwner, excess tail.vertical push.vertical, excess tail.horizontal push.horizontal⟩ :
        WheelMovement).on axis := by
  cases axis with
  | vertical => exact saturatingWheelAdd_eq _ _
  | horizontal => exact saturatingWheelAdd_eq _ _

theorem joins_owner {tail : QueuedMouseWheel} {push : WheelPush} (h : MouseWheelQueue.joins tail push = true) :
    tail.bleOwner = push.bleOwner ∧ sameOrEmptyDirection tail.vertical push.vertical = true ∧
      sameOrEmptyDirection tail.horizontal push.horizontal = true := by
  simp only [MouseWheelQueue.joins, Bool.and_eq_true, decide_eq_true_eq] at h
  exact ⟨h.1.1.1, h.1.2, h.2⟩

theorem push_total (push : WheelPush) (hwithin : BleOp.WithinLimit (.pushWheel push)) :
    total owner axis (wheelHeld world) +
        total owner axis (wheelPushedIn (.pushWheel push) (world.step (.pushWheel push)).2) -
        total owner axis (wheelCutIn world (.pushWheel push) (world.step (.pushWheel push)).2) =
      total owner axis (wheelHeld (world.step (.pushWheel push)).1) := by
  have hmove := MouseWheelQueue.push_move world.wheel push
  have hafter : wheelHeld (world.step (.pushWheel push)).1 =
      (world.wheel.push push).1.contents.map movementOf := rfl
  have hanswer : (world.step (.pushWheel push)).2 = .wheelPushed (world.wheel.push push).2 := rfl
  rw [hafter, hanswer]
  generalize world.wheel.push push = moved at hmove
  cases hmove with
  | queued after hcontents =>
    have hcut : wheelCutIn world (.pushWheel push)
        (.wheelPushed { accepted := true, sequence := some world.wheel.nextSequence }) = [] := by
      rw [wheelCutIn]
      split <;> rfl
    have hmovement : movementOf (world.wheel.reportOf push) =
        ⟨push.bleOwner, push.vertical, push.horizontal⟩ := by
      rw [movementOf, MouseWheelQueue.reportOf, clamp_within hwithin.1, clamp_within hwithin.2]
    rw [hcontents, hcut, List.map_append, List.map_singleton, hmovement, total_append]
    exact Int.sub_zero _
  | joined front tail after hcontents hjoins hafter =>
    obtain ⟨howner, -, -⟩ := joins_owner hjoins
    have hheld : wheelHeld world = front.map movementOf ++ [movementOf tail] := by
      rw [wheelHeld, hcontents, List.map_append, List.map_singleton]
    have hlast : world.wheel.contents.getLast? = some tail := by
      rw [hcontents, List.getLast?_append, List.getLast?_singleton, Option.some_or]
    have hjoined := @joined_on axis tail push
    have howned : (movementOf (MouseWheelQueue.joined tail push)).bleOwner = push.bleOwner := howner
    have howned' : (movementOf tail).bleOwner = push.bleOwner := howner
    have hcut : total owner axis (wheelCutIn world (.pushWheel push) (.wheelPushed
        { accepted := true, sequence := some tail.sequence, coalesced := true
          saturated := (saturatingWheelAdd tail.vertical push.vertical).2 ||
            (saturatingWheelAdd tail.horizontal push.horizontal).2 })) =
        total owner axis
          [⟨push.bleOwner, excess tail.vertical push.vertical, excess tail.horizontal push.horizontal⟩] := by
      rw [wheelCutIn, hlast]
      dsimp only
      split
      · rfl
      next hsaturated =>
        simp only [Bool.or_eq_true, not_or, Bool.not_eq_true] at hsaturated
        rw [not_saturated hsaturated.1, not_saturated hsaturated.2, total_singleton]
        cases axis <;> exact (ite_self _).symm
    have hpushed : ∀ sequence saturated, wheelPushedIn (.pushWheel push) (.wheelPushed
        { accepted := true, sequence, coalesced := true, saturated }) =
        [⟨push.bleOwner, push.vertical, push.horizontal⟩] := fun _ _ => rfl
    rw [hcut, hpushed, hafter, hheld, List.map_append, List.map_singleton, total_append, total_append,
      total_singleton, total_singleton, total_singleton, total_singleton, howned, howned', hjoined]
    split <;> omega
  | refused =>
    have hcut : wheelCutIn world (.pushWheel push) (.wheelPushed { accepted := false }) = [] := by
      rw [wheelCutIn]
      split <;> rfl
    rw [hcut]
    show total owner axis (wheelHeld world) + 0 - 0 = _
    rw [Int.add_zero, Int.sub_zero]
    rfl

/-- The chunk that is sent of a run. -/
def chunkOf (scheduler : BleInputScheduler) (head : QueuedMouseWheel) : WheelMovement :=
  ⟨head.bleOwner, (scheduler.scheduledWheel head).wheelVertical, (scheduler.scheduledWheel head).wheelHorizontal⟩

/-- What an attempt leaves in the wheel queue and what it takes. -/
inductive WheelTaken (scheduler : BleInputScheduler) (held after : List WheelMovement) :
    List WheelMovement → Prop where
  | nothing : after = held → WheelTaken scheduler held after []
  | chunk (head : QueuedMouseWheel) (rest : List WheelMovement) : held = movementOf head :: rest →
    (after = rest ∧ (∀ axis, (movementOf head).on axis = (chunkOf scheduler head).on axis)) ∨
      after = ⟨head.bleOwner, head.vertical - (chunkOf scheduler head).vertical,
        head.horizontal - (chunkOf scheduler head).horizontal⟩ :: rest →
    WheelTaken scheduler held after [chunkOf scheduler head]
  | run (head : WheelMovement) : held = head :: after → WheelTaken scheduler held after [head]

theorem poll_wheel (hchunk : 1 ≤ world.scheduler.config.wheelChunkLimit) (nowUs : Nat)
    (answer : BleScheduledReport → BleInputTxResult) :
    WheelTaken world.scheduler (wheelHeld world) (wheelHeld (world.step (.poll nowUs answer)).1)
      ((wheelLeftIn world (.poll nowUs answer) (world.step (.poll nowUs answer)).1).map Prod.fst) := by
  rcases step_poll hchunk nowUs answer with h | ⟨sendHid, scheduled, h⟩
  · have hnone : callIn world world.watermarked = none := callIn_none rfl
    rw [h, wheelLeftIn, hnone]
    exact .nothing rfl
  · have hafter : wheelHeld (world.step (.poll nowUs answer)).1 =
        (wheelAfter world.wheel.contents sendHid scheduled (answer scheduled)).map movementOf :=
      congrArg (List.map movementOf) h.called.wheel
    rw [hafter, wheelLeftIn, callIn_recorded h.context]
    cases h.chosen with
    | hid head rest _ _ =>
      generalize answer _ = result
      cases result <;> exact .nothing rfl
    | wheel head rest hwheel _ =>
      rw [wheelHeld, hwheel]
      generalize answer _ = result
      cases result with
      | accepted =>
        refine .chunk head (rest.map movementOf) rfl ?_
        show ((withoutChunk _ (head :: rest)).map movementOf = _ ∧ _) ∨ (withoutChunk _ (head :: rest)).map _ = _
        rw [withoutChunk]
        split
        next hzero =>
          refine .inl ⟨rfl, ?_⟩
          rintro (_ | _)
          · exact Int.sub_eq_zero.1 hzero.1
          · exact Int.sub_eq_zero.1 hzero.2
        · exact .inr rfl
      | droppedUnsupported => exact .run _ rfl
      | _ => exact .nothing rfl

theorem WheelTaken.total_eq {scheduler : BleInputScheduler} {held after left : List WheelMovement}
    (h : WheelTaken scheduler held after left) :
    total owner axis held = total owner axis left + total owner axis after := by
  cases h with
  | nothing hafter => rw [hafter]; exact (Int.zero_add _).symm
  | chunk head rest hheld hafter =>
    rw [hheld, total_cons, total_singleton]
    rcases hafter with ⟨rfl, hall⟩ | rfl
    · rw [hall]
      rfl
    · rw [total_cons]
      show (if head.bleOwner = owner then _ else _) + _ = (if head.bleOwner = owner then _ else _) +
        ((if head.bleOwner = owner then _ else _) + _)
      split
      · cases axis with
        | vertical =>
          show head.vertical + _ = (chunkOf scheduler head).vertical + (head.vertical - _ + _)
          omega
        | horizontal =>
          show head.horizontal + _ = (chunkOf scheduler head).horizontal + (head.horizontal - _ + _)
          omega
      · omega
  | run head hheld => rw [hheld, total_cons, total_singleton]

/-- On every axis an owner's counts are conserved. -/
theorem step_total (hchunk : 1 ≤ world.scheduler.config.wheelChunkLimit) (hwithin : op.WithinLimit) :
    total owner axis (wheelHeld world) + total owner axis (wheelPushedIn op (world.step op).2) -
        total owner axis (wheelCutIn world op (world.step op).2) =
      total owner axis ((wheelLeftIn world op (world.step op).1).map Prod.fst) +
        total owner axis (wheelHeld (world.step op).1) := by
  cases op with
  | pushWheel push => rw [push_total push hwithin]; exact (Int.zero_add _).symm
  | clearWheel =>
    show total owner axis (wheelHeld world) + 0 - 0 =
      total owner axis ((world.wheel.contents.map _).map Prod.fst) + 0
    rw [List.map_map]
    exact Int.sub_zero _
  | poll nowUs answer =>
    have htaken := @WheelTaken.total_eq owner axis _ _ _ _ (poll_wheel hchunk nowUs answer)
    show total owner axis (wheelHeld world) + 0 - 0 = _
    rw [Int.add_zero, Int.sub_zero, htaken]
  | _ => show total owner axis (wheelHeld world) + 0 - 0 = 0 + total owner axis (wheelHeld world); omega

/-! ### Directions of the wheel -/

theorem directions_append (movements others : List WheelMovement) :
    directions axis (movements ++ others) = directions axis movements ++ directions axis others :=
  List.filterMap_append

theorem directions_cons (movement : WheelMovement) (movements : List WheelMovement) :
    directions axis (movement :: movements) =
      (directionOf (movement.on axis)).toList ++ directions axis movements := by
  rw [directions, List.filterMap_cons]
  cases directionOf (movement.on axis) <;> rfl

theorem directionOf_pos {count : Int} (h : 0 < count) : directionOf count = some true := by
  rw [directionOf, if_neg (by omega), decide_eq_true h]

theorem directionOf_neg {count : Int} (h : count < 0) : directionOf count = some false := by
  rw [directionOf, if_neg (by omega), decide_eq_false (by omega)]

/-- What is joined has the direction of both, or of the one that has any. -/
theorem directionOf_joined {current incoming : Int} (h : sameOrEmptyDirection current incoming = true) :
    (directionOf incoming = none ∧
      directionOf (saturatingWheelAdd current incoming).1 = directionOf current) ∨
    (directionOf current = none ∧
      directionOf (saturatingWheelAdd current incoming).1 = directionOf incoming) ∨
    ∃ way, directionOf current = some way ∧ directionOf incoming = some way ∧
      directionOf (saturatingWheelAdd current incoming).1 = some way := by
  have hpos : 0 < current + incoming → 0 < (saturatingWheelAdd current incoming).1 := by
    have hlimit : kMouseWheelAccumulationLimit = 32767 := rfl
    rintro hsum
    rw [saturatingWheelAdd, hlimit]
    split
    · decide
    · split
      · omega
      · exact hsum
  have hneg : current + incoming < 0 → (saturatingWheelAdd current incoming).1 < 0 := by
    have hlimit : kMouseWheelAccumulationLimit = 32767 := rfl
    rintro hsum
    rw [saturatingWheelAdd, hlimit]
    split
    · omega
    · split
      · decide
      · exact hsum
  have hzero : current = 0 → incoming = 0 → (saturatingWheelAdd current incoming).1 = 0 := by
    rintro rfl rfl
    rfl
  simp only [sameOrEmptyDirection, Bool.or_eq_true, decide_eq_true_eq, beq_iff_eq, decide_eq_decide] at h
  rcases Int.lt_trichotomy incoming 0 with hincoming | hincoming | hincoming
  · rcases Int.lt_trichotomy current 0 with hcurrent | hcurrent | hcurrent
    · exact .inr (.inr ⟨false, directionOf_neg hcurrent, directionOf_neg hincoming,
        directionOf_neg (hneg (by omega))⟩)
    · exact .inr (.inl ⟨by rw [hcurrent]; rfl, by
        rw [directionOf_neg hincoming, directionOf_neg (hneg (by omega))]⟩)
    · omega
  · refine .inl ⟨by rw [hincoming]; rfl, ?_⟩
    rcases Int.lt_trichotomy current 0 with hcurrent | hcurrent | hcurrent
    · rw [directionOf_neg hcurrent, directionOf_neg (hneg (by omega))]
    · rw [hzero hcurrent hincoming, hcurrent]
    · rw [directionOf_pos hcurrent, directionOf_pos (hpos (by omega))]
  · rcases Int.lt_trichotomy current 0 with hcurrent | hcurrent | hcurrent
    · omega
    · exact .inr (.inl ⟨by rw [hcurrent]; rfl, by
        rw [directionOf_pos hincoming, directionOf_pos (hpos (by omega))]⟩)
    · exact .inr (.inr ⟨true, directionOf_pos hcurrent, directionOf_pos hincoming,
        directionOf_pos (hpos (by omega))⟩)

theorem push_directions (push : WheelPush) {before pushed : List Bool}
    (h : runs (before ++ directions axis (wheelHeld world)) = runs pushed) :
    runs (before ++ directions axis (wheelHeld (world.step (.pushWheel push)).1)) =
      runs (pushed ++ directions axis (wheelPushedIn (.pushWheel push) (world.step (.pushWheel push)).2)) := by
  have hmove := MouseWheelQueue.push_move world.wheel push
  have hafter : wheelHeld (world.step (.pushWheel push)).1 =
      (world.wheel.push push).1.contents.map movementOf := rfl
  have hanswer : (world.step (.pushWheel push)).2 = .wheelPushed (world.wheel.push push).2 := rfl
  have hkept : ∀ result : WheelPushResult, result.accepted = true →
      wheelPushedIn (.pushWheel push) (.wheelPushed result) = [⟨push.bleOwner, push.vertical, push.horizontal⟩] :=
    fun result haccepted => if_pos haccepted
  rw [hafter, hanswer]
  generalize world.wheel.push push = moved at hmove
  cases hmove with
  | queued after hcontents =>
    have hdirection : directionOf ((movementOf (world.wheel.reportOf push)).on axis) =
        directionOf ((⟨push.bleOwner, push.vertical, push.horizontal⟩ : WheelMovement).on axis) := by
      have hclamp : ∀ value, directionOf
          (clampBetween (-kMouseWheelAccumulationLimit) kMouseWheelAccumulationLimit value) = directionOf value := by
        rintro value
        rcases chunk_cases (show 1 ≤ kMouseWheelAccumulationLimit by decide) value with ⟨hv, hc⟩ | h | h
        · rw [hc, hv]
        · rw [directionOf_pos h.1, directionOf_pos h.2.1]
        · rw [directionOf_neg h.1, directionOf_neg h.2.1]
      cases axis with
      | vertical => exact hclamp _
      | horizontal => exact hclamp _
    rw [hkept _ rfl, hcontents, List.map_append, List.map_singleton, directions_append, directions_cons,
      directions_cons, hdirection, ← List.append_assoc]
    exact runs_append_congr h _
  | joined front tail after hcontents hjoins hafter =>
    have hjoined : ∃ current incoming, sameOrEmptyDirection current incoming = true ∧
        (movementOf tail).on axis = current ∧
        (⟨push.bleOwner, push.vertical, push.horizontal⟩ : WheelMovement).on axis = incoming ∧
        (movementOf (MouseWheelQueue.joined tail push)).on axis = (saturatingWheelAdd current incoming).1 := by
      obtain ⟨-, hvertical, hhorizontal⟩ := joins_owner hjoins
      cases axis with
      | vertical => exact ⟨_, _, hvertical, rfl, rfl, rfl⟩
      | horizontal => exact ⟨_, _, hhorizontal, rfl, rfl, rfl⟩
    obtain ⟨current, incoming, hsame, hcurrent, hincoming, hsum⟩ := hjoined
    rw [wheelHeld, hcontents, List.map_append, List.map_singleton, directions_append, directions_cons,
      hcurrent, ← List.append_assoc] at h
    rw [hkept _ rfl, hafter, List.map_append, List.map_singleton, directions_append, directions_cons,
      directions_cons, hincoming, hsum, ← List.append_assoc]
    rcases directionOf_joined hsame with ⟨hnone, hboth⟩ | ⟨hnone, hboth⟩ | ⟨way, hway, hway', hboth⟩
    · rw [hnone, hboth, h]
      exact (congrArg runs (List.append_nil pushed)).symm
    · rw [hnone] at h
      rw [hboth]
      exact runs_append_congr ((congrArg runs (List.append_nil _)).symm.trans h) _
    · rw [hway] at h
      rw [hway', hboth]
      have hagain := runs_append_congr h [way]
      have hrepeat := runs_repeat (before ++ directions axis (front.map movementOf)) way []
      rw [List.append_cons] at hrepeat
      exact hrepeat.symm.trans hagain
  | refused =>
    show _ = runs (pushed ++ [])
    rw [List.append_nil]
    exact h

/-- A chunk has the direction of its run, and so has what it leaves, if it leaves anything. -/
theorem directionOf_chunk {limit : Int} (h : 1 ≤ limit) (value : Int) :
    (directionOf value = none ∧ directionOf (clampBetween (-limit) limit value) = none ∧
      directionOf (value - clampBetween (-limit) limit value) = none) ∨
    ∃ way, directionOf value = some way ∧ directionOf (clampBetween (-limit) limit value) = some way ∧
      (directionOf (value - clampBetween (-limit) limit value) = none ∨
        directionOf (value - clampBetween (-limit) limit value) = some way) := by
  have hrest : ∀ count way, (count = 0 ∨ directionOf count = some way) →
      directionOf count = none ∨ directionOf count = some way := by
    rintro count way (rfl | hcount)
    · exact .inl rfl
    · exact .inr hcount
  rcases chunk_cases h value with ⟨hvalue, hchunk⟩ | ⟨hvalue, hchunk, hle⟩ | ⟨hvalue, hchunk, hle⟩
  · rw [hchunk, hvalue]
    exact .inl ⟨rfl, rfl, rfl⟩
  · refine .inr ⟨true, directionOf_pos hvalue, directionOf_pos hchunk, hrest _ _ ?_⟩
    rcases Int.lt_or_eq_of_le hle with hlt | heq
    · exact .inr (directionOf_pos (by omega))
    · exact .inl (by omega)
  · refine .inr ⟨false, directionOf_neg hvalue, directionOf_neg hchunk, hrest _ _ ?_⟩
    rcases Int.lt_or_eq_of_le hle with hlt | heq
    · exact .inr (directionOf_neg (by omega))
    · exact .inl (by omega)

theorem WheelTaken.directions_eq {scheduler : BleInputScheduler} {held after left : List WheelMovement}
    (h : WheelTaken scheduler held after left) (hchunk : 1 ≤ scheduler.config.wheelChunkLimit)
    (before : List Bool) :
    runs (before ++ directions axis left ++ directions axis after) = runs (before ++ directions axis held) := by
  cases h with
  | nothing hafter => rw [hafter]; exact congrArg (fun l => runs (l ++ _)) (List.append_nil before)
  | chunk head rest hheld hafter =>
    rw [hheld, directions_cons, directions_cons]
    rcases hafter with ⟨rfl, hall⟩ | rfl
    · rw [hall, List.append_assoc, List.append_assoc]
      rfl
    · have hparts : ∃ value chunk, (movementOf head).on axis = value ∧ (chunkOf scheduler head).on axis = chunk ∧
          (⟨head.bleOwner, head.vertical - (chunkOf scheduler head).vertical,
            head.horizontal - (chunkOf scheduler head).horizontal⟩ : WheelMovement).on axis = value - chunk ∧
          chunk = clampBetween (-scheduler.config.wheelChunkLimit) scheduler.config.wheelChunkLimit value := by
        cases axis with
        | vertical => exact ⟨_, _, rfl, rfl, rfl, rfl⟩
        | horizontal => exact ⟨_, _, rfl, rfl, rfl, rfl⟩
      obtain ⟨value, chunk, hvalue, hsent, hleft, rfl⟩ := hparts
      rw [directions_cons, hvalue, hsent, hleft]
      rcases directionOf_chunk hchunk value with ⟨h, h', h''⟩ | ⟨way, h, h', h'' | h''⟩
      · rw [h, h', h'']
        exact congrArg (fun l => runs (l ++ _)) (List.append_nil before)
      · rw [h, h', h'', List.append_assoc]
        rfl
      · rw [h, h', h'', List.append_assoc]
        exact runs_repeat before way _
  | run head hheld => rw [hheld, directions_cons, directions_cons, List.append_assoc, List.append_assoc]; rfl

/-- On every axis the directions are kept, run by run. -/
theorem step_directions (hchunk : 1 ≤ world.scheduler.config.wheelChunkLimit) (op : BleOp)
    {left pushed : List Bool} (h : runs (left ++ directions axis (wheelHeld world)) = runs pushed) :
    runs (left ++ directions axis ((wheelLeftIn world op (world.step op).1).map Prod.fst) ++
        directions axis (wheelHeld (world.step op).1)) =
      runs (pushed ++ directions axis (wheelPushedIn op (world.step op).2)) := by
  have hidle : runs (left ++ [] ++ directions axis (wheelHeld world)) = runs (pushed ++ []) := by
    rw [List.append_nil, List.append_nil]
    exact h
  cases op with
  | pushWheel push =>
    show runs (left ++ [] ++ _) = _
    rw [List.append_nil]
    exact push_directions push h
  | clearWheel =>
    show runs (left ++ directions axis ((world.wheel.contents.map _).map Prod.fst) ++ []) = runs (pushed ++ [])
    rw [List.append_nil, List.append_nil, List.map_map]
    exact h
  | poll nowUs answer =>
    show _ = runs (pushed ++ [])
    rw [(poll_wheel hchunk nowUs answer).directions_eq hchunk left, List.append_nil]
    exact h
  | _ => exact hidle

/-! ### Runs -/

/-- Where a run of the input is, with everything pushed accounted for. -/
structure Conserved (run : BleRun) : Prop where
  hidOrder : run.ledger.hidPushed = run.ledger.hidLeft.map Prod.fst ++ hidHeld run.world
  counts : ∀ owner axis, total owner axis run.ledger.wheelPushed - total owner axis run.ledger.wheelCut =
    total owner axis (run.ledger.wheelLeft.map Prod.fst) + total owner axis (wheelHeld run.world)
  wheelOrder : ∀ axis, runs (directions axis (run.ledger.wheelLeft.map Prod.fst) ++
    directions axis (wheelHeld run.world)) = runs (directions axis run.ledger.wheelPushed)

theorem Conserved.next {run : BleRun} (h : Conserved run)
    (hchunk : 1 ≤ run.world.scheduler.config.wheelChunkLimit) (hwithin : op.WithinLimit) :
    Conserved (run.next op) := by
  refine ⟨?_, ?_, ?_⟩
  · show run.ledger.hidPushed ++ hidPushedIn op (run.world.step op).2 =
      (run.ledger.hidLeft ++ hidLeftIn run.world op (run.world.step op).1).map Prod.fst ++
        hidHeld (run.world.step op).1
    rw [h.hidOrder, List.append_assoc, step_hid hchunk op, List.map_append, List.append_assoc]
  · rintro owner axis
    have hstep := @step_total run.world op owner axis hchunk hwithin
    have hrun := h.counts owner axis
    show total owner axis (run.ledger.wheelPushed ++ wheelPushedIn op (run.world.step op).2) -
        total owner axis (run.ledger.wheelCut ++ wheelCutIn run.world op (run.world.step op).2) =
      total owner axis ((run.ledger.wheelLeft ++ wheelLeftIn run.world op (run.world.step op).1).map Prod.fst) +
        total owner axis (wheelHeld (run.world.step op).1)
    rw [List.map_append, total_append, total_append, total_append]
    omega
  · rintro axis
    show runs (directions axis ((run.ledger.wheelLeft ++
        wheelLeftIn run.world op (run.world.step op).1).map Prod.fst) ++
          directions axis (wheelHeld (run.world.step op).1)) =
      runs (directions axis (run.ledger.wheelPushed ++ wheelPushedIn op (run.world.step op).2))
    rw [List.map_append, directions_append, directions_append]
    exact step_directions hchunk op (h.wheelOrder axis)

end BleInput

end CodexKeyboard.Keyboard
