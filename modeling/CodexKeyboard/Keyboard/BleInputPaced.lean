import CodexKeyboard.Keyboard.BleInputConserved

/-! When the BLE input makes its attempts, and whose turn each is. -/

namespace CodexKeyboard.Keyboard

open Schemes Runs

namespace BleInput

variable {world : BleWorld} {op : BleOp} {run : BleRun}

theorem ordered_shift (config : BleInputSchedulerConfig) : config.ordered.maximumRetryShift.toNat ≤ 20 := by
  show UInt8.toNat (if config.maximumRetryShift ≤ 20 then config.maximumRetryShift else 20) ≤ 20
  split
  next hle => exact UInt8.le_iff_toNat_le.1 hle
  · decide

/-- The wait after so many failures in a row, with a delivery period. -/
def backoff (config : BleInputSchedulerConfig) (failures periodUs : Nat) : Nat :=
  min (periodUs * 2 ^ min (failures - 1) config.maximumRetryShift.toNat) config.maximumRetryBackoffUs

theorem retryDelayUs_eq {scheduler : BleInputScheduler} {failures : Nat}
    (hshift : scheduler.config.maximumRetryShift.toNat ≤ 20)
    (hstreak : scheduler.retryStreak = min failures (2 ^ 32 - 1)) (hfailures : failures ≠ 0) :
    scheduler.retryDelayUs = backoff scheduler.config failures scheduler.deliveryPeriodUs := by
  have hshifts : min (scheduler.retryStreak - 1) scheduler.config.maximumRetryShift.toNat =
      min (failures - 1) scheduler.config.maximumRetryShift.toNat := by omega
  have hstreak : scheduler.retryStreak ≠ 0 := by omega
  have hfactor : 0 < 2 ^ min (failures - 1) scheduler.config.maximumRetryShift.toNat := Nat.two_pow_pos _
  rw [BleInputScheduler.retryDelayUs, backoff, if_neg hstreak, hshifts]
  split
  next hmaximum =>
    rw [Nat.div_lt_iff_lt_mul hfactor] at hmaximum
    exact (Nat.min_eq_right (Nat.le_of_lt hmaximum)).symm
  · rfl

/-- The scheduler's clock is the pace of the run. -/
structure Paced (run : BleRun) : Prop where
  attempted : run.world.scheduler.hasAttempted = run.pace.attempt.isSome
  failures : run.world.scheduler.retryStreak = min run.pace.failures (2 ^ 32 - 1)
  sinceWheel : run.world.scheduler.consecutiveHid = min run.pace.sinceWheel 255
  last : ∀ made period, run.pace.attempt = some (made, period) → run.world.scheduler.lastAttemptUs = made
  settled : ∀ made period, run.pace.attempt = some (made, period) → run.pace.failures = 0 →
    run.world.scheduler.nextAttemptUs = saturatingAdd made run.world.scheduler.deliveryPeriodUs
  backedOff : ∀ made period, run.pace.attempt = some (made, period) → run.pace.failures ≠ 0 →
    saturatingAdd made (backoff run.world.scheduler.config run.pace.failures period) ≤
        run.world.scheduler.nextAttemptUs ∧
      saturatingAdd made (backoff run.world.scheduler.config run.pace.failures
        run.world.scheduler.deliveryPeriodUs) ≤ run.world.scheduler.nextAttemptUs

theorem bumped_eq {limit counter count : Nat} (h : counter = min count limit) :
    bumped limit counter = min (count + 1) limit := by
  rw [bumped]
  split <;> omega

theorem Paced.poll (h : Paced run) (hchunk : 1 ≤ run.world.scheduler.config.wheelChunkLimit)
    (hshift : run.world.scheduler.config.maximumRetryShift.toNat ≤ 20) (nowUs : Nat)
    (answer : BleScheduledReport → BleInputTxResult) : Paced (run.next (.poll nowUs answer)) := by
  rcases step_poll hchunk nowUs answer with hquiet | ⟨sendHid, scheduled, hattempt⟩
  · have hnone : callIn run.world run.world.watermarked = none := callIn_none rfl
    have hpace : run.pace.entered run.world (.poll nowUs answer) = run.pace := by
      rw [BlePace.entered, hquiet, hnone]
    rw [BleRun.next, hpace, hquiet]
    exact ⟨h.attempted, h.failures, h.sinceWheel, h.last, h.settled, h.backedOff⟩
  · have hpace : run.pace.entered run.world (.poll nowUs answer) =
        { attempt := some (nowUs, run.world.scheduler.deliveryPeriodUs)
          failures := if takes (answer scheduled) then 0 else run.pace.failures + 1
          sinceWheel :=
            if takes (answer scheduled) then (if scheduled.kind = .hid then run.pace.sinceWheel + 1 else 0)
            else run.pace.sinceWheel } := by
      rw [BlePace.entered, callIn_recorded hattempt.context]
    have hkind : (scheduled.kind = .hid) = (sendHid = true) := by
      cases hattempt.chosen <;> simp [BleInputScheduler.scheduledHid, BleInputScheduler.scheduledWheel]
    have hcalled := hattempt.called
    rw [BleRun.next, hpace]
    generalize (run.world.step (.poll nowUs answer)).1 = after at hcalled
    have hshift' : after.scheduler.config.maximumRetryShift.toNat ≤ 20 := by rw [hcalled.config]; exact hshift
    generalize hfailures : (if takes (answer scheduled) then 0 else run.pace.failures + 1) = failures
    have hstreak : after.scheduler.retryStreak = min failures (2 ^ 32 - 1) := by
      rw [hcalled.retryStreak, ← hfailures]
      split
      · rfl
      · exact bumped_eq h.failures
    refine ⟨hcalled.hasAttempted, hstreak, ?_, ?_, ?_, ?_⟩
    · show after.scheduler.consecutiveHid = min (if _ then (if _ then _ else _) else _) 255
      rw [hcalled.consecutiveHid]
      simp only [hkind]
      split
      · split
        · exact bumped_eq h.sinceWheel
        · rfl
      · exact h.sinceWheel
    · rintro made period hmade
      obtain ⟨rfl, rfl⟩ := Prod.mk.inj (Option.some.inj hmade)
      exact hcalled.lastAttemptUs
    · rintro made period hmade (hnone : failures = 0)
      obtain ⟨rfl, rfl⟩ := Prod.mk.inj (Option.some.inj hmade)
      have htakes : takes (answer scheduled) = true := by
        by_contra htakes
        rw [if_neg htakes] at hfailures
        omega
      show after.scheduler.nextAttemptUs = saturatingAdd nowUs after.scheduler.deliveryPeriodUs
      rw [hcalled.nextAttemptUs, if_pos htakes, hcalled.deliveryPeriodUs]
    · rintro made period hmade (hsome : failures ≠ 0)
      obtain ⟨rfl, rfl⟩ := Prod.mk.inj (Option.some.inj hmade)
      have htakes : ¬ takes (answer scheduled) = true := by
        rintro htakes
        exact hsome (hfailures.symm.trans (if_pos htakes))
      have hnext : after.scheduler.nextAttemptUs = saturatingAdd nowUs
          (backoff after.scheduler.config failures after.scheduler.deliveryPeriodUs) := by
        rw [hcalled.nextAttemptUs, if_neg htakes, retryDelayUs_eq hshift' hstreak hsome]
      show saturatingAdd nowUs (backoff after.scheduler.config failures run.world.scheduler.deliveryPeriodUs) ≤
          after.scheduler.nextAttemptUs ∧
        saturatingAdd nowUs (backoff after.scheduler.config failures after.scheduler.deliveryPeriodUs) ≤
          after.scheduler.nextAttemptUs
      rw [hnext, hcalled.deliveryPeriodUs]
      exact ⟨Nat.le_refl _, Nat.le_refl _⟩

theorem Paced.setConnectionInterval (h : Paced run)
    (hshift : run.world.scheduler.config.maximumRetryShift.toNat ≤ 20) (intervalUnits : Nat) (valid : Bool) :
    Paced (run.next (.setConnectionInterval intervalUnits valid)) := by
  have hpace : run.pace.entered run.world (.setConnectionInterval intervalUnits valid) = run.pace := rfl
  rw [BleRun.next, hpace]
  show Paced ⟨{ run.world with
    scheduler := run.world.scheduler.setConnectionInterval intervalUnits valid }, _, run.pace⟩
  rw [BleInputScheduler.setConnectionInterval]
  dsimp only
  split
  · exact ⟨h.attempted, h.failures, h.sinceWheel, h.last, h.settled, h.backedOff⟩
  split
  next hattempted =>
    refine ⟨h.attempted, h.failures, h.sinceWheel, h.last, ?_, ?_⟩
    · rintro made period hmade hnone
      have hstreak : run.world.scheduler.retryStreak = 0 := by rw [h.failures, hnone]; rfl
      show (if run.world.scheduler.retryStreak = 0 then _ else _) = _
      rw [if_pos hstreak, if_pos hstreak, h.last made period hmade]
    · rintro made period hmade hsome
      have hsome' : run.pace.failures ≠ 0 := hsome
      have hstreak : run.world.scheduler.retryStreak ≠ 0 := by
        rw [h.failures]
        omega
      obtain ⟨hperiod, -⟩ := h.backedOff made period hmade hsome
      have hdelay : ({ run.world.scheduler with
          deliveryPeriodUs := run.world.scheduler.periodOf intervalUnits valid } : BleInputScheduler).retryDelayUs =
          backoff run.world.scheduler.config run.pace.failures
            (run.world.scheduler.periodOf intervalUnits valid) :=
        retryDelayUs_eq hshift h.failures hsome
      have hnext : (if run.world.scheduler.retryStreak = 0 then saturatingAdd run.world.scheduler.lastAttemptUs
            (if run.world.scheduler.retryStreak = 0 then run.world.scheduler.periodOf intervalUnits valid
              else ({ run.world.scheduler with
                deliveryPeriodUs := run.world.scheduler.periodOf intervalUnits valid } :
                  BleInputScheduler).retryDelayUs)
          else max run.world.scheduler.nextAttemptUs (saturatingAdd run.world.scheduler.lastAttemptUs
            (if run.world.scheduler.retryStreak = 0 then run.world.scheduler.periodOf intervalUnits valid
              else ({ run.world.scheduler with
                deliveryPeriodUs := run.world.scheduler.periodOf intervalUnits valid } :
                  BleInputScheduler).retryDelayUs))) =
          max run.world.scheduler.nextAttemptUs (saturatingAdd made
            (backoff run.world.scheduler.config run.pace.failures
              (run.world.scheduler.periodOf intervalUnits valid))) := by
        rw [if_neg hstreak, if_neg hstreak, hdelay, h.last made period hmade]
      exact ⟨Nat.le_trans (Nat.le_trans hperiod (Nat.le_max_left _ _)) (Nat.le_of_eq hnext.symm),
        Nat.le_trans (Nat.le_max_right _ _) (Nat.le_of_eq hnext.symm)⟩
  next hattempted =>
    have hnone : run.pace.attempt = none := by
      rw [← Option.not_isSome_iff_eq_none, ← h.attempted]
      exact hattempted
    refine ⟨h.attempted, h.failures, h.sinceWheel, ?_, ?_, ?_⟩ <;>
      exact fun made period hmade => absurd (hnone.symm.trans hmade) (by simp)

theorem paced_reset (run : BleRun) (stateResyncRequired : Bool) (ledger : BleLedger) :
    Paced ⟨{ run.world with scheduler :=
      { run.world.scheduler with stateResyncRequired }.resetDeliveryClock }, ledger, {}⟩ :=
  ⟨rfl, rfl, rfl, fun _ _ hmade => absurd hmade (by simp), fun _ _ hmade => absurd hmade (by simp),
    fun _ _ hmade => absurd hmade (by simp)⟩

theorem Paced.next (h : Paced run) (hchunk : 1 ≤ run.world.scheduler.config.wheelChunkLimit)
    (hshift : run.world.scheduler.config.maximumRetryShift.toNat ≤ 20) (op : BleOp) : Paced (run.next op) := by
  cases op with
  | poll nowUs answer => exact h.poll hchunk hshift nowUs answer
  | setConnectionInterval intervalUnits valid => exact h.setConnectionInterval hshift intervalUnits valid
  | resetDeliveryClock => exact paced_reset run _ _
  | markDisconnected => exact paced_reset run true _
  | _ => exact ⟨h.attempted, h.failures, h.sinceWheel, h.last, h.settled, h.backedOff⟩

/-- The deadline of the last attempt has come: a delivery period after an attempt that took something, and
    the backoff of the failures in a row after one that failed, with the period it was made with and with the
    one the connection has now. -/
def Due (run : BleRun) (nowUs : Nat) : Prop :=
  ∀ made period, run.pace.attempt = some (made, period) →
    if run.pace.failures = 0 then saturatingAdd made run.world.scheduler.deliveryPeriodUs ≤ nowUs
    else saturatingAdd made (backoff run.world.scheduler.config run.pace.failures period) ≤ nowUs ∧
      saturatingAdd made (backoff run.world.scheduler.config run.pace.failures
        run.world.scheduler.deliveryPeriodUs) ≤ nowUs

/-- After so many HID reports in a row it is the wheel's turn, but for a release at the head. -/
def InTurn (run : BleRun) (call : BleCall) : Prop :=
  run.world.scheduler.config.maximumConsecutiveHid.toNat ≤ run.pace.sinceWheel →
    run.world.wheel.contents ≠ [] →
    (∀ head, run.world.hid.contents.head? = some head → releaseMustKeepOrder head.reportClass = false) →
    call.report.kind = .mouseWheel

/-- What an operation may do to the transport: at most one call, which is due and in turn. -/
structure Orderly (run : BleRun) (op : BleOp) : Prop where
  once : (run.world.step op).1.context = run.world.context ∨ ∃ nowUs answer call,
    op = .poll nowUs answer ∧ (run.world.step op).1.context = run.world.context ++ [call] ∧
      call.nowUs = nowUs ∧ Due run nowUs ∧ InTurn run call
  coalesced : ∀ push reportClass sequence, op = .pushClassified push reportClass →
    (run.world.step op).2 = .hidPushed ⟨.coalesced, sequence⟩ →
    ∃ tail, run.world.hid.contents.getLast? = some tail ∧ HidReportQueue.Repeats tail push ∧
      tail.sequence = sequence
  separate : ∀ push reservedFreeSlots sequence, op = .push push reservedFreeSlots →
    (run.world.step op).2 ≠ .hidPushed ⟨.coalesced, sequence⟩

theorem Paced.orderly (h : Paced run) (hchunk : 1 ≤ run.world.scheduler.config.wheelChunkLimit) (op : BleOp) :
    Orderly run op := by
  refine ⟨?_, ?_, ?_⟩
  · cases op with
    | poll nowUs answer =>
      rcases step_poll hchunk nowUs answer with hquiet | ⟨sendHid, scheduled, hattempt⟩
      · exact .inl (by rw [hquiet]; rfl)
      · refine .inr ⟨nowUs, answer, _, rfl, hattempt.context, rfl, ?_, ?_⟩
        · rintro made period hmade
          have hdue := hattempt.due (by rw [h.attempted, hmade]; rfl)
          split
          next hnone =>
            rw [← h.settled made period hmade hnone]
            exact hdue
          next hsome =>
            obtain ⟨hfirst, hnow⟩ := h.backedOff made period hmade hsome
            exact ⟨Nat.le_trans hfirst hdue, Nat.le_trans hnow hdue⟩
        · rintro hmany hwheel hrelease
          cases hattempt.chosen with
          | wheel head rest _ _ => rfl
          | hid head rest hhid hsend =>
            have hlimit := UInt8.toNat_lt run.world.scheduler.config.maximumConsecutiveHid
            have hcounted := h.sinceWheel
            have hfull : (!run.world.wheel.contents.isEmpty) = true := by simpa using hwheel
            rw [hfull, BleInputScheduler.shouldSendHid, if_neg (by decide),
              if_neg (by rw [hrelease head (by rw [hhid]; rfl)]; decide), decide_eq_true_eq] at hsend
            omega
    | pushClassified push reportClass => exact .inl rfl
    | push push reservedFreeSlots => exact .inl rfl
    | pushWheel push => exact .inl rfl
    | _ => exact .inl rfl
  · rintro push reportClass sequence rfl hcoalesced
    have hmove := HidReportQueue.pushClassified_move run.world.hid push reportClass
    have hresult : (run.world.hid.pushClassified push reportClass).2 = ⟨.coalesced, sequence⟩ :=
      BleAnswer.hidPushed.inj hcoalesced
    generalize run.world.hid.pushClassified push reportClass = moved at hmove hresult
    cases hmove with
    | queued after _ => exact absurd hresult (by simp)
    | coalesced tail htail hrepeats => exact ⟨tail, htail, hrepeats, (HidQueuePushResult.mk.inj hresult).2⟩
    | refused result hrefused =>
      obtain rfl := hresult
      exact absurd hrefused (by simp)
  · rintro push reservedFreeSlots sequence rfl hcoalesced
    have hresult : (run.world.hid.push push reservedFreeSlots).2 = ⟨.coalesced, sequence⟩ :=
      BleAnswer.hidPushed.inj hcoalesced
    exact HidReportQueue.push_separate _ _ _ (congrArg HidQueuePushResult.status hresult)

/-! ### The whole run -/

/-- The movements that left in one way. -/
def leftAs (fate : BleFate) (left : List (WheelMovement × BleFate)) : List WheelMovement :=
  (left.filter fun entry => entry.2 = fate).map Prod.fst

theorem total_left (owner : BleOwnerToken) (axis : WheelAxis) (left : List (WheelMovement × BleFate)) :
    total owner axis (left.map Prod.fst) = total owner axis (leftAs .accepted left) +
      total owner axis (leftAs .dropped left) + total owner axis (leftAs .cleared left) := by
  induction left with
  | nil => rfl
  | cons entry left ih =>
    obtain ⟨movement, fate⟩ := entry
    rw [List.map_cons, total_cons, ih]
    dsimp only
    cases fate with
    | accepted =>
      show _ = total owner axis (movement :: leftAs .accepted left) + total owner axis (leftAs .dropped left) +
        total owner axis (leftAs .cleared left)
      rw [total_cons]
      omega
    | dropped =>
      show _ = total owner axis (leftAs .accepted left) + total owner axis (movement :: leftAs .dropped left) +
        total owner axis (leftAs .cleared left)
      rw [total_cons]
      omega
    | cleared =>
      show _ = total owner axis (leftAs .accepted left) + total owner axis (leftAs .dropped left) +
        total owner axis (movement :: leftAs .cleared left)
      rw [total_cons]
      omega

theorem ran_ok (config : BleInputSchedulerConfig) {ops : List BleOp} (hops : ∀ op ∈ ops, op.WithinLimit) :
    (ran config ops).world.scheduler.config = config.ordered ∧ Conserved (ran config ops) ∧
      Paced (ran config ops) := by
  have hchunk := ordered_chunk config
  have hshift := ordered_shift config
  induction ops using List.reverseRecOn with
  | nil =>
    refine ⟨rfl, ⟨rfl, fun _ _ => rfl, fun _ => rfl⟩, rfl, rfl, rfl, ?_, ?_, ?_⟩ <;>
      exact fun _ _ hmade => absurd hmade (by simp [ran])
  | append_singleton ops op ih =>
    obtain ⟨hconfig, hconserved, hpaced⟩ := ih fun op hop => hops op (List.mem_append_left _ hop)
    have hnext : ran config (ops ++ [op]) = (ran config ops).next op := List.foldl_concat _ _ _ _
    have hwithin := hops op (List.mem_append_right _ List.mem_cons_self)
    rw [← hconfig] at hchunk hshift
    rw [hnext]
    exact ⟨(step_config hchunk op).trans hconfig, hconserved.next hchunk hwithin, hpaced.next hchunk hshift op⟩

/-- Whatever the transport answers, the HID reports leave in the order they were queued, each once, and what
    is pushed to the wheel is what was transmitted, dropped, cleared or is still queued, in the directions it
    was pushed; every poll makes at most one attempt, at its time and in its turn. -/
theorem ble_input_faithful (config : BleInputSchedulerConfig) {ops : List BleOp}
    (hops : ∀ op ∈ ops, op.WithinLimit) :
    Conserved (ran config ops) ∧
    (∀ owner axis, total owner axis (ran config ops).ledger.wheelPushed -
        total owner axis (ran config ops).ledger.wheelCut =
      total owner axis (leftAs .accepted (ran config ops).ledger.wheelLeft) +
        total owner axis (leftAs .dropped (ran config ops).ledger.wheelLeft) +
        total owner axis (leftAs .cleared (ran config ops).ledger.wheelLeft) +
        total owner axis (wheelHeld (ran config ops).world)) ∧
    ∀ op, Orderly (ran config ops) op := by
  obtain ⟨hconfig, hconserved, hpaced⟩ := ran_ok config hops
  have hchunk : 1 ≤ (ran config ops).world.scheduler.config.wheelChunkLimit := by
    rw [hconfig]
    exact ordered_chunk config
  refine ⟨hconserved, ?_, hpaced.orderly hchunk⟩
  rintro owner axis
  rw [hconserved.counts owner axis, total_left]

/-- Five steps that the transport takes on the second attempt. -/
def waitingWheel : List BleOp :=
  [.pushWheel ⟨5, 0, 0, {}, 0⟩, .poll 10 fun _ => .retryableBusy, .poll 20 fun _ => .accepted]

theorem ble_input_faithful_wheel :
    Conserved (ran {} waitingWheel) ∧ ∀ op, Orderly (ran {} waitingWheel) op := by
  have hops : ∀ op ∈ waitingWheel, op.WithinLimit := by
    simp [waitingWheel, BleOp.WithinLimit, kMouseWheelAccumulationLimit]
  have h := ble_input_faithful {} hops
  exact ⟨h.1, h.2.2⟩

/-- What is cleared is neither transmitted, dropped nor queued. -/
theorem cleared_unaccounted : ¬ ∀ config ops, (∀ op ∈ ops, op.WithinLimit) → ∀ owner axis,
    total owner axis (leftAs .accepted (ran config ops).ledger.wheelLeft) +
        total owner axis (wheelHeld (ran config ops).world) +
        total owner axis (leftAs .dropped (ran config ops).ledger.wheelLeft) =
      total owner axis (ran config ops).ledger.wheelPushed -
        total owner axis (ran config ops).ledger.wheelCut := by
  rintro hall
  have hops : ∀ op ∈ [BleOp.pushWheel ⟨5, 0, 0, {}, 0⟩, .clearWheel], op.WithinLimit := by
    simp [BleOp.WithinLimit, kMouseWheelAccumulationLimit]
  have hcleared := hall {} _ hops {} .vertical
  revert hcleared
  decide

end BleInput

end CodexKeyboard.Keyboard
