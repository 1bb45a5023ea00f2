import CodexKeyboard.Device.SlotState

/-! `PlatformSelectionController`: KEY1 or KEY2 chooses the host platform after a long press of the encoder.
    A key that was pressed while it chose is drained: its release goes no further either. -/

namespace CodexKeyboard.Device

def kPlatformSelectionChordGuardMs : Nat := 100

inductive PlatformSelectionOutcome where
  | none | macOS | windows | conflict | timedOut | cancelled
  deriving DecidableEq, Repr

structure PlatformSelectionResult where
  consumed : Bool := false
  outcome : PlatformSelectionOutcome := .none
  deriving DecidableEq, Repr

abbrev KeyMask := BitVec 8

def kKey1Mask : KeyMask := 1
def kKey2Mask : KeyMask := 2
def kConflictMask : KeyMask := kKey1Mask ||| kKey2Mask

def platformKeyMask : InputId → KeyMask
  | .key1 => kKey1Mask
  | .key2 => kKey2Mask
  | _ => 0

/-- The key's bit is set in a mask. -/
def KeyMask.has (mask keyMask : KeyMask) : Bool := mask &&& keyMask != 0

/-- Not before the deadline, on a clock of 32 bits. -/
def deadlineReached (nowMs deadlineMs : Nat) : Bool :=
  decide ((nowMs + 2 ^ 32 - deadlineMs % 2 ^ 32) % 2 ^ 32 < 2 ^ 31)

structure PlatformSelectionController where
  active : Bool := false
  timeoutDeadlineMs : Nat := 0
  decisionDeadlineMs : Nat := 0
  seenMask : KeyMask := 0
  downMask : KeyMask := 0
  drainMask : KeyMask := 0
  deriving DecidableEq, Repr

namespace PlatformSelectionController

def arm (_ : PlatformSelectionController) (nowMs timeoutMs : Nat) : PlatformSelectionController :=
  { active := true
    timeoutDeadlineMs := (nowMs + timeoutMs) % 2 ^ 32
    decisionDeadlineMs := 0, seenMask := 0, downMask := 0, drainMask := 0 }

def finish (c : PlatformSelectionController) (outcome : PlatformSelectionOutcome) (consumed : Bool) :
    PlatformSelectionController × PlatformSelectionResult :=
  ({ active := false, timeoutDeadlineMs := 0, decisionDeadlineMs := 0, seenMask := 0, downMask := 0
     drainMask := c.drainMask ||| c.downMask }, ⟨consumed, outcome⟩)

/-- What the time has decided, if it has. -/
def elapsed (c : PlatformSelectionController) (nowMs : Nat) : Option PlatformSelectionOutcome :=
  if deadlineReached nowMs c.timeoutDeadlineMs then some .timedOut
  else if c.decisionDeadlineMs != 0 && deadlineReached nowMs c.decisionDeadlineMs then
    some (if c.seenMask = kKey2Mask then .windows else .macOS)
  else none

/-- A release takes its key out of the drain; `consumed` tells whether the key was in it. -/
def drain (c : PlatformSelectionController) (keyMask : KeyMask) (phase : InputPhase) :
    PlatformSelectionController × Bool :=
  if keyMask != 0 && c.drainMask.has keyMask then
    (if phase = .released then { c with drainMask := c.drainMask &&& ~~~keyMask } else c, true)
  else (c, false)

/-- `handle_event` when no selection goes on, or none any more. -/
def drained (c : PlatformSelectionController) (keyMask : KeyMask) (phase : InputPhase)
    (outcome : PlatformSelectionOutcome) : PlatformSelectionController × PlatformSelectionResult :=
  ((c.drain keyMask phase).1, ⟨(c.drain keyMask phase).2, outcome⟩)

/-- `handle_event` while a selection goes on. -/
def handleChoice (c : PlatformSelectionController) (keyMask : KeyMask) (phase : InputPhase) (nowMs : Nat) :
    PlatformSelectionController × PlatformSelectionResult :=
  match phase with
  | .pressed =>
    let pressed :=
      { c with seenMask := c.seenMask ||| keyMask, downMask := c.downMask ||| keyMask, decisionDeadlineMs := 0 }
    if pressed.seenMask = kConflictMask then pressed.finish .conflict true
    else (pressed, ⟨true, .none⟩)
  | .released =>
    let released := { c with downMask := c.downMask &&& ~~~keyMask }
    if released.seenMask != 0 && released.downMask == 0 then
      ({ released with decisionDeadlineMs := (nowMs + kPlatformSelectionChordGuardMs) % 2 ^ 32 }, ⟨true, .none⟩)
    else (released, ⟨true, .none⟩)

def handleEvent (c : PlatformSelectionController) (input : InputId) (phase : InputPhase) (nowMs : Nat) :
    PlatformSelectionController × PlatformSelectionResult :=
  let keyMask := platformKeyMask input
  if !c.active then c.drained keyMask phase .none
  else
    match c.elapsed nowMs with
    | some outcome => (c.finish outcome false).1.drained keyMask phase outcome
    | none =>
      if keyMask = 0 then
        if phase = .pressed then c.finish .cancelled false else (c, {})
      else c.handleChoice keyMask phase nowMs

def update (c : PlatformSelectionController) (nowMs : Nat) :
    PlatformSelectionController × PlatformSelectionResult :=
  if !c.active then (c, {})
  else
    match c.elapsed nowMs with
    | some outcome => c.finish outcome false
    | none => (c, {})

end PlatformSelectionController

/-! ### What the selection keeps of the keys -/

namespace KeyMask

theorem has_or (mask other keyMask : KeyMask) :
    KeyMask.has (mask ||| other) keyMask = (KeyMask.has mask keyMask || KeyMask.has other keyMask) := by
  have hboth : (mask &&& keyMask ||| other &&& keyMask) = 0#8 ↔ mask &&& keyMask = 0#8 ∧ other &&& keyMask = 0#8 :=
    BitVec.or_eq_zero_iff
  rw [Bool.eq_iff_iff, Bool.or_eq_true, has, has, has, bne_iff_ne, bne_iff_ne, bne_iff_ne,
    BitVec.and_or_distrib_right, ne_eq, ← not_and_or]
  exact not_congr hboth

theorem has_zero (keyMask : KeyMask) : KeyMask.has 0 keyMask = false := by
  rw [has, show 0 &&& keyMask = 0 from BitVec.zero_and]
  rfl

theorem has_none (mask : KeyMask) : KeyMask.has mask 0 = false := by
  rw [has, show mask &&& 0 = 0 from BitVec.and_zero]
  rfl

theorem has_self {keyMask : KeyMask} (h : keyMask ≠ 0) : KeyMask.has keyMask keyMask = true := by
  rw [has, BitVec.and_self]
  exact bne_iff_ne.2 h

theorem has_clear (mask keyMask : KeyMask) : KeyMask.has (mask &&& ~~~keyMask) keyMask = false := by
  rw [has, BitVec.and_assoc, BitVec.not_and_self, show mask &&& 0 = 0 from BitVec.and_zero]
  rfl

end KeyMask

theorem platformKeyMask_cases (input : InputId) :
    (input = .key1 ∧ platformKeyMask input = 1) ∨ (input = .key2 ∧ platformKeyMask input = 2) ∨
      platformKeyMask input = 0 := by
  cases input with
  | key1 => exact .inl ⟨rfl, rfl⟩
  | key2 => exact .inr (.inl ⟨rfl, rfl⟩)
  | _ => exact .inr (.inr rfl)

/-- The bit of one key is not touched with the bit of another. -/
theorem has_other {input other : InputId} (h : other ≠ input) (mask : KeyMask) :
    KeyMask.has (platformKeyMask input) (platformKeyMask other) = false ∧
      KeyMask.has (mask &&& ~~~platformKeyMask input) (platformKeyMask other) =
        KeyMask.has mask (platformKeyMask other) := by
  have hfirst : ∀ mask : KeyMask, KeyMask.has (mask &&& ~~~(1 : KeyMask)) 2 = KeyMask.has mask 2 := by decide
  have hsecond : ∀ mask : KeyMask, KeyMask.has (mask &&& ~~~(2 : KeyMask)) 1 = KeyMask.has mask 1 := by decide
  have hall : mask &&& ~~~(0 : KeyMask) = mask := BitVec.and_allOnes
  rcases platformKeyMask_cases input with ⟨rfl, hinput⟩ | ⟨rfl, hinput⟩ | hinput <;>
    rcases platformKeyMask_cases other with ⟨rfl, hother⟩ | ⟨rfl, hother⟩ | hother
  · exact absurd rfl h
  · exact ⟨by decide, hfirst mask⟩
  · rw [hother]
    exact ⟨KeyMask.has_none _, by rw [KeyMask.has_none, KeyMask.has_none]⟩
  · exact ⟨by decide, hsecond mask⟩
  · exact absurd rfl h
  · rw [hother]
    exact ⟨KeyMask.has_none _, by rw [KeyMask.has_none, KeyMask.has_none]⟩
  · rw [hinput, hall]
    exact ⟨by decide, rfl⟩
  · rw [hinput, hall]
    exact ⟨by decide, rfl⟩
  · rw [hother]
    exact ⟨KeyMask.has_none _, by rw [KeyMask.has_none, KeyMask.has_none]⟩

namespace PlatformSelectionController

/-- The selection has a key whose press it took. -/
def keeps (c : PlatformSelectionController) (input : InputId) : Bool :=
  KeyMask.has (c.downMask ||| c.drainMask) (platformKeyMask input)

/-- The selection goes on at a time. -/
def choosing (c : PlatformSelectionController) (nowMs : Nat) : Bool := c.active && (c.elapsed nowMs).isNone

/-- Keys are down while the selection is active, and in the drain while it is not. -/
structure Sound (c : PlatformSelectionController) : Prop where
  active : c.active = true → c.drainMask = 0
  inactive : c.active = false → c.downMask = 0

variable {c : PlatformSelectionController} {input other : InputId}

theorem sound_arm (nowMs timeoutMs : Nat) : (c.arm nowMs timeoutMs).Sound :=
  ⟨fun _ => rfl, fun h => absurd h (by simp [arm])⟩

theorem keeps_arm (nowMs timeoutMs : Nat) : (c.arm nowMs timeoutMs).keeps input = false := by
  rw [keeps, KeyMask.has_or, arm, KeyMask.has_zero]
  rfl

theorem sound_finish (outcome : PlatformSelectionOutcome) (consumed : Bool) :
    (c.finish outcome consumed).1.Sound :=
  ⟨fun h => absurd h (by simp [finish]), fun _ => rfl⟩

theorem keeps_finish (outcome : PlatformSelectionOutcome) (consumed : Bool) (input : InputId) :
    (c.finish outcome consumed).1.keeps input = c.keeps input := by
  rw [keeps, keeps, finish]
  dsimp only
  rw [show (0 : KeyMask) ||| (c.drainMask ||| c.downMask) = c.drainMask ||| c.downMask from BitVec.zero_or,
    BitVec.or_comm]

theorem sound_update (h : c.Sound) (nowMs : Nat) : (c.update nowMs).1.Sound := by
  rw [update]
  split
  · exact h
  · split
    · exact sound_finish _ _
    · exact h

theorem keeps_update (nowMs : Nat) (input : InputId) : (c.update nowMs).1.keeps input = c.keeps input := by
  rw [update]
  split
  · rfl
  · split
    · exact keeps_finish _ _ _
    · rfl

/-- What an event does to a selection: `consumed` and the keys that are kept. -/
structure Handled (c : PlatformSelectionController) (input : InputId) (phase : InputPhase) (nowMs : Nat)
    (after : PlatformSelectionController) (consumed : Bool) : Prop where
  sound : after.Sound
  others : ∀ other, other ≠ input → after.keeps other = c.keeps other
  pressed : phase = .pressed → c.keeps input = false → after.keeps input = consumed
  released : phase = .released → after.keeps input = false ∧
    consumed = (c.keeps input || (platformKeyMask input != 0 && c.choosing nowMs))

theorem Sound.keeps_down (h : c.Sound) (hactive : c.active = true) (input : InputId) :
    c.keeps input = KeyMask.has c.downMask (platformKeyMask input) := by
  rw [keeps, KeyMask.has_or, h.active hactive, KeyMask.has_zero, Bool.or_false]

theorem Sound.keeps_drain (h : c.Sound) (hinactive : c.active = false) (input : InputId) :
    c.keeps input = KeyMask.has c.drainMask (platformKeyMask input) := by
  rw [keeps, KeyMask.has_or, h.inactive hinactive, KeyMask.has_zero, Bool.false_or]

/-- What the drain does while no selection is active. -/
theorem handled_drain (h : c.Sound) (hinactive : c.active = false) (phase : InputPhase) (nowMs : Nat) :
    Handled c input phase nowMs (c.drain (platformKeyMask input) phase).1
      (c.drain (platformKeyMask input) phase).2 := by
  have hchoosing : c.choosing nowMs = false := by rw [choosing, hinactive, Bool.false_and]
  have hkept := h.keeps_drain hinactive
  rw [drain]
  split
  next hdrained =>
    simp only [Bool.and_eq_true] at hdrained
    have hkeeps : c.keeps input = true := by rw [hkept, hdrained.2]
    cases phase with
    | pressed =>
      exact ⟨h, fun _ _ => rfl, fun _ hnot => absurd (hnot.symm.trans hkeeps) (by decide),
        fun h => absurd h (by decide)⟩
    | released =>
      have hafter : ∀ other, PlatformSelectionController.keeps
          { c with drainMask := c.drainMask &&& ~~~platformKeyMask input } other =
          KeyMask.has (c.drainMask &&& ~~~platformKeyMask input) (platformKeyMask other) := by
        rintro other
        rw [keeps, KeyMask.has_or, h.inactive hinactive, KeyMask.has_zero, Bool.false_or]
      refine ⟨⟨fun hactive => absurd (hactive.symm.trans hinactive) (by decide), h.inactive⟩, ?_,
        fun h => absurd h (by decide), fun _ => ⟨?_, ?_⟩⟩
      · rintro other hother
        rw [if_pos rfl, hafter, hkept, (has_other hother _).2]
      · rw [if_pos rfl, hafter, KeyMask.has_clear]
      · rw [hkeeps, Bool.true_or]
  next hdrained =>
    have hkeeps : c.keeps input = false := by
      rw [hkept]
      rcases platformKeyMask_cases input with ⟨-, hmask⟩ | ⟨-, hmask⟩ | hmask
      · simpa [hmask] using hdrained
      · simpa [hmask] using hdrained
      · rw [hmask, KeyMask.has_none]
    exact ⟨h, fun _ _ => rfl, fun _ hnot => hnot, fun _ => ⟨hkeeps, by
      rw [hkeeps, hchoosing, Bool.and_false, Bool.or_false]⟩⟩

theorem handled_choice (h : c.Sound) (hactive : c.active = true) (hmask : platformKeyMask input ≠ 0)
    (phase : InputPhase) {nowMs : Nat} (helapsed : c.elapsed nowMs = none) :
    Handled c input phase nowMs (c.handleChoice (platformKeyMask input) phase nowMs).1
      (c.handleChoice (platformKeyMask input) phase nowMs).2.consumed := by
  have hkept := h.keeps_down hactive
  have hdrain := h.active hactive
  have hchoosing : c.choosing nowMs = true := by rw [choosing, hactive, helapsed]; rfl
  have hbit : (platformKeyMask input != 0) = true := bne_iff_ne.2 hmask
  cases phase with
  | pressed =>
    generalize hpressed : ({ c with
      seenMask := c.seenMask ||| platformKeyMask input, downMask := c.downMask ||| platformKeyMask input
      decisionDeadlineMs := 0 } : PlatformSelectionController) = pressed
    have hsound : pressed.Sound := by
      rw [← hpressed]
      exact ⟨fun _ => hdrain, fun hinactive => absurd (hactive.symm.trans hinactive) (by decide)⟩
    have hkeeps : ∀ other, pressed.keeps other =
        (c.keeps other || KeyMask.has (platformKeyMask input) (platformKeyMask other)) := by
      rintro other
      rw [hkept, ← KeyMask.has_or, ← hpressed, keeps]
      dsimp only
      rw [KeyMask.has_or, hdrain, KeyMask.has_zero, Bool.or_false]
    have hothers : ∀ other, other ≠ input → pressed.keeps other = c.keeps other := by
      rintro other hother
      rw [hkeeps, (has_other hother 0).1, Bool.or_false]
    have hself : pressed.keeps input = true := by rw [hkeeps, KeyMask.has_self hmask, Bool.or_true]
    have hchoice : c.handleChoice (platformKeyMask input) .pressed nowMs =
        if pressed.seenMask = kConflictMask then pressed.finish .conflict true
        else (pressed, ⟨true, .none⟩) := by
      rw [← hpressed]
      rfl
    rw [hchoice]
    split
    · refine ⟨sound_finish _ _, ?_, ?_, fun h => absurd h (by decide)⟩
      · rintro other hother
        rw [keeps_finish, hothers other hother]
      · rintro _ _
        rw [keeps_finish, hself]
        rfl
    · exact ⟨hsound, hothers, fun _ _ => hself, fun h => absurd h (by decide)⟩
  | released =>
    have hreleased : ∀ decision, Handled c input .released nowMs
        { c with downMask := c.downMask &&& ~~~platformKeyMask input, decisionDeadlineMs := decision } true := by
      rintro decision
      have hkeeps : ∀ other, PlatformSelectionController.keeps
          { c with downMask := c.downMask &&& ~~~platformKeyMask input, decisionDeadlineMs := decision } other =
          KeyMask.has (c.downMask &&& ~~~platformKeyMask input) (platformKeyMask other) := by
        rintro other
        rw [keeps, KeyMask.has_or, hdrain, KeyMask.has_zero, Bool.or_false]
      refine ⟨⟨fun _ => hdrain, fun hinactive => absurd (hactive.symm.trans hinactive) (by decide)⟩, ?_,
        fun h => absurd h (by decide), fun _ => ⟨?_, ?_⟩⟩
      · rintro other hother
        rw [hkeeps, hkept, (has_other hother _).2]
      · rw [hkeeps, KeyMask.has_clear]
      · rw [hbit, hchoosing, Bool.and_true, Bool.or_true]
    rw [handleChoice]
    dsimp only
    split
    · exact hreleased _
    · exact hreleased _

theorem handleEvent_inactive (hactive : c.active = false) (input : InputId) (phase : InputPhase) (nowMs : Nat) :
    c.handleEvent input phase nowMs = c.drained (platformKeyMask input) phase .none := by
  rw [handleEvent]
  exact if_pos (by rw [hactive]; rfl)

theorem handleEvent_elapsed {outcome : PlatformSelectionOutcome} (hactive : c.active = true) {nowMs : Nat}
    (helapsed : c.elapsed nowMs = some outcome) (input : InputId) (phase : InputPhase) :
    c.handleEvent input phase nowMs =
      (c.finish outcome false).1.drained (platformKeyMask input) phase outcome := by
  rw [handleEvent, helapsed]
  exact if_neg (by rw [hactive]; decide)

theorem handleEvent_choice (hactive : c.active = true) {nowMs : Nat} (helapsed : c.elapsed nowMs = none)
    (input : InputId) (phase : InputPhase) :
    c.handleEvent input phase nowMs =
      if platformKeyMask input = 0 then
        if phase = .pressed then c.finish .cancelled false else (c, {})
      else c.handleChoice (platformKeyMask input) phase nowMs := by
  rw [handleEvent, helapsed]
  exact if_neg (by rw [hactive]; decide)

/-- An event while no time has run out and no selection goes on, or the key does not choose. -/
theorem handled_other (h : c.Sound) (hmask : platformKeyMask input = 0) (phase : InputPhase) (nowMs : Nat) :
    Handled c input phase nowMs (if phase = .pressed then c.finish .cancelled false else (c, {})).1
      (if phase = .pressed then c.finish .cancelled false else (c, {})).2.consumed := by
  have hkeeps : c.keeps input = false := by rw [keeps, hmask, KeyMask.has_none]
  cases phase with
  | pressed =>
    refine ⟨sound_finish _ _, fun other _ => keeps_finish _ _ _, ?_, fun h => absurd h (by decide)⟩
    rintro - -
    exact (keeps_finish _ _ _).trans hkeeps
  | released =>
    refine ⟨h, fun _ _ => rfl, fun h => absurd h (by decide), fun _ => ⟨hkeeps, ?_⟩⟩
    rw [hkeeps, hmask]
    rfl

/-- An event after the time has decided. -/
theorem handled_elapsed {outcome : PlatformSelectionOutcome} {nowMs : Nat}
    (helapsed : c.elapsed nowMs = some outcome) (phase : InputPhase) :
    Handled c input phase nowMs ((c.finish outcome false).1.drain (platformKeyMask input) phase).1
      ((c.finish outcome false).1.drain (platformKeyMask input) phase).2 := by
  have hkeeps := fun other => keeps_finish (c := c) outcome false other
  have hchoosing : c.choosing nowMs = false := by
    rw [choosing, helapsed, Option.isNone_some, Bool.and_false]
  have hinactive : (c.finish outcome false).1.active = false := rfl
  have hdrained := @handled_drain (c.finish outcome false).1 input (sound_finish outcome false) hinactive phase nowMs
  generalize (c.finish outcome false).1 = finished at hkeeps hinactive hdrained ⊢
  have hafter : finished.choosing nowMs = false := by rw [choosing, hinactive, Bool.false_and]
  refine ⟨hdrained.sound, ?_, ?_, ?_⟩
  · rintro other hother
    rw [← hkeeps]
    exact hdrained.others other hother
  · rintro hphase hnot
    rw [← hkeeps] at hnot
    exact hdrained.pressed hphase hnot
  · rintro hphase
    have hreleased := hdrained.released hphase
    rw [hkeeps, hafter] at hreleased
    rw [hchoosing]
    exact hreleased

theorem handled_event (h : c.Sound) (input : InputId) (phase : InputPhase) (nowMs : Nat) :
    Handled c input phase nowMs (c.handleEvent input phase nowMs).1
      (c.handleEvent input phase nowMs).2.consumed := by
  cases hactive : c.active with
  | false =>
    rw [handleEvent_inactive hactive]
    exact handled_drain h hactive phase nowMs
  | true =>
    cases helapsed : c.elapsed nowMs with
    | some outcome =>
      rw [handleEvent_elapsed hactive helapsed]
      exact handled_elapsed helapsed phase
    | none =>
      rw [handleEvent_choice hactive helapsed]
      split
      next hmask => exact handled_other h hmask phase nowMs
      next hmask => exact handled_choice h hactive hmask phase helapsed

end PlatformSelectionController

end CodexKeyboard.Device
