import CodexKeyboard.Schemes.Winding

/-! `EncoderDecoder`: the steps of the rotary encoder, as the turns of its Gray cycle. -/

namespace CodexKeyboard.Keyboard

open Schemes.Winding

def transitionDelta (previous current : UInt8) : Int :=
  let transition := ((previous &&& 0x03) <<< 2) ||| (current &&& 0x03)
  if transition = 0b0001 ∨ transition = 0b0111 ∨ transition = 0b1110 ∨ transition = 0b1000 then 1
  else if transition = 0b0010 ∨ transition = 0b1011 ∨ transition = 0b1101 ∨ transition = 0b0100 then -1
  else 0

structure EncoderDecoder where
  previousState : UInt8 := 0
  accumulator : Int := 0
  armed : Bool := true
  invalidTransitionCount : UInt32 := 0
  partialResetCount : UInt32 := 0
  deriving DecidableEq, Repr

namespace EncoderDecoder

def reset (d : EncoderDecoder) (state : UInt8) : EncoderDecoder :=
  { d with previousState := state &&& 0x03, accumulator := 0, armed := state &&& 0x03 == 0 }

def countPartial (d : EncoderDecoder) (count : Int) : UInt32 :=
  if count ≠ 0 then d.partialResetCount + 1 else d.partialResetCount

def update (d : EncoderDecoder) (state : UInt8) : Int × EncoderDecoder :=
  let state := state &&& 0x03
  if state = d.previousState then (0, d)
  else
    let delta := transitionDelta d.previousState state
    if delta = 0 then
      (0, { d with
        previousState := state
        invalidTransitionCount := d.invalidTransitionCount + 1
        partialResetCount := d.countPartial d.accumulator
        accumulator := 0
        armed := d.armed || state == 0 })
    else if !d.armed then
      if state = 0 then (0, { d with previousState := state, armed := true, accumulator := 0 })
      else (0, { d with previousState := state })
    else
      let completedStep := d.accumulator + delta
      if state ≠ 0 then (0, { d with previousState := state, accumulator := completedStep })
      else
        let next := { d with previousState := state, accumulator := 0 }
        if 4 ≤ completedStep then (1, next)
        else if completedStep ≤ -4 then (-1, next)
        else (0, { next with partialResetCount := d.countPartial completedStep })

/-- What the calls of `update` return, one after the other. -/
def steps : EncoderDecoder → List UInt8 → List Int
  | _, [] => []
  | d, state :: states => (d.update state).1 :: steps (d.update state).2 states

def after (d : EncoderDecoder) (states : List UInt8) : EncoderDecoder :=
  states.foldl (fun d state => (d.update state).2) d

/-! ### The Gray cycle -/

/-- The place of a state in the cycle 00, 01, 11, 10. -/
def grayIndex (state : UInt8) : Nat := if state = 0 then 0 else if state = 1 then 1 else if state = 3 then 2 else 3

def position (state : UInt8) : Nat := grayIndex (state &&& 0x03)

/-- The walk that samples show. -/
def walk (states : List UInt8) : List Nat := states.map position

theorem masked_cases (state : UInt8) :
    state &&& 0x03 = 0 ∨ state &&& 0x03 = 1 ∨ state &&& 0x03 = 2 ∨ state &&& 0x03 = 3 := by
  have hand : (state &&& 0x03).toNat = state.toNat % 4 := by
    rw [UInt8.toNat_and]
    exact Nat.and_two_pow_sub_one_eq_mod state.toNat 2
  simp only [← UInt8.toNat_inj, hand]
  have hlt := Nat.mod_lt state.toNat (by decide : 0 < 4)
  have hzero : (0 : UInt8).toNat = 0 := rfl
  have hone : (1 : UInt8).toNat = 1 := rfl
  have htwo : (2 : UInt8).toNat = 2 := rfl
  have hthree : (3 : UInt8).toNat = 3 := rfl
  omega

theorem grayIndex_lt (state : UInt8) : grayIndex state < 4 := by
  rw [grayIndex]
  split
  · decide
  · split
    · decide
    · split
      · decide
      · decide

theorem grayIndex_eq_zero {state : UInt8} : grayIndex state = 0 ↔ state = 0 := by
  rw [grayIndex]
  split
  next h => simp [h]
  next h =>
    constructor
    · intro hindex
      split at hindex
      · cases hindex
      · split at hindex <;> cases hindex
    · exact fun hzero => absurd hzero h

/-- `transition_delta` is the move on the cycle, and 0 where there is none. -/
theorem transitionDelta_masked : ∀ a ∈ [0, 1, 2, 3], ∀ b ∈ [0, 1, 2, 3], b ≠ a →
    (transitionDelta a b = 0 ↔ move 4 (grayIndex a) (grayIndex b) = none) ∧
      ∀ delta, move 4 (grayIndex a) (grayIndex b) = some delta → transitionDelta a b = delta := by
  decide +kernel

/-! ### One sample -/

variable {d : EncoderDecoder} {states : List UInt8}

/-- A decoder that is at rest counts from there. -/
structure Inv (d : EncoderDecoder) : Prop where
  masked : d.previousState ∈ [0, 1, 2, 3]
  armed : d.previousState = 0 → d.armed = true
  accumulator : d.previousState = 0 → d.accumulator = 0

/-- Where the decoder is on the cycle. -/
def place (d : EncoderDecoder) : Nat := grayIndex d.previousState

/-- The step of a count that is complete. -/
def stepOf (completed : Int) : Int := if 4 ≤ completed then 1 else if completed ≤ -4 then -1 else 0

/-- What a sample does: a move is counted once the decoder is armed, and the count ends at rest. -/
structure Updated (d : EncoderDecoder) (target : Nat) (step : Int) (next : EncoderDecoder) : Prop where
  place : next.place = target
  armed : next.armed = (d.armed || target == 0)
  accumulator : ∀ delta, move 4 d.place target = some delta → d.armed = true →
    next.accumulator = if target = 0 then 0 else d.accumulator + delta
  invalid : move 4 d.place target = none → next.accumulator = 0 ∧ step = 0
  away : target ≠ 0 → step = 0
  unarmed : d.armed = false → step = 0 ∧ (next.accumulator = d.accumulator ∨ next.accumulator = 0)
  home : ∀ delta, move 4 d.place target = some delta → d.armed = true → target = 0 →
    step = stepOf (d.accumulator + delta)

theorem position_eq_zero {state : UInt8} : position state = 0 ↔ state &&& 0x03 = 0 := grayIndex_eq_zero

theorem update_inv (h : d.Inv) (state : UInt8) : (d.update state).2.Inv := by
  have hmasked : state &&& 0x03 ∈ [0, 1, 2, 3] := by
    simpa using masked_cases state
  rw [update]
  dsimp only
  split
  next => exact h
  next =>
    split
    next => exact ⟨hmasked, fun hrest => Bool.or_eq_true_iff.2 (.inr (beq_iff_eq.2 hrest)), fun _ => rfl⟩
    next =>
      split
      next hunarmed =>
        split
        next => exact ⟨hmasked, fun _ => rfl, fun _ => rfl⟩
        next haway => exact ⟨hmasked, fun hrest => absurd hrest haway, fun hrest => absurd hrest haway⟩
      next harmed =>
        have harmed : d.armed = true := by simpa using harmed
        split
        next haway => exact ⟨hmasked, fun hrest => absurd hrest haway, fun hrest => absurd hrest haway⟩
        next =>
          split
          · exact ⟨hmasked, fun _ => harmed, fun _ => rfl⟩
          · split
            · exact ⟨hmasked, fun _ => harmed, fun _ => rfl⟩
            · exact ⟨hmasked, fun _ => harmed, fun _ => rfl⟩

theorem update_spec (h : d.Inv) (state : UInt8) : Updated d (position state) (d.update state).1 (d.update state).2 := by
  have hmasked : state &&& 0x03 ∈ [0, 1, 2, 3] := by
    simpa using masked_cases state
  have hplace : (position state == 0) = (state &&& 0x03 == 0) := by
    rw [Bool.eq_iff_iff, beq_iff_eq, beq_iff_eq]
    exact position_eq_zero
  have hrest := @position_eq_zero state
  rw [update]
  dsimp only
  split
  next hsame =>
    have hstay : position state = d.place := by rw [position, hsame, place]
    have hmove : move 4 d.place (position state) = some 0 := by rw [hstay, move, if_pos rfl]
    refine ⟨hstay.symm, ?_, ?_, ?_, fun _ => rfl, fun _ => ⟨rfl, .inl rfl⟩, ?_⟩
    · rw [hplace, hsame]
      cases hzero : d.previousState == 0 with
      | false => rw [Bool.or_false]
      | true => rw [h.armed (beq_iff_eq.1 hzero), Bool.or_true]
    · rintro delta hdelta -
      rw [hmove] at hdelta
      cases hdelta
      split
      next hzero => exact h.accumulator (hsame ▸ hrest.1 hzero)
      next => exact (Int.add_zero _).symm
    · rw [hmove]
      rintro hnone
      cases hnone
    · rintro delta hdelta - hzero
      rw [hmove] at hdelta
      cases hdelta
      rw [h.accumulator (hsame ▸ hrest.1 hzero)]
      rfl
  next hother =>
    obtain ⟨hnone, hsome⟩ := transitionDelta_masked _ h.masked _ hmasked hother
    split
    next hinvalid =>
      have hmove : move 4 d.place (position state) = none := hnone.1 hinvalid
      refine ⟨rfl, ?_, ?_, fun _ => ⟨rfl, rfl⟩, fun _ => rfl, fun _ => ⟨rfl, .inr rfl⟩, ?_⟩
      · rw [hplace]
      · rintro delta hdelta
        rw [hmove] at hdelta
        cases hdelta
      · rintro delta hdelta
        rw [hmove] at hdelta
        cases hdelta
    next hvalid =>
      have hmove : ∀ delta, move 4 d.place (position state) = some delta →
          transitionDelta d.previousState (state &&& 0x03) = delta := hsome
      have hmoves : move 4 d.place (position state) ≠ none := fun hmove => hvalid (hnone.2 hmove)
      split
      next hunarmed =>
        have hunarmed : d.armed = false := by simpa using hunarmed
        have hidle : ¬ d.armed = true := by simp [hunarmed]
        split
        next hzero =>
          refine ⟨rfl, ?_, fun _ _ harmed => absurd harmed hidle, fun hmove => absurd hmove hmoves, fun _ => rfl,
            fun _ => ⟨rfl, .inr rfl⟩, fun _ _ harmed => absurd harmed hidle⟩
          rw [hplace, hzero]
          simp
        next haway =>
          refine ⟨rfl, ?_, fun _ _ harmed => absurd harmed hidle, fun hmove => absurd hmove hmoves, fun _ => rfl,
            fun _ => ⟨rfl, .inl rfl⟩, fun _ _ harmed => absurd harmed hidle⟩
          rw [hplace, beq_false_of_ne haway, Bool.or_false]
      next harmed =>
        have harmed : d.armed = true := by simpa using harmed
        have hbusy : ¬ d.armed = false := by simp [harmed]
        split
        next haway =>
          have hplaced : position state ≠ 0 := fun hzero => haway (hrest.1 hzero)
          refine ⟨rfl, ?_, ?_, fun hmove => absurd hmove hmoves, fun _ => rfl, fun hunarmed => absurd hunarmed hbusy,
            fun _ _ _ hzero => absurd hzero hplaced⟩
          · rw [harmed, Bool.true_or]
          · rintro delta hdelta -
            rw [if_neg hplaced, hmove delta hdelta]
        next hzero =>
          have hplaced : position state = 0 := hrest.2 (not_not.1 hzero)
          have hlands : ∀ next : EncoderDecoder, next.previousState = state &&& 0x03 → next.accumulator = 0 →
              next.armed = d.armed →
              Updated d (position state) (stepOf (d.accumulator + transitionDelta d.previousState (state &&& 0x03)))
                next := by
            rintro next hprevious haccumulator hnext
            refine ⟨?_, ?_, ?_, fun hmove => absurd hmove hmoves, fun haway => absurd hplaced haway,
              fun hunarmed => absurd hunarmed hbusy, ?_⟩
            · rw [place, hprevious, position]
            · rw [hnext, harmed, Bool.true_or]
            · rintro delta - -
              rw [if_pos hplaced]
              exact haccumulator
            · rintro delta hdelta - -
              rw [hmove delta hdelta]
          rw [stepOf] at hlands
          split
          next hforwards =>
            rw [if_pos hforwards] at hlands
            exact hlands _ rfl rfl rfl
          next hforwards =>
            rw [if_neg hforwards] at hlands
            split
            next hbackwards =>
              rw [if_pos hbackwards] at hlands
              exact hlands _ rfl rfl rfl
            next hbackwards =>
              rw [if_neg hbackwards] at hlands
              exact hlands _ rfl rfl rfl

end EncoderDecoder

end CodexKeyboard.Keyboard
