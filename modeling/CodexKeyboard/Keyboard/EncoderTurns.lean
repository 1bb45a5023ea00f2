import CodexKeyboard.Keyboard.Encoder

/-! The steps of a run of samples: the turns between two rests, and none for what is not a turn. -/

namespace CodexKeyboard.Keyboard.EncoderDecoder

open Schemes.Winding

variable {d : EncoderDecoder} {states : List UInt8}

theorem steps_append (d : EncoderDecoder) (states later : List UInt8) :
    steps d (states ++ later) = steps d states ++ steps (after d states) later := by
  induction states generalizing d with
  | nil => rfl
  | cons state states ih =>
    rw [List.cons_append, steps, steps, ih, List.cons_append]
    rfl

theorem reset_inv (d : EncoderDecoder) (state : UInt8) : (d.reset state).Inv where
  masked := by
    have hcases := masked_cases state
    rw [reset]
    simpa using hcases
  armed hrest := beq_iff_eq.2 hrest
  accumulator _ := rfl

theorem after_inv (h : d.Inv) (states : List UInt8) : (after d states).Inv := by
  induction states generalizing d with
  | nil => exact h
  | cons state states ih => exact ih (update_inv h state)

theorem after_place (h : d.Inv) (states : List UInt8) : (after d states).place = target d.place (walk states) := by
  induction states generalizing d with
  | nil => rfl
  | cons state states ih =>
    have hnext := ih (update_inv h state)
    rw [(update_spec h state).place] at hnext
    rw [walk, List.map_cons, target, List.getLastD_cons]
    exact hnext

theorem after_armed (h : d.Inv) (harmed : d.armed = true) (states : List UInt8) : (after d states).armed = true := by
  induction states generalizing d with
  | nil => exact harmed
  | cons state states ih =>
    refine ih (update_inv h state) ?_
    rw [(update_spec h state).armed, harmed, Bool.true_or]

theorem place_lt (d : EncoderDecoder) : d.place < 4 := grayIndex_lt _

theorem stepOf_turn {completed : Int} (h : completed = 0 ∨ completed = 4 ∨ completed = -4) :
    4 * stepOf completed = completed := by
  rcases h with rfl | rfl | rfl
  · decide
  · decide
  · decide

/-! ### Valid moves -/

/-- Over valid moves the steps and the count are what the walk has travelled. -/
theorem steps_travelled (h : d.Inv) (harmed : d.armed = true) (hlifts : Lifts 4 d.accumulator d.place)
    (hwalk : Connected 4 d.place (walk states)) :
    4 * (steps d states).sum + (after d states).accumulator = d.accumulator + travelled 4 d.place (walk states) := by
  induction states generalizing d with
  | nil => simp [steps, after, walk, travelled]
  | cons state states ih =>
    obtain ⟨hmove, hwalk⟩ := hwalk
    obtain ⟨delta, hdelta⟩ := Option.isSome_iff_exists.1 hmove
    have hspec := update_spec h state
    have haccumulator := hspec.accumulator delta hdelta harmed
    have hnext : 4 * (d.update state).1 + (d.update state).2.accumulator = d.accumulator + delta ∧
        Lifts 4 (d.update state).2.accumulator (position state) := by
      by_cases hrest : position state = 0
      · rw [if_pos hrest] at haccumulator
        rw [hrest] at hdelta
        have hturn := stepOf_turn (hlifts.home (place_lt d) hdelta)
        rw [haccumulator, hspec.home delta (hrest ▸ hdelta) harmed hrest, hturn]
        exact ⟨Int.add_zero _, .inl ⟨hrest, rfl⟩⟩
      · rw [if_neg hrest] at haccumulator
        rw [haccumulator, hspec.away hrest]
        refine ⟨by omega, hlifts.away (place_lt d) (Nat.pos_of_ne_zero hrest) (grayIndex_lt _) hdelta⟩
    rw [← hspec.place] at hwalk
    have hih := ih (update_inv h state) (by rw [hspec.armed, harmed, Bool.true_or]) (hspec.place ▸ hnext.2) hwalk
    rw [hspec.place] at hih
    rw [steps, List.sum_cons, walk, List.map_cons, travelled, hdelta, Option.getD_some]
    have hafter : after d (state :: states) = after (d.update state).2 states := rfl
    rw [hafter]
    have hsum := hnext.1
    rw [walk] at hih
    linarith

/-! ### Invalid moves -/

theorem steps_away (h : d.Inv) (haway : ∀ state ∈ states, position state ≠ 0) : ∀ step ∈ steps d states, step = 0 := by
  induction states generalizing d with
  | nil => exact fun step hstep => nomatch hstep
  | cons state states ih =>
    rintro step hstep
    rw [steps, List.mem_cons] at hstep
    rcases hstep with rfl | hstep
    · exact (update_spec h state).away (haway state List.mem_cons_self)
    · exact ih (update_inv h state) (fun later hlater => haway later (List.mem_cons_of_mem _ hlater)) step hstep

theorem drifts_place {place : Nat} (hpos : 0 < place) (hlt : place < 4) : Drifts 4 0 place :=
  ⟨hpos, place, hpos, hlt, (Int.sub_self _).symm⟩

/-- Behind an invalid move the count is one from its target on. -/
theorem after_drifts (h : d.Inv) (harmed : d.armed = true) (haway : ∀ state ∈ states, position state ≠ 0)
    (hinvalid : Drifts 4 d.accumulator d.place ∨ ¬ Connected 4 d.place (walk states)) :
    Drifts 4 (after d states).accumulator (after d states).place := by
  induction states generalizing d with
  | nil =>
    rcases hinvalid with hdrifts | hinvalid
    · exact hdrifts
    · exact absurd trivial hinvalid
  | cons state states ih =>
    have hspec := update_spec h state
    have hrest := haway state List.mem_cons_self
    refine ih (update_inv h state) (by rw [hspec.armed, harmed, Bool.true_or])
      (fun later hlater => haway later (List.mem_cons_of_mem _ hlater)) ?_
    rw [hspec.place]
    cases hmove : move 4 d.place (position state) with
    | none =>
      rw [(hspec.invalid hmove).1]
      exact .inl (drifts_place (Nat.pos_of_ne_zero hrest) (grayIndex_lt _))
    | some delta =>
      rcases hinvalid with hdrifts | hinvalid
      · rw [hspec.accumulator delta hmove harmed, if_neg hrest]
        exact .inl (hdrifts.away (Nat.pos_of_ne_zero hrest) hmove)
      · refine .inr fun hwalk => hinvalid ⟨?_, hwalk⟩
        rw [hmove]
        rfl

/-- A count of an excursion with an invalid move is no turn. -/
theorem steps_invalid {rest : UInt8} (h : d.Inv) (harmed : d.armed = true)
    (haway : ∀ state ∈ states, position state ≠ 0)
    (hrest : position rest = 0) (hinvalid : ¬ Connected 4 d.place (walk (states ++ [rest]))) :
    ∀ step ∈ steps d (states ++ [rest]), step = 0 := by
  rintro step hstep
  rw [steps_append] at hstep
  rcases List.mem_append.1 hstep with hstep | hstep
  · exact steps_away h haway step hstep
  · rw [steps, steps, List.mem_singleton] at hstep
    have hspec := update_spec (after_inv h states) rest
    rw [hstep]
    rw [walk, List.map_append, List.map_singleton, connected_concat] at hinvalid
    cases hmove : move 4 (after d states).place (position rest) with
    | none => exact (hspec.invalid hmove).2
    | some delta =>
      have hwalk : ¬ Connected 4 d.place (walk states) := by
        rintro hwalk
        refine hinvalid ⟨hwalk, ?_⟩
        have hplace := after_place h states
        rw [walk] at hplace
        rw [← hplace, hmove]
        rfl
      have hdrifts := after_drifts h harmed haway (.inr hwalk)
      rw [hspec.home delta hmove (after_armed h harmed states) hrest]
      rw [hrest] at hmove
      obtain ⟨hlow, hhigh⟩ := hdrifts.home (place_lt _) hmove
      rw [stepOf, if_neg (by omega), if_neg (by omega)]

/-! ### Before rest -/

theorem steps_unarmed (h : d.Inv) (hunarmed : d.armed = false) (haway : ∀ state ∈ states, position state ≠ 0)
    (last : UInt8) : ∀ step ∈ steps d (states ++ [last]), step = 0 := by
  induction states generalizing d with
  | nil =>
    rintro step hstep
    rw [List.nil_append, steps, steps, List.mem_singleton] at hstep
    rw [hstep]
    exact ((update_spec h last).unarmed hunarmed).1
  | cons state states ih =>
    rintro step hstep
    rw [List.cons_append, steps, List.mem_cons] at hstep
    rcases hstep with rfl | hstep
    · exact ((update_spec h state).unarmed hunarmed).1
    · refine ih (update_inv h state) ?_ (fun later hlater => haway later (List.mem_cons_of_mem _ hlater)) step hstep
      rw [(update_spec h state).armed, hunarmed, beq_false_of_ne (haway state List.mem_cons_self)]
      rfl

/-! ### The count -/

/-- The count is one since the last rest, or since the last invalid move. -/
structure Counted (d : EncoderDecoder) : Prop where
  inv : d.Inv
  idle : d.armed = false → d.accumulator = 0
  count : Lifts 4 d.accumulator d.place ∨ Drifts 4 d.accumulator d.place

theorem counted_zero {place : Nat} (hlt : place < 4) : Lifts 4 0 place ∨ Drifts 4 0 place := by
  rcases Nat.eq_zero_or_pos place with hrest | haway
  · exact .inl (.inl ⟨hrest, rfl⟩)
  · exact .inr (drifts_place haway hlt)

theorem reset_counted (d : EncoderDecoder) (state : UInt8) : (d.reset state).Counted :=
  ⟨reset_inv d state, fun _ => rfl, counted_zero (place_lt _)⟩

theorem update_counted (h : d.Counted) (state : UInt8) : (d.update state).2.Counted := by
  have hspec := update_spec h.inv state
  have hlt : position state < 4 := grayIndex_lt _
  cases harmed : d.armed with
  | false =>
    have hzero : (d.update state).2.accumulator = 0 := by
      rcases (hspec.unarmed harmed).2 with hkept | hzero
      · exact hkept.trans (h.idle harmed)
      · exact hzero
    refine ⟨update_inv h.inv state, fun _ => hzero, ?_⟩
    rw [hzero]
    exact counted_zero (place_lt _)
  | true =>
    have hstays : (d.update state).2.armed = true := by rw [hspec.armed, harmed, Bool.true_or]
    refine ⟨update_inv h.inv state, fun hidle => absurd hidle (by simp [hstays]), ?_⟩
    rw [hspec.place]
    cases hmove : move 4 d.place (position state) with
    | none =>
      rw [(hspec.invalid hmove).1]
      exact counted_zero hlt
    | some delta =>
      rw [hspec.accumulator delta hmove harmed]
      split
      next => exact counted_zero hlt
      next hrest =>
        rcases h.count with hlifts | hdrifts
        · exact .inl (hlifts.away (place_lt d) (Nat.pos_of_ne_zero hrest) hlt hmove)
        · exact .inr (hdrifts.away (Nat.pos_of_ne_zero hrest) hmove)

/-- The count stays within a turn, far from what an `int` holds. -/
theorem after_small (d : EncoderDecoder) (state : UInt8) (states : List UInt8) :
    |(after (d.reset state) states).accumulator| < 4 := by
  have hcounted : ∀ d : EncoderDecoder, d.Counted → (after d states).Counted := by
    induction states with
    | nil => exact fun d h => h
    | cons state states ih => exact fun d h => ih _ (update_counted h state)
  have hlt := place_lt (after (d.reset state) states)
  rw [abs_lt]
  rcases (hcounted _ (reset_counted d state)).count with (⟨-, hzero⟩ | ⟨hpos, hcount | hcount⟩) | ⟨hpos, origin, hcount⟩
  · omega
  · omega
  · omega
  · omega

/-! ### The decoder -/

/-- From reset on: whole turns between rests, no step of an excursion that lost a sample, and none before rest. -/
theorem counts_turns (d : EncoderDecoder) :
    (∀ before stretch, target 0 (walk before) = 0 → Connected 4 0 (walk stretch) → target 0 (walk stretch) = 0 →
      travelled 4 0 (walk stretch) = 4 * (steps (after (d.reset 0) before) stretch).sum) ∧
    (∀ before excursion rest, target 0 (walk before) = 0 → (∀ state ∈ excursion, position state ≠ 0) →
      position rest = 0 → ¬ Connected 4 0 (walk (excursion ++ [rest])) →
      ∀ step ∈ steps (after (d.reset 0) before) (excursion ++ [rest]), step = 0) ∧
    ∀ state states last, position state ≠ 0 → (∀ other ∈ states, position other ≠ 0) →
      ∀ step ∈ steps (d.reset state) (states ++ [last]), step = 0 := by
  have hrest : ∀ before, target 0 (walk before) = 0 → (after (d.reset 0) before).Inv ∧
      (after (d.reset 0) before).armed = true ∧ (after (d.reset 0) before).place = 0 := by
    rintro before hbefore
    have hinv := reset_inv d 0
    exact ⟨after_inv hinv before, after_armed hinv rfl before, (after_place hinv before).trans hbefore⟩
  refine ⟨?_, ?_, ?_⟩
  · rintro before stretch hbefore hwalk htarget
    obtain ⟨hinv, harmed, hplace⟩ := hrest before hbefore
    have haccumulator := hinv.accumulator (grayIndex_eq_zero.1 hplace)
    have hsum := steps_travelled hinv harmed (.inl ⟨hplace, haccumulator⟩) (hplace ▸ hwalk)
    have hend : (after (after (d.reset 0) before) stretch).accumulator = 0 := by
      refine (after_inv hinv stretch).accumulator (grayIndex_eq_zero.1 ?_)
      have hafter := after_place hinv stretch
      rw [hplace, htarget] at hafter
      exact hafter
    rw [hend, haccumulator, hplace] at hsum
    omega
  · rintro before excursion rest hbefore haway hhome hinvalid
    obtain ⟨hinv, harmed, hplace⟩ := hrest before hbefore
    exact steps_invalid hinv harmed haway hhome (hplace ▸ hinvalid)
  · rintro state states last hstate haway
    have hunarmed : (d.reset state).armed = false := beq_false_of_ne fun hzero => hstate (position_eq_zero.2 hzero)
    exact steps_unarmed (reset_inv d state) hunarmed haway last

/-- A turn behind a lost sample, an excursion with a lost sample, and the way to the first rest. -/
theorem counts_turns_one :
    travelled 4 0 (walk [1, 3, 1, 3, 2, 0]) = 4 * (steps (after (reset {} 0) [1, 2, 0]) [1, 3, 1, 3, 2, 0]).sum ∧
    (∀ step ∈ steps (after (reset {} 0) []) ([1, 2, 3] ++ [0]), step = 0) ∧
    ∀ step ∈ steps (reset {} 1) ([3, 2] ++ [0]), step = 0 := by
  obtain ⟨hturns, hinvalid, hunarmed⟩ := counts_turns {}
  refine ⟨hturns [1, 2, 0] _ rfl ⟨rfl, rfl, rfl, rfl, rfl, rfl, trivial⟩ rfl, ?_, ?_⟩
  · exact hinvalid [] [1, 2, 3] 0 rfl (by decide +kernel) rfl fun hwalk => absurd hwalk.2.1 (by decide +kernel)
  · exact hunarmed 1 [3, 2] 0 (by decide +kernel) (by decide +kernel)

end CodexKeyboard.Keyboard.EncoderDecoder
