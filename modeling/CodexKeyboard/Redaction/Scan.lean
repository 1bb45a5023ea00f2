import CodexKeyboard.Redaction.Places

/-! The loop of `redact_embedded_paths`, and the marks it stops at. The line is cut into what has been
    looked at and the rest; a path is skipped whole, with the marks in it. -/

namespace CodexKeyboard.Redaction

open Schemes Text Transact Store

/-- The rest from its first mark on, and what is before that. -/
def gap (rest : Text) : Text := rest.takeWhile fun c => !isPathMark c
def fromMark (rest : Text) : Text := rest.dropWhile fun c => !isPathMark c

/-- The rest of a path, and what follows it. -/
def pathPart (rest : Text) : Text := rest.takeWhile fun c => !endsPath c
def afterPath (rest : Text) : Text := rest.dropWhile fun c => !endsPath c

variable {before rest s done after : Text} {c : Char}

theorem gap_fromMark (rest : Text) : gap rest ++ fromMark rest = rest := List.takeWhile_append_dropWhile

theorem pathPart_afterPath (rest : Text) : pathPart rest ++ afterPath rest = rest :=
  List.takeWhile_append_dropWhile

theorem length_fromMark (rest : Text) : (fromMark rest).length ≤ rest.length :=
  (List.dropWhile_sublist _).length_le

theorem endsPath_mark (h : isPathMark c = true) : endsPath c = false := by
  simp only [isPathMark, Bool.or_eq_true, beq_iff_eq] at h
  rcases h with (rfl | rfl) | rfl <;> decide

theorem length_afterPath (h : isPathMark c = true) : (afterPath (c :: after)).length ≤ after.length := by
  rw [afterPath, List.dropWhile_cons, endsPath_mark h]
  exact (List.dropWhile_sublist _).length_le

theorem fromMark_cons (h : fromMark rest = c :: after) : isPathMark c = true := by
  have hhead := List.head?_dropWhile_not (fun c => !isPathMark c) rest
  rw [← fromMark, h] at hhead
  simpa using hhead

/-- The cuts the scan stops at. -/
def pathStops (done rest : Text) : List (Text × Text) :=
  match _hmark : fromMark rest with
  | [] => []
  | c :: after =>
    (done ++ gap rest, c :: after) ::
      match pathRun (done ++ gap rest) (c :: after) with
      | none => pathStops (done ++ gap rest ++ [c]) after
      | some _ => pathStops (done ++ gap rest ++ pathPart (c :: after)) (afterPath (c :: after))
termination_by rest.length
decreasing_by
  · have hle := length_fromMark rest
    rw [_hmark, List.length_cons] at hle
    omega
  · have hle := length_fromMark rest
    have hafter := @length_afterPath after c (fromMark_cons _hmark)
    rw [_hmark, List.length_cons] at hle
    omega

/-- The rest with its paths replaced. -/
def withoutPaths (done rest : Text) : Text :=
  match _hmark : fromMark rest with
  | [] => rest
  | c :: after =>
    match pathRun (done ++ gap rest) (c :: after) with
    | none => gap rest ++ c :: withoutPaths (done ++ gap rest ++ [c]) after
    | some run => (gap rest).take ((gap rest).length - run.length) ++ redactedPath ++
        withoutPaths (done ++ gap rest ++ pathPart (c :: after)) (afterPath (c :: after))
termination_by rest.length
decreasing_by
  · have hle := length_fromMark rest
    rw [_hmark, List.length_cons] at hle
    omega
  · have hle := length_fromMark rest
    have hafter := @length_afterPath after c (fromMark_cons _hmark)
    rw [_hmark, List.length_cons] at hle
    omega

def TrapFree (done rest : Text) : Prop := ∀ cut ∈ pathStops done rest, ¬ Trap cut.1 cut.2

/-! ### Letters before a mark -/

theorem alnum_not_ends (h : c.isAlphanum = true) : endsPath c = false := by
  rw [Bool.eq_false_iff]
  unfold Char.isAlphanum Char.isAlpha Char.isUpper Char.isLower at h
  simp only [Char.isDigit, Bool.or_eq_true, Bool.and_eq_true, decide_eq_true_eq, UInt32.le_iff_toNat_le, ge_iff_le] at h
  simp only [endsPath, isWhitespace, Bool.or_eq_true, Bool.and_eq_true, decide_eq_true_eq, beq_iff_eq,
    UInt32.le_iff_toNat_le, Char.ext_iff, ← UInt32.toNat_inj, ne_eq]
  simp at h ⊢
  omega

theorem alnum_of_mark (h : isPathMark c = true) : c.isAlphanum = false := by
  simp only [isPathMark, Bool.or_eq_true, beq_iff_eq] at h
  rcases h with (rfl | rfl) | rfl <;> decide

/-- The scan stands behind a character that is no letter or digit, or before the end of a path. -/
def Fresh (done rest : Text) : Prop :=
  (∀ d, done.getLast? = some d → d.isAlphanum = false) ∨ ∀ e, rest.head? = some e → endsPath e = true

/-- What a path takes from before its mark has not been copied yet. -/
theorem Fresh.run_in_gap {run : Text} (h : Fresh done rest) (hmark : fromMark rest = c :: after)
    (hrun : pathRun (done ++ gap rest) (c :: after) = some run)
    (hfree : ¬ Trap (done ++ gap rest) (c :: after)) :
    (∃ g, gap rest = g ++ run) ∧ ∀ x ∈ run, x.isAlphanum = true := by
  obtain ⟨kept, hkept, halnum⟩ := pathRun_some hrun hfree
  refine ⟨?_, halnum⟩
  rcases List.append_eq_append_iff.1 hkept with ⟨g, rfl, hgap⟩ | ⟨m, rfl, hm⟩
  · exact ⟨g, hgap⟩
  · rcases List.eq_nil_or_concat m with rfl | ⟨m', d, hconcat⟩
    · exact ⟨[], by simpa using hm.symm⟩
    rw [List.concat_eq_append] at hconcat
    subst hconcat
    exfalso
    rcases h with hlast | hhead
    · have hd : d.isAlphanum = true := halnum d (by rw [hm]; simp)
      rw [hlast d (by simp)] at hd
      cases hd
    · have hrest := gap_fromMark rest
      cases hgap : gap rest with
      | nil =>
        rw [hgap, hmark, List.nil_append] at hrest
        have hends := hhead c (by rw [← hrest]; rfl)
        rw [endsPath_mark (fromMark_cons hmark)] at hends
        cases hends
      | cons e g =>
        rw [hgap, List.cons_append] at hrest
        have hends := hhead e (by rw [← hrest]; rfl)
        rw [alnum_not_ends (halnum e (by rw [hm, hgap]; simp))] at hends
        cases hends

/-! ### The loop -/

theorem find_takeWhile (p : Char → Bool) (s : Text) :
    (find p s = none ∧ s.takeWhile (fun c => !p c) = s) ∨
    find p s = some (size (s.takeWhile fun c => !p c)) := by
  cases h : find p s with
  | none =>
    refine Or.inl ⟨rfl, List.takeWhile_eq_self_iff.2 ?_⟩
    simpa using find_none.1 h
  | some i =>
    obtain ⟨a, c, b, rfl, rfl, hc, ha⟩ := find_some.1 h
    have hall : ∀ x ∈ a, (!p x) = true := by simpa using ha
    rw [List.takeWhile_append_of_pos hall, List.takeWhile_cons_of_neg (by simp [hc]), List.append_nil]
    exact Or.inr rfl

/-- The end of a run, as the size of all that is before it. -/
theorem runEnd_cut (ends : Char → Bool) (before rest : Text) :
    runEnd ends (before ++ rest) rest (size before) =
      size (before ++ rest.takeWhile fun c => !ends c) := by
  unfold runEnd
  rcases find_takeWhile ends rest with ⟨hnone, hall⟩ | hsome
  · rw [hnone, hall]
  · simp only [hsome, size_append]

theorem gap_marks {x : Char} (h : x ∈ gap rest) : isPathMark x = false := by
  have := List.mem_takeWhile_imp h
  simpa using this

theorem pathRun_file (h : lowercase (trailing before) = "file".toList) :
    pathRun (before ++ [':']) ('/' :: rest) = some (trailing before ++ [':']) := by
  simp [pathRun, h]

/-- Where a single slash follows `file:`, the path is to start before what has been copied. -/
theorem slice_behind {line : Text} {i j : Nat} (h : j < i) : slice line i j = none :=
  if_neg (by omega)

/-! ### One turn of the scan -/

theorem scan_end (h : fromMark rest = []) : TrapFree done rest ∧ withoutPaths done rest = rest := by
  refine ⟨?_, ?_⟩
  · unfold TrapFree
    rw [pathStops]
    split
    next => simp
    next c after heq => simp [h] at heq
  · rw [withoutPaths]
    split
    next => rfl
    next c after heq => simp [h] at heq

theorem scan_mark (h : fromMark rest = c :: after) (hrun : pathRun (done ++ gap rest) (c :: after) = none) :
    (TrapFree done rest ↔
      ¬ Trap (done ++ gap rest) (c :: after) ∧ TrapFree (done ++ gap rest ++ [c]) after) ∧
    withoutPaths done rest = gap rest ++ c :: withoutPaths (done ++ gap rest ++ [c]) after := by
  refine ⟨?_, ?_⟩
  · unfold TrapFree
    rw [pathStops]
    split
    next heq => simp [h] at heq
    next c' after' heq =>
      obtain ⟨rfl, rfl⟩ := List.cons.inj (h.symm.trans heq)
      simp [hrun]
  · rw [withoutPaths]
    split
    next heq => simp [h] at heq
    next c' after' heq =>
      obtain ⟨rfl, rfl⟩ := List.cons.inj (h.symm.trans heq)
      simp [hrun]

theorem scan_path {run : Text} (h : fromMark rest = c :: after)
    (hrun : pathRun (done ++ gap rest) (c :: after) = some run) :
    (TrapFree done rest ↔ ¬ Trap (done ++ gap rest) (c :: after) ∧
      TrapFree (done ++ gap rest ++ pathPart (c :: after)) (afterPath (c :: after))) ∧
    withoutPaths done rest = (gap rest).take ((gap rest).length - run.length) ++ redactedPath ++
      withoutPaths (done ++ gap rest ++ pathPart (c :: after)) (afterPath (c :: after)) := by
  refine ⟨?_, ?_⟩
  · unfold TrapFree
    rw [pathStops]
    split
    next heq => simp [h] at heq
    next c' after' heq =>
      obtain ⟨rfl, rfl⟩ := List.cons.inj (h.symm.trans heq)
      simp [hrun]
  · rw [withoutPaths]
    split
    next heq => simp [h] at heq
    next c' after' heq =>
      obtain ⟨rfl, rfl⟩ := List.cons.inj (h.symm.trans heq)
      simp [hrun]

theorem trap_of_none (hrun : pathRun before rest = none) (htrap : Trap before rest) : Stuck before rest := by
  cases htrap with
  | stuck hstuck => exact hstuck
  | file hfile =>
    rw [pathRun_file hfile] at hrun
    cases hrun

/-- The start that `local_path_start` gives at a trap is behind the cursor. -/
theorem trap_start {run : Text} (hmark : fromMark rest = c :: after)
    (htrap : Trap (done ++ gap rest) (c :: after)) (hstuck : ¬ Stuck (done ++ gap rest) (c :: after))
    (hrun : pathRun (done ++ gap rest) (c :: after) = some run) :
    size (done ++ gap rest) - size run < size done := by
  generalize hbefore : done ++ gap rest = before at htrap hstuck hrun
  cases htrap with
  | stuck h => exact absurd h hstuck
  | @file b after hfile =>
    -- the colon is a mark, so it has been passed already and the gap is empty
    rcases List.eq_nil_or_concat (gap rest) with hnil | ⟨g, d, hgap⟩
    · rw [hnil, List.append_nil] at hbefore
      rw [pathRun_file hfile] at hrun
      cases hrun
      have hpos := size_pos (s := [':']) (by simp)
      rw [hbefore, size_append, size_append]
      omega
    · rw [hgap, List.concat_eq_append, ← List.append_assoc] at hbefore
      obtain rfl : d = ':' := by
        have := List.append_inj_right' hbefore rfl
        simpa using this
      have hcolon : isPathMark ':' = false := gap_marks (by rw [hgap]; simp : _ ∈ gap rest)
      cases hcolon

/-- The loop from a cut on: it replaces the paths, or panics where a trap is in its way. -/
def Scans (done rest : Text) (fuel : Nat) (output : Text) : Prop :=
  (TrapFree done rest ∧ redactEmbeddedPathsLoop (done ++ rest) fuel (size done) output =
    .ok (output ++ withoutPaths done rest)) ∨
  (¬ TrapFree done rest ∧
    redactEmbeddedPathsLoop (done ++ rest) fuel (size done) output = .error .panic)

theorem scans_end (h : fromMark rest = []) (fuel : Nat) (output : Text) (hfuel : size rest < fuel) :
    Scans done rest fuel output := by
  obtain ⟨fuel, rfl⟩ : ∃ n, fuel = n + 1 := ⟨fuel - 1, by omega⟩
  obtain ⟨hfree, hout⟩ := @scan_end rest done h
  refine Or.inl ⟨hfree, ?_⟩
  rw [redactEmbeddedPathsLoop, hout]
  split
  · have hnone : find isPathMark rest = none := by
      refine find_none.2 fun c hc => ?_
      have hall := List.dropWhile_eq_nil_iff.1 h c hc
      simpa using hall
    rw [sliceFrom_append, sliced_some, ok_bind, hnone]
  next hend =>
    rcases rest with _ | ⟨c, rest⟩
    · simp
    · have hpos := size_pos (List.cons_ne_nil c rest)
      rw [size_append] at hend
      omega

/-- Up to the call of `local_path_start`. -/
theorem scans_candidate (h : fromMark rest = c :: after) (fuel : Nat) (output : Text) :
    redactEmbeddedPathsLoop (done ++ rest) (fuel + 1) (size done) output =
      (localPathStart (done ++ rest) (size (done ++ gap rest)) >>= fun start =>
        match start with
        | none => do
          let mark ← sliced ((sliceFrom (done ++ rest) (size (done ++ gap rest))).bind List.head?)
          let next := size (done ++ gap rest) + mark.utf8Size
          let passed ← sliced (slice (done ++ rest) (size done) next)
          redactEmbeddedPathsLoop (done ++ rest) fuel next (output ++ passed)
        | some start => do
          let passed ← sliced (slice (done ++ rest) (size done) start)
          let path ← sliced (sliceFrom (done ++ rest) start)
          let stop := runEnd endsPath (done ++ rest) path start
          redactEmbeddedPathsLoop (done ++ rest) fuel (max stop (start + 1))
            (output ++ passed ++ redactedPath)) := by
  have hmark := fromMark_cons h
  have hrest := gap_fromMark rest
  rw [h] at hrest
  have hlt : size done < size (done ++ rest) := by
    rw [size_append, ← hrest, size_append]
    have hpos := size_pos (List.cons_ne_nil c after)
    omega
  have hfind : find isPathMark rest = some (size (gap rest)) := by
    rcases find_takeWhile isPathMark rest with ⟨-, hall⟩ | hsome
    · have hc : c ∈ gap rest := by
        rw [gap, hall, ← hrest]
        simp
      rw [gap_marks hc] at hmark
      cases hmark
    · exact hsome
  rw [redactEmbeddedPathsLoop, if_pos hlt, sliceFrom_append, sliced_some, ok_bind, size_append]
  generalize find isPathMark rest = found at hfind ⊢
  subst hfind
  rfl

theorem scans_mark (h : fromMark rest = c :: after)
    (hrun : pathRun (done ++ gap rest) (c :: after) = none)
    (ih : ∀ fuel output, size after < fuel → Fresh (done ++ gap rest ++ [c]) after →
      Scans (done ++ gap rest ++ [c]) after fuel output)
    (fuel : Nat) (output : Text) (hfuel : size rest < fuel) : Scans done rest fuel output := by
  obtain ⟨fuel, rfl⟩ : ∃ n, fuel = n + 1 := ⟨fuel - 1, by omega⟩
  obtain ⟨hfree, hout⟩ := scan_mark h hrun
  have hrest := gap_fromMark rest
  rw [h] at hrest
  have hline : done ++ rest = done ++ gap rest ++ c :: after := by rw [List.append_assoc, hrest]
  unfold Scans
  rw [scans_candidate h, hfree, hout, hline]
  rcases localPathStart_cut (done ++ gap rest) (c :: after) with ⟨hstuck, hpanic⟩ | ⟨hfreeStuck, hok⟩
  · rw [hpanic, panic_bind]
    exact Or.inr ⟨fun hno => hno.1 (.stuck hstuck), rfl⟩
  · have hnotrap : ¬ Trap (done ++ gap rest) (c :: after) := fun htrap => hfreeStuck (trap_of_none hrun htrap)
    have hfresh : Fresh (done ++ gap rest ++ [c]) after := by
      refine Or.inl fun d hd => ?_
      obtain rfl : c = d := by simpa using hd
      exact alnum_of_mark (fromMark_cons h)
    have hsize := congrArg size hrest
    rw [size_append, size_cons] at hsize
    have hbytes := c.utf8Size_pos
    have hnext : size (done ++ gap rest) + c.utf8Size = size (done ++ gap rest ++ [c]) := by
      simp [Nat.add_assoc]
    have hcut : done ++ gap rest ++ c :: after = done ++ gap rest ++ [c] ++ after := by simp
    have hpassed : slice (done ++ gap rest ++ [c] ++ after) (size done)
        (size (done ++ gap rest ++ [c])) = some (gap rest ++ [c]) := by
      have hslice := slice_append done (gap rest ++ [c]) after
      rwa [← List.append_assoc done] at hslice
    rw [hok, hrun, Option.map_none, ok_bind, sliceFrom_append]
    simp only [Option.bind_some, List.head?_cons, sliced_some, ok_bind, hnext, hcut, hpassed]
    rcases ih fuel (output ++ (gap rest ++ [c])) (by omega) hfresh with ⟨hafter, hloop⟩ | ⟨hafter, hloop⟩
    · exact Or.inl ⟨⟨hnotrap, hafter⟩, by rw [hloop]; simp⟩
    · exact Or.inr ⟨fun hno => hafter hno.2, hloop⟩

theorem scans_path {run : Text} (h : fromMark rest = c :: after)
    (hrun : pathRun (done ++ gap rest) (c :: after) = some run)
    (ih : ∀ fuel output, size (afterPath (c :: after)) < fuel →
      Fresh (done ++ gap rest ++ pathPart (c :: after)) (afterPath (c :: after)) →
      Scans (done ++ gap rest ++ pathPart (c :: after)) (afterPath (c :: after)) fuel output)
    (fuel : Nat) (output : Text) (hfuel : size rest < fuel) (hfresh : Fresh done rest) :
    Scans done rest fuel output := by
  obtain ⟨fuel, rfl⟩ : ∃ n, fuel = n + 1 := ⟨fuel - 1, by omega⟩
  obtain ⟨hfree, hout⟩ := scan_path h hrun
  have hrest := gap_fromMark rest
  rw [h] at hrest
  have hline : done ++ rest = done ++ gap rest ++ c :: after := by rw [List.append_assoc, hrest]
  unfold Scans
  rw [scans_candidate h, hfree, hout, hline]
  rcases localPathStart_cut (done ++ gap rest) (c :: after) with ⟨hstuck, hpanic⟩ | ⟨hfreeStuck, hok⟩
  · rw [hpanic, panic_bind]
    exact Or.inr ⟨fun hno => hno.1 (.stuck hstuck), rfl⟩
  rw [hok, hrun, Option.map_some, ok_bind]
  by_cases htrap : Trap (done ++ gap rest) (c :: after)
  · have hbehind := trap_start h htrap hfreeStuck hrun
    refine Or.inr ⟨fun hno => hno.1 htrap, ?_⟩
    simp only [slice_behind hbehind, sliced_none, panic_bind]
  · obtain ⟨⟨g, hg⟩, halnum⟩ := hfresh.run_in_gap h hrun htrap
    have hmark := endsPath_mark (fromMark_cons h)
    have hpart : pathPart (c :: after) = c :: pathPart after := by
      rw [pathPart, List.takeWhile_cons_of_pos (by simp [hmark])]
      rfl
    have hwhole := pathPart_afterPath (c :: after)
    have hsize := congrArg size hrest
    have hsize' := congrArg size hwhole
    have hbytes := c.utf8Size_pos
    rw [size_append] at hsize hsize'
    rw [hpart, size_cons] at hsize'
    -- what is left of the gap is copied, and the path goes on to the first character that ends it
    have hstart : size (done ++ gap rest) - size run = size (done ++ g) := by
      rw [hg, ← List.append_assoc, size_append (done ++ g) run, Nat.add_sub_cancel]
    have hcut : done ++ gap rest ++ c :: after = done ++ g ++ (run ++ c :: after) := by simp [hg]
    have hpassed : slice (done ++ g ++ (run ++ c :: after)) (size done) (size (done ++ g)) = some g :=
      slice_append done g (run ++ c :: after)
    have hpath : sliceFrom (done ++ g ++ (run ++ c :: after)) (size (done ++ g)) =
        some (run ++ c :: after) := sliceFrom_append (done ++ g) (run ++ c :: after)
    have hstop : runEnd endsPath (done ++ g ++ (run ++ c :: after)) (run ++ c :: after)
        (size (done ++ g)) = size (done ++ gap rest ++ pathPart (c :: after)) := by
      have hrunPart : ∀ x ∈ run, (!endsPath x) = true := by
        intro x hx
        simp [alnum_not_ends (halnum x hx)]
      rw [runEnd_cut, List.takeWhile_append_of_pos hrunPart, hg]
      simp [pathPart]
    have hmax : max (size (done ++ gap rest ++ pathPart (c :: after))) (size (done ++ g) + 1) =
        size (done ++ gap rest ++ pathPart (c :: after)) := by
      refine Nat.max_eq_left ?_
      rw [hg, hpart]
      simp only [size_append, size_cons]
      omega
    have hfresh' : Fresh (done ++ gap rest ++ pathPart (c :: after)) (afterPath (c :: after)) := by
      refine Or.inr fun e he => ?_
      have hhead := List.head?_dropWhile_not (fun c => !endsPath c) (c :: after)
      rw [← afterPath, he] at hhead
      simpa using hhead
    have hagain : done ++ g ++ (run ++ c :: after) =
        done ++ gap rest ++ pathPart (c :: after) ++ afterPath (c :: after) := by
      rw [List.append_assoc (done ++ gap rest), hwhole, hcut]
    have htaken : (gap rest).take ((gap rest).length - run.length) = g := by
      simp [hg]
    simp only [hstart, hcut, hpassed, hpath, hstop, hmax, sliced_some, ok_bind]
    rw [hagain, htaken]
    rcases ih fuel (output ++ g ++ redactedPath) (by omega) hfresh' with ⟨hafter, hloop⟩ | ⟨hafter, hloop⟩
    · exact Or.inl ⟨⟨htrap, hafter⟩, by rw [hloop]; simp⟩
    · exact Or.inr ⟨fun hno => hafter hno.2, hloop⟩

theorem redactEmbeddedPathsLoop_cut (done rest : Text) : ∀ (fuel : Nat) (output : Text),
    size rest < fuel → Fresh done rest → Scans done rest fuel output := by
  induction done, rest using withoutPaths.induct with
  | case1 done rest hnone =>
    intro fuel output hfuel _
    exact scans_end hnone fuel output hfuel
  | case2 done rest c after hmark hrun ih =>
    intro fuel output hfuel _
    exact scans_mark hmark hrun ih fuel output hfuel
  | case3 done rest c after hmark run hrun ih =>
    intro fuel output hfuel hfresh
    exact scans_path hmark hrun ih fuel output hfuel hfresh

/-- The paths of a line are replaced, or the call panics: which, the traps on the way of the scan say. -/
theorem redactEmbeddedPaths_eq (line : Text) :
    (TrapFree [] line ∧ redactEmbeddedPaths line = .ok (withoutPaths [] line)) ∨
    (¬ TrapFree [] line ∧ redactEmbeddedPaths line = .error .panic) :=
  redactEmbeddedPathsLoop_cut [] line (size line + 1) [] (Nat.lt_succ_self _) (Or.inl (by simp))

end CodexKeyboard.Redaction
