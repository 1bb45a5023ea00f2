import CodexKeyboard.SoundSync.SessionLending

/-! What the store is told to write was sent: every byte of a written unit comes from a data frame of the bound
    route, under the current cookie and the request of the write, that holds it at its place. -/

namespace CodexKeyboard.SoundSync

open Schemes.Bytes

/-! ### Buffers -/

section buffers

variable {buffer : FragmentBuffer} {offset index : ℕ} {data : List UInt8} {byte : UInt8}

theorem fill_length (h : offset + data.length ≤ buffer.length) : (buffer.fill offset data).length = buffer.length := by
  rw [FragmentBuffer.fill, List.length_append, List.length_append, List.length_map, List.length_zip, List.length_take,
    List.length_drop, List.length_drop]
  omega

/-- A byte of a filled buffer was there, or is one of the fragment's. -/
theorem fill_source (h : offset + data.length ≤ buffer.length)
    (hbyte : (buffer.fill offset data)[index]? = some (some byte)) :
    buffer[index]? = some (some byte) ∨ offset ≤ index ∧ data[index - offset]? = some byte := by
  have htake : (buffer.take offset).length = offset := by
    rw [List.length_take]
    omega
  have hmiddle (merge : Option UInt8 × UInt8 → Option UInt8) :
      (((buffer.drop offset).zip data).map merge).length = data.length := by
    rw [List.length_map, List.length_zip, List.length_drop]
    omega
  rw [FragmentBuffer.fill, List.append_assoc] at hbyte
  rcases Nat.lt_or_ge index offset with hbefore | hfrom
  · rw [List.getElem?_append_left (by omega), List.getElem?_take_of_lt hbefore] at hbyte
    exact Or.inl hbyte
  · rw [List.getElem?_append_right (by omega), htake] at hbyte
    rcases Nat.lt_or_ge (index - offset) data.length with hin | hbehind
    · rw [List.getElem?_append_left (by rw [hmiddle]; exact hin), List.getElem?_map, Option.map_eq_some_iff] at hbyte
      obtain ⟨⟨known, sent⟩, hzip, hor⟩ := hbyte
      obtain ⟨hknown, hsent⟩ := List.getElem?_zip_eq_some.1 hzip
      rw [List.getElem?_drop, Nat.add_sub_cancel' hfrom] at hknown
      cases known with
      | none => exact Or.inr ⟨hfrom, by rw [hsent]; exact hor⟩
      | some old => exact Or.inl (by rw [hknown]; exact congrArg some hor)
    · rw [List.getElem?_append_right (by rw [hmiddle]; exact hbehind), hmiddle, List.getElem?_drop] at hbyte
      rw [show offset + data.length + (index - offset - data.length) = index by omega] at hbyte
      exact Or.inl hbyte

theorem accept_ok (h : (buffer.accept offset data).1 = .ok) :
    offset + data.length ≤ buffer.length ∧ (buffer.accept offset data).2 = buffer.fill offset data := by
  unfold FragmentBuffer.accept at h ⊢
  split_ifs at h ⊢ with hempty hbounds hconflict
  push Not at hbounds
  exact ⟨hbounds.2, rfl⟩

theorem accept_refused (h : (buffer.accept offset data).1 ≠ .ok) : (buffer.accept offset data).2 = buffer := by
  unfold FragmentBuffer.accept at h ⊢
  split_ifs at h ⊢ with hempty hbounds hconflict
  · rfl
  · rfl
  · rfl
  · exact absurd rfl h

end buffers

/-! ### Units -/

/-- Where a unit begins in its region. -/
def unitStart : SpeakerAssetsRegion → UInt16 → ℕ
  | .manifest, _ => 0
  | .payload, unitIndex => unitIndex.toNat * soundPayloadBlockSize

/-- How long it is. -/
def unitLength (progress : SoundUpdateProgress) : SpeakerAssetsRegion → UInt16 → ℕ
  | .manifest, _ => progress.manifestBytes.toNat
  | .payload, unitIndex => payloadBlockLength progress.payloadBytes unitIndex.toNat

/-- The frame holds a byte of the unit at its place. -/
structure Carries (frame : SpeakerAssetsFrame) (region : SpeakerAssetsRegion) (unitIndex : UInt16) (index : ℕ)
    (byte : UInt8) : Prop where
  opcode : SpeakerAssetsOpcode.ofCode frame.opcode = some .data
  area : hasFlag frame.flags flagPayloadRegion = (region == .payload)
  start : frame.objectOffset.toNat ≤ unitStart region unitIndex + index
  byte : frame.body[unitStart region unitIndex + index - frame.objectOffset.toNat]? = some byte

namespace SpeakerAssetsSession

variable {s t : SpeakerAssetsSession} {route : SpeakerAssetsRouteToken} {frame : SpeakerAssetsFrame}
  {crypto : SoundCrypto} {kind : SpeakerAssetsActionKind} {sent : List (SpeakerAssetsRouteToken × SpeakerAssetsFrame)}

/-- A frame that was sent for the unit under way holds the byte. -/
def Source (sent : List (SpeakerAssetsRouteToken × SpeakerAssetsFrame)) (s : SpeakerAssetsSession)
    (region : SpeakerAssetsRegion) (unitIndex : UInt16) (index : ℕ) (byte : UInt8) : Prop :=
  ∃ route frame, (route, frame) ∈ sent ∧ s.route = some route ∧ frame.sessionCookie = s.sessionCookie ∧
    frame.requestId = s.unitRequestId ∧ Carries frame region unitIndex index byte

/-- The unit under way: of its length, and made of what was sent. -/
structure UnitOpen (sent : List (SpeakerAssetsRouteToken × SpeakerAssetsFrame)) (s : SpeakerAssetsSession)
    (block : AssembledUnit) (progress : SoundUpdateProgress) : Prop where
  assembler : s.blockAssembler = some block
  known : s.progress = some progress
  length : block.buffer.length = unitLength progress block.region block.unitIndex
  source : ∀ index byte, block.buffer[index]? = some (some byte) → Source sent s block.region block.unitIndex index byte

structure Sourced (sent : List (SpeakerAssetsRouteToken × SpeakerAssetsFrame)) (s : SpeakerAssetsSession) : Prop where
  unit : s.phase = .unitAssembly → ∃ block progress, UnitOpen sent s block progress
  progress : ∀ progress, s.progress = some progress → progressIsWellFormed progress = true

/-! ### Requests -/

/-- If a unit is under way then it is the one that was. -/
structure Undisturbed (s t : SpeakerAssetsSession) : Prop where
  unit : t.phase = .unitAssembly → s.phase = .unitAssembly ∧ t.blockAssembler = s.blockAssembler ∧ t.route = s.route ∧
    t.sessionCookie = s.sessionCookie ∧ t.unitRequestId = s.unitRequestId ∧ t.progress = s.progress

theorem Undisturbed.refl (s : SpeakerAssetsSession) : Undisturbed s s := ⟨fun h => ⟨h, rfl, rfl, rfl, rfl, rfl⟩⟩

theorem Undisturbed.of_phase (h : t.phase ≠ .unitAssembly) : Undisturbed s t := ⟨fun hunit => absurd hunit h⟩

theorem Undisturbed.of_begin (h : t.phase = .beginAssembly) : Undisturbed s t := .of_phase (by simp [h])

/-- The unit under way is left alone, and nothing is written. -/
structure Reading (s : SpeakerAssetsSession) (answer : SpeakerAssetsEmission × SpeakerAssetsSession) : Prop where
  undisturbed : Undisturbed s answer.2
  read : ∀ action, answer.1 = .action action → action.kind.isWrite = false

theorem Reading.reply {reply : SpeakerAssetsFrame} (h : Undisturbed s t) : Reading s (.reply reply, t) :=
  ⟨h, fun action haction => by cases haction⟩

theorem Reading.action {action : SpeakerAssetsActionView} (hphase : t.phase = .actionPending)
    (hkind : action.kind.isWrite = false) : Reading s (.action action, t) := by
  refine ⟨.of_phase (by simp [hphase]), fun other haction => ?_⟩
  cases haction
  exact hkind

theorem reading_currentActive : Reading s (s.consumeCurrentActive crypto route frame) := by
  unfold consumeCurrentActive
  split
  · exact .reply (.refl s)
  · dsimp only
    split
    · exact .reply (.refl s)
    · exact .reply (.refl s)
    · split
      · exact .reply (.refl s)
      · exact .action rfl rfl

theorem reading_resume : Reading s (s.consumeResume crypto route frame) := by
  unfold consumeResume
  split
  · exact .reply (.refl s)
  · split
    · exact .reply (.refl s)
    · dsimp only
      split
      · exact .reply (.refl s)
      · exact .reply (.refl s)
      · split
        · exact .reply (.refl s)
        · exact .action rfl rfl

theorem reading_bound (hkind : boundKind kind = true) : Reading s (s.consumeBound crypto route frame kind) := by
  have hwrite : kind.isWrite = false := by
    revert hkind
    cases kind <;> decide
  unfold consumeBound
  split
  · exact .reply (.refl s)
  · dsimp only
    split
    · exact .reply (.refl s)
    · exact .reply (.refl s)
    · split
      · exact .reply (.refl s)
      · exact .action rfl hwrite

theorem undisturbed_enterPlan (s : SpeakerAssetsSession) (route : SpeakerAssetsRouteToken) (frame : SpeakerAssetsFrame)
    (kind : SpeakerAssetsActionKind) (hasFirst : Bool) :
    Undisturbed s (s.enterPlanAssembly route frame kind hasFirst).2 ∧
      ((s.enterPlanAssembly route frame kind hasFirst).1 = none →
        (s.enterPlanAssembly route frame kind hasFirst).2.phase = .beginAssembly) := by
  unfold enterPlanAssembly
  dsimp only
  split
  · split_ifs
    · exact ⟨.refl s, nofun⟩
    next hphase _ _ => exact ⟨⟨fun h => by rw [hphase] at h; cases h⟩, nofun⟩
    · exact ⟨.of_begin rfl, fun _ => rfl⟩
  · split_ifs
    · exact ⟨.refl s, nofun⟩
    · exact ⟨.refl s, nofun⟩
    next hphase _ _ _ => exact ⟨⟨fun h => by rw [hphase] at h; cases h⟩, nofun⟩
    · exact ⟨.of_begin rfl, fun _ => rfl⟩
  next hphase =>
    split_ifs
    · exact ⟨.refl s, nofun⟩
    · exact ⟨.refl s, fun _ => hphase⟩
  · exact ⟨.refl s, nofun⟩
  · exact ⟨.refl s, nofun⟩

theorem restore_phase (s : SpeakerAssetsSession) : s.restoreAfterBeginAssembly.phase ≠ .unitAssembly := by
  unfold restoreAfterBeginAssembly
  dsimp only
  split <;> nofun

theorem reading_finishPlan (hkind : kind.isWrite = false) :
    Reading s (t.finishPlanAssembly crypto route frame kind) := by
  unfold finishPlanAssembly
  dsimp only
  split
  · exact .reply (.of_phase (restore_phase _))
  · split
    · exact .reply (.of_phase (restore_phase _))
    · exact .reply (.of_phase (restore_phase _))
    · split
      · exact .reply (.of_phase (restore_phase _))
      · exact .action rfl hkind

theorem reading_plan (hkind : kind.isWrite = false) : Reading s (s.consumePlanAction crypto route frame kind) := by
  unfold consumePlanAction
  dsimp only
  split
  · exact .reply (.refl s)
  · have hentered := undisturbed_enterPlan s route frame kind (hasFlag frame.flags flagFirstFragment)
    split
    next status t ht =>
      rw [ht] at hentered
      exact .reply hentered.1
    next t ht =>
      rw [ht] at hentered
      have hphase : t.phase = .beginAssembly := hentered.2 rfl
      unfold acceptPlanFragment
      dsimp only
      split
      · exact .reply (.of_begin hphase)
      · split
        · split
          · exact .reply (.of_begin hphase)
          · exact .reply (.of_begin hphase)
        · exact reading_finishPlan hkind

/-! ### Data -/

/-- The unit a data frame is for, and where in it the frame lies. -/
structure UnitFrame (s : SpeakerAssetsSession) (route : SpeakerAssetsRouteToken) (frame : SpeakerAssetsFrame)
    (region : SpeakerAssetsRegion) (unitIndex : UInt16) (expectedBytes unitOffset : ℕ) : Prop where
  data : DataFrame s route frame
  area : hasFlag frame.flags flagPayloadRegion = (region == .payload)
  place : unitStart region unitIndex + unitOffset = frame.objectOffset.toNat
  length : ∃ progress, s.progress = some progress ∧ expectedBytes = unitLength progress region unitIndex

theorem progress_payloadBytes {progress : SoundUpdateProgress} (h : progressIsWellFormed progress = true) :
    progress.payloadBytes.toNat ≤ soundPayloadMaxSize := by
  rw [progressIsWellFormed] at h
  simp only [Bool.and_eq_true, decide_eq_true_eq] at h
  exact h.1.1.1.2

theorem consumeData_units {P : SpeakerAssetsEmission × SpeakerAssetsSession → Prop}
    (hwell : ∀ progress, s.progress = some progress → progressIsWellFormed progress = true)
    (hrefuse : ∀ status cookie, P (s.refuse frame status cookie))
    (hunit : ∀ region unitIndex unitBase expectedBytes unitOffset,
      UnitFrame s route frame region unitIndex expectedBytes unitOffset →
      P (s.consumeUnitFragment crypto route frame region unitIndex unitBase expectedBytes unitOffset)) :
    P (s.consumeData crypto route frame) := by
  unfold consumeData
  dsimp only
  split
  · exact hrefuse _ _
  next progress hprogress =>
    split
    · exact hrefuse _ _
    next hchecks =>
      simp only [Bool.or_eq_true, Bool.not_eq_true', not_or, Bool.not_eq_false, Bool.and_eq_true, decide_eq_true_eq,
        beq_iff_eq] at hchecks
      have hdata : DataFrame s route frame := ⟨hchecks.1.2.1, hchecks.1.2.2, hchecks.2⟩
      split
      next hpayload =>
        split
        · exact hrefuse _ _
        next hinside =>
          have hbound := progress_payloadBytes (hwell progress hprogress)
          have hless : frame.objectOffset.toNat < progress.payloadBytes.toNat := by
            rw [UInt32.le_iff_toNat_le] at hinside
            omega
          have hindex : (UInt16.ofNat (frame.objectOffset.toNat / soundPayloadBlockSize)).toNat =
              frame.objectOffset.toNat / soundPayloadBlockSize := by
            refine UInt16.toNat_ofNat_of_lt' (Nat.div_lt_of_lt_mul (lt_of_lt_of_le hless (le_trans hbound ?_)))
            decide
          refine hunit _ _ _ _ _ ⟨hdata, hpayload, ?_, progress, hprogress, ?_⟩
          · rw [unitStart, hindex]
            exact Nat.add_sub_cancel' (Nat.div_mul_le_self _ _)
          · rw [unitLength, hindex]
      next hmanifest =>
        split
        · exact hrefuse _ _
        · refine hunit _ _ _ _ _ ⟨hdata, Bool.eq_false_of_not_eq_true hmanifest, Nat.zero_add _,
            progress, hprogress, rfl⟩

theorem bytes_source {buffer : FragmentBuffer} (hfull : buffer.isFull = true) {index : ℕ} {byte : UInt8}
    (h : buffer.bytes[index]? = some byte) : buffer[index]? = some (some byte) := by
  rw [FragmentBuffer.bytes, List.getElem?_map, Option.map_eq_some_iff] at h
  obtain ⟨known, hknown, hbyte⟩ := h
  have hsome := List.all_eq_true.1 hfull known (List.mem_of_getElem? hknown)
  rw [hknown]
  cases known with
  | none => cases hsome
  | some old => exact congrArg (some ∘ some) hbyte

/-- The write is of a whole unit, made of what its route sent for it. -/
def Written (sent : List (SpeakerAssetsRouteToken × SpeakerAssetsFrame)) (s : SpeakerAssetsSession)
    (action : SpeakerAssetsActionView) : Prop :=
  ∃ region progress, action.kind = (if region = .manifest then .writeManifest else .writePayloadBlock) ∧
    s.progress = some progress ∧ action.bytes.length = unitLength progress region action.blockIndex ∧
    ∀ index byte, action.bytes[index]? = some byte → ∃ frame, (action.route, frame) ∈ sent ∧
      frame.sessionCookie = action.sessionCookie ∧ frame.requestId = action.requestId ∧
      Carries frame region action.blockIndex index byte

/-- The unit is under way after the fragment's, and a write has it whole. -/
structure Assembled (sent : List (SpeakerAssetsRouteToken × SpeakerAssetsFrame)) (s : SpeakerAssetsSession)
    (answer : SpeakerAssetsEmission × SpeakerAssetsSession) : Prop where
  unit : answer.2.phase = .unitAssembly → ∃ block progress, UnitOpen sent answer.2 block progress
  written : ∀ action, answer.1 = .action action → action.kind.isWrite = true → Written sent s action

theorem Assembled.reply {reply : SpeakerAssetsFrame}
    (h : t.phase = .unitAssembly → ∃ block progress, UnitOpen sent t block progress) :
    Assembled sent s (.reply reply, t) :=
  ⟨h, fun action haction => by cases haction⟩

theorem Assembled.ready {reply : SpeakerAssetsFrame} (h : t.phase = .ready) : Assembled sent s (.reply reply, t) :=
  .reply fun hunit => by rw [h] at hunit; cases hunit

theorem source_more {new : SpeakerAssetsRouteToken × SpeakerAssetsFrame} {region : SpeakerAssetsRegion}
    {unitIndex : UInt16} {index : ℕ} {byte : UInt8} (h : Source sent s region unitIndex index byte) :
    Source (new :: sent) s region unitIndex index byte := by
  obtain ⟨route, frame, hmem, hrest⟩ := h
  exact ⟨route, frame, List.mem_cons_of_mem _ hmem, hrest⟩

theorem assembled_finish (block : AssembledUnit) (progress : SoundUpdateProgress) (h : UnitOpen sent t block progress)
    (hroute : t.route = some route) (hcookie : frame.sessionCookie = t.sessionCookie)
    (hrequest : t.unitRequestId = frame.requestId) (hfull : t.blockAssembler.complete = true)
    (hprogress : t.progress = s.progress) :
    Assembled sent s (t.finishUnitAssembly crypto route frame block.region block.unitIndex) := by
  have hbuffer : t.blockAssembler.buffer = block.buffer := by
    rw [h.assembler]
    rfl
  have hall : block.buffer.isFull = true := by
    rw [h.assembler] at hfull
    exact hfull
  unfold finishUnitAssembly
  dsimp only
  split
  · exact .ready rfl
  · exact .ready rfl
  · refine ⟨fun hunit => (by cases hunit), fun action haction _ => ?_⟩
    cases haction
    refine ⟨block.region, progress, rfl, hprogress.symm.trans h.known, ?_, fun index byte hbyte => ?_⟩
    · rw [hbuffer, FragmentBuffer.bytes, List.length_map]
      exact h.length
    · have hbyte : t.blockAssembler.buffer.bytes[index]? = some byte := hbyte
      rw [hbuffer] at hbyte
      obtain ⟨sender, sentFrame, hmem, hfrom, hsentCookie, hsentRequest, hcarries⟩ :=
        h.source index byte (bytes_source hall hbyte)
      cases hroute.symm.trans hfrom
      exact ⟨sentFrame, hmem, hsentCookie.trans hcookie.symm, hsentRequest.trans hrequest, hcarries⟩

theorem acceptFragment_block {block : AssembledUnit} (hblock : s.blockAssembler = some block) (offset : ℕ)
    (data : List UInt8) : s.blockAssembler.acceptFragment block.region block.unitIndex offset data =
      ((block.buffer.accept offset data).1, some { block with buffer := (block.buffer.accept offset data).2 }) := by
  rw [hblock, SpeakerAssetsBlockAssembler.acceptFragment, if_neg (by simp)]

/-- The unit with the fragment in it. -/
theorem open_accept {block : AssembledUnit} {progress : SoundUpdateProgress} {unitOffset : ℕ}
    (h : UnitOpen sent s block progress) (hroute : s.route = some route)
    (hcookie : frame.sessionCookie = s.sessionCookie)
    (hrequest : s.unitRequestId = frame.requestId) (hopcode : SpeakerAssetsOpcode.ofCode frame.opcode = some .data)
    (harea : hasFlag frame.flags flagPayloadRegion = (block.region == .payload))
    (hplace : unitStart block.region block.unitIndex + unitOffset = frame.objectOffset.toNat) :
    UnitOpen ((route, frame) :: sent)
      { s with blockAssembler := some { block with buffer := (block.buffer.accept unitOffset frame.body).2 } }
      { block with buffer := (block.buffer.accept unitOffset frame.body).2 } progress := by
  refine ⟨rfl, h.known, ?_, fun index byte hbyte => ?_⟩
  · by_cases hok : (block.buffer.accept unitOffset frame.body).1 = .ok
    · obtain ⟨hfits, hfill⟩ := accept_ok hok
      exact (congrArg List.length hfill).trans ((fill_length hfits).trans h.length)
    · exact (congrArg List.length (accept_refused hok)).trans h.length
  · have hbyte : (block.buffer.accept unitOffset frame.body).2[index]? = some (some byte) := hbyte
    by_cases hok : (block.buffer.accept unitOffset frame.body).1 = .ok
    · obtain ⟨hfits, hfill⟩ := accept_ok hok
      rw [hfill] at hbyte
      rcases fill_source hfits hbyte with hold | ⟨hfrom, hnew⟩
      · exact source_more (h.source index byte hold)
      · refine ⟨route, frame, List.mem_cons_self, hroute, hcookie, hrequest.symm, hopcode, harea, ?_, ?_⟩
        · rw [← hplace]
          exact Nat.add_le_add_left hfrom _
        · rw [← hplace, Nat.add_sub_add_left]
          exact hnew
    · rw [accept_refused hok] at hbyte
      exact source_more (h.source index byte hbyte)

theorem assembled_accept (crypto : SoundCrypto) {block : AssembledUnit} {progress : SoundUpdateProgress}
    {unitOffset : ℕ} (h : UnitOpen sent s block progress) (hroute : s.route = some route)
    (hcookie : frame.sessionCookie = s.sessionCookie)
    (hrequest : s.unitRequestId = frame.requestId) (hopcode : SpeakerAssetsOpcode.ofCode frame.opcode = some .data)
    (harea : hasFlag frame.flags flagPayloadRegion = (block.region == .payload))
    (hplace : unitStart block.region block.unitIndex + unitOffset = frame.objectOffset.toNat)
    (hasFirst hasLast : Bool) :
    Assembled ((route, frame) :: sent) s
      (s.acceptUnitFragment crypto route frame block.region block.unitIndex unitOffset hasFirst hasLast) := by
  have hopen := open_accept h hroute hcookie hrequest hopcode harea hplace
  unfold acceptUnitFragment
  rw [acceptFragment_block h.assembler]
  dsimp only
  split
  · exact .reply fun _ => ⟨_, progress, hopen⟩
  · split
    · split
      · exact .reply fun _ => ⟨_, progress, rfl, hopen.known, hopen.length, hopen.source⟩
      · exact .reply fun _ => ⟨_, progress, rfl, hopen.known, hopen.length, hopen.source⟩
    next hcomplete =>
      simp only [Bool.or_eq_true, Bool.not_eq_true', not_or, Bool.not_eq_false] at hcomplete
      refine assembled_finish { block with buffer := (block.buffer.accept unitOffset frame.body).2 } progress
        ?_ ?_ ?_ ?_ ?_ rfl
      · exact ⟨rfl, hopen.known, hopen.length, hopen.source⟩
      · exact hroute
      · exact hcookie
      · exact hrequest
      · exact hcomplete.1.1

/-- A unit that is entered is the one the frame is for. -/
theorem open_enter {region : SpeakerAssetsRegion} {unitIndex : UInt16} {expectedBytes : ℕ} (h : Sourced sent s)
    (hphase : s.phase = .ready ∨ s.phase = .unitAssembly)
    (hlength : ∃ progress, s.progress = some progress ∧ expectedBytes = unitLength progress region unitIndex)
    (frame : SpeakerAssetsFrame) (unitBase : UInt32) (hasFirst : Bool)
    (hentered : (s.enterUnitAssembly frame region unitIndex unitBase expectedBytes hasFirst).1 = none) :
    ∃ block progress,
      UnitOpen sent (s.enterUnitAssembly frame region unitIndex unitBase expectedBytes hasFirst).2 block progress ∧
      block.region = region ∧ block.unitIndex = unitIndex ∧
      (s.enterUnitAssembly frame region unitIndex unitBase expectedBytes hasFirst).2.unitRequestId =
        frame.requestId := by
  obtain ⟨progress, hprogress, hexpected⟩ := hlength
  unfold enterUnitAssembly at hentered ⊢
  dsimp only at hentered ⊢
  split_ifs at hentered ⊢ with hready hfirst hrefused hother
  · have hbegin : (s.blockAssembler.begin region unitIndex expectedBytes).2 =
        some ⟨region, unitIndex, FragmentBuffer.empty expectedBytes⟩ := by
      unfold SpeakerAssetsBlockAssembler.begin at hrefused ⊢
      split
      next hbad =>
        rw [if_pos hbad] at hrefused
        simp at hrefused
      next => rfl
    refine ⟨⟨region, unitIndex, FragmentBuffer.empty expectedBytes⟩, progress,
      ⟨hbegin, hprogress, ?_, ?_⟩, rfl, rfl, rfl⟩
    · rw [← hexpected]
      exact List.length_replicate
    · intro index byte hbyte
      have hmem := List.mem_of_getElem? hbyte
      cases (List.mem_replicate.1 hmem).2
  · obtain ⟨block, known, hopen⟩ := h.unit (hphase.resolve_left hready)
    push Not at hother
    obtain ⟨hrequest, hregion, hindex⟩ := hother
    rw [hopen.assembler] at hregion hindex
    exact ⟨block, known, hopen, hregion, hindex, hrequest⟩

/-- A unit that is not entered is as it was. -/
theorem undisturbed_enter (s : SpeakerAssetsSession) (frame : SpeakerAssetsFrame) (region : SpeakerAssetsRegion)
    (unitIndex : UInt16) (unitBase : UInt32) (expectedBytes : ℕ) (hasFirst : Bool) (status : SpeakerAssetsStatus)
    (hentered : (s.enterUnitAssembly frame region unitIndex unitBase expectedBytes hasFirst).1 = some status) :
    Undisturbed s (s.enterUnitAssembly frame region unitIndex unitBase expectedBytes hasFirst).2 := by
  unfold enterUnitAssembly at hentered ⊢
  dsimp only at hentered ⊢
  split_ifs at hentered ⊢ with hready hfirst hrefused hother
  · exact .refl s
  · exact ⟨fun h => by rw [hready] at h; cases h⟩
  · exact .refl s

theorem Sourced.undisturbed (h : Sourced sent s) (hundisturbed : Undisturbed s t)
    (new : List (SpeakerAssetsRouteToken × SpeakerAssetsFrame)) (hphase : t.phase = .unitAssembly) :
    ∃ block progress, UnitOpen (new ++ sent) t block progress := by
  obtain ⟨hunit, hblock, hroute, hcookie, hrequest, hprogress⟩ := hundisturbed.unit hphase
  obtain ⟨block, progress, hopen⟩ := h.unit hunit
  refine ⟨block, progress, hblock.trans hopen.assembler, hprogress.trans hopen.known, hopen.length,
    fun index byte hbyte => ?_⟩
  obtain ⟨route, frame, hmem, hsource⟩ := hopen.source index byte hbyte
  refine ⟨route, frame, List.mem_append_right _ hmem, ?_⟩
  rw [hroute, hcookie, hrequest]
  exact hsource

theorem assembled_unit {region : SpeakerAssetsRegion} {unitIndex : UInt16} {unitBase : UInt32}
    {expectedBytes unitOffset : ℕ}
    (h : Sourced sent s) (hunit : UnitFrame s route frame region unitIndex expectedBytes unitOffset)
    (hopcode : SpeakerAssetsOpcode.ofCode frame.opcode = some .data) : Assembled ((route, frame) :: sent) s
      (s.consumeUnitFragment crypto route frame region unitIndex unitBase expectedBytes unitOffset) := by
  unfold consumeUnitFragment
  dsimp only
  split
  · exact .reply (h.undisturbed (.refl s) [(route, frame)])
  · have hopen := open_enter h hunit.data.phase hunit.length frame unitBase (hasFlag frame.flags flagFirstFragment)
    have hheld := held_enterUnit s frame region unitIndex unitBase expectedBytes (hasFlag frame.flags flagFirstFragment)
    have hundisturbed := undisturbed_enter s frame region unitIndex unitBase expectedBytes
      (hasFlag frame.flags flagFirstFragment)
    split
    next status t ht =>
      rw [ht] at hundisturbed
      exact .reply (h.undisturbed (hundisturbed status rfl) [(route, frame)])
    next t ht =>
      rw [ht] at hopen hheld
      obtain ⟨block, progress, hentered, rfl, rfl, hrequest⟩ := hopen rfl
      obtain ⟨hassembled, hwritten⟩ := assembled_accept crypto hentered (hheld.route.trans hunit.data.route)
        (hunit.data.cookie.trans hheld.cookie.symm) hrequest hopcode hunit.area hunit.place
        (hasFlag frame.flags flagFirstFragment) (hasFlag frame.flags flagLastFragment)
      refine ⟨hassembled, fun action haction hwrite => ?_⟩
      obtain ⟨region, known, hkind, hknown, hrest⟩ := hwritten action haction hwrite
      exact ⟨region, known, hkind, hheld.progress.symm.trans hknown, hrest⟩

theorem reading_consume (hopcode : SpeakerAssetsOpcode.ofCode frame.opcode ≠ some .data) :
    Reading s (s.consume crypto route frame).2 := by
  unfold consume
  split
  · exact ⟨.refl s, fun action haction => by cases haction⟩
  · split
    · exact .reply (.refl s)
    · split
      · unfold consumeCapabilities
        split <;> exact .reply (.refl s)
      · split
        · exact .reply (.refl s)
        · dsimp only
          split
          · exact reading_plan rfl
          · exact reading_resume
          next hdata => exact absurd hdata hopcode
          · exact reading_bound rfl
          · exact reading_bound rfl
          · exact reading_bound rfl
          · exact reading_plan rfl
          · exact reading_currentActive
          · exact .reply (.refl s)
          · exact .reply (.refl s)

/-- A data frame is refused, or taken into its unit. -/
theorem consume_data {P : SpeakerAssetsEmission × SpeakerAssetsSession → Prop}
    (hopcode : SpeakerAssetsOpcode.ofCode frame.opcode = some .data) (hnone : P (.none, s))
    (hrefuse : ∀ status cookie, P (s.refuse frame status cookie)) (hdata : P (s.consumeData crypto route frame)) :
    P (s.consume crypto route frame).2 := by
  unfold consume
  split
  · exact hnone
  · split
    · exact hrefuse _ _
    · split
      next hcapabilities =>
        rw [hopcode] at hcapabilities
        cases hcapabilities
      next =>
        split
        · exact hrefuse _ _
        · rw [hopcode]
          exact hdata

theorem assembled_consume (h : Sourced sent s) (crypto : SoundCrypto) (route : SpeakerAssetsRouteToken)
    (frame : SpeakerAssetsFrame) : Assembled ((route, frame) :: sent) s (s.consume crypto route frame).2 := by
  have hunit := h.undisturbed (.refl s) [(route, frame)]
  by_cases hopcode : SpeakerAssetsOpcode.ofCode frame.opcode = some .data
  · refine consume_data (P := Assembled ((route, frame) :: sent) s) hopcode ?_ ?_ ?_
    · exact ⟨hunit, fun action haction => by cases haction⟩
    · exact fun _ _ => .reply hunit
    · refine consumeData_units (P := Assembled ((route, frame) :: sent) s) h.progress ?_ ?_
      · exact fun _ _ => .reply hunit
      · exact fun _ _ _ _ _ hframe => assembled_unit h hframe hopcode
  · have hreading : Reading s (s.consume crypto route frame).2 := reading_consume hopcode
    obtain ⟨hundisturbed, hread⟩ := hreading
    refine ⟨h.undisturbed hundisturbed [(route, frame)], fun action haction hwrite => ?_⟩
    rw [hread action haction] at hwrite
    cases hwrite

/-! ### Completions and closed routes -/

theorem consume_progress (s : SpeakerAssetsSession) (crypto : SoundCrypto) (route : SpeakerAssetsRouteToken)
    (frame : SpeakerAssetsFrame) : (s.consume crypto route frame).2.2.progress = s.progress := by
  rcases consume_reacted s crypto route frame with hrefused | ⟨hreacted, -⟩
  · rw [hrefused]
  · generalize (s.consume crypto route frame).2 = answer at hreacted
    cases hreacted with
    | reply hheld => exact hheld.progress
    | action hheld _ => exact hheld.progress

theorem wellFormed_of_matchesPlan {progress : SoundUpdateProgress} {plan : SoundBundlePlan}
    (h : progressMatchesPlan progress plan = true) : progressIsWellFormed progress = true := by
  rw [progressMatchesPlan] at h
  simp only [Bool.and_eq_true] at h
  exact h.1.1.1

theorem wellFormed_of_matchesSession {progress current : SoundUpdateProgress}
    (h : progressMatchesSession progress current = true) : progressIsWellFormed progress = true := by
  rw [progressMatchesSession] at h
  simp only [Bool.and_eq_true] at h
  exact h.1.1.1.1.1

/-- The progress that a successful completion leaves was checked. -/
theorem contract_progress {finished : PendingAction} {completion : SpeakerAssetsActionCompletion}
    (h : s.completionContractValid finished completion = true) (progress : SoundUpdateProgress)
    (hprogress : (s.completeOk finished completion).2.progress = some progress) :
    progressIsWellFormed progress = true := by
  unfold completeOk at hprogress
  unfold completionContractValid at h
  cases hkind : finished.kind with
  | begin =>
    simp only [hkind] at h hprogress
    split at h
    next identity given _ hgiven =>
      rw [hgiven] at hprogress
      cases hprogress
      rw [Bool.and_eq_true] at h
      exact wellFormed_of_matchesPlan h.2
    next => cases h
  | discardInvalidStaging =>
    simp only [hkind] at hprogress
    cases hprogress
  | queryCurrentActive =>
    simp only [hkind] at hprogress
    cases hprogress
  | resumeQuery =>
    simp only [hkind] at h hprogress
    split at h
    next outcome identity houtcome hidentity =>
      rw [houtcome, Option.getD_some] at hprogress
      rw [Bool.and_eq_true] at h
      cases outcome with
      | active =>
        obtain ⟨-, h⟩ := h
        dsimp only at h hprogress
        split at h
        next given hgiven =>
          rw [hgiven, Option.getD_some] at hprogress
          rw [Bool.and_eq_true] at h
          obtain ⟨-, h⟩ := h
          split_ifs at h hprogress
          · cases hprogress
            exact h
          · cases hprogress
            obtain ⟨current, -, hmatches⟩ := (Option.any_eq_true _ _).1 h
            rw [Bool.and_eq_true] at hmatches
            exact wellFormed_of_matchesSession hmatches.1
        next => cases h
      | committed => cases hprogress
      | unknown => cases hprogress
    next => cases h
  | writeManifest =>
    simp only [hkind] at h hprogress
    split at h
    next given current hgiven _ =>
      rw [hgiven] at hprogress
      cases hprogress
      simp only [Bool.and_eq_true] at h
      exact wellFormed_of_matchesSession h.1.1
    next => cases h
  | writePayloadBlock =>
    simp only [hkind] at h hprogress
    split at h
    next given current hgiven _ =>
      rw [hgiven] at hprogress
      cases hprogress
      simp only [Bool.and_eq_true] at h
      exact wellFormed_of_matchesSession h.1.1
    next => cases h
  | commit =>
    simp only [hkind] at hprogress
    cases hprogress
  | abort =>
    simp only [hkind] at hprogress
    cases hprogress

theorem failed_phase (s : SpeakerAssetsSession) (finished : PendingAction) (result : SoundStoreResult) :
    (s.completeFailed finished result).2.phase ≠ .unitAssembly ∧
      ((s.completeFailed finished result).2.progress = none ∨
        (s.completeFailed finished result).2.progress = s.progress) := by
  unfold completeFailed
  cases finished.kind with
  | resumeQuery =>
    dsimp only
    split
    · exact ⟨by simp, Or.inr rfl⟩
    · exact ⟨by simp, Or.inl rfl⟩
  | begin => exact ⟨by simp, Or.inl rfl⟩
  | discardInvalidStaging => exact ⟨by simp, Or.inl rfl⟩
  | queryCurrentActive => exact ⟨by simp, Or.inl rfl⟩
  | writeManifest => exact ⟨by simp, Or.inr rfl⟩
  | writePayloadBlock => exact ⟨by simp, Or.inr rfl⟩
  | commit => exact ⟨by simp, Or.inr rfl⟩
  | abort => exact ⟨by simp, Or.inr rfl⟩

theorem ok_phase (s : SpeakerAssetsSession) (finished : PendingAction) (completion : SpeakerAssetsActionCompletion) :
    (s.completeOk finished completion).2.phase ≠ .unitAssembly := by
  have hbound (progress : SoundUpdateProgress) : (s.completeBound finished progress).2.phase ≠ .unitAssembly := by
    simp [completeBound]
  have hprogress (progress : SoundUpdateProgress) : (s.completeProgress finished progress).2.phase ≠ .unitAssembly := by
    simp [completeProgress]
  have hfinal (reply : SpeakerAssetsFrame) : (s.completeFinal finished reply).2.phase ≠ .unitAssembly := by
    simp [completeFinal]
  unfold completeOk
  cases finished.kind with
  | begin => exact hbound _
  | discardInvalidStaging => exact hfinal _
  | queryCurrentActive => exact hfinal _
  | resumeQuery =>
    dsimp only
    split
    · split
      · exact hbound _
      · exact hprogress _
    · exact hfinal _
  | writeManifest => exact hprogress (completion.progress.getD {})
  | writePayloadBlock => exact hprogress (completion.progress.getD {})
  | commit => exact hfinal _
  | abort => exact hfinal _

theorem sourced_of_phase (hphase : t.phase ≠ .unitAssembly)
    (hprogress : ∀ progress, t.progress = some progress → progressIsWellFormed progress = true) : Sourced sent t :=
  ⟨fun hunit => absurd hunit hphase, hprogress⟩

theorem complete_sourced (h : Sourced sent s) (completion : SpeakerAssetsActionCompletion) :
    Sourced sent (s.complete completion).2.2 := by
  unfold complete
  split
  · exact h
  next finished hp =>
    split
    · exact h
    · split
      · exact sourced_of_phase (by simp) fun progress hprogress => by cases hprogress
      · split
        · obtain ⟨hphase, hnone | hsame⟩ := failed_phase s finished completion.result
          · exact sourced_of_phase hphase fun progress hprogress => by rw [hnone] at hprogress; cases hprogress
          · exact sourced_of_phase hphase fun progress hprogress => h.progress progress (hsame.symm.trans hprogress)
        · split
          · exact sourced_of_phase (by simp) fun progress hprogress => by cases hprogress
          next hcontract =>
            rw [Bool.not_eq_true', Bool.not_eq_false] at hcontract
            exact sourced_of_phase (ok_phase _ _ _) (contract_progress hcontract)

/-- The session is free, or its unit is the one that was. -/
theorem Sourced.kept (h : Sourced sent s) (hundisturbed : Undisturbed s t)
    (hprogress : t.progress = none ∨ t.progress = s.progress) : Sourced sent t := by
  refine ⟨fun hphase => h.undisturbed hundisturbed [] hphase, fun progress hsome => ?_⟩
  rcases hprogress with hnone | hsame
  · rw [hnone] at hsome
    cases hsome
  · exact h.progress progress (hsame.symm.trans hsome)

theorem routeClosed_sourced (h : Sourced sent s) (hcoherent : Coherent s) (route : SpeakerAssetsRouteToken) :
    Sourced sent (s.routeClosed route) := by
  have hsame : Undisturbed s (s.clearReplayForRoute route) := ⟨fun hunit => ⟨hunit, rfl, rfl, rfl, rfl, rfl⟩⟩
  unfold routeClosed
  dsimp only
  split
  next p hp =>
    have hphase := hcoherent.pendingPhase hp
    split
    · split
      · exact h.kept (.of_phase (by simp [clearBinding, clearReplayForRoute, hphase])) (Or.inl rfl)
      · exact h.kept (.of_phase (by simp [clearBinding, clearReplayForRoute, hphase])) (Or.inl rfl)
    · split
      · exact h.kept (.of_phase (by simp)) (Or.inl rfl)
      · exact h.kept hsame (Or.inr rfl)
  next hp =>
    split
    · exact h.kept (.of_phase (by simp)) (Or.inl rfl)
    · exact h.kept hsame (Or.inr rfl)

theorem allRoutesClosed_sourced (h : Sourced sent s) (hcoherent : Coherent s) : Sourced sent s.allRoutesClosed := by
  unfold allRoutesClosed
  dsimp only
  split
  next p hp =>
    have hphase := hcoherent.pendingPhase hp
    split
    · exact h.kept (.of_phase (by simp [clearBinding, hphase])) (Or.inl rfl)
    · exact h.kept (.of_phase (by simp [clearBinding, clearPartialAssembly, hphase])) (Or.inl rfl)
  next hp => exact h.kept (.of_phase (by simp)) (Or.inl rfl)

theorem expirePartial_sourced (h : Sourced sent s) (route : SpeakerAssetsRouteToken) :
    Sourced sent (s.expirePartial route).2 := by
  unfold expirePartial
  split_ifs
  · exact h.kept (.of_phase (restore_phase s)) (Or.inr rfl)
  · exact h.kept (.of_phase (by simp)) (Or.inr rfl)
  · exact h

end SpeakerAssetsSession

/-! ### Runs -/

namespace Lending

open SpeakerAssetsSession

/-- What a call sends. -/
def sentBy : SessionCall → List (SpeakerAssetsRouteToken × SpeakerAssetsFrame)
  | .consume route frame => [(route, frame)]
  | .complete _ | .routeClosed _ | .allRoutesClosed | .expirePartial _ => []

/-- A run, with the frames that were sent in it, the last one first. -/
inductive History (crypto : SoundCrypto) : List (SpeakerAssetsRouteToken × SpeakerAssetsFrame) → Lending → Prop
  | init (cookieSeed actionTokenSeed : UInt32) :
    History crypto [] { session := SpeakerAssetsSession.init cookieSeed actionTokenSeed }
  | call {sent : List (SpeakerAssetsRouteToken × SpeakerAssetsFrame)} {w : Lending} :
    History crypto sent w → ∀ c, History crypto (sentBy c ++ sent) (w.call crypto c)

variable {crypto : SoundCrypto} {w : Lending} {sent : List (SpeakerAssetsRouteToken × SpeakerAssetsFrame)}
  {route : SpeakerAssetsRouteToken} {frame : SpeakerAssetsFrame} {action : SpeakerAssetsActionView}

theorem History.reachable (h : History crypto sent w) : Reachable crypto w := by
  induction h with
  | init cookieSeed actionTokenSeed => exact .init _ _
  | call _ c ih => exact ih.call c

theorem History.sourced (h : History crypto sent w) : Sourced sent w.session := by
  induction h with
  | init cookieSeed actionTokenSeed =>
      exact ⟨fun hphase => (by cases hphase), fun progress hprogress => (by cases hprogress)⟩
  | @call sent w hrun c ih =>
    have hcoherent := hrun.reachable.lends.coherent
    cases c with
    | consume route frame =>
      refine ⟨(assembled_consume ih crypto route frame).unit, fun progress hprogress => ih.progress progress ?_⟩
      rw [← consume_progress w.session crypto route frame]
      exact hprogress
    | complete completion => exact complete_sourced ih completion
    | routeClosed route => exact routeClosed_sourced ih hcoherent route
    | allRoutesClosed => exact allRoutesClosed_sourced ih hcoherent
    | expirePartial route => exact expirePartial_sourced ih route

/-- In every run: an action on the bound transaction is begun by its route under its cookie alone, and the bytes
    of a write are those of a whole unit, each from a data frame that the route sent for this request. -/
theorem action_provenance (h : History crypto sent w)
    (haction : (w.session.consume crypto route frame).2.1 = .action action) :
    (action.route = route ∧ action.requestId = frame.requestId ∧ action.sessionCookie = frame.sessionCookie) ∧
      (action.kind.isWrite = true ∨ action.kind = .commit ∨ action.kind = .abort ∨
          action.kind = .resumeQuery ∧ action.sessionCookie ≠ 0 →
        w.session.route = some route ∧ frame.sessionCookie = w.session.sessionCookie ∧ frame.sessionCookie ≠ 0 ∧
          ∃ progress, w.session.progress = some progress ∧ action.expectedIdentity = progress.identity) ∧
      (action.kind.isWrite = true → Written ((route, frame) :: sent) w.session action) := by
  have hwritten := (assembled_consume h.sourced crypto route frame).written action haction
  have hcoherent := h.reachable.lends.coherent
  have hreacted : Reacted w.session route frame (w.session.consume crypto route frame).2 := by
    rcases consume_reacted w.session crypto route frame with hrefused | ⟨hreacted, -⟩
    · rw [hrefused] at haction
      cases haction
    · exact hreacted
  generalize (w.session.consume crypto route frame).2 = answer at haction hreacted
  cases hreacted with
  | reply => cases haction
  | @action p other t hheld hbegun =>
    cases haction
    obtain ⟨-, hkind, hroute, hrequest, hcookie, -, -⟩ := hbegun.borrowed
    refine ⟨⟨hroute.trans hbegun.owner, hrequest.trans hbegun.request, hcookie.trans hbegun.cookie⟩,
      fun hworks => ?_, hwritten⟩
    have hon : p.onBound = true := by
      rw [hkind, hcookie] at hworks
      simp only [PendingAction.onBound, Bool.or_eq_true, Bool.and_eq_true, beq_iff_eq, bne_iff_ne]
      tauto
    obtain ⟨hbound, hsame, hidentity⟩ := hbegun.bound hon
    have hsome : w.session.route.isSome = true := by
      rw [hbound]
      rfl
    obtain ⟨progress, hprogress⟩ := Option.isSome_iff_exists.1 (hcoherent.progress.trans hsome)
    refine ⟨hbound, hsame, hsame ▸ hcoherent.cookie hsome, progress, hprogress, ?_⟩
    rw [hidentity, hprogress]
    rfl

/-! ### A run with a write -/

def someUsbRoute : SpeakerAssetsRouteToken := { generation := 1 }

def someProgress : SoundUpdateProgress where
  identity := { generation := 1, transactionId := List.replicate soundTransactionIdBytes 1 }
  manifestBytes := 32
  bundleSha256 := List.replicate 32 1

def someResume : SpeakerAssetsFrame where
  opcode := 3
  flags := singleFrameRequestFlags
  requestId := 1
  body := List.replicate soundTransactionIdBytes 1

def someManifest : SpeakerAssetsFrame where
  opcode := 4
  flags := singleFrameRequestFlags
  requestId := 2
  sessionCookie := 1
  body := List.replicate 32 7

/-- The bound session: a resumed transaction. -/
def someBound (crypto : SoundCrypto) : Lending :=
  ((({ session := SpeakerAssetsSession.init 1 1 } : Lending).call crypto (.consume someUsbRoute someResume)).call crypto
    (.complete
      { token := 1
        kind := .resumeQuery
        result := .ok
        identity := some someProgress.identity
        progress := some someProgress
        outcome := some .active }))

theorem someBound_history (crypto : SoundCrypto) : History crypto [(someUsbRoute, someResume)] (someBound crypto) :=
  .call (.call (.init 1 1) (.consume someUsbRoute someResume)) (.complete _)

theorem action_provenance_manifest : ∃ action,
    ((someBound ⟨fun _ => 0, fun _ => zeroDigest⟩).session.consume ⟨fun _ => 0, fun _ => zeroDigest⟩ someUsbRoute
      someManifest).2.1 = .action action ∧ action.kind = .writeManifest ∧ action.bytes = List.replicate 32 7 ∧
      Written [(someUsbRoute, someManifest), (someUsbRoute, someResume)]
        (someBound ⟨fun _ => 0, fun _ => zeroDigest⟩).session action :=
  ⟨_, rfl, rfl, rfl, (action_provenance (someBound_history ⟨fun _ => 0, fun _ => zeroDigest⟩) rfl).2.2 rfl⟩

end Lending

end CodexKeyboard.SoundSync
