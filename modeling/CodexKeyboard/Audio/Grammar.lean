import CodexKeyboard.Audio.Checked

/-! The grammar of EIAD v1, and that `inspect_eiad` accepts it and nothing else. -/

namespace CodexKeyboard.Audio

open Schemes.Chunks Schemes.Bytes Schemes.Transact

/-- A frame of `samples` samples: its count, its predictor, its step index, a reserved zero and the length
    of its codes, two to a byte; a last byte with one code has a zero high half. -/
def EiadFrame (samples : Nat) (frame : List UInt8) : Prop :=
  ∃ (predictor : List UInt8) (step : UInt8) (payload : List UInt8),
    frame = leBytes 2 samples ++ predictor ++ [step, 0] ++ leBytes 2 ((samples - 1 + 1) / 2) ++ payload ∧
    predictor.length = 2 ∧ step.toNat ≤ 88 ∧ payload.length = (samples - 1 + 1) / 2 ∧
    (samples % 2 = 0 → (payload.getLastD 0).toNat &&& 0xF0 = 0)

/-- The sizes of the last `remaining` frames, of which `left` samples are left. -/
def frameSizes (left : Nat) : (remaining : Nat) → List Nat
  | 0 => []
  | 1 => [left]
  | remaining + 2 => eiadFrameSamples :: frameSizes (left - eiadFrameSamples) (remaining + 1)

/-- An EIAD v1 container of `samples` samples in `frames` frames. -/
structure EiadV1 (eiad : List UInt8) (samples frames : Nat) : Prop where
  size : 1 ≤ samples ∧ samples ≤ 7200000
  count : frames = (samples + 959) / 960
  parts : ∃ parts, List.Forall₂ EiadFrame (frameSizes samples frames) parts ∧
    eiad = eiadHeader samples frames ++ parts.flatten

/-! ### One frame -/

theorem slice_one {bytes : List UInt8} {offset : Nat} (h : offset < bytes.length) :
    slice bytes offset 1 = [bytes.getD offset 0] := by
  rw [slice, List.drop_eq_getElem_cons h, List.getD_eq_getElem _ _ h]
  rfl

/-- A slice of a slice. -/
theorem slice_slice {bytes : List UInt8} {o n k w : Nat} (h : k + w ≤ n) :
    slice (slice bytes o n) k w = slice bytes (o + k) w := by
  simp only [slice, List.drop_take, List.drop_drop, List.take_take]
  congr 1
  omega

theorem byteAt_slice {bytes : List UInt8} {o n k : Nat} (h : k < n) :
    byteAt (slice bytes o n) k = byteAt bytes (o + k) := by
  simp only [byteAt, slice, List.getD_eq_getElem?_getD, List.getElem?_take, List.getElem?_drop, if_pos h]

/-- The bytes of a number that was read. -/
theorem leBytes_readUint {width offset value : Nat} {bytes : List UInt8}
    (hread : readUint width bytes offset = value) (h : offset + width ≤ bytes.length) :
    slice bytes offset width = leBytes width value := by
  have hbytes := leBytes_leNat (slice bytes offset width)
  rw [length_slice h] at hbytes
  rw [← hread, readUint, hbytes]

/-- A frame as a reader finds it is one of the grammar. -/
theorem eiadFrame_iff {samples : Nat} {frame : List UInt8} (hpos : 0 < samples) (hmax : samples < 2 ^ 16) :
    EiadFrame samples frame ↔ FrameShape true samples frame := by
  have hhalf : (samples - 1 + 1) / 2 = samples / 2 := by omega
  constructor
  · rintro ⟨predictor, step, payload, rfl, hpredictor, hstep, hpayload, htail⟩
    obtain ⟨a, b, hab⟩ := List.length_eq_two.1 (length_leBytes 2 samples)
    obtain ⟨c, d, rfl⟩ := List.length_eq_two.1 hpredictor
    obtain ⟨e, f, hef⟩ := List.length_eq_two.1 (length_leBytes 2 ((samples - 1 + 1) / 2))
    have hcount : leNat (leBytes 2 samples) = samples := leNat_leBytes hmax
    have hbytes : leNat (leBytes 2 ((samples - 1 + 1) / 2)) = (samples - 1 + 1) / 2 :=
      leNat_leBytes (show (samples - 1 + 1) / 2 < 256 ^ 2 by omega)
    rw [hab] at hcount
    rw [hef, hhalf] at hbytes
    rw [hab, hef]
    refine ⟨?_, hcount, hstep, rfl, fun _ => hbytes, ?_⟩
    · simp [hpayload, hhalf]
      omega
    · intro heven
      have hne : payload ≠ [] := by
        rw [← List.length_pos_iff]
        omega
      rw [byteAt_last _ hne]
      exact htail heven
  · intro h
    have hlength : frame.length = 8 + samples / 2 := h.length
    have hchop : frame = (chop frame 0 [2, 2, 1, 1, 2, samples / 2]).flatten :=
      eq_flatten_chop (by rw [hlength]; simp; omega)
    have hpayload : (slice frame 8 (samples / 2)).length = samples / 2 := length_slice (by omega)
    have hreserved : frame.getD 5 0 = 0 := UInt8.toNat_inj.1 h.reserved
    have hframe : frame = leBytes 2 samples ++ slice frame 2 2 ++ [frame.getD 4 0, 0] ++
        leBytes 2 (samples / 2) ++ slice frame 8 (samples / 2) := by
      rw [← leBytes_readUint h.count (by omega), ← leBytes_readUint (h.payload rfl) (by omega)]
      simp only [chop, Nat.zero_add, Nat.reduceAdd, slice_one (show 4 < frame.length by omega),
        slice_one (show 5 < frame.length by omega), hreserved, List.flatten_cons,
        List.flatten_nil, List.append_nil] at hchop
      simpa using hchop
    rw [← hhalf] at hframe hpayload
    refine ⟨_, _, _, hframe, length_slice (by omega), h.step, hpayload, fun heven => ?_⟩
    have hne : slice frame 8 ((samples - 1 + 1) / 2) ≠ [] := by
      rw [← List.length_pos_iff]
      omega
    rw [← byteAt_last (leBytes 2 samples ++ slice frame 2 2 ++ [frame.getD 4 0, 0] ++
      leBytes 2 ((samples - 1 + 1) / 2)) hne, ← hframe]
    exact h.tail heven

/-! ### One turn of the loop -/

variable {eiad : List UInt8} {samples remaining offset counted expected : Nat}

theorem expectedSamplesChecked_eq (hcounted : counted ≤ samples)
    (hexpected : (if remaining = 0 then samples - counted else eiadFrameSamples) = expected) :
    expectedSamplesChecked samples remaining counted = .ok expected := by
  rw [expectedSamplesChecked, ← hexpected]
  split
  · exact difference_eq hcounted
  · rfl

/-- The last byte of a frame that lies inside can be read. -/
theorem lastCodesChecked_eq {deltas frameEnd : Nat} (hpos : 0 < frameEnd) (hend : frameEnd ≤ eiad.length) :
    lastCodesChecked eiad deltas frameEnd =
      .ok (if deltas % 2 ≠ 0 then byteAt eiad (frameEnd - 1) else 0) := by
  rw [lastCodesChecked]
  split
  · rw [difference_eq (by omega), ok_bind, index_eq (by omega)]
  · rfl

/-- A frame of the expected size is taken. -/
theorem inspectFrameChecked_ok {rest : Nat} (hcounted : counted ≤ samples)
    (hexpected : (if remaining = 0 then samples - counted else eiadFrameSamples) = expected)
    (hpos : 0 < expected) (hmax : expected ≤ eiadFrameSamples)
    (hat : FrameAt true eiad offset expected rest) :
    inspectFrameChecked eiad samples remaining offset counted =
      .ok (offset + 8 + expected / 2, expected) := by
  have hheader : eiadFrameHeaderBytes = 8 := rfl
  have hlength := hat.length
  simp only [frameHeaderBytes, if_true] at hlength
  have hcount : readUint 2 eiad offset = expected := hat.count
  have hpayload : readUint 2 eiad (offset + 6) = expected / 2 := hat.payload rfl
  have hhalf : (expected - 1 + 1) / 2 = expected / 2 := by omega
  have hlast : (if (expected - 1) % 2 ≠ 0 then
      byteAt eiad (offset + eiadFrameHeaderBytes + expected / 2 - 1) else 0) &&& 0xF0 = 0 := by
    split
    next hodd =>
      have htail := hat.tail (by omega) (by omega)
      simp only [frameHeaderBytes, if_true] at htail
      rwa [hheader]
    next => rfl
  rw [inspectFrameChecked, ensure_of (by omega), ok_bind, getUint_eq (by omega), ok_bind,
    index_eq (by omega), ok_bind, index_eq (by omega), ok_bind, getUint_eq (by omega), ok_bind,
    expectedSamplesChecked_eq hcounted hexpected, ok_bind, hcount, hpayload]
  dsimp only
  rw [ensure_of ⟨rfl, by omega, hmax, hat.step, hat.reserved, hhalf.symm⟩, ok_bind, ensure_of (by omega),
    ok_bind, difference_eq (by omega), ok_bind, lastCodesChecked_eq (by omega) (by omega), ok_bind,
    ensure_of hlast, ok_bind, hheader]

/-- Nothing else is, and no turn panics. -/
theorem ends_inspectFrameChecked (hcounted : counted ≤ samples)
    (hexpected : (if remaining = 0 then samples - counted else eiadFrameSamples) = expected)
    (hpos : 0 < expected) :
    Ends (fun stop => stop = .failed .invalidEiad)
      (fun turn => turn = (offset + 8 + expected / 2, expected) ∧ turn.1 ≤ eiad.length ∧
        FrameShape true expected (slice eiad offset (8 + expected / 2)))
      (inspectFrameChecked eiad samples remaining offset counted) := by
  have hheader : eiadFrameHeaderBytes = 8 := rfl
  have hhalf : (expected - 1 + 1) / 2 = expected / 2 := by omega
  rw [inspectFrameChecked]
  refine ends_ensure_bind rfl fun hstop => ?_
  rw [getUint_eq (by omega), ok_bind, index_eq (by omega), ok_bind, index_eq (by omega), ok_bind,
    getUint_eq (by omega), ok_bind, expectedSamplesChecked_eq hcounted hexpected, ok_bind]
  refine ends_ensure_bind rfl ?_
  rintro ⟨hcount, -, hmax, hstep, hreserved, hpayload⟩
  rw [hhalf] at hpayload
  rw [hcount, hpayload]
  refine ends_ensure_bind rfl fun hend => ?_
  rw [difference_eq (by omega), ok_bind, lastCodesChecked_eq (by omega) hend, ok_bind]
  refine ends_ensure_bind rfl fun hlast => ?_
  have hinside : offset + (8 + expected / 2) ≤ eiad.length := by omega
  have hlength := length_slice hinside
  refine ⟨by rw [hheader], by rwa [hheader] at hend, ⟨hlength, ?_, ?_, ?_, ?_, ?_⟩⟩
  · rw [readU16, readUint, slice_slice (by omega), ← hcount]
    rfl
  · rwa [byteAt_slice (by omega)]
  · rwa [byteAt_slice (by omega)]
  · rintro -
    rw [readU16, readUint, slice_slice (by omega)]
    exact hpayload
  · intro heven
    rw [if_pos (by omega)] at hlast
    rw [hlength, byteAt_slice (by omega), ← hlast, hheader]
    congr 2
    omega

/-! ### The whole loop -/

variable {left : Nat}

theorem frameSizes_succ (left remaining : Nat) :
    frameSizes left (remaining + 1) =
      (if remaining = 0 then left else eiadFrameSamples) ::
        frameSizes (left - eiadFrameSamples) remaining := by
  cases remaining <;> rfl

/-- The next frame of a container that is cut where it should be, and what it leaves. -/
theorem frame_fits (h : remaining + 1 = (left + 959) / 960)
    (hexpected : (if remaining = 0 then left else eiadFrameSamples) = expected) :
    0 < expected ∧ expected ≤ eiadFrameSamples ∧ expected ≤ left ∧
      left - expected = left - eiadFrameSamples ∧ remaining = (left - expected + 959) / 960 := by
  have hframe : eiadFrameSamples = 960 := rfl
  rw [hframe] at hexpected ⊢
  split at hexpected <;> omega

/-- The frames of the grammar are taken, each with the size it should have. -/
theorem inspectFramesChecked_ok {parts : List (List UInt8)} (front back : List UInt8)
    (hparts : List.Forall₂ EiadFrame (frameSizes left remaining) parts)
    (hcount : remaining = (left + 959) / 960) (hleft : counted + left = samples) :
    inspectFramesChecked (front ++ parts.flatten ++ back) samples remaining front.length counted =
      .ok (front.length + parts.flatten.length, samples) := by
  induction remaining generalizing left parts front counted with
  | zero =>
    rw [frameSizes] at hparts
    cases hparts
    rw [inspectFramesChecked, List.flatten_nil, List.length_nil, Nat.add_zero,
      show counted = samples by omega]
  | succ remaining ih =>
    rw [frameSizes_succ] at hparts
    generalize hexpected : (if remaining = 0 then left else eiadFrameSamples) = expected at hparts
    obtain ⟨hpos, hmax, hle, hnext, hrest⟩ := frame_fits hcount hexpected
    rw [← hnext] at hparts
    cases hparts with
    | @cons _ frame _ parts hframe hparts =>
      have hshort : expected < 2 ^ 16 := Nat.lt_of_le_of_lt hmax (by decide)
      have hshape := (eiadFrame_iff hpos hshort).1 hframe
      have hwhole : front ++ (frame :: parts).flatten ++ back =
          front ++ frame ++ (parts.flatten ++ back) := by simp
      have hlength : frame.length = 8 + expected / 2 := hshape.length
      rw [hwhole, inspectFramesChecked,
        inspectFrameChecked_ok (by omega) (by rw [← hexpected, ← hleft, Nat.add_sub_cancel_left])
          hpos hmax (hshape.placed front _), ok_bind]
      have hrun := ih (front ++ frame) hparts hrest (show counted + expected + (left - expected) = samples by omega)
      rw [List.length_append, hlength, ← Nat.add_assoc] at hrun
      dsimp only
      rw [← List.append_assoc, hrun, List.flatten_cons, List.length_append, hlength]
      simp only [Nat.add_assoc]

/-- Nothing but frames of the grammar is, and no turn panics. -/
theorem ends_inspectFramesChecked (hcount : remaining = (left + 959) / 960)
    (hleft : counted + left = samples) (hoffset : offset ≤ eiad.length) :
    Ends (fun stop => stop = .failed .invalidEiad)
      (fun reached => reached.2 = samples ∧ ∃ parts,
        List.Forall₂ EiadFrame (frameSizes left remaining) parts ∧
          eiad.drop offset = parts.flatten ++ eiad.drop reached.1 ∧ reached.1 ≤ eiad.length)
      (inspectFramesChecked eiad samples remaining offset counted) := by
  induction remaining generalizing left offset counted with
  | zero =>
    rw [inspectFramesChecked, ends_ok]
    exact ⟨by dsimp only; omega, [], .nil, rfl, hoffset⟩
  | succ remaining ih =>
    rw [frameSizes_succ, inspectFramesChecked]
    generalize hexpected : (if remaining = 0 then left else eiadFrameSamples) = expected
    obtain ⟨hpos, hmax, hle, hnext, hrest⟩ := frame_fits hcount hexpected
    rw [← hnext]
    refine (ends_inspectFrameChecked (by omega)
      (by rw [← hexpected, ← hleft, Nat.add_sub_cancel_left]) hpos).bind ?_
    rintro ⟨frameEnd, frameSamples⟩ ⟨hturn, hinside, hshape⟩
    obtain ⟨rfl, rfl⟩ := Prod.mk.inj hturn
    refine (ih hrest (by omega) hinside).weaken (fun _ h => h) ?_
    rintro ⟨reached, total⟩ ⟨htotal, parts, hparts, hdrop, hreached⟩
    have hshort : frameSamples < 2 ^ 16 := Nat.lt_of_le_of_lt hmax (by decide)
    refine ⟨htotal, slice eiad offset (8 + frameSamples / 2) :: parts,
      .cons ((eiadFrame_iff hpos hshort).2 hshape) hparts, ?_, hreached⟩
    rw [List.flatten_cons, List.append_assoc, ← hdrop, slice, Nat.add_assoc, ← List.drop_drop,
      List.take_append_drop]

/-! ### The container -/

variable {frames : Nat}

/-- A header as a reader finds it is the one of the grammar. -/
theorem CacheHeader.take_eq (h : CacheHeader eiad samples frames) :
    eiad = eiadHeader samples frames ++ eiad.drop eiadHeaderBytes := by
  have hwhole : 32 ≤ eiad.length := h.whole
  have hchop : chop (eiad.take 32 ++ eiad.drop 32) 0 [4, 2, 2, 4, 2, 2, 2, 2, 8, 4] =
      [eiadMagic, leBytes 2 eiadVersion, leBytes 2 eiadHeaderBytes, leBytes 4 ttsSampleRate,
        leBytes 2 1, leBytes 2 4, leBytes 2 eiadFrameSamples, leBytes 2 eiadFrameHeaderBytes,
        leBytes 8 samples, leBytes 4 frames] := by
    rw [List.take_append_drop]
    simp only [chop, Nat.zero_add, Nat.reduceAdd]
    rw [leBytes_readUint h.version (by omega), leBytes_readUint h.headerBytes (by omega),
      leBytes_readUint h.rate (by omega), leBytes_readUint h.channels (by omega),
      leBytes_readUint h.bits (by omega), leBytes_readUint h.frameSamples (by omega),
      leBytes_readUint h.frameHeaderBytes (by omega), leBytes_readUint h.samples (by omega),
      leBytes_readUint h.frames (by omega), slice, List.drop_zero, h.magic]
  have hlength : (eiad.take 32).length = 32 := List.length_take_of_le hwhole
  rw [chop_append_left _ _ _ _ (by rw [hlength]; decide)] at hchop
  have hfront := (eq_flatten_iff (by simp [eiadMagic])).2 ⟨hlength, hchop⟩
  rw [eiadHeaderBytes, show eiadHeader samples frames = eiad.take 32 by rw [hfront]; simp [eiadHeader],
    List.take_append_drop]

/-- A container of the grammar, with the frames it is made of. -/
theorem EiadV1.header (h : EiadV1 eiad samples frames) : CacheHeader eiad samples frames := by
  obtain ⟨parts, -, heiad⟩ := h.parts
  have hsize := h.size
  have hcount := h.count
  rw [heiad]
  exact eiadHeader_append _ (by omega) (by omega)

/-- Behind a header of the grammar the frames are inspected. -/
theorem inspectEiadChecked_body (hheader : CacheHeader eiad samples frames)
    (hsize : 1 ≤ samples ∧ samples ≤ 7200000) (hcount : frames = (samples + 959) / 960) :
    inspectEiadChecked eiad = (do
      let (offset, countedSamples) ← inspectFramesChecked eiad samples frames eiadHeaderBytes 0
      ensure (offset = eiad.length ∧ countedSamples = samples) (.failed .invalidEiad)
      .ok ⟨ttsSampleRate, samples, frames⟩) := by
  have hwhole : 32 ≤ eiad.length := hheader.whole
  rw [inspectEiadChecked, ensure_of hheader.whole, ok_bind, sliceTo_eq (by omega), ok_bind,
    ensure_of hheader.magic, ok_bind, getUint_eq (by omega), ok_bind, ensure_of hheader.version, ok_bind,
    getUint_eq (by omega), ok_bind, ensure_of hheader.headerBytes, ok_bind, getUint_eq (by omega),
    ok_bind, ensure_of hheader.rate, ok_bind, getUint_eq (by omega), ok_bind,
    ensure_of hheader.channels, ok_bind, getUint_eq (by omega), ok_bind, ensure_of hheader.bits, ok_bind,
    getUint_eq (by omega), ok_bind, ensure_of hheader.frameSamples, ok_bind, getUint_eq (by omega),
    ok_bind, ensure_of hheader.frameHeaderBytes, ok_bind, getUint_eq (by omega), ok_bind,
    getUint_eq (by omega), ok_bind, hheader.samples, hheader.frames,
    ensure_of ⟨by omega, hsize.2, hcount⟩, ok_bind]

/-- A container of the grammar is accepted. -/
theorem inspectEiadChecked_ok (h : EiadV1 eiad samples frames) :
    inspectEiadChecked eiad = .ok ⟨ttsSampleRate, samples, frames⟩ := by
  obtain ⟨parts, hparts, heiad⟩ := h.parts
  have hloop := inspectFramesChecked_ok (eiadHeader samples frames) [] hparts h.count (Nat.zero_add samples)
  rw [List.append_nil, ← List.length_append, ← heiad, eiadHeader_length] at hloop
  rw [inspectEiadChecked_body h.header h.size h.count, hloop, ok_bind]
  dsimp only
  rw [ensure_of ⟨rfl, rfl⟩, ok_bind]

/-- Nothing else is, and the inspection never panics. -/
theorem ends_inspectEiadChecked (eiad : List UInt8) :
    Ends (fun stop => stop = .failed .invalidEiad)
      (fun metadata => ∃ samples frames, metadata = ⟨ttsSampleRate, samples, frames⟩ ∧
        EiadV1 eiad samples frames) (inspectEiadChecked eiad) := by
  rw [inspectEiadChecked]
  refine ends_ensure_bind rfl fun hwhole => ?_
  have hlength : 32 ≤ eiad.length := hwhole
  rw [sliceTo_eq (by omega), ok_bind]
  refine ends_ensure_bind rfl fun hmagic => ?_
  rw [getUint_eq (by omega), ok_bind]
  refine ends_ensure_bind rfl fun hversion => ?_
  rw [getUint_eq (by omega), ok_bind]
  refine ends_ensure_bind rfl fun hheader => ?_
  rw [getUint_eq (by omega), ok_bind]
  refine ends_ensure_bind rfl fun hrate => ?_
  rw [getUint_eq (by omega), ok_bind]
  refine ends_ensure_bind rfl fun hchannels => ?_
  rw [getUint_eq (by omega), ok_bind]
  refine ends_ensure_bind rfl fun hbits => ?_
  rw [getUint_eq (by omega), ok_bind]
  refine ends_ensure_bind rfl fun hframe => ?_
  rw [getUint_eq (by omega), ok_bind]
  refine ends_ensure_bind rfl fun hframeHeader => ?_
  rw [getUint_eq (by omega), ok_bind, getUint_eq (by omega), ok_bind]
  refine ends_ensure_bind rfl ?_
  rintro ⟨hnone, hmax, hcount⟩
  have hheader : CacheHeader eiad (readUint 8 eiad 20) (readUint 4 eiad 28) :=
    ⟨hwhole, hmagic, hversion, hheader, hrate, hchannels, hbits, hframe, hframeHeader, rfl, rfl⟩
  generalize readUint 8 eiad 20 = samples at *
  generalize readUint 4 eiad 28 = frames at *
  refine (ends_inspectFramesChecked hcount (Nat.zero_add samples) hwhole).bind ?_
  rintro ⟨offset, counted⟩ ⟨-, parts, hparts, hdrop, -⟩
  refine ends_ensure_bind rfl ?_
  rintro ⟨hoffset, -⟩
  refine ⟨samples, frames, rfl, ⟨by omega, hmax⟩, hcount, parts, hparts, ?_⟩
  rw [hoffset, List.drop_length, List.append_nil] at hdrop
  rw [← hdrop]
  exact hheader.take_eq

theorem inspectEiadChecked_failed (h : ∀ samples frames, ¬ EiadV1 eiad samples frames) :
    inspectEiadChecked eiad = .error (.failed .invalidEiad) := by
  have hends := ends_inspectEiadChecked eiad
  cases hresult : inspectEiadChecked eiad with
  | error stop => rw [hends.of_error hresult]
  | ok metadata =>
    obtain ⟨samples, frames, -, hgrammar⟩ := hends.of_ok hresult
    exact absurd hgrammar (h samples frames)

/-! ### The plain functions -/

/-- A guard that fails. -/
theorem ensure_not {ε β : Type} {c : Prop} {_ : Decidable c} {e : ε} {f : Unit → Except ε β} (h : ¬ c) :
    ensure c e >>= f = .error e := by
  rw [ensure, if_neg h]
  rfl

/-- The loop answers as the plain one. -/
theorem inspectFramesChecked_plain (hcount : remaining = (left + 959) / 960)
    (hleft : counted + left = samples) :
    inspectFramesChecked eiad samples remaining offset counted =
      (inspectFrames eiad samples remaining offset counted).mapError .failed := by
  induction remaining generalizing left offset counted with
  | zero => rfl
  | succ remaining ih =>
    generalize hexpected : (if remaining = 0 then left else eiadFrameSamples) = expected
    obtain ⟨hpos, hmax, hle, -, hrest⟩ := frame_fits hcount hexpected
    have hexpected' : (if remaining = 0 then samples - counted else eiadFrameSamples) = expected := by
      rw [← hexpected, ← hleft, Nat.add_sub_cancel_left]
    have hheader : eiadFrameHeaderBytes = 8 := rfl
    rw [inspectFramesChecked, inspectFrameChecked, inspectFrames]
    dsimp only
    rw [hexpected']
    have hsize : readU16 eiad offset = readUint 2 eiad offset := rfl
    have hbytes : readU16 eiad (offset + 6) = readUint 2 eiad (offset + 6) := rfl
    split
    next hstop =>
      rw [ensure_not (by omega)]
      rfl
    next hstop =>
    rw [ensure_of (by omega), ok_bind, getUint_eq (by omega), ok_bind, index_eq (by omega), ok_bind,
      index_eq (by omega), ok_bind, getUint_eq (by omega), ok_bind,
      expectedSamplesChecked_eq (by omega) hexpected', ok_bind]
    split
    next hfields =>
      rw [ensure_not (by omega)]
      rfl
    next hfields =>
    rw [ensure_of (by omega), ok_bind]
    split
    next hend =>
      rw [ensure_not (by omega)]
      rfl
    next hend =>
    rw [ensure_of (by omega), ok_bind, difference_eq (by omega), ok_bind,
      lastCodesChecked_eq (by omega) (by omega), ok_bind]
    by_cases hlast : (readU16 eiad offset - 1) % 2 ≠ 0 ∧
      byteAt eiad (offset + eiadFrameHeaderBytes + readU16 eiad (offset + 6) - 1) &&& 0xF0 ≠ 0
    · have hread := hlast
      rw [hsize, hbytes] at hread
      rw [if_pos hlast, if_pos hread.1, ensure_not hread.2]
      rfl
    · rw [if_neg hlast, ensure_of, ok_bind, ok_bind]
      · exact ih hrest (by omega)
      · split
        next hodd => exact not_not.1 fun h => hlast ⟨hodd, h⟩
        next => rfl

/-- The inspection answers as the plain one. -/
theorem inspectEiadChecked_plain (eiad : List UInt8) :
    inspectEiadChecked eiad = (inspectEiad eiad).mapError .failed := by
  rw [inspectEiad]
  split
  next hbad =>
    rw [inspectEiadChecked_failed]
    · rfl
    · rintro samples frames h
      have hheader := h.header
      simp only [readU16, readU32, Nat.not_lt.2 hheader.whole, hheader.magic, hheader.version,
        hheader.headerBytes, hheader.rate, hheader.channels, hheader.bits, hheader.frameSamples,
        hheader.frameHeaderBytes, ne_eq, not_true_eq_false, or_self] at hbad
  next hgood =>
  simp only [not_or, Nat.not_lt, ne_eq, not_not] at hgood
  obtain ⟨hwhole, hmagic, hversion, hheader, hrate, hchannels, hbits, hframe, hframeHeader⟩ := hgood
  have hheader : CacheHeader eiad (readU64 eiad 20) (readU32 eiad 28) :=
    ⟨hwhole, hmagic, hversion, hheader, hrate, hchannels, hbits, hframe, hframeHeader, rfl, rfl⟩
  generalize readU64 eiad 20 = samples at *
  generalize readU32 eiad 28 = frames at *
  have hmax : ttsSampleRate * maxTtsSeconds = 7200000 := rfl
  have hframe : eiadFrameSamples = 960 := rfl
  dsimp only
  split
  next hbad =>
    rw [inspectEiadChecked_failed]
    · rfl
    · rintro samples' frames' h
      have hsize := h.size
      have hcount := h.count
      have hsamples := h.header.samples.symm.trans hheader.samples
      have hframes := h.header.frames.symm.trans hheader.frames
      rw [hframe] at hbad
      omega
  next hgood =>
    rw [hframe] at hgood
    rw [inspectEiadChecked_body hheader (by omega) (by omega),
      inspectFramesChecked_plain (by omega) (Nat.zero_add samples)]
    cases inspectFrames eiad samples frames eiadHeaderBytes 0 with
    | error e => rfl
    | ok reached =>
      obtain ⟨offset, counted⟩ := reached
      rw [ok_bind, show (Except.ok (offset, counted) : Except AudioError (Nat × Nat)).mapError Stop.failed =
        .ok (offset, counted) from rfl, ok_bind]
      dsimp only
      split
      next hbad =>
        rw [ensure_not (by rw [Decidable.not_and_iff_or_not]; exact hbad)]
        rfl
      next hgood =>
        simp only [not_or, ne_eq, not_not] at hgood
        rw [ensure_of hgood]
        rfl

/-! ### The decoder -/

/-- What a frame decodes to. -/
def framePcm (frame : List UInt8) : List Int :=
  decodeImaFrame (i16FromLe (slice frame 2 2)) (byteAt frame 4) (frame.drop eiadFrameHeaderBytes)
    (readU16 frame 0)

theorem i16FromLe_mem {bytes : List UInt8} (h : bytes.length = 2) :
    -2 ^ 15 ≤ i16FromLe bytes ∧ i16FromLe bytes ≤ 2 ^ 15 - 1 := by
  have hlt := leNat_lt bytes
  rw [h] at hlt
  simp only [i16FromLe]
  split <;> omega

/-- Every code of a frame is read inside its payload. -/
theorem decodeImaRestChecked_eq (front codes back : List UInt8) {sampleIndex : Nat}
    {predictor stepIndex : Int} (hindex : 1 ≤ sampleIndex)
    (hinside : (sampleIndex + remaining) / 2 ≤ codes.length) (h : InRange predictor stepIndex) :
    decodeImaRestChecked (front ++ codes ++ back) front.length remaining sampleIndex predictor stepIndex =
      .ok (decodeImaRest codes remaining sampleIndex predictor stepIndex) := by
  induction remaining generalizing sampleIndex predictor stepIndex with
  | zero => rfl
  | succ remaining ih =>
    have hat : (sampleIndex - 1) / 2 < codes.length := by omega
    have hnibble : (if sampleIndex % 2 ≠ 0 then byteAt codes ((sampleIndex - 1) / 2) &&& 0x0F
        else byteAt codes ((sampleIndex - 1) / 2) >>> 4) < 16 := by
      have hbyte : byteAt codes ((sampleIndex - 1) / 2) < 256 := UInt8.toNat_lt _
      split
      · exact Nat.lt_succ_of_le Nat.and_le_right
      · omega
    rw [decodeImaRestChecked, index_eq (by simp only [List.length_append]; omega), ok_bind,
      byteAt_mid hat]
    dsimp only
    rw [decodeImaSampleChecked_eq hnibble h, ok_bind, ih (by omega) (by omega)
      (decodeImaSample_inRange _ _ _), ok_bind, decodeImaRest]

theorem slice_two {bytes : List UInt8} {offset : Nat} (h : offset + 1 < bytes.length) :
    slice bytes offset 2 = [UInt8.ofNat (byteAt bytes offset), UInt8.ofNat (byteAt bytes (offset + 1))] := by
  rw [slice, List.drop_eq_getElem_cons (by omega), List.drop_eq_getElem_cons h, byteAt, byteAt,
    List.getD_eq_getElem _ _ (by omega), List.getD_eq_getElem _ _ h, UInt8.ofNat_toNat, UInt8.ofNat_toNat]
  rfl

theorem framePcm_length {frame : List UInt8} (hpos : 0 < expected)
    (h : FrameShape true expected frame) : (framePcm frame).length = expected := by
  have hcount : readU16 frame 0 = expected := h.count
  rw [framePcm, length_decodeImaFrame _ _ _ (by omega), hcount]

/-- One turn of the outer loop: a frame is decoded from its own bytes. -/
theorem decodeFramesChecked_succ {front frame back : List UInt8} (hpos : 0 < expected)
    (hshape : FrameShape true expected frame) (remaining : Nat) :
    decodeFramesChecked (front ++ frame ++ back) (remaining + 1) front.length = (do
      let frames ← decodeFramesChecked (front ++ frame ++ back) remaining (front ++ frame).length
      .ok (framePcm frame ++ frames)) := by
  have hlength : frame.length = 8 + expected / 2 := hshape.length
  have hheader : eiadFrameHeaderBytes = 8 := rfl
  have hinside : front.length + 8 ≤ (front ++ frame ++ back).length := by
    simp only [List.length_append]
    omega
  have hcounted : readUint 2 (front ++ frame ++ back) front.length = expected :=
    (hshape.placed front back).count
  have hbytes : readUint 2 (front ++ frame ++ back) (front.length + 6) = expected / 2 :=
    (hshape.placed front back).payload rfl
  have hbody : front ++ frame ++ back = (front ++ frame.take 8) ++ frame.drop 8 ++ back := by
    rw [List.append_assoc front (frame.take 8), List.take_append_drop]
  have hbodyLength : (front ++ frame.take 8).length = front.length + 8 := by
    rw [List.length_append, List.length_take_of_le (by omega)]
  have hrange : InRange (i16FromLe (slice frame 2 2)) (byteAt frame 4 : Int) :=
    ⟨i16FromLe_mem (length_slice (by omega)), by have hstep := hshape.step; omega⟩
  have hdecode := decodeImaRestChecked_eq (front ++ frame.take 8) (frame.drop 8) back (le_refl 1)
    (show (1 + (expected - 1)) / 2 ≤ (frame.drop 8).length by rw [List.length_drop]; omega) hrange
  rw [hbodyLength, ← hbody] at hdecode
  rw [decodeFramesChecked, getUint_eq (by omega), ok_bind, index_eq (by omega), ok_bind,
    index_eq (by omega), ok_bind, index_eq (by omega), ok_bind, getUint_eq (by omega), ok_bind,
    hcounted, hbytes, byteAt_mid (by omega), byteAt_mid (by omega), byteAt_mid (by omega),
    ← slice_two (by omega), hheader]
  dsimp only
  rw [hdecode, ok_bind, framePcm, decodeImaFrame, show readU16 frame 0 = expected from hshape.count,
    hheader, List.length_append, hlength, Nat.add_assoc front.length]

/-- The frames of the grammar are decoded one by one. -/
theorem decodeFramesChecked_eq {parts : List (List UInt8)} (front back : List UInt8)
    (hparts : List.Forall₂ EiadFrame (frameSizes left remaining) parts)
    (hcount : remaining = (left + 959) / 960) :
    decodeFramesChecked (front ++ parts.flatten ++ back) remaining front.length =
      .ok (parts.flatMap framePcm) ∧ (parts.flatMap framePcm).length = left := by
  induction remaining generalizing left parts front with
  | zero =>
    rw [frameSizes] at hparts
    cases hparts
    exact ⟨rfl, by simp only [List.flatMap_nil, List.length_nil]; omega⟩
  | succ remaining ih =>
    rw [frameSizes_succ] at hparts
    generalize hexpected : (if remaining = 0 then left else eiadFrameSamples) = expected at hparts
    obtain ⟨hpos, hmax, hle, hnext, hrest⟩ := frame_fits hcount hexpected
    rw [← hnext] at hparts
    cases hparts with
    | @cons _ frame _ parts hframe hparts =>
      have hshape := (eiadFrame_iff hpos (Nat.lt_of_le_of_lt hmax (by decide))).1 hframe
      obtain ⟨hrun, htotal⟩ := ih (front ++ frame) hparts hrest
      have hwhole : front ++ (frame :: parts).flatten ++ back =
          front ++ frame ++ (parts.flatten ++ back) := by simp
      constructor
      · rw [hwhole, decodeFramesChecked_succ hpos hshape, ← List.append_assoc, hrun, ok_bind,
          List.flatMap_cons]
      · rw [List.flatMap_cons, List.length_append, framePcm_length hpos hshape]
        omega

/-- A container of the grammar decodes to the samples of its frames. -/
theorem decodeEiadChecked_ok {parts : List (List UInt8)}
    (h : EiadV1 eiad samples frames)
    (hparts : List.Forall₂ EiadFrame (frameSizes samples frames) parts)
    (heiad : eiad = eiadHeader samples frames ++ parts.flatten) :
    decodeEiadChecked eiad = .ok ((parts.flatMap framePcm).flatMap i16ToLe) ∧
      (parts.flatMap framePcm).length = samples := by
  obtain ⟨hrun, hlength⟩ := decodeFramesChecked_eq (eiadHeader samples frames) [] hparts h.count
  rw [List.append_nil, ← heiad, eiadHeader_length] at hrun
  refine ⟨?_, hlength⟩
  rw [decodeEiadChecked, inspectEiadChecked_ok h, ok_bind]
  dsimp only
  rw [hrun, ok_bind]

/-- The codes of a frame are read from its own payload. -/
theorem decodeImaRest_append (codes back : List UInt8) {sampleIndex : Nat} {predictor stepIndex : Int}
    (hindex : 1 ≤ sampleIndex) (hinside : (sampleIndex + remaining) / 2 ≤ codes.length) :
    decodeImaRest (codes ++ back) remaining sampleIndex predictor stepIndex =
      decodeImaRest codes remaining sampleIndex predictor stepIndex := by
  induction remaining generalizing sampleIndex predictor stepIndex with
  | zero => rfl
  | succ remaining ih =>
    have hat : byteAt (codes ++ back) ((sampleIndex - 1) / 2) = byteAt codes ((sampleIndex - 1) / 2) := by
      rw [byteAt, byteAt, List.getD_append _ _ _ _ (by omega)]
    simp only [decodeImaRest, hat, ih (show 1 ≤ sampleIndex + 1 by omega)
      (show (sampleIndex + 1 + remaining) / 2 ≤ codes.length by omega)]

theorem decodeFrames_succ {front frame back : List UInt8} (hpos : 0 < expected)
    (hshape : FrameShape true expected frame) (remaining : Nat) :
    decodeFrames (front ++ frame ++ back) (remaining + 1) front.length =
      framePcm frame ++ decodeFrames (front ++ frame ++ back) remaining (front ++ frame).length := by
  have hlength : frame.length = 8 + expected / 2 := hshape.length
  have hcounted : readU16 (front ++ frame ++ back) front.length = expected :=
    (hshape.placed front back).count
  have hbytes : readU16 (front ++ frame ++ back) (front.length + 6) = expected / 2 :=
    (hshape.placed front back).payload rfl
  have hdrop : (front ++ frame ++ back).drop (front.length + 8) = frame.drop 8 ++ back := by
    rw [List.append_assoc, ← List.drop_drop, List.drop_left, List.drop_append_of_le_length (by omega)]
  simp only [decodeFrames, hcounted, hbytes, eiadFrameHeaderBytes, hdrop]
  rw [slice_append_mid (by omega), byteAt_mid (by omega), framePcm, decodeImaFrame, decodeImaFrame,
    decodeImaRest_append _ _ le_rfl (by rw [List.length_drop]; omega),
    show readU16 frame 0 = expected from hshape.count, List.length_append, hlength,
    Nat.add_assoc front.length]
  rfl

theorem decodeFrames_eq {parts : List (List UInt8)} (front back : List UInt8)
    (hparts : List.Forall₂ EiadFrame (frameSizes left remaining) parts)
    (hcount : remaining = (left + 959) / 960) :
    decodeFrames (front ++ parts.flatten ++ back) remaining front.length = parts.flatMap framePcm := by
  induction remaining generalizing left parts front with
  | zero =>
    rw [frameSizes] at hparts
    cases hparts
    rfl
  | succ remaining ih =>
    rw [frameSizes_succ] at hparts
    generalize hexpected : (if remaining = 0 then left else eiadFrameSamples) = expected at hparts
    obtain ⟨hpos, hmax, hle, hnext, hrest⟩ := frame_fits hcount hexpected
    rw [← hnext] at hparts
    cases hparts with
    | @cons _ frame _ parts hframe hparts =>
      have hshape := (eiadFrame_iff hpos (Nat.lt_of_le_of_lt hmax (by decide))).1 hframe
      have hwhole : front ++ (frame :: parts).flatten ++ back =
          front ++ frame ++ (parts.flatten ++ back) := by simp
      rw [hwhole, decodeFrames_succ hpos hshape, ← List.append_assoc, ih _ hparts hrest, List.flatMap_cons]

/-- The decoder answers as the plain one. -/
theorem decodeEiadChecked_plain (eiad : List UInt8) :
    decodeEiadChecked eiad = (decodeEiad eiad).mapError .failed := by
  have hinspect := inspectEiadChecked_plain eiad
  cases hresult : inspectEiad eiad with
  | error e =>
    rw [hresult] at hinspect
    rw [decodeEiadChecked, decodeEiad, hinspect, hresult]
    rfl
  | ok metadata =>
    rw [hresult] at hinspect
    obtain ⟨samples, frames, rfl, h⟩ := (ends_inspectEiadChecked eiad).of_ok hinspect
    obtain ⟨parts, hparts, heiad⟩ := h.parts
    have hframes := decodeFrames_eq (eiadHeader samples frames) [] hparts h.count
    rw [List.append_nil, ← heiad, eiadHeader_length] at hframes
    rw [(decodeEiadChecked_ok h hparts heiad).1, decodeEiad, hresult, ok_bind, hframes]
    rfl

/-- EIAD v1 is what is accepted; what is accepted decodes to its samples, and for anything else both
    functions answer with an error. None of the two ever panics. -/
theorem inspectEiad_accepts_exactly (eiad : List UInt8) :
    (∀ samples frames, inspectEiadChecked eiad = .ok ⟨ttsSampleRate, samples, frames⟩ ↔
      EiadV1 eiad samples frames) ∧
    (∀ metadata, inspectEiadChecked eiad = .ok metadata → metadata.sampleRate = ttsSampleRate) ∧
    (∀ samples frames, EiadV1 eiad samples frames →
      ∃ output, decodeEiadChecked eiad = .ok output ∧ output.length = 2 * samples) ∧
    ((∀ samples frames, ¬ EiadV1 eiad samples frames) →
      inspectEiadChecked eiad = .error (.failed .invalidEiad) ∧
        decodeEiadChecked eiad = .error (.failed .invalidEiad)) := by
  have hends := ends_inspectEiadChecked eiad
  refine ⟨fun samples frames => ⟨fun hok => ?_, inspectEiadChecked_ok⟩, ?_, ?_, ?_⟩
  · obtain ⟨samples', frames', hmetadata, hgrammar⟩ := hends.of_ok hok
    obtain ⟨-, rfl, rfl⟩ := EiadMetadata.mk.inj hmetadata
    exact hgrammar
  · rintro metadata hok
    obtain ⟨samples, frames, rfl, -⟩ := hends.of_ok hok
    rfl
  · rintro samples frames h
    obtain ⟨parts, hparts, heiad⟩ := h.parts
    obtain ⟨hok, hlength⟩ := decodeEiadChecked_ok h hparts heiad
    exact ⟨_, hok, by rw [length_i16ToLe, hlength]⟩
  · intro hnone
    have hfails := inspectEiadChecked_failed hnone
    refine ⟨hfails, ?_⟩
    rw [decodeEiadChecked, hfails]
    rfl

end CodexKeyboard.Audio
