import CodexKeyboard.Tts.Frames

/-! What a read takes of the bytes that are pending or arrive: `read_server_frame` succeeds on the encoding of a
    frame and on nothing else. -/

namespace CodexKeyboard.Tts

open Schemes.Transact

/-! ### The bytes of a frame -/

/-- The length of a payload, in as few bytes as RFC 6455 has for it. -/
def lengthBytes (length : Nat) : List UInt8 :=
  if length < 126 then [UInt8.ofNat length]
  else if length < 2 ^ 16 then 126 :: beBytes 2 length
  else 127 :: beBytes 8 length

/-- A frame of a server, unmasked and without extensions. -/
def ServerFrame.encode (frame : ServerFrame) : List UInt8 :=
  UInt8.ofNat ((if frame.fin then 128 else 0) + frame.opcode) :: (lengthBytes frame.payload.length ++ frame.payload)

/-- What `read_server_frame` lets through. -/
structure ServerFrame.Permitted (frame : ServerFrame) : Prop where
  opcode : frame.opcode ∈ [0x0, 0x1, 0x2, 0x8, 0x9, 0xA]
  control : frame.opcode < 0x8 ∨ (frame.fin = true ∧ frame.payload.length < 126)
  length : frame.payload.length ≤ maxServerEventBytes

/-! ### Reads -/

namespace WebSocket

def unread (ws : WebSocket) : List UInt8 := ws.pending ++ ws.connection.arriving

/-- So many bytes are there, and the reader gives what is not yet pending of them. -/
structure Supplies (ws : WebSocket) (count : Nat) : Prop where
  bytes : count ≤ ws.unread.length
  reads : count - ws.pending.length ≤ ws.connection.reads.length
  gives : ∀ size ∈ ws.connection.reads.take (count - ws.pending.length), 0 < size

/-- A socket behind a read of so many bytes. -/
structure Advanced (ws ws' : WebSocket) (count : Nat) : Prop where
  enough : count ≤ ws.unread.length
  unread : ws'.unread = ws.unread.drop count
  fragmented : ws'.fragmented = ws.fragmented
  writes : ws'.connection.writes = ws.connection.writes
  supplies : ∀ n, ws.Supplies n → count ≤ n → ws'.Supplies (n - count)

theorem Advanced.refl (ws : WebSocket) : ws.Advanced ws 0 :=
  ⟨Nat.zero_le _, rfl, rfl, rfl, fun _ h _ => h⟩

theorem Advanced.trans {ws ws' ws'' : WebSocket} {n m : Nat} (h : ws.Advanced ws' n) (h' : ws'.Advanced ws'' m) :
    ws.Advanced ws'' (n + m) := by
  have henough := h'.enough
  rw [h.unread, List.length_drop] at henough
  refine ⟨?_, ?_, h'.fragmented.trans h.fragmented, h'.writes.trans h.writes, fun k hk hcount => ?_⟩
  · have := h.enough
    omega
  · rw [h'.unread, h.unread, List.drop_drop]
  · have hnext := h'.supplies _ (h.supplies k hk (by omega)) (by omega)
    rwa [Nat.sub_sub] at hnext

end WebSocket

theorem readExact_ok {n : Nat} {arriving arriving' out : List UInt8} {reads reads' : List Nat}
    (h : readExact n arriving reads = some (out, arriving', reads')) :
    n ≤ arriving.length ∧ out = arriving.take n ∧ arriving' = arriving.drop n ∧
      ∃ used ≤ n, reads' = reads.drop used ∧ used ≤ reads.length := by
  induction reads generalizing n arriving out arriving' reads' with
  | nil =>
    cases n with
    | zero =>
      cases h
      exact ⟨Nat.zero_le _, rfl, rfl, 0, Nat.le_refl _, rfl, Nat.le_refl _⟩
    | succ n => cases h
  | cons size reads ih =>
    cases n with
    | zero =>
      cases h
      exact ⟨Nat.zero_le _, rfl, rfl, 0, Nat.le_refl _, rfl, Nat.zero_le _⟩
    | succ n =>
      rw [readExact] at h
      split at h
      next => cases h
      next hchunk =>
        obtain ⟨⟨out₁, arriving₁, reads₁⟩, hrest, heq⟩ := Option.map_eq_some_iff.1 h
        cases heq
        have hlength : (arriving.take (min size (n + 1))).length = min (min size (n + 1)) arriving.length :=
          List.length_take
        have hpos : 0 < (arriving.take (min size (n + 1))).length := List.length_pos_iff.2 hchunk
        obtain ⟨henough, hout, harriving, used, hused, hreads, hleft⟩ := ih hrest
        rw [List.length_drop] at henough
        have hsplit : n + 1 = min size (n + 1) + (n + 1 - (arriving.take (min size (n + 1))).length) := by
          omega
        refine ⟨by omega, ?_, ?_, used + 1, by omega, hreads, by simpa using hleft⟩
        · rw [hout]
          conv_rhs => rw [hsplit, List.take_add]
        · rw [harriving, List.drop_drop, ← hsplit]

theorem readExact_supplied {n : Nat} {arriving : List UInt8} {reads : List Nat} (henough : n ≤ arriving.length)
    (hreads : n ≤ reads.length) (hgives : ∀ size ∈ reads.take n, 0 < size) :
    ∃ result, readExact n arriving reads = some result := by
  induction reads generalizing n arriving with
  | nil =>
    cases n with
    | zero => exact ⟨_, rfl⟩
    | succ n => simp at hreads
  | cons size reads ih =>
    cases n with
    | zero => exact ⟨_, rfl⟩
    | succ n =>
      have hsize : 0 < size := hgives size (by simp)
      have hlength : (arriving.take (min size (n + 1))).length = min (min size (n + 1)) arriving.length :=
        List.length_take
      have hchunk : arriving.take (min size (n + 1)) ≠ [] := List.length_pos_iff.1 (by omega)
      have hrest : n + 1 - (arriving.take (min size (n + 1))).length ≤ n := by omega
      obtain ⟨result, hresult⟩ := @ih (n + 1 - (arriving.take (min size (n + 1))).length)
        (arriving.drop (min size (n + 1))) (by rw [List.length_drop]; omega)
        (by simp only [List.length_cons] at hreads; omega) (by
          rintro later hlater
          refine hgives later ?_
          rw [List.take_succ_cons]
          exact List.mem_cons_of_mem _ (List.take_subset_take_left reads hrest hlater))
      refine ⟨(arriving.take (min size (n + 1)) ++ result.1, result.2), ?_⟩
      rw [readExact, if_neg hchunk, hresult]
      rfl

theorem readExactPrefixed_ok {n : Nat} {ws ws' : WebSocket} {out : List UInt8}
    (h : readExactPrefixed n ws = .ok (out, ws')) : out = ws.unread.take n ∧ ws.Advanced ws' n := by
  simp only [readExactPrefixed, bind_ok, orThrow_ok] at h
  obtain ⟨⟨rest, arriving, reads⟩, hread, heq⟩ := h
  cases heq
  rw [List.length_take] at hread
  obtain ⟨henough, hrest, harriving, used, hused, hreads, hleft⟩ := readExact_ok hread
  have htake : n - min n ws.pending.length = n - ws.pending.length := by omega
  rw [htake] at henough hrest harriving hused
  have hall : n ≤ ws.unread.length := by
    rw [WebSocket.unread, List.length_append]
    omega
  have hunread : ws.pending.drop n ++ arriving = ws.unread.drop n := by
    rw [WebSocket.unread, List.drop_append, harriving]
  refine ⟨?_, hall, hunread, rfl, rfl, ?_⟩
  · rw [WebSocket.unread, List.take_append, hrest]
  · rintro count ⟨hbytes, hmany, hgives⟩ hcount
    refine ⟨?_, ?_, ?_⟩
    · rw [WebSocket.unread, hunread, List.length_drop]
      omega
    · dsimp only
      rw [hreads, List.length_drop, List.length_drop]
      omega
    · dsimp only
      rintro size hsize
      refine hgives size ?_
      rw [hreads, List.length_drop] at hsize
      have hlast : count - n - (ws.pending.length - n) =
          used + (count - n - (ws.pending.length - n)) - used := by omega
      rw [hlast, ← List.drop_take] at hsize
      exact List.take_subset_take_left _ (by omega) (List.mem_of_mem_drop hsize)

theorem readExactPrefixed_supplied {n count : Nat} {ws : WebSocket} (h : ws.Supplies count) (hn : n ≤ count) :
    ∃ ws', readExactPrefixed n ws = .ok (ws.unread.take n, ws') ∧ ws.Advanced ws' n := by
  have hbytes := h.bytes
  have hmany := h.reads
  rw [WebSocket.unread, List.length_append] at hbytes
  have htake : n - (ws.pending.take n).length = n - ws.pending.length := by
    rw [List.length_take]
    omega
  obtain ⟨⟨rest, arriving, reads⟩, hread⟩ := readExact_supplied
    (by omega : n - ws.pending.length ≤ ws.connection.arriving.length) (by omega)
    (fun size hsize => h.gives size (List.take_subset_take_left _ (by omega) hsize))
  have hprefixed : readExactPrefixed n ws = .ok (ws.pending.take n ++ rest,
      { ws with pending := ws.pending.drop n, connection := { ws.connection with arriving, reads } }) := by
    rw [readExactPrefixed, htake, hread]
    rfl
  obtain ⟨hout, hadvanced⟩ := readExactPrefixed_ok hprefixed
  exact ⟨_, hout ▸ hprefixed, hadvanced⟩

/-! ### Frames -/

theorem readFrameLength_ok {code length : Nat} {ws ws' : WebSocket} (hcode : code < 128)
    (h : readFrameLength code ws = .ok (length, ws')) :
    ∃ count, lengthBytes length = UInt8.ofNat code :: ws.unread.take count ∧ ws.Advanced ws' count := by
  rw [readFrameLength] at h
  split at h
  next hshort =>
    simp only [bind_ok, ensure_ok] at h
    obtain ⟨⟨extended, ws₁⟩, hread, -, hminimal, heq⟩ := h
    cases heq
    obtain ⟨hextended, hadvanced⟩ := readExactPrefixed_ok hread
    have hlength : extended.length = 2 := by
      rw [hextended, List.length_take]
      exact Nat.min_eq_left hadvanced.enough
    have hsmall : natOfBe extended < 2 ^ 16 := by
      have hlt := natOfBe_lt extended
      rw [hlength] at hlt
      exact hlt
    have hbytes : beBytes 2 (natOfBe extended) = extended := by
      rw [← hlength]
      exact beBytes_natOfBe extended
    refine ⟨2, ?_, hadvanced⟩
    rw [lengthBytes, if_neg (by omega), if_pos hsmall, hbytes, hextended, hshort]
    rfl
  next hshort =>
    split at h
    next hlong =>
      simp only [bind_ok, ensure_ok] at h
      obtain ⟨⟨extended, ws₁⟩, hread, -, hminimal, heq⟩ := h
      cases heq
      obtain ⟨hextended, hadvanced⟩ := readExactPrefixed_ok hread
      have hlength : extended.length = 8 := by
        rw [hextended, List.length_take]
        exact Nat.min_eq_left hadvanced.enough
      have hbytes : beBytes 8 (natOfBe extended) = extended := by
        rw [← hlength]
        exact beBytes_natOfBe extended
      refine ⟨8, ?_, hadvanced⟩
      rw [lengthBytes, if_neg (by omega), if_neg (by omega), hbytes, hextended, hlong]
      rfl
    next hlong =>
      cases h
      refine ⟨0, ?_, .refl ws⟩
      rw [lengthBytes, if_pos (by omega)]
      rfl

theorem readFrameLength_supplied {length count : Nat} {ws : WebSocket} {code : UInt8} {extended rest : List UInt8}
    (hlength : length ≤ maxServerEventBytes) (hbytes : lengthBytes length = code :: extended)
    (hunread : ws.unread = extended ++ rest) (h : ws.Supplies count) (hcount : extended.length ≤ count) :
    ∃ ws', readFrameLength code.toNat ws = .ok (length, ws') ∧ ws.Advanced ws' extended.length := by
  rw [maxServerEventBytes] at hlength
  rw [lengthBytes] at hbytes
  split at hbytes
  next hshort =>
    cases hbytes
    have hcode : (UInt8.ofNat length).toNat = length := by
      rw [UInt8.toNat_ofNat']
      omega
    refine ⟨ws, ?_, .refl ws⟩
    rw [readFrameLength, hcode, if_neg (by omega), if_neg (by omega)]
  next hshort =>
    have hread (size : Nat) (hsize : extended.length = size) :
        ∃ ws', readExactPrefixed size ws = .ok (extended, ws') ∧ ws.Advanced ws' size := by
      obtain ⟨ws', hread, hadvanced⟩ := readExactPrefixed_supplied h (hsize ▸ hcount)
      rw [hunread, List.take_left' hsize] at hread
      exact ⟨ws', hread, hadvanced⟩
    split at hbytes
    next hsmall =>
      cases hbytes
      obtain ⟨ws', hread, hadvanced⟩ := hread 2 (beBytes_length 2 length)
      have hvalue : natOfBe (beBytes 2 length) = length := natOfBe_beBytes 2 length (by omega)
      refine ⟨ws', ?_, (beBytes_length 2 length).symm ▸ hadvanced⟩
      have hcode : (126 : UInt8).toNat = 126 := rfl
      rw [readFrameLength, hcode, if_pos rfl, hread, ok_bind]
      dsimp only
      rw [hvalue, ensure_of (by omega)]
      rfl
    next hsmall =>
      cases hbytes
      obtain ⟨ws', hread, hadvanced⟩ := hread 8 (beBytes_length 8 length)
      have hvalue : natOfBe (beBytes 8 length) = length := natOfBe_beBytes 8 length (by omega)
      refine ⟨ws', ?_, (beBytes_length 8 length).symm ▸ hadvanced⟩
      have hcode : (127 : UInt8).toNat = 127 := rfl
      rw [readFrameLength, hcode, if_neg (by decide), if_pos rfl, hread, ok_bind]
      dsimp only
      rw [hvalue, ensure_of (by omega)]
      rfl

/-- The frame of two header bytes that are let through, with its payload. -/
def headed (first : UInt8) (payload : List UInt8) : ServerFrame :=
  ⟨decide (128 ≤ first.toNat), first.toNat % 16, payload⟩

theorem headed_encode {first second : UInt8} {payload extended : List UInt8} (hreserved : first.toNat / 16 % 8 = 0)
    (hbytes : lengthBytes payload.length = second :: extended) :
    (headed first payload).encode = first :: second :: (extended ++ payload) := by
  have hhead : UInt8.ofNat ((if decide (128 ≤ first.toNat) = true then 128 else 0) + first.toNat % 16) = first := by
    refine UInt8.toNat_inj.1 ?_
    have hlt := first.toNat_lt
    rw [UInt8.toNat_ofNat']
    split
    next hfin =>
      have hfin := of_decide_eq_true hfin
      omega
    next hfin =>
      have hfin := of_decide_eq_false (Bool.eq_false_iff.2 hfin)
      omega
  rw [ServerFrame.encode, headed]
  dsimp only
  rw [hhead, hbytes]
  rfl

/-- A frame that was read stands at the start of what was unread. -/
theorem readServerFrame_ok {ws ws' : WebSocket} {frame : ServerFrame} (h : readServerFrame ws = .ok (frame, ws')) :
    ws.unread = frame.encode ++ ws'.unread ∧ frame.Permitted ∧ ws.Advanced ws' frame.encode.length := by
  simp only [readServerFrame, bind_ok, ensure_ok] at h
  obtain ⟨⟨start, ws₁⟩, hstart, -, ⟨hreserved, hmask, hopcode⟩, -, hcontrol, ⟨length, ws₂⟩, hlength, -, hmax,
    ⟨payload, ws₃⟩, hpayload, heq⟩ := h
  dsimp only at hreserved hmask hopcode hcontrol hlength hmax hpayload heq
  obtain ⟨hstart, hadvanced₁⟩ := readExactPrefixed_ok hstart
  obtain ⟨first, second, rest, hunread⟩ : ∃ first second rest, ws.unread = first :: second :: rest := by
    have henough := hadvanced₁.enough
    match hunread : ws.unread with
    | [] => simp [hunread] at henough
    | [_] => simp [hunread] at henough
    | first :: second :: rest => exact ⟨first, second, rest, rfl⟩
  have hpair : start = [first, second] := by
    rw [hstart, hunread]
    rfl
  have hfirst : start.getD 0 0 = first := by
    rw [hpair]
    rfl
  have hsecond : start.getD 1 0 = second := by
    rw [hpair]
    rfl
  rw [hfirst] at hreserved hopcode hcontrol heq
  rw [hsecond] at hmask hcontrol hlength
  have hread : headed first payload = frame ∧ ws₃ = ws' := by
    cases heq
    exact ⟨rfl, rfl⟩
  obtain ⟨rfl, rfl⟩ := hread
  obtain ⟨count, hlengthBytes, hadvanced₂⟩ := readFrameLength_ok hmask hlength
  obtain ⟨hpayload, hadvanced₃⟩ := readExactPrefixed_ok hpayload
  have hrest : ws₁.unread = rest := by
    rw [hadvanced₁.unread, hunread]
    rfl
  have hcount : (ws₁.unread.take count).length = count := by
    rw [List.length_take]
    exact Nat.min_eq_left hadvanced₂.enough
  have hsize : payload.length = length := by
    rw [hpayload, List.length_take]
    exact Nat.min_eq_left hadvanced₃.enough
  have hencode : (headed first payload).encode = first :: second :: (ws₁.unread.take count ++ payload) := by
    refine headed_encode hreserved ?_
    rw [hsize, hlengthBytes, UInt8.ofNat_toNat]
  have hall : (headed first payload).encode.length = 2 + count + length := by
    rw [hencode, List.length_cons, List.length_cons, List.length_append, hcount, hsize]
    omega
  refine ⟨?_, ⟨hopcode, ?_, ?_⟩, hall ▸ (hadvanced₁.trans hadvanced₂).trans hadvanced₃⟩
  · rw [hencode, hadvanced₃.unread, hpayload, List.cons_append, List.cons_append, List.append_assoc,
      List.take_append_drop, hadvanced₂.unread, List.take_append_drop, hrest, hunread]
  · rcases hcontrol with hdata | ⟨hfin, hshort⟩
    · exact .inl hdata
    · refine .inr ⟨hfin, ?_⟩
      rw [readFrameLength, if_neg (by omega), if_neg (by omega)] at hlength
      cases hlength
      exact hsize ▸ hshort
  · exact hsize ▸ hmax

/-- A frame that is let through and has arrived is read. -/
theorem readServerFrame_supplied {ws : WebSocket} {frame : ServerFrame} {rest : List UInt8} {count : Nat}
    (hframe : frame.Permitted) (hunread : ws.unread = frame.encode ++ rest) (h : ws.Supplies count)
    (hcount : frame.encode.length ≤ count) :
    ∃ ws', readServerFrame ws = .ok (frame, ws') ∧ ws.Advanced ws' frame.encode.length := by
  obtain ⟨code, extended, hbytes⟩ : ∃ code extended, lengthBytes frame.payload.length = code :: extended := by
    rw [lengthBytes]
    split
    · exact ⟨_, _, rfl⟩
    · split
      · exact ⟨_, _, rfl⟩
      · exact ⟨_, _, rfl⟩
  obtain ⟨first, hfirst⟩ : ∃ first, first = UInt8.ofNat ((if frame.fin then 128 else 0) + frame.opcode) := ⟨_, rfl⟩
  have hencode : frame.encode = first :: code :: (extended ++ frame.payload) := by
    rw [ServerFrame.encode, hbytes, hfirst]
    rfl
  have hopcode : frame.opcode < 16 := by
    have hmem := hframe.opcode
    simp only [List.mem_cons, List.not_mem_nil, or_false] at hmem
    omega
  have hvalue : first.toNat = (if frame.fin then 128 else 0) + frame.opcode := by
    rw [hfirst, UInt8.toNat_ofNat']
    split <;> omega
  have hreserved : first.toNat / 16 % 8 = 0 := by
    rw [hvalue]
    split <;> omega
  have hlow : first.toNat % 16 = frame.opcode := by
    rw [hvalue]
    split <;> omega
  have hfin : decide (128 ≤ first.toNat) = frame.fin := by
    rw [hvalue]
    cases frame.fin with
    | true => exact decide_eq_true (by simp)
    | false => exact decide_eq_false (by simp; omega)
  have hmask : code.toNat < 128 ∧ (frame.payload.length < 126 → code.toNat < 126) := by
    rw [lengthBytes] at hbytes
    split at hbytes
    next hshort =>
      cases hbytes
      rw [UInt8.toNat_ofNat']
      omega
    next hshort =>
      split at hbytes
      · cases hbytes
        exact ⟨by decide, fun h => absurd h hshort⟩
      · cases hbytes
        exact ⟨by decide, fun h => absurd h hshort⟩
  rw [hencode, List.length_cons, List.length_cons, List.length_append] at hcount
  obtain ⟨ws₁, hstart, hadvanced₁⟩ := readExactPrefixed_supplied h (by omega : 2 ≤ count)
  have hstart' : ws.unread.take 2 = [first, code] := by
    rw [hunread, hencode]
    rfl
  have hunread₁ : ws₁.unread = extended ++ (frame.payload ++ rest) := by
    rw [hadvanced₁.unread, hunread, hencode]
    simp
  have hsupplies₁ := hadvanced₁.supplies count h (by omega)
  obtain ⟨ws₂, hlength, hadvanced₂⟩ := readFrameLength_supplied hframe.length hbytes hunread₁ hsupplies₁ (by omega)
  have hunread₂ : ws₂.unread = frame.payload ++ rest := by
    rw [hadvanced₂.unread, hunread₁, List.drop_left]
  have hsupplies₂ := hadvanced₂.supplies _ hsupplies₁ (by omega)
  obtain ⟨ws₃, hpayload, hadvanced₃⟩ := readExactPrefixed_supplied hsupplies₂
    (by omega : frame.payload.length ≤ count - 2 - extended.length)
  have hall : frame.encode.length = 2 + extended.length + frame.payload.length := by
    rw [hencode, List.length_cons, List.length_cons, List.length_append]
    omega
  refine ⟨ws₃, ?_, hall ▸ (hadvanced₁.trans hadvanced₂).trans hadvanced₃⟩
  have hcontrol : frame.opcode < 0x8 ∨ (frame.fin = true ∧ code.toNat < 126) := by
    rcases hframe.control with hdata | ⟨hlast, hshort⟩
    · exact .inl hdata
    · exact .inr ⟨hlast, hmask.2 hshort⟩
  rw [hunread₂, List.take_left] at hpayload
  have hheader : [first, code].getD 0 0 = first ∧ [first, code].getD 1 0 = code := ⟨rfl, rfl⟩
  rw [readServerFrame, hstart, hstart', ok_bind]
  dsimp only
  rw [hheader.1, hheader.2, hlow, hfin, ensure_of ⟨hreserved, hmask.1, hframe.opcode⟩, ok_bind, ensure_of hcontrol,
    ok_bind, hlength, ok_bind]
  dsimp only
  rw [ensure_of hframe.length, ok_bind, hpayload]
  rfl

end CodexKeyboard.Tts
