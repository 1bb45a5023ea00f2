import CodexKeyboard.Tts.Session

/-! The frames of the session's WebSocket: `read_tts_event` with the bytes it writes, `write_masked_text` and
    `write_masked_control_frame`, and what RFC 6455 makes of the frames of either side. -/

namespace CodexKeyboard.Tts

open Schemes.Transact

/-! ### Numbers -/

/-- `to_be_bytes`, in so many bytes. -/
def beBytes : Nat → Nat → List UInt8
  | 0, _ => []
  | count + 1, n => beBytes count (n / 256) ++ [UInt8.ofNat n]

@[simp] theorem beBytes_length (count n : Nat) : (beBytes count n).length = count := by
  induction count generalizing n with
  | zero => rfl
  | succ count ih => rw [beBytes, List.length_append, ih, List.length_singleton]

theorem natOfBe_concat (bytes : List UInt8) (b : UInt8) :
    natOfBe (bytes ++ [b]) = natOfBe bytes * 256 + b.toNat := by
  rw [natOfBe, List.foldl_append]
  rfl

theorem natOfBe_beBytes (count n : Nat) (h : n < 256 ^ count) : natOfBe (beBytes count n) = n := by
  induction count generalizing n with
  | zero =>
    have hzero : n = 0 := by simpa using h
    rw [hzero]
    rfl
  | succ count ih =>
    have hhigh : n / 256 < 256 ^ count := by
      rw [Nat.pow_succ] at h
      omega
    have hlow : (UInt8.ofNat n).toNat = n % 256 := rfl
    rw [beBytes, natOfBe_concat, ih _ hhigh, hlow]
    omega

theorem beBytes_natOfBe (bytes : List UInt8) : beBytes bytes.length (natOfBe bytes) = bytes := by
  induction bytes using List.reverseRecOn with
  | nil => rfl
  | append_singleton bytes b ih =>
    have hb := b.toNat_lt
    have hhigh : (natOfBe bytes * 256 + b.toNat) / 256 = natOfBe bytes := by omega
    have hlow : UInt8.ofNat (natOfBe bytes * 256 + b.toNat) = b := by
      refine UInt8.toNat_inj.1 ?_
      rw [UInt8.toNat_ofNat']
      omega
    rw [List.length_append, List.length_singleton, natOfBe_concat, beBytes, hhigh, hlow, ih]

theorem natOfBe_lt (bytes : List UInt8) : natOfBe bytes < 256 ^ bytes.length := by
  induction bytes using List.reverseRecOn with
  | nil => decide
  | append_singleton bytes b ih =>
    have hb := b.toNat_lt
    rw [List.length_append, List.length_singleton, natOfBe_concat, Nat.pow_succ]
    omega

theorem readTtsEvent_eq (libs : Libs) (requestSubmitted : Bool) (ws : WebSocket) :
    readTtsEvent libs requestSubmitted ws =
      match readServerFrame ws with
      | .error e => .error (frameFailure requestSubmitted e)
      | .ok (frame, ws₁) =>
        if frame.opcode = 0x0 ∨ frame.opcode = 0x1 then
          match assembleTextFrame frame ws₁ with
          | .error _ => .error (protocolFailure requestSubmitted)
          | .ok (some payload, ws₂) => do
            let event ← orThrow (protocolFailure requestSubmitted) (libs.parseJson payload)
            .ok (event, ws₂)
          | .ok (none, ws₂) => readTtsEvent libs requestSubmitted ws₂
        else if frame.opcode = 0x9 then
          match writeMaskedPong frame.payload ws₁ with
          | .error _ => .error (if requestSubmitted then ambiguousAfterCommit else .again .unavailable)
          | .ok ws₂ => readTtsEvent libs requestSubmitted ws₂
        else if frame.opcode = 0xA then readTtsEvent libs requestSubmitted ws₁
        else .error (protocolFailure requestSubmitted) := by
  rw [readTtsEvent]
  split
  next e hframe => rw [hframe]
  next frame ws₁ hframe =>
    rw [hframe]
    dsimp only
    split
    · split
      next e hassembled => rw [hassembled]
      next payload ws₂ hassembled => rw [hassembled]
      next ws₂ hassembled => rw [hassembled]
    · split
      · split
        next e hpong => rw [hpong]
        next ws₂ hpong => rw [hpong]
      · rfl

/-! ### What the client writes -/

/-- The first four bytes of a `Uuid::new_v4`. -/
abbrev Mask := Fin 4 → UInt8

/-- `byte ^ mask[index % 4]`. -/
def applyMask (mask : Mask) (payload : List UInt8) : List UInt8 :=
  payload.mapIdx fun index byte => byte ^^^ mask ⟨index % 4, Nat.mod_lt _ (by decide)⟩

def maskedLength (length : Nat) : List UInt8 :=
  if length < 126 then [0x80 ||| UInt8.ofNat length]
  else if length < 2 ^ 16 then (0x80 ||| 126) :: beBytes 2 length
  else (0x80 ||| 127) :: beBytes 8 length

/-- The frame of `write_masked_text`. -/
def maskedText (mask : Mask) (payload : List UInt8) : List UInt8 :=
  0x81 :: (maskedLength payload.length ++ (List.ofFn mask ++ applyMask mask payload))

/-- The frame of `write_masked_control_frame`. -/
def maskedControlFrame (opcode : UInt8) (mask : Mask) (payload : List UInt8) : List UInt8 :=
  (0x80 ||| opcode) :: (0x80 ||| UInt8.ofNat payload.length) :: (List.ofFn mask ++ applyMask mask payload)

/-- A WebSocket with the masks that are drawn for it, how many were, and the bytes that were written. -/
structure Socket extends WebSocket where
  masks : Nat → Mask
  drawn : Nat := 0
  written : List UInt8 := []

namespace Socket

/-- `write_all` and `flush` of a frame with the next mask. -/
def writeFrame (frame : Mask → List UInt8) (s : Socket) : Option Socket :=
  s.toWebSocket.write.map fun ws =>
    { s with toWebSocket := ws, drawn := s.drawn + 1, written := s.written ++ frame (s.masks s.drawn) }

def writeMaskedControlFrame (opcode : UInt8) (payload : List UInt8) (s : Socket) : Except VerificationError Socket := do
  ensure (payload.length ≤ 125) .protocol
  orThrow .unavailable (s.writeFrame fun mask => maskedControlFrame opcode mask payload)

def writeMaskedPong (payload : List UInt8) (s : Socket) : Except VerificationError Socket :=
  s.writeMaskedControlFrame 0xA payload

def writeMaskedText (payload : List UInt8) (s : Socket) : Except AttemptFailure Socket :=
  orThrow (.terminal .unavailable) (s.writeFrame fun mask => maskedText mask payload)

/-- A turn of the loop in `read_tts_event`: the event, when the frame ends a message. -/
def eventTurn (libs : Libs) (requestSubmitted : Bool) (s : Socket) : Except AttemptFailure (Option Json × Socket) :=
  match readServerFrame s.toWebSocket with
  | .error e => .error (frameFailure requestSubmitted e)
  | .ok (frame, ws) =>
    if frame.opcode = 0x0 ∨ frame.opcode = 0x1 then
      match assembleTextFrame frame ws with
      | .error _ => .error (protocolFailure requestSubmitted)
      | .ok (some payload, ws) => do
        let event ← orThrow (protocolFailure requestSubmitted) (libs.parseJson payload)
        .ok (some event, { s with toWebSocket := ws })
      | .ok (none, ws) => .ok (none, { s with toWebSocket := ws })
    else if frame.opcode = 0x9 then
      match { s with toWebSocket := ws }.writeMaskedPong frame.payload with
      | .error _ => .error (if requestSubmitted then ambiguousAfterCommit else .again .unavailable)
      | .ok s => .ok (none, s)
    else if frame.opcode = 0xA then .ok (none, { s with toWebSocket := ws })
    else .error (protocolFailure requestSubmitted)

theorem writeMaskedPong_erased (payload : List UInt8) (s : Socket) :
    (s.writeMaskedPong payload).map (·.toWebSocket) = Tts.writeMaskedPong payload s.toWebSocket := by
  rw [writeMaskedPong, writeMaskedControlFrame, Tts.writeMaskedPong]
  by_cases hshort : payload.length ≤ 125
  · rw [ensure_of hshort, ok_bind, ok_bind, writeFrame]
    cases s.toWebSocket.write with
    | none => rfl
    | some ws => rfl
  · rw [ensure, if_neg hshort]
    rfl

theorem writeMaskedPong_left {payload : List UInt8} {s s' : Socket} (h : s.writeMaskedPong payload = .ok s') :
    s'.left = s.left := by
  have herased := writeMaskedPong_erased payload s
  rw [h] at herased
  exact Tts.writeMaskedPong_left herased.symm

theorem eventTurn_left {libs : Libs} {requestSubmitted : Bool} {s s' : Socket} {event : Option Json}
    (h : s.eventTurn libs requestSubmitted = .ok (event, s')) : s'.left < s.left := by
  rw [eventTurn] at h
  split at h
  next => cases h
  next frame ws hframe =>
    have hshorter := readServerFrame_left hframe
    split at h
    · split at h
      next => cases h
      next payload ws' hassembled =>
        simp only [bind_ok] at h
        obtain ⟨event, -, heq⟩ := h
        cases heq
        exact (assembleTextFrame_left hassembled).trans_lt hshorter
      next ws' hassembled =>
        cases h
        exact (assembleTextFrame_left hassembled).trans_lt hshorter
    · split at h
      · split at h
        next => cases h
        next s₂ hpong =>
          cases h
          exact (writeMaskedPong_left hpong).trans_lt hshorter
      · split at h
        · cases h
          exact hshorter
        · cases h

/-- `read_tts_event`, with what it writes. -/
def readTtsEvent (libs : Libs) (requestSubmitted : Bool) (s : Socket) : Except AttemptFailure (Json × Socket) :=
  match _hturn : s.eventTurn libs requestSubmitted with
  | .error e => .error e
  | .ok (some event, s') => .ok (event, s')
  | .ok (none, s') => readTtsEvent libs requestSubmitted s'
termination_by s.left
decreasing_by exact eventTurn_left _hturn

theorem readTtsEvent_eq (libs : Libs) (requestSubmitted : Bool) (s : Socket) :
    s.readTtsEvent libs requestSubmitted =
      match s.eventTurn libs requestSubmitted with
      | .error e => .error e
      | .ok (some event, s') => .ok (event, s')
      | .ok (none, s') => s'.readTtsEvent libs requestSubmitted := by
  rw [readTtsEvent]
  split
  next e hturn => rw [hturn]
  next event s' hturn => rw [hturn]
  next s' hturn => rw [hturn]

/-- Without what it writes it is the session's `readTtsEvent`. -/
theorem readTtsEvent_erased (libs : Libs) (requestSubmitted : Bool) (s : Socket) :
    (s.readTtsEvent libs requestSubmitted).map (fun read => (read.1, read.2.toWebSocket)) =
      Tts.readTtsEvent libs requestSubmitted s.toWebSocket := by
  induction hleft : s.left using Nat.strongRecOn generalizing s with
  | ind left ih =>
  have hagain (s' : Socket) (hturn : s.eventTurn libs requestSubmitted = .ok (none, s')) :
      (s'.readTtsEvent libs requestSubmitted).map (fun read => (read.1, read.2.toWebSocket)) =
        Tts.readTtsEvent libs requestSubmitted s'.toWebSocket :=
    ih s'.left (hleft ▸ eventTurn_left hturn) s' rfl
  rw [readTtsEvent_eq, Tts.readTtsEvent_eq]
  rw [eventTurn] at hagain ⊢
  cases hframe : readServerFrame s.toWebSocket with
  | error e => rfl
  | ok read =>
  obtain ⟨frame, ws⟩ := read
  rw [hframe] at hagain
  dsimp only at hagain ⊢
  by_cases htext : frame.opcode = 0x0 ∨ frame.opcode = 0x1
  · simp only [if_pos htext] at hagain ⊢
    cases hassembled : assembleTextFrame frame ws with
    | error e => rfl
    | ok assembled =>
    obtain ⟨_ | payload, ws'⟩ := assembled
    · rw [hassembled] at hagain
      exact hagain _ rfl
    · dsimp only
      cases libs.parseJson payload with
      | none => rfl
      | some event => rfl
  simp only [if_neg htext] at hagain ⊢
  by_cases hping : frame.opcode = 0x9
  · simp only [if_pos hping] at hagain ⊢
    have herased := writeMaskedPong_erased frame.payload { s with toWebSocket := ws }
    cases hpong : writeMaskedPong frame.payload { s with toWebSocket := ws } with
    | error e =>
      rw [hpong] at herased
      rw [← herased]
      rfl
    | ok s' =>
      rw [hpong] at hagain herased
      rw [← herased]
      exact hagain s' rfl
  simp only [if_neg hping] at hagain ⊢
  by_cases hpong : frame.opcode = 0xA
  · simp only [if_pos hpong] at hagain ⊢
    exact hagain _ rfl
  · simp only [if_neg hpong]
    rfl

/-- So many calls, one after the other. -/
def readTtsEvents (libs : Libs) (requestSubmitted : Bool) : Nat → Socket → Except AttemptFailure (List Json × Socket)
  | 0, s => .ok ([], s)
  | calls + 1, s => do
    let (event, s) ← s.readTtsEvent libs requestSubmitted
    let (events, s) ← readTtsEvents libs requestSubmitted calls s
    .ok (event :: events, s)

end Socket

end CodexKeyboard.Tts
