import CodexKeyboard.Tts.Refused

/-! The frames that the client writes, and the WebSocket of a session as a whole. -/

namespace CodexKeyboard.Tts

open Schemes.Transact

/-- A frame of a client by RFC 6455: unfragmented and without extensions, its length in as few bytes as there are
    for it, with the mask bit, a mask and the payload under it. -/
def ClientFrame (opcode : Nat) (payload frame : List UInt8) : Prop :=
  payload.length < 2 ^ 63 ∧ ∃ (code : UInt8) (extended masked : List UInt8) (mask : Mask),
    lengthBytes payload.length = code :: extended ∧ code.toNat < 128 ∧ applyMask mask masked = payload ∧
      frame = UInt8.ofNat (128 + opcode) :: UInt8.ofNat (128 + code.toNat) :: (extended ++ (List.ofFn mask ++ masked))

theorem applyMask_applyMask (mask : Mask) (payload : List UInt8) :
    applyMask mask (applyMask mask payload) = payload := by
  refine List.ext_getElem (by simp [applyMask]) ?_
  intro i hi hi'
  simp only [applyMask, List.getElem_mapIdx, UInt8.xor_assoc, UInt8.xor_self, UInt8.xor_zero]

theorem setHigh (n : Nat) (h : n < 128) : 0x80 ||| UInt8.ofNat n = UInt8.ofNat (128 + n) := by
  refine UInt8.toNat_inj.1 ?_
  have hor : 2 ^ 7 * 1 + n = 2 ^ 7 * 1 ||| n := Nat.two_pow_add_eq_or_of_lt h 1
  rw [UInt8.toNat_or, UInt8.toNat_ofNat', UInt8.toNat_ofNat', Nat.mod_eq_of_lt (by omega : n < 2 ^ 8),
    Nat.mod_eq_of_lt (by omega : 128 + n < 2 ^ 8)]
  exact hor.symm

theorem maskedLength_head (length : Nat) :
    ∃ (code : UInt8) (extended : List UInt8), lengthBytes length = code :: extended ∧ code.toNat < 128 ∧
      maskedLength length = UInt8.ofNat (128 + code.toNat) :: extended := by
  rw [lengthBytes, maskedLength]
  split
  next hshort =>
    have hcode : (UInt8.ofNat length).toNat = length := by
      rw [UInt8.toNat_ofNat']
      omega
    exact ⟨_, _, rfl, by omega, by rw [hcode, setHigh length (by omega)]⟩
  next =>
    split
    · exact ⟨_, _, rfl, by decide, rfl⟩
    · exact ⟨_, _, rfl, by decide, rfl⟩

theorem maskedText_client (mask : Mask) {payload : List UInt8} (hlength : payload.length < 2 ^ 63) :
    ClientFrame 0x1 payload (maskedText mask payload) := by
  obtain ⟨code, extended, hbytes, hcode, hmasked⟩ := maskedLength_head payload.length
  refine ⟨hlength, code, extended, applyMask mask payload, mask, hbytes, hcode, applyMask_applyMask mask payload, ?_⟩
  rw [maskedText, hmasked]
  rfl

theorem maskedControlFrame_client {opcode : Nat} (mask : Mask) {payload : List UInt8} (hopcode : opcode < 16)
    (hshort : payload.length ≤ 125) :
    ClientFrame opcode payload (maskedControlFrame (UInt8.ofNat opcode) mask payload) := by
  have hcode : (UInt8.ofNat payload.length).toNat = payload.length := by
    rw [UInt8.toNat_ofNat']
    omega
  refine ⟨hshort.trans_lt (by decide), UInt8.ofNat payload.length, [], applyMask mask payload, mask, ?_, ?_,
    applyMask_applyMask mask payload, ?_⟩
  · rw [lengthBytes, if_pos (by omega)]
  · omega
  · rw [maskedControlFrame, hcode, setHigh _ (by omega), setHigh _ (by omega)]
    rfl

namespace Socket

variable {s s' : Socket} {payload : List UInt8}

theorem writeFrame_written {frame : Mask → List UInt8} (h : s.writeFrame frame = some s') :
    s'.written = s.written ++ frame (s.masks s.drawn) := by
  obtain ⟨ws, -, heq⟩ := Option.map_eq_some_iff.1 h
  cases heq
  rfl

theorem writeMaskedText_client (hlength : payload.length < 2 ^ 63) (h : s.writeMaskedText payload = .ok s') :
    ∃ frame, ClientFrame 0x1 payload frame ∧ s'.written = s.written ++ frame := by
  rw [writeMaskedText, orThrow_ok] at h
  exact ⟨_, maskedText_client _ hlength, writeFrame_written h⟩

theorem writeMaskedControlFrame_client {opcode : Nat} (hopcode : opcode < 16)
    (h : s.writeMaskedControlFrame (UInt8.ofNat opcode) payload = .ok s') :
    payload.length ≤ 125 ∧ ∃ frame, ClientFrame opcode payload frame ∧ s'.written = s.written ++ frame := by
  simp only [writeMaskedControlFrame, bind_ok, ensure_ok, orThrow_ok] at h
  obtain ⟨-, hshort, hwrite⟩ := h
  exact ⟨hshort, _, maskedControlFrame_client _ hopcode hshort, writeFrame_written hwrite⟩

/-- The WebSocket gives exactly the server's messages: those of legal frames in order, a pong for each ping, and no
    byte more is taken than the frames have; other bytes are an error at the first frame that is not legal; and what
    the client writes are masked frames. -/
theorem delivers (libs : Libs) (requestSubmitted : Bool) :
    (∀ (s : Socket) (soFar : Option (List UInt8)) (frames : List ServerFrame) (rest : List UInt8),
      s.Arrives soFar frames rest → Whole frames → ∃ s' : Socket,
        s.readTtsEvents libs requestSubmitted (messages soFar frames).length =
          (orThrow (protocolFailure requestSubmitted) ((messages soFar frames).mapM libs.parseJson)).map
            (fun events => (events, s')) ∧
        s'.unread = rest ∧ s'.fragmented = soFarAfter soFar frames ∧
        s'.written = s.written ++ pongs s.masks s.drawn (pings frames)) ∧
    (∀ (s : Socket) (frames : List ServerFrame) (rest : List UInt8),
      LegalFrom s.fragmented frames → s.unread = encodeAll frames ++ rest →
      Stuck (soFarAfter s.fragmented frames) rest →
      ∃ e, s.readTtsEvents libs requestSubmitted ((messages s.fragmented frames).length + 1) = .error e) ∧
    (∀ ws : WebSocket, Offends ws.fragmented ws.unread → Stuck ws.fragmented ws.unread ∧
      ∃ e, (readServerFrame ws >>= fun read => assembleTextFrame read.1 read.2) = .error e) ∧
    (∀ (s s' : Socket) (payload : List UInt8), payload.length < 2 ^ 63 → s.writeMaskedText payload = .ok s' →
      ∃ frame, ClientFrame 0x1 payload frame ∧ s'.written = s.written ++ frame) ∧
    (∀ (s s' : Socket) (opcode : Nat) (payload : List UInt8), opcode < 16 →
      s.writeMaskedControlFrame (UInt8.ofNat opcode) payload = .ok s' →
      payload.length ≤ 125 ∧ ∃ frame, ClientFrame opcode payload frame ∧ s'.written = s.written ++ frame) := by
  refine ⟨?_, ?_, ?_, ?_, ?_⟩
  · intro s soFar frames rest harrives hwhole
    obtain ⟨s', hleft, hanswered, hrun⟩ :=
      @readTtsEvents_arrives libs requestSubmitted frames soFar rest s harrives hwhole
    exact ⟨s', hrun, hleft.unread, hleft.fragmented, hanswered.written⟩
  · intro s frames rest hlegal hunread hstuck
    exact readTtsEvents_stuck hlegal hunread hstuck
  · intro ws hoffends
    exact ⟨hoffends.stuck, hoffends.refused⟩
  · intro s s' payload hlength hwrite
    exact writeMaskedText_client hlength hwrite
  · intro s s' opcode payload hopcode hwrite
    exact writeMaskedControlFrame_client hopcode hwrite

/-- A message in two fragments with a ping between them. -/
def pingedFrames : List ServerFrame := [⟨false, 0x1, [0x7B]⟩, ⟨true, 0x9, [0x07]⟩, ⟨true, 0x0, [0x7D]⟩]

/-- It arrives byte by byte behind three bytes that are pending. -/
def pingedSocket : Socket where
  pending := (encodeAll pingedFrames).take 3
  connection := ⟨(encodeAll pingedFrames).drop 3, List.replicate 6 1, [true]⟩
  masks _ := fun index => UInt8.ofNat (index.val + 1)

/-- A parser for the one event that is sent: the object without fields. -/
def emptyObjectLibs : Libs where
  parseResponse _ := none
  parseJson bytes := if bytes = [0x7B, 0x7D] then some (.obj []) else none
  decodeBase64 _ := none
  websocketAccept _ := []

theorem delivers_pinged : ∃ s' : Socket,
    pingedSocket.readTtsEvents emptyObjectLibs true 1 = .ok ([.obj []], s') ∧ s'.unread = [] ∧
      s'.written = [0x8A, 0x81, 1, 2, 3, 4, 6] := by
  have harrives : pingedSocket.Arrives none pingedFrames [] :=
    ⟨⟨.text (by decide), .ping (by decide), .continuation (by decide), trivial⟩, by decide, rfl,
      ⟨by decide, by decide, by decide⟩, [], rfl⟩
  have hwhole : Whole pingedFrames := by
    rintro last hlast
    cases hlast
    exact ⟨rfl, rfl⟩
  obtain ⟨s', hrun, hunread, -, hwritten⟩ := (delivers emptyObjectLibs true).1 _ _ _ _ harrives hwhole
  exact ⟨s', hrun, hunread, hwritten⟩

end Socket

end CodexKeyboard.Tts
