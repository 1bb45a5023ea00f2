import CodexKeyboard.Tts.FrameReads

/-! What a server may send over a WebSocket, and what the session gets of it: the text messages in order, a pong
    for every ping, and an error at the first frame that a server may not send. -/

namespace CodexKeyboard.Tts

open Schemes.Transact

/-! ### What a server may send -/

/-- A frame behind a message that has begun, or behind none: without extensions, unmasked, in messages that the
    client takes. -/
inductive ServerFrame.Legal : Option (List UInt8) → ServerFrame → Prop
  | text {fin : Bool} {payload : List UInt8} (fits : payload.length ≤ maxServerEventBytes) :
    Legal none ⟨fin, 0x1, payload⟩
  | continuation {fin : Bool} {soFar payload : List UInt8}
      (fits : soFar.length + payload.length ≤ maxServerEventBytes) :
    Legal (some soFar) ⟨fin, 0x0, payload⟩
  | ping {soFar : Option (List UInt8)} {payload : List UInt8} (short : payload.length ≤ 125) :
    Legal soFar ⟨true, 0x9, payload⟩
  | pong {soFar : Option (List UInt8)} {payload : List UInt8} (short : payload.length ≤ 125) :
    Legal soFar ⟨true, 0xA, payload⟩

def ServerFrame.isData (frame : ServerFrame) : Bool := frame.opcode == 0x0 || frame.opcode == 0x1

/-- The message so far behind a frame. -/
def ServerFrame.after (soFar : Option (List UInt8)) (frame : ServerFrame) : Option (List UInt8) :=
  if frame.isData then (if frame.fin then none else some (soFar.getD [] ++ frame.payload)) else soFar

/-- The message that a frame ends. -/
def ServerFrame.message (soFar : Option (List UInt8)) (frame : ServerFrame) : Option (List UInt8) :=
  if frame.isData && frame.fin then some (soFar.getD [] ++ frame.payload) else none

def ServerFrame.ping (frame : ServerFrame) : Option (List UInt8) :=
  if frame.opcode = 0x9 then some frame.payload else none

def LegalFrom : Option (List UInt8) → List ServerFrame → Prop
  | _, [] => True
  | soFar, frame :: frames => frame.Legal soFar ∧ LegalFrom (frame.after soFar) frames

/-- The text messages of frames, put together. -/
def messages : Option (List UInt8) → List ServerFrame → List (List UInt8)
  | _, [] => []
  | soFar, frame :: frames => (frame.message soFar).toList ++ messages (frame.after soFar) frames

def soFarAfter (soFar : Option (List UInt8)) (frames : List ServerFrame) : Option (List UInt8) :=
  frames.foldl ServerFrame.after soFar

def pings (frames : List ServerFrame) : List (List UInt8) := frames.filterMap ServerFrame.ping

def encodeAll (frames : List ServerFrame) : List UInt8 := frames.flatMap ServerFrame.encode

/-- Frames that end with a message. -/
def Whole (frames : List ServerFrame) : Prop := ∀ last ∈ frames.getLast?, last.isData = true ∧ last.fin = true

/-- The pongs with the payloads of pings, in order. -/
def pongs (masks : Nat → Mask) : Nat → List (List UInt8) → List UInt8
  | _, [] => []
  | drawn, payload :: payloads => maskedControlFrame 0xA (masks drawn) payload ++ pongs masks (drawn + 1) payloads

theorem ServerFrame.Legal.permitted {soFar : Option (List UInt8)} {frame : ServerFrame} (h : frame.Legal soFar) :
    frame.Permitted := by
  cases h with
  | text fits => exact ⟨by simp, .inl (by simp), fits⟩
  | continuation fits => exact ⟨by simp, .inl (by simp), (Nat.le_add_left _ _).trans fits⟩
  | ping short => exact ⟨by simp, .inr ⟨rfl, Nat.lt_succ_of_le short⟩, short.trans (by decide)⟩
  | pong short => exact ⟨by simp, .inr ⟨rfl, Nat.lt_succ_of_le short⟩, short.trans (by decide)⟩

/-- A legal ping ends no message. -/
theorem ServerFrame.Legal.pinged {soFar : Option (List UInt8)} {frame : ServerFrame} {payload : List UInt8}
    (h : frame.Legal soFar) (hping : frame.ping = some payload) :
    frame.message soFar = none ∧ frame.after soFar = soFar ∧ payload.length ≤ 125 := by
  cases h with
  | text fits => cases hping
  | continuation fits => cases hping
  | ping short =>
    cases hping
    exact ⟨rfl, rfl, short⟩
  | pong short => cases hping

theorem pongs_append (masks : Nat → Mask) (drawn : Nat) (payloads later : List (List UInt8)) :
    pongs masks drawn (payloads ++ later) =
      pongs masks drawn payloads ++ pongs masks (drawn + payloads.length) later := by
  induction payloads generalizing drawn with
  | nil => rfl
  | cons payload payloads ih =>
    rw [List.cons_append, pongs, ih, pongs, List.append_assoc, List.length_cons, Nat.add_assoc, Nat.add_comm 1]

/-! ### One frame -/

variable {libs : Libs} {requestSubmitted : Bool} {frame : ServerFrame} {frames : List ServerFrame}
  {soFar : Option (List UInt8)} {tail : List UInt8}

namespace Socket

variable {s s' : Socket}

/-- Frames are what arrives next, and the reader and the writer go on for as long as they do. -/
structure Arrives (s : Socket) (soFar : Option (List UInt8)) (frames : List ServerFrame) (tail : List UInt8) :
    Prop where
  legal : LegalFrom soFar frames
  unread : s.unread = encodeAll frames ++ tail
  fragmented : s.fragmented = soFar
  supplies : s.Supplies (encodeAll frames).length
  writes : ∃ rest, s.connection.writes = List.replicate (pings frames).length true ++ rest

/-- A socket behind pings that were answered. -/
structure Answered (s : Socket) (payloads : List (List UInt8)) (s' : Socket) : Prop where
  masks : s'.masks = s.masks
  drawn : s'.drawn = s.drawn + payloads.length
  written : s'.written = s.written ++ pongs s.masks s.drawn payloads

theorem Answered.refl (s : Socket) : Answered s [] s := ⟨rfl, rfl, (List.append_nil _).symm⟩

theorem Answered.trans {s'' : Socket} {payloads later : List (List UInt8)} (h : Answered s payloads s')
    (h' : Answered s' later s'') : Answered s (payloads ++ later) s'' := by
  refine ⟨h'.masks.trans h.masks, ?_, ?_⟩
  · rw [h'.drawn, h.drawn, List.length_append, Nat.add_assoc]
  · rw [h'.written, h.written, h.masks, h.drawn, pongs_append, List.append_assoc]

/-- What `assemble_text_frame` makes of a frame of a message. -/
theorem assembleTextFrame_legal {ws : WebSocket} (h : frame.Legal ws.fragmented) (hdata : frame.isData = true) :
    assembleTextFrame frame ws =
      .ok (frame.message ws.fragmented, { ws with fragmented := frame.after ws.fragmented }) := by
  generalize hsoFar : ws.fragmented = soFar at h
  cases h with
  | @text fin payload fits =>
    rw [assembleTextFrame, if_pos ⟨rfl, hsoFar⟩]
    cases fin with
    | true =>
      have hws : { ws with fragmented := none } = ws := by rw [← hsoFar]
      rw [if_pos rfl]
      exact congrArg Except.ok (Prod.ext rfl hws.symm)
    | false => rfl
  | @continuation fin message payload fits =>
    rw [assembleTextFrame, if_neg (fun h => absurd h.1 (by simp)), if_pos rfl, hsoFar, orThrow, ok_bind, ensure_of fits,
      ok_bind]
    cases fin with
    | true => rfl
    | false => rfl
  | ping short => cases hdata
  | pong short => cases hdata

/-- What a turn of the loop makes of a legal frame that was read. -/
theorem eventTurn_legal {ws : WebSocket} (hread : readServerFrame s.toWebSocket = .ok (frame, ws))
    (h : frame.Legal ws.fragmented) :
    s.eventTurn libs requestSubmitted =
      match frame.message ws.fragmented with
      | some message => do
        let event ← orThrow (protocolFailure requestSubmitted) (libs.parseJson message)
        .ok (some event, { s with toWebSocket := { ws with fragmented := frame.after ws.fragmented } })
      | none =>
        match frame.ping with
        | some payload =>
          match { s with toWebSocket := ws }.writeMaskedPong payload with
          | .error _ => .error (if requestSubmitted then ambiguousAfterCommit else .again .unavailable)
          | .ok s' => .ok (none, s')
        | none => .ok (none, { s with toWebSocket := { ws with fragmented := frame.after ws.fragmented } }) := by
  rw [eventTurn, hread]
  dsimp only
  cases hdata : frame.isData with
  | true =>
    have hopcode : frame.opcode = 0x0 ∨ frame.opcode = 0x1 := by simpa [ServerFrame.isData] using hdata
    have hping : frame.ping = none := by
      rw [ServerFrame.ping, if_neg (by omega)]
    rw [if_pos hopcode, assembleTextFrame_legal h hdata, hping]
    cases frame.message ws.fragmented with
    | some message => rfl
    | none => rfl
  | false =>
    have hopcode : ¬ (frame.opcode = 0x0 ∨ frame.opcode = 0x1) := by simpa [ServerFrame.isData] using hdata
    have hmessage : frame.message ws.fragmented = none := by
      rw [ServerFrame.message, hdata]
      rfl
    have hafter : frame.after ws.fragmented = ws.fragmented := by
      rw [ServerFrame.after, hdata]
      rfl
    rw [if_neg hopcode, hmessage, hafter]
    obtain ⟨soFar, hsoFar⟩ : ∃ soFar, ws.fragmented = soFar := ⟨_, rfl⟩
    rw [hsoFar] at h
    cases h with
    | text fits => cases hdata
    | continuation fits => cases hdata
    | ping short => rfl
    | pong short => rfl

/-- What is pending and arrives when frames do. -/
theorem eventTurn_arrives (h : s.Arrives soFar (frame :: frames) tail) :
    ∃ s' : Socket, s'.Arrives (frame.after soFar) frames tail ∧ s.Answered frame.ping.toList s' ∧
      s.eventTurn libs requestSubmitted =
        match frame.message soFar with
        | some message => do
          let event ← orThrow (protocolFailure requestSubmitted) (libs.parseJson message)
          .ok (some event, s')
        | none => .ok (none, s') := by
  obtain ⟨⟨hframe, hlegal⟩, hunread, hfragmented, hsupplies, rest, hwrites⟩ := h
  rw [encodeAll, List.flatMap_cons, List.append_assoc, ← encodeAll] at hunread
  rw [encodeAll, List.flatMap_cons, List.length_append, ← encodeAll] at hsupplies
  obtain ⟨ws, hread, hadvanced⟩ := readServerFrame_supplied hframe.permitted hunread hsupplies (Nat.le_add_right _ _)
  have hunread' : ws.unread = encodeAll frames ++ tail := by
    rw [hadvanced.unread, hunread, List.drop_left]
  have hsupplies' : ws.Supplies (encodeAll frames).length := by
    have hrest := hadvanced.supplies _ hsupplies (Nat.le_add_right _ _)
    rwa [Nat.add_sub_cancel_left] at hrest
  have hfragmented' : ws.fragmented = soFar := hadvanced.fragmented.trans hfragmented
  have hwrites' := hadvanced.writes.trans hwrites
  have hturn := @eventTurn_legal libs requestSubmitted frame s ws hread (hfragmented'.symm ▸ hframe)
  rw [hfragmented'] at hturn
  rw [hturn]
  rw [pings, List.filterMap_cons] at hwrites'
  cases hping : frame.ping with
  | none =>
    rw [hping] at hwrites'
    refine ⟨{ s with toWebSocket := { ws with fragmented := frame.after soFar } },
      ⟨hlegal, hunread', rfl, ⟨hsupplies'.bytes, hsupplies'.reads, hsupplies'.gives⟩, rest, hwrites'⟩,
      ⟨rfl, rfl, (List.append_nil _).symm⟩, ?_⟩
    cases frame.message soFar with
    | some message => rfl
    | none => rfl
  | some payload =>
    obtain ⟨hmessage, hafter, hshort⟩ := hframe.pinged hping
    rw [hping] at hwrites'
    rw [hmessage, hafter]
    have hwrite : ws.connection.write = some { ws.connection with
        writes := List.replicate (pings frames).length true ++ rest } := by
      rw [Connection.write, hwrites']
      rfl
    have hpong : writeMaskedPong payload { s with toWebSocket := ws } =
        .ok ⟨{ ws with connection := { ws.connection with
          writes := List.replicate (pings frames).length true ++ rest } }, s.masks, s.drawn + 1,
          s.written ++ maskedControlFrame 0xA (s.masks s.drawn) payload⟩ := by
      rw [writeMaskedPong, writeMaskedControlFrame, ensure_of hshort, ok_bind, writeFrame, WebSocket.write]
      dsimp only
      rw [hwrite]
      rfl
    rw [hafter] at hlegal
    refine ⟨⟨{ ws with connection := { ws.connection with
          writes := List.replicate (pings frames).length true ++ rest } }, s.masks, s.drawn + 1,
          s.written ++ maskedControlFrame 0xA (s.masks s.drawn) payload⟩,
      ⟨hlegal, hunread', hfragmented', ⟨hsupplies'.bytes, hsupplies'.reads, hsupplies'.gives⟩, rest, rfl⟩,
      ⟨rfl, rfl, ?_⟩, ?_⟩
    · rw [Option.toList_some, pongs, pongs, List.append_nil]
    · dsimp only
      rw [hpong]

end Socket

end CodexKeyboard.Tts
