import CodexKeyboard.Tts.Delivered

/-! The streams that a server may not send: an error at their first frame that is not legal. -/

namespace CodexKeyboard.Tts

open Schemes.Transact

variable {libs : Libs} {requestSubmitted : Bool} {frame other : ServerFrame} {frames others : List ServerFrame}
  {soFar : Option (List UInt8)} {rest later : List UInt8}

/-! ### A stream is cut into frames in one way -/

theorem readServerFrame_pending (hframe : frame.Permitted) (rest : List UInt8) (connection : Connection) :
    ∃ ws, readServerFrame ⟨frame.encode ++ rest, connection, none⟩ = .ok (frame, ws) ∧
      ws.unread = rest ++ connection.arriving := by
  have hunread : WebSocket.unread ⟨frame.encode ++ rest, connection, none⟩ =
      frame.encode ++ (rest ++ connection.arriving) := List.append_assoc _ _ _
  have hsupplies : WebSocket.Supplies ⟨frame.encode ++ rest, connection, none⟩ frame.encode.length := by
    have hpending : frame.encode.length - (frame.encode ++ rest).length = 0 := by
      rw [List.length_append]
      omega
    refine ⟨?_, ?_, ?_⟩
    · rw [hunread, List.length_append]
      exact Nat.le_add_right _ _
    · exact hpending ▸ Nat.zero_le _
    · intro size hsize
      dsimp only at hsize
      rw [hpending] at hsize
      exact absurd hsize List.not_mem_nil
  obtain ⟨ws, hread, hadvanced⟩ := readServerFrame_supplied hframe hunread hsupplies (Nat.le_refl _)
  exact ⟨ws, hread, by rw [hadvanced.unread, hunread, List.drop_left]⟩

theorem encode_unique (hframe : frame.Permitted) (hother : other.Permitted)
    (h : frame.encode ++ rest = other.encode ++ later) : frame = other ∧ rest = later := by
  obtain ⟨ws, hread, -⟩ := readServerFrame_pending hframe rest {}
  obtain ⟨ws', hread', -⟩ := readServerFrame_pending hother later {}
  rw [h, hread'] at hread
  cases hread
  exact ⟨rfl, List.append_cancel_left h⟩

/-- No frame that a server may send is at the start of the bytes. -/
def Stuck (soFar : Option (List UInt8)) (bytes : List UInt8) : Prop :=
  ∀ frame : ServerFrame, frame.Legal soFar → ¬ frame.encode <+: bytes

theorem Stuck.covers (hstuck : Stuck (soFarAfter soFar frames) rest) (hframes : LegalFrom soFar frames)
    (hothers : LegalFrom soFar others) (h : encodeAll frames ++ rest = encodeAll others ++ later) :
    others <+: frames := by
  induction others generalizing soFar frames with
  | nil => exact List.nil_prefix
  | cons other others ih =>
    rw [encodeAll, encodeAll, List.flatMap_cons, List.append_assoc, ← encodeAll, ← encodeAll] at h
    cases frames with
    | nil => exact absurd ⟨_, h.symm⟩ (hstuck other hothers.1)
    | cons frame frames =>
      rw [encodeAll, List.flatMap_cons, List.append_assoc, ← encodeAll] at h
      obtain ⟨rfl, hrest⟩ := encode_unique hframes.1.permitted hothers.1.permitted h
      exact List.cons_prefix_cons.2 ⟨rfl, ih hstuck hframes.2 hothers.2 hrest⟩

/-- The call that reads on to bytes that no legal frame starts fails. -/
theorem Socket.readTtsEvents_stuck {s : Socket} (hframes : LegalFrom s.fragmented frames)
    (hunread : s.unread = encodeAll frames ++ rest) (hstuck : Stuck (soFarAfter s.fragmented frames) rest) :
    ∃ e, s.readTtsEvents libs requestSubmitted ((messages s.fragmented frames).length + 1) = .error e := by
  cases hread : s.readTtsEvents libs requestSubmitted ((messages s.fragmented frames).length + 1) with
  | error e => exact ⟨e, rfl⟩
  | ok read =>
    obtain ⟨events, s'⟩ := read
    obtain ⟨others, htook, hevents, hlength⟩ := readTtsEvents_ok hread
    obtain ⟨more, hmore⟩ := hstuck.covers hframes htook.legal (hunread.symm.trans htook.unread)
    have hmessages : (messages s.fragmented others).length = events.length := mapM_length hevents
    rw [← hmore, messages_append, List.length_append] at hlength
    omega

/-! ### The frames that a server may not send -/

/-- A frame at the start of the bytes that a server may not send, by what is wrong with it. -/
inductive Offends (soFar : Option (List UInt8)) : List UInt8 → Prop
  | masked {first second : UInt8} {rest : List UInt8} (bit : 128 ≤ second.toNat) :
    Offends soFar (first :: second :: rest)
  | reserved {first second : UInt8} {rest : List UInt8} (bits : first.toNat / 16 % 8 ≠ 0) :
    Offends soFar (first :: second :: rest)
  | opcode {first second : UInt8} {rest : List UInt8} (other : first.toNat % 16 ∉ [0x0, 0x1, 0x9, 0xA]) :
    Offends soFar (first :: second :: rest)
  | fragmentedControl {first second : UInt8} {rest : List UInt8} (control : 0x8 ≤ first.toNat % 16)
    (unfinished : first.toNat < 128) : Offends soFar (first :: second :: rest)
  | longControl {first second : UInt8} {rest : List UInt8} (control : 0x8 ≤ first.toNat % 16)
    (long : 126 ≤ second.toNat % 128) : Offends soFar (first :: second :: rest)
  | nonMinimal16 {first : UInt8} {extended rest : List UInt8} (two : extended.length = 2)
      (low : natOfBe extended < 126) :
    Offends soFar (first :: 126 :: (extended ++ rest))
  | nonMinimal64 {first : UInt8} {extended rest : List UInt8} (eight : extended.length = 8)
    (low : natOfBe extended < 2 ^ 16) : Offends soFar (first :: 127 :: (extended ++ rest))
  | overLong {first : UInt8} {extended rest : List UInt8} (eight : extended.length = 8)
    (high : maxServerEventBytes < natOfBe extended) : Offends soFar (first :: 127 :: (extended ++ rest))
  | continuation {first second : UInt8} {rest : List UInt8} (opcode : first.toNat % 16 = 0x0)
      (outOfPlace : soFar = none) :
    Offends soFar (first :: second :: rest)
  | text {first second : UInt8} {rest : List UInt8} (opcode : first.toNat % 16 = 0x1) (outOfPlace : soFar ≠ none) :
    Offends soFar (first :: second :: rest)
  | longMessage {frame : ServerFrame} {rest payload : List UInt8} (opcode : frame.opcode = 0x0)
    (fits : frame.payload.length ≤ maxServerEventBytes) (begun : soFar = some payload)
    (long : maxServerEventBytes < payload.length + frame.payload.length) : Offends soFar (frame.encode ++ rest)

/-- The bytes of a length that the client takes, by how many follow the first. -/
theorem lengthBytes_head {length : Nat} {second : UInt8} {extended : List UInt8}
    (h : lengthBytes length = second :: extended) :
    (second.toNat = length ∧ length < 126) ∨
      (second = 126 ∧ 126 ≤ length ∧ length < 2 ^ 16 ∧ extended = beBytes 2 length) ∨
      (second = 127 ∧ 2 ^ 16 ≤ length ∧ extended = beBytes 8 length) := by
  rw [lengthBytes] at h
  split at h
  next hshort =>
    cases h
    refine .inl ⟨?_, hshort⟩
    rw [UInt8.toNat_ofNat']
    omega
  next hlong =>
    split at h
    next hsmall =>
      cases h
      exact .inr (.inl ⟨rfl, Nat.le_of_not_lt hlong, hsmall, rfl⟩)
    next hlarge =>
      cases h
      exact .inr (.inr ⟨rfl, Nat.le_of_not_lt hlarge, rfl⟩)

theorem beBytes_start {count n : Nat} {extended : List UInt8} (h : beBytes count n <+: extended ++ rest)
    (hlength : extended.length = count) : beBytes count n = extended := by
  have hsame : (beBytes count n).length = extended.length := by rw [beBytes_length, hlength]
  exact (List.prefix_of_prefix_length_le h (List.prefix_append _ _) hsame.le).eq_of_length hsame

/-- What the first two bytes of a legal frame say of it. -/
theorem ServerFrame.Legal.header {first second : UInt8} (hlegal : frame.Legal soFar)
    (h : frame.encode <+: first :: second :: rest) :
    first.toNat = (if frame.fin then 128 else 0) + frame.opcode ∧ frame.opcode ∈ [0x0, 0x1, 0x9, 0xA] ∧
      (0x8 ≤ frame.opcode → frame.fin = true ∧ frame.payload.length ≤ 125) ∧
      ∃ extended, lengthBytes frame.payload.length = second :: extended ∧ extended <+: rest := by
  have hopcode : frame.opcode ∈ [0x0, 0x1, 0x9, 0xA] := by cases hlegal <;> simp
  have hcontrol : 0x8 ≤ frame.opcode → frame.fin = true ∧ frame.payload.length ≤ 125 := by
    intro hcontrol
    cases hlegal with
    | text fits => exact absurd hcontrol (by simp)
    | continuation fits => exact absurd hcontrol (by simp)
    | ping short => exact ⟨rfl, short⟩
    | pong short => exact ⟨rfl, short⟩
  rw [encode, List.cons_prefix_cons] at h
  obtain ⟨hfirst, hrest⟩ := h
  have hvalue : first.toNat = (if frame.fin then 128 else 0) + frame.opcode := by
    have hbound : frame.opcode < 16 := by
      simp only [List.mem_cons, List.not_mem_nil, or_false] at hopcode
      omega
    rw [← hfirst, UInt8.toNat_ofNat']
    split <;> omega
  refine ⟨hvalue, hopcode, hcontrol, ?_⟩
  obtain ⟨code, extended, hbytes⟩ : ∃ code extended, lengthBytes frame.payload.length = code :: extended := by
    rw [lengthBytes]
    split
    · exact ⟨_, _, rfl⟩
    · split
      · exact ⟨_, _, rfl⟩
      · exact ⟨_, _, rfl⟩
  rw [hbytes, List.cons_append, List.cons_prefix_cons] at hrest
  obtain ⟨rfl, hrest⟩ := hrest
  exact ⟨extended, hbytes, (List.prefix_append _ _).trans hrest⟩

theorem ServerFrame.Legal.opcode_eq {first second : UInt8} {opcode : Nat} (hlegal : frame.Legal soFar)
    (h : frame.encode <+: first :: second :: rest) (hlow : first.toNat % 16 = opcode) : frame.opcode = opcode := by
  obtain ⟨hfirst, hopcode, -⟩ := hlegal.header h
  simp only [List.mem_cons, List.not_mem_nil, or_false] at hopcode
  split at hfirst <;> omega

theorem Offends.stuck {bytes : List UInt8} (h : Offends soFar bytes) : Stuck soFar bytes := by
  intro frame hlegal hstart
  have hfits := hlegal.permitted.length
  cases h with
  | masked bit =>
    obtain ⟨-, -, -, extended, hbytes, -⟩ := hlegal.header hstart
    rcases lengthBytes_head hbytes with ⟨hsecond, hshort⟩ | ⟨rfl, -⟩ | ⟨rfl, -⟩
    · omega
    · exact absurd bit (by decide)
    · exact absurd bit (by decide)
  | reserved bits =>
    obtain ⟨hfirst, hopcode, -⟩ := hlegal.header hstart
    simp only [List.mem_cons, List.not_mem_nil, or_false] at hopcode
    split at hfirst <;> omega
  | opcode unknown =>
    obtain ⟨hfirst, hopcode, -⟩ := hlegal.header hstart
    simp only [List.mem_cons, List.not_mem_nil, or_false] at hopcode unknown
    split at hfirst <;> omega
  | fragmentedControl control unfinished =>
    obtain ⟨hfirst, hopcode, hcontrol, -⟩ := hlegal.header hstart
    simp only [List.mem_cons, List.not_mem_nil, or_false] at hopcode
    cases hfin : frame.fin with
    | true =>
      rw [hfin, if_pos rfl] at hfirst
      omega
    | false =>
      rw [hfin, if_neg (by decide)] at hfirst
      rw [hfin] at hcontrol
      exact absurd (hcontrol (by omega)).1 (by decide)
  | longControl control long =>
    obtain ⟨hfirst, hopcode, hcontrol, extended, hbytes, -⟩ := hlegal.header hstart
    simp only [List.mem_cons, List.not_mem_nil, or_false] at hopcode
    obtain ⟨-, hshort⟩ := hcontrol (by split at hfirst <;> omega)
    rcases lengthBytes_head hbytes with ⟨hsecond, -⟩ | ⟨-, hlong, -⟩ | ⟨-, hlong, -⟩
    · omega
    · omega
    · omega
  | nonMinimal16 two low =>
    obtain ⟨-, -, -, extended, hbytes, hextended⟩ := hlegal.header hstart
    rcases lengthBytes_head hbytes with ⟨hsecond, hshort⟩ | ⟨-, hlow, hhigh, rfl⟩ | ⟨hsecond, -⟩
    · exact absurd (hsecond ▸ hshort) (by decide)
    · rw [← beBytes_start hextended two, natOfBe_beBytes 2 _ hhigh] at low
      omega
    · exact absurd hsecond (by decide)
  | nonMinimal64 eight low =>
    obtain ⟨-, -, -, extended, hbytes, hextended⟩ := hlegal.header hstart
    rcases lengthBytes_head hbytes with ⟨hsecond, hshort⟩ | ⟨hsecond, -⟩ | ⟨-, hlow, rfl⟩
    · exact absurd (hsecond ▸ hshort) (by decide)
    · exact absurd hsecond (by decide)
    · rw [← beBytes_start hextended eight, natOfBe_beBytes 8 _ (hfits.trans_lt (by decide))] at low
      omega
  | overLong eight high =>
    obtain ⟨-, -, -, extended, hbytes, hextended⟩ := hlegal.header hstart
    rcases lengthBytes_head hbytes with ⟨hsecond, hshort⟩ | ⟨hsecond, -⟩ | ⟨-, hlow, rfl⟩
    · exact absurd (hsecond ▸ hshort) (by decide)
    · exact absurd hsecond (by decide)
    · rw [← beBytes_start hextended eight, natOfBe_beBytes 8 _ (hfits.trans_lt (by decide))] at high
      omega
  | continuation opcode outOfPlace =>
    have hopcode := hlegal.opcode_eq hstart opcode
    cases hlegal with
    | text fits => cases hopcode
    | continuation fits => cases outOfPlace
    | ping short => cases hopcode
    | pong short => cases hopcode
  | text opcode outOfPlace =>
    have hopcode := hlegal.opcode_eq hstart opcode
    cases hlegal with
    | text fits => exact outOfPlace rfl
    | continuation fits => cases hopcode
    | ping short => cases hopcode
    | pong short => cases hopcode
  | @longMessage offender rest payload opcode fits begun long =>
    have hoffender : offender.Permitted := ⟨by simp [opcode], .inl (by omega), fits⟩
    obtain ⟨after, hafter⟩ := hstart
    obtain ⟨rfl, -⟩ := encode_unique hlegal.permitted hoffender hafter
    cases hlegal with
    | text fits => cases begun
    | continuation whole =>
      cases begun
      exact absurd whole (Nat.not_le.2 long)
    | ping short => cases opcode
    | pong short => cases opcode

/-- `read_server_frame` or `assemble_text_frame` fails on a frame that a server may not send. -/
theorem Offends.refused {ws : WebSocket} (h : Offends ws.fragmented ws.unread) :
    ∃ e, (readServerFrame ws >>= fun read => assembleTextFrame read.1 read.2) = .error e := by
  cases hboth : readServerFrame ws >>= fun read => assembleTextFrame read.1 read.2 with
  | error e => exact ⟨e, rfl⟩
  | ok assembled =>
    simp only [bind_ok] at hboth
    obtain ⟨⟨frame, ws'⟩, hread, hassembled⟩ := hboth
    obtain ⟨hunread, hframe, hadvanced⟩ := readServerFrame_ok hread
    have hlegal := Socket.assembleTextFrame_ok hframe hassembled
    rw [hadvanced.fragmented] at hlegal
    exact absurd ⟨_, hunread.symm⟩ (h.stuck frame hlegal)

end CodexKeyboard.Tts
