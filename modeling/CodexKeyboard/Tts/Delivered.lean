import CodexKeyboard.Tts.Delivery

/-! Runs of `read_tts_event`: what legal frames give, what a successful run has read, and the streams that end in
    an error. -/

namespace CodexKeyboard.Tts

open Schemes.Transact

variable {libs : Libs} {requestSubmitted : Bool} {frame other : ServerFrame} {frames others : List ServerFrame}
  {soFar : Option (List UInt8)} {rest : List UInt8}

/-! ### Frames in a row -/

theorem messages_append (soFar : Option (List UInt8)) (frames later : List ServerFrame) :
    messages soFar (frames ++ later) = messages soFar frames ++ messages (soFarAfter soFar frames) later := by
  induction frames generalizing soFar with
  | nil => rfl
  | cons frame frames ih => rw [List.cons_append, messages, ih, messages, List.append_assoc, soFarAfter, soFarAfter,
      List.foldl_cons]

theorem pings_append (frames later : List ServerFrame) : pings (frames ++ later) = pings frames ++ pings later :=
  List.filterMap_append

theorem encodeAll_append (frames later : List ServerFrame) :
    encodeAll (frames ++ later) = encodeAll frames ++ encodeAll later :=
  List.flatMap_append

theorem soFarAfter_append (soFar : Option (List UInt8)) (frames later : List ServerFrame) :
    soFarAfter soFar (frames ++ later) = soFarAfter (soFarAfter soFar frames) later :=
  List.foldl_append

theorem LegalFrom.append {later : List ServerFrame} (h : LegalFrom soFar frames)
    (hlater : LegalFrom (soFarAfter soFar frames) later) : LegalFrom soFar (frames ++ later) := by
  induction frames generalizing soFar with
  | nil => exact hlater
  | cons frame frames ih => exact ⟨h.1, ih h.2 hlater⟩

/-- Frames that end with a message hold one. -/
theorem Whole.messages_ne_nil (hwhole : Whole frames) (hframes : frames ≠ []) (soFar : Option (List UInt8)) :
    messages soFar frames ≠ [] := by
  induction frames generalizing soFar with
  | nil => exact absurd rfl hframes
  | cons frame frames ih =>
    cases frames with
    | nil =>
      obtain ⟨hdata, hfin⟩ := hwhole frame rfl
      rw [messages, ServerFrame.message, hdata, hfin]
      exact List.cons_ne_nil _ _
    | cons next frames =>
      intro hnone
      have hwhole' : Whole (next :: frames) := hwhole
      exact ih hwhole' (List.cons_ne_nil _ _) _ (List.append_eq_nil_iff.1 hnone).2

theorem Whole.tail (hwhole : Whole (frame :: frames)) : Whole frames := by
  cases frames with
  | nil => exact fun last hlast => nomatch hlast
  | cons next frames => exact hwhole

theorem mapM_length {α β : Type} {f : α → Option β} {as : List α} {bs : List β} (h : as.mapM f = some bs) :
    as.length = bs.length := by
  induction as generalizing bs with
  | nil =>
    cases h
    rfl
  | cons a as ih =>
    rw [List.mapM_cons] at h
    obtain ⟨b, -, hrest⟩ := Option.bind_eq_some_iff.1 h
    obtain ⟨others, hothers, heq⟩ := Option.bind_eq_some_iff.1 hrest
    cases heq
    exact congrArg (· + 1) (ih hothers)

/-! ### What legal frames give -/

namespace Socket

variable {s s' : Socket}

/-- As many calls as there are messages read them, and the frames, and answer the pings. -/
theorem readTtsEvents_arrives (h : s.Arrives soFar frames rest) (hwhole : Whole frames) :
    ∃ s' : Socket, s'.Arrives (soFarAfter soFar frames) [] rest ∧ s.Answered (pings frames) s' ∧
      s.readTtsEvents libs requestSubmitted (messages soFar frames).length =
        (orThrow (protocolFailure requestSubmitted) ((messages soFar frames).mapM libs.parseJson)).map
          fun events => (events, s') := by
  induction frames generalizing s soFar with
  | nil => exact ⟨s, h, .refl s, rfl⟩
  | cons frame frames ih =>
    obtain ⟨s₁, harrives, hanswered, hturn⟩ := @eventTurn_arrives libs requestSubmitted _ _ _ _ _ h
    obtain ⟨s', harrives', hanswered', hrun⟩ := ih harrives hwhole.tail
    have hpings : pings (frame :: frames) = frame.ping.toList ++ pings frames := by
      rw [pings, List.filterMap_cons]
      cases frame.ping with
      | none => rfl
      | some payload => rfl
    refine ⟨s', harrives', hpings ▸ hanswered.trans hanswered', ?_⟩
    rw [messages]
    cases hmessage : frame.message soFar with
    | some message =>
      rw [hmessage] at hturn
      dsimp only at hturn
      rw [Option.toList_some, List.singleton_append, List.length_cons, readTtsEvents, List.mapM_cons]
      cases hparse : libs.parseJson message with
      | none =>
        rw [hparse] at hturn
        have hread : s.readTtsEvent libs requestSubmitted = .error (protocolFailure requestSubmitted) := by
          rw [readTtsEvent_eq, hturn]
          rfl
        rw [hread]
        rfl
      | some event =>
        rw [hparse] at hturn
        have hread : s.readTtsEvent libs requestSubmitted = .ok (event, s₁) := by
          rw [readTtsEvent_eq, hturn]
          rfl
        rw [hread, ok_bind]
        dsimp only
        rw [hrun]
        cases (messages (frame.after soFar) frames).mapM libs.parseJson with
        | none => rfl
        | some events => rfl
    | none =>
      rw [hmessage] at hturn
      rw [Option.toList_none, List.nil_append, ← hrun]
      have hframes : frames ≠ [] := by
        rintro rfl
        obtain ⟨hdata, hfin⟩ := hwhole frame rfl
        rw [ServerFrame.message, hdata, hfin] at hmessage
        cases hmessage
      obtain ⟨calls, hcalls⟩ := Nat.exists_eq_succ_of_ne_zero
        (List.length_pos_iff.2 (hwhole.tail.messages_ne_nil hframes (frame.after soFar))).ne'
      rw [hcalls, readTtsEvents, readTtsEvents, readTtsEvent_eq, hturn]

/-! ### What a successful run has read -/

theorem assembleTextFrame_ok {ws ws' : WebSocket} {message : Option (List UInt8)} (hframe : frame.Permitted)
    (h : assembleTextFrame frame ws = .ok (message, ws')) : frame.Legal ws.fragmented := by
  obtain ⟨fin, opcode, payload⟩ := frame
  rw [assembleTextFrame] at h
  split at h
  next htext =>
    obtain ⟨hopcode, hnone⟩ := htext
    dsimp only at hopcode
    rw [hopcode, hnone]
    exact .text hframe.length
  next =>
    split at h
    next hopcode =>
      simp only [bind_ok, orThrow_ok, ensure_ok] at h
      obtain ⟨soFar, hsoFar, -, hfits, -⟩ := h
      dsimp only at hopcode
      rw [hopcode, hsoFar]
      exact .continuation hfits
    next => cases h

theorem writeMaskedPong_ok {payload : List UInt8} (h : s.writeMaskedPong payload = .ok s') :
    payload.length ≤ 125 ∧ s'.unread = s.unread ∧ s'.fragmented = s.fragmented ∧ s.Answered [payload] s' := by
  simp only [writeMaskedPong, writeMaskedControlFrame, bind_ok, ensure_ok, orThrow_ok] at h
  obtain ⟨-, hshort, hwrite⟩ := h
  obtain ⟨ws, hws, heq⟩ := Option.map_eq_some_iff.1 hwrite
  obtain ⟨connection, hconnection, heq'⟩ := Option.map_eq_some_iff.1 hws
  have harriving : connection.arriving = s.connection.arriving := by
    rw [Connection.write] at hconnection
    split at hconnection
    next => cases hconnection; rfl
    next => cases hconnection
  cases heq'
  cases heq
  refine ⟨hshort, ?_, rfl, rfl, rfl, ?_⟩
  · rw [WebSocket.unread, WebSocket.unread, harriving]
  · rw [pongs, pongs, List.append_nil]

/-- A socket behind legal frames that were read, with its pongs. -/
structure Took (s : Socket) (frames : List ServerFrame) (s' : Socket) : Prop where
  legal : LegalFrom s.fragmented frames
  unread : s.unread = encodeAll frames ++ s'.unread
  fragmented : s'.fragmented = soFarAfter s.fragmented frames
  answered : s.Answered (pings frames) s'

theorem Took.refl (s : Socket) : s.Took [] s := ⟨trivial, rfl, rfl, .refl s⟩

theorem Took.append {s'' : Socket} {later : List ServerFrame} (h : s.Took frames s') (h' : s'.Took later s'') :
    s.Took (frames ++ later) s'' := by
  refine ⟨h.legal.append (h.fragmented ▸ h'.legal), ?_, ?_, ?_⟩
  · rw [h.unread, h'.unread, encodeAll_append, List.append_assoc]
  · rw [h'.fragmented, h.fragmented, soFarAfter_append]
  · rw [pings_append]
    exact h.answered.trans h'.answered

/-- A turn that succeeds has read a legal frame. -/
theorem eventTurn_frame {event : Option Json} (h : s.eventTurn libs requestSubmitted = .ok (event, s')) :
    ∃ frame ws, readServerFrame s.toWebSocket = .ok (frame, ws) ∧ frame.Legal ws.fragmented := by
  rw [eventTurn] at h
  cases hread : readServerFrame s.toWebSocket with
  | error e =>
    rw [hread] at h
    cases h
  | ok read =>
    obtain ⟨frame, ws⟩ := read
    obtain ⟨-, hframe, -⟩ := readServerFrame_ok hread
    refine ⟨frame, ws, rfl, ?_⟩
    rw [hread] at h
    dsimp only at h
    split at h
    next =>
      cases hassembled : assembleTextFrame frame ws with
      | error e =>
        rw [hassembled] at h
        cases h
      | ok assembled => exact assembleTextFrame_ok hframe hassembled
    next =>
      have hcontrol (hopcode : 0x8 ≤ frame.opcode) : frame.fin = true ∧ frame.payload.length ≤ 125 := by
        obtain ⟨hfin, hshort⟩ := hframe.control.resolve_left (Nat.not_lt.2 hopcode)
        exact ⟨hfin, Nat.le_of_lt_succ hshort⟩
      obtain ⟨fin, opcode, payload⟩ := frame
      dsimp only at h hcontrol
      split at h
      next hping =>
        obtain ⟨rfl, hshort⟩ := hcontrol (by omega)
        rw [hping]
        exact .ping hshort
      next =>
        split at h
        next hpong =>
          obtain ⟨rfl, hshort⟩ := hcontrol (by omega)
          rw [hpong]
          exact .pong hshort
        next => cases h

theorem eventTurn_ok {event : Option Json} (h : s.eventTurn libs requestSubmitted = .ok (event, s')) :
    ∃ frame : ServerFrame, s.Took [frame] s' ∧
      (frame.message s.fragmented).toList.mapM libs.parseJson = some event.toList := by
  obtain ⟨frame, ws, hread, hlegal⟩ := eventTurn_frame h
  obtain ⟨hunread, -, hadvanced⟩ := readServerFrame_ok hread
  have hfragmented := hadvanced.fragmented
  rw [eventTurn_legal hread hlegal] at h
  rw [hfragmented] at h hlegal
  have htook {later : Socket} (hlater : later.unread = ws.unread)
      (hsoFar : later.fragmented = frame.after s.fragmented) (hpongs : s.Answered frame.ping.toList later) :
      s.Took [frame] later := by
    refine ⟨⟨hlegal, trivial⟩, ?_, hsoFar, ?_⟩
    · rw [hunread, hlater, encodeAll, List.flatMap_singleton]
    · rw [pings, List.filterMap_cons]
      cases hping : frame.ping with
      | none => rwa [hping] at hpongs
      | some payload => rwa [hping] at hpongs
  refine ⟨frame, ?_⟩
  cases hmessage : frame.message s.fragmented with
  | some message =>
    have hping : frame.ping = none := by
      cases hping : frame.ping with
      | none => rfl
      | some payload =>
        rw [(hlegal.pinged hping).1] at hmessage
        cases hmessage
    rw [hmessage] at h
    simp only [bind_ok, orThrow_ok] at h
    obtain ⟨event, hevent, heq⟩ := h
    cases heq
    refine ⟨htook rfl rfl (hping ▸ ⟨rfl, rfl, (List.append_nil _).symm⟩), ?_⟩
    rw [Option.toList_some, List.mapM_cons, hevent]
    rfl
  | none =>
    rw [hmessage] at h
    dsimp only at h
    cases hping : frame.ping with
    | none =>
      rw [hping] at h
      cases h
      exact ⟨htook rfl rfl (hping ▸ ⟨rfl, rfl, (List.append_nil _).symm⟩), rfl⟩
    | some payload =>
      rw [hping] at h
      dsimp only at h
      cases hpong : writeMaskedPong payload { s with toWebSocket := ws } with
      | error e =>
        rw [hpong] at h
        cases h
      | ok s₂ =>
        rw [hpong] at h
        cases h
        obtain ⟨-, hlater, hsoFar, hanswered⟩ := writeMaskedPong_ok hpong
        refine ⟨htook hlater (hsoFar.trans (hfragmented.trans (hlegal.pinged hping).2.1.symm)) ?_, rfl⟩
        rw [hping]
        exact ⟨hanswered.masks, hanswered.drawn, hanswered.written⟩

theorem readTtsEvent_ok {event : Json} (h : s.readTtsEvent libs requestSubmitted = .ok (event, s')) :
    ∃ frames, s.Took frames s' ∧ (messages s.fragmented frames).mapM libs.parseJson = some [event] := by
  induction hleft : s.left using Nat.strongRecOn generalizing s with
  | ind left ih =>
  rw [readTtsEvent_eq] at h
  cases hturn : s.eventTurn libs requestSubmitted with
  | error e =>
    rw [hturn] at h
    cases h
  | ok turn =>
    obtain ⟨given, s₁⟩ := turn
    obtain ⟨frame, htook, hgiven⟩ := eventTurn_ok hturn
    rw [hturn] at h
    cases given with
    | some given =>
      cases h
      refine ⟨[frame], htook, ?_⟩
      rw [messages, messages, List.append_nil, hgiven]
      rfl
    | none =>
      obtain ⟨frames, hlater, hevent⟩ := ih s₁.left (hleft ▸ eventTurn_left hturn) h rfl
      refine ⟨frame :: frames, htook.append hlater, ?_⟩
      rw [htook.fragmented] at hevent
      rw [messages, List.mapM_append, hgiven]
      dsimp only [Option.toList_none, Option.bind_eq_bind, Option.bind_some]
      rw [soFarAfter, List.foldl_cons, List.foldl_nil] at hevent
      rw [hevent]
      rfl

/-- Calls that succeed have read legal frames, whole: the events are what the messages parse to. -/
theorem readTtsEvents_ok {calls : Nat} {events : List Json}
    (h : s.readTtsEvents libs requestSubmitted calls = .ok (events, s')) :
    ∃ frames, s.Took frames s' ∧ (messages s.fragmented frames).mapM libs.parseJson = some events ∧
      events.length = calls := by
  induction calls generalizing s events with
  | zero =>
    cases h
    exact ⟨[], .refl _, rfl, rfl⟩
  | succ calls ih =>
    simp only [readTtsEvents, bind_ok] at h
    obtain ⟨⟨event, s₁⟩, hread, ⟨events, s₂⟩, hrest, heq⟩ := h
    cases heq
    obtain ⟨frames, htook, hevent⟩ := readTtsEvent_ok hread
    obtain ⟨later, hlater, hevents, hlength⟩ := ih hrest
    refine ⟨frames ++ later, htook.append hlater, ?_, congrArg (· + 1) hlength⟩
    rw [messages_append, List.mapM_append, hevent, ← htook.fragmented, hevents]
    rfl

end Socket

end CodexKeyboard.Tts
