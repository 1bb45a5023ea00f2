import CodexKeyboard.Schemes.Bytes
import CodexKeyboard.Config.Reader

/-! `ConfigReceiver` of `config_receiver.cpp`: a payload put together from its chunks, in order and within one
    lifetime of the endpoint.

    Numbers of 8 and 16 bits are `Nat` where they are compared and added; no sum leaves its type. -/

namespace CodexKeyboard.Config

open Schemes.Bytes Schemes.Chunks

def kConfigReportId : UInt8 := 0x10
def kConfigHeaderLen : Nat := 11
def kConfigMaxChunkData : Nat := 52
def kConfigMaxJsonLen : Nat := 2048

/-! ### The checksum -/

/-- One of the eight steps for a byte. -/
def crc16Bit (crc : UInt16) : UInt16 := if crc &&& 0x8000 != 0 then (crc <<< 1) ^^^ 0x1021 else crc <<< 1

def crc16Byte (crc : UInt16) (byte : UInt8) : UInt16 := crc16Bit^[8] (crc ^^^ (byte.toUInt16 <<< 8))

def crc16Ccitt (data : Bytes) : UInt16 := data.foldl crc16Byte 0xFFFF

/-! ### Chunks -/

/-- A status, with the payload of `Complete`. -/
inductive ConfigReceiveResult where
  | pending
  | complete (json : Bytes)
  | invalidReport
  | malformedChunk
  | outOfOrder
  | crcMismatch
  deriving DecidableEq, Repr

/-- What every chunk of a payload says of the whole. -/
structure Announced where
  totalLen : Nat := 0
  expectedCrc : Nat := 0
  totalChunks : Nat := 0
  deriving DecidableEq, Repr

structure ConfigReceiver where
  buffer : Bytes := List.replicate (kConfigMaxJsonLen + 1) 0
  announced : Announced := {}
  nextChunk : Nat := 0
  receivedLen : Nat := 0
  deriving DecidableEq, Repr

/-- The report without its id, if it has one. -/
def configBody (data : Bytes) : Bytes :=
  if data.head? = some kConfigReportId ∧ 1 < data.length then data.drop 1 else data

def isConfigBody (body : Bytes) : Bool :=
  decide (kConfigHeaderLen ≤ body.length) && body.take 4 == [0x53, 0x33, 0x43, 1]

def chunkIndex (body : Bytes) : Nat := (body.getD 4 0).toNat
def chunkLen (body : Bytes) : Nat := (body.getD 8 0).toNat

def announcedBy (body : Bytes) : Announced where
  totalLen := leNat (slice body 6 2)
  expectedCrc := leNat (slice body 9 2)
  totalChunks := (body.getD 5 0).toNat

def chunkPayload (body : Bytes) : Bytes := slice body kConfigHeaderLen (chunkLen body)

def isMalformed (body : Bytes) : Bool :=
  (announcedBy body).totalChunks == 0 || decide ((announcedBy body).totalChunks ≤ chunkIndex body) ||
    (announcedBy body).totalLen == 0 || decide (kConfigMaxJsonLen < (announcedBy body).totalLen) ||
    decide (kConfigMaxChunkData < chunkLen body) || decide (body.length < kConfigHeaderLen + chunkLen body)

namespace ConfigReceiver

/-- A first chunk begins anew. -/
def announce (receiver : ConfigReceiver) (body : Bytes) : ConfigReceiver :=
  if chunkIndex body = 0 then
    { buffer := List.replicate receiver.buffer.length 0, announced := announcedBy body,
      nextChunk := 0, receivedLen := 0 }
  else receiver

/-- The chunk is not the next one, or does not fit. -/
def isOutOfOrder (receiver : ConfigReceiver) (body : Bytes) : Bool :=
  chunkIndex body != receiver.nextChunk || announcedBy body != receiver.announced ||
    decide (receiver.announced.totalLen < receiver.receivedLen + chunkLen body)

def take (receiver : ConfigReceiver) (body : Bytes) : ConfigReceiver :=
  { receiver with
    buffer := splice receiver.buffer receiver.receivedLen (chunkPayload body)
    receivedLen := receiver.receivedLen + chunkLen body
    nextChunk := receiver.nextChunk + 1 }

/-- Behind the last chunk. -/
def finish (receiver : ConfigReceiver) : ConfigReceiveResult × ConfigReceiver :=
  if receiver.nextChunk < receiver.announced.totalChunks then (.pending, receiver)
  else if receiver.receivedLen ≠ receiver.announced.totalLen ∨
      (crc16Ccitt (receiver.buffer.take receiver.receivedLen)).toNat ≠ receiver.announced.expectedCrc then
    (.crcMismatch, receiver)
  else
    (.complete (receiver.buffer.take receiver.receivedLen),
      { receiver with buffer := splice receiver.buffer receiver.receivedLen [0] })

def receive (receiver : ConfigReceiver) (data : Bytes) : ConfigReceiveResult × ConfigReceiver :=
  let body := configBody data
  if isConfigBody body = false then (.invalidReport, receiver)
  else if isMalformed body then (.malformedChunk, receiver)
  else if (receiver.announce body).isOutOfOrder body then (.outOfOrder, receiver.announce body)
  else ((receiver.announce body).take body).finish

def reset (_ : ConfigReceiver) : ConfigReceiver := {}

end ConfigReceiver

structure EndpointBoundConfigReceiver where
  receiver : ConfigReceiver := {}
  endpointEpoch : Nat := 0
  deriving DecidableEq, Repr

namespace EndpointBoundConfigReceiver

/-- The receiver of the epoch: another one begins empty. -/
def within (bound : EndpointBoundConfigReceiver) (endpointEpoch : Nat) : ConfigReceiver :=
  if bound.endpointEpoch ≠ endpointEpoch then bound.receiver.reset else bound.receiver

def receive (bound : EndpointBoundConfigReceiver) (endpointEpoch : Nat) (data : Bytes) :
    ConfigReceiveResult × EndpointBoundConfigReceiver :=
  if endpointEpoch = 0 then (.invalidReport, bound)
  else (((bound.within endpointEpoch).receive data).1, ⟨((bound.within endpointEpoch).receive data).2, endpointEpoch⟩)

def reset (bound : EndpointBoundConfigReceiver) : EndpointBoundConfigReceiver := ⟨bound.receiver.reset, 0⟩

end EndpointBoundConfigReceiver

/-! ### What is in the buffer -/

variable {receiver : ConfigReceiver} {body data : Bytes} {offset : Nat}

theorem take_splice (block payload : Bytes) (h : offset ≤ block.length) :
    (splice block offset payload).take (offset + payload.length) = block.take offset ++ payload := by
  have hlength : (block.take offset ++ payload).length = offset + payload.length := by
    rw [List.length_append, List.length_take, Nat.min_eq_left h]
  rw [splice, List.take_left' hlength]

/-- A chunk that is taken fits its report and the buffer. -/
structure Taken (receiver : ConfigReceiver) (body : Bytes) : Prop where
  config : isConfigBody body = true
  wellFormed : isMalformed body = false
  next : chunkIndex body = (receiver.announce body).nextChunk
  same : announcedBy body = (receiver.announce body).announced
  fits : (receiver.announce body).receivedLen + chunkLen body ≤ (receiver.announce body).announced.totalLen

theorem receive_eq (receiver : ConfigReceiver) (data : Bytes) : receiver.receive data =
    if isConfigBody (configBody data) = false then (.invalidReport, receiver)
    else if isMalformed (configBody data) then (.malformedChunk, receiver)
    else if (receiver.announce (configBody data)).isOutOfOrder (configBody data) then
      (.outOfOrder, receiver.announce (configBody data))
    else ((receiver.announce (configBody data)).take (configBody data)).finish := rfl

theorem receive_taken (h : Taken receiver (configBody data)) :
    receiver.receive data = ((receiver.announce (configBody data)).take (configBody data)).finish := by
  have horder : (receiver.announce (configBody data)).isOutOfOrder (configBody data) = false := by
    rw [ConfigReceiver.isOutOfOrder, h.next, h.same]
    simp [h.fits]
  rw [receive_eq, if_neg (by simp [h.config]), if_neg (by simp [h.wellFormed]), if_neg (by simp [horder])]

/-- A report is taken, or leaves the receiver as it is or as its first chunk begins it. -/
theorem receive_cases (receiver : ConfigReceiver) (data : Bytes) :
    ((receiver.receive data).2 = receiver ∨
        isMalformed (configBody data) = false ∧ (receiver.receive data).2 = receiver.announce (configBody data)) ∧
          (∀ json, (receiver.receive data).1 ≠ .complete json) ∨
      Taken receiver (configBody data) := by
  rw [receive_eq]
  split
  · exact Or.inl ⟨Or.inl rfl, nofun⟩
  next hconfig =>
    split
    · exact Or.inl ⟨Or.inl rfl, nofun⟩
    next hformed =>
      split
      · exact Or.inl ⟨Or.inr ⟨by simpa using hformed, rfl⟩, nofun⟩
      next horder =>
        rw [ConfigReceiver.isOutOfOrder] at horder
        simp only [Bool.or_eq_true, bne_iff_ne, decide_eq_true_eq, not_or, not_not, Nat.not_lt] at horder
        exact Or.inr ⟨by simpa using hconfig, by simpa using hformed, horder.1.1, horder.1.2, horder.2⟩

theorem chunkPayload_length (h : isMalformed body = false) : (chunkPayload body).length = chunkLen body := by
  rw [isMalformed] at h
  simp only [Bool.or_eq_false_iff, decide_eq_false_iff_not, Nat.not_lt] at h
  exact length_slice h.2

/-- The array is whole, and what was received is inside. -/
structure ConfigReceiver.Sized (receiver : ConfigReceiver) : Prop where
  buffer : receiver.buffer.length = kConfigMaxJsonLen + 1
  received : receiver.receivedLen ≤ receiver.announced.totalLen
  total : receiver.announced.totalLen ≤ kConfigMaxJsonLen

theorem sized_reset (receiver : ConfigReceiver) : receiver.reset.Sized :=
  ⟨List.length_replicate, Nat.le_refl 0, Nat.zero_le _⟩

theorem sized_announce (h : receiver.Sized) (hformed : isMalformed body = false) : (receiver.announce body).Sized := by
  rw [isMalformed] at hformed
  simp only [Bool.or_eq_false_iff, decide_eq_false_iff_not, Nat.not_lt] at hformed
  rw [ConfigReceiver.announce]
  split
  · exact ⟨List.length_replicate.trans h.buffer, Nat.zero_le _, hformed.1.1.2⟩
  · exact h

theorem sized_take (h : receiver.Sized) (htaken : Taken receiver body) :
    ((receiver.announce body).take body).Sized := by
  have hannounced := sized_announce h htaken.wellFormed
  have hpayload := chunkPayload_length htaken.wellFormed
  have hfits := htaken.fits
  have htotal := hannounced.total
  refine ⟨?_, hfits, htotal⟩
  rw [ConfigReceiver.take, length_splice, hannounced.buffer]
  rw [hpayload, hannounced.buffer]
  omega

theorem sized_finish (h : receiver.Sized) : receiver.finish.2.Sized := by
  have hreceived := h.received
  have htotal := h.total
  rw [ConfigReceiver.finish]
  split
  · exact h
  · split
    · exact h
    · refine ⟨?_, h.received, h.total⟩
      rw [length_splice, h.buffer]
      rw [h.buffer, List.length_singleton]
      omega

/-- No report writes outside the array. -/
theorem sized_receive (h : receiver.Sized) (data : Bytes) : (receiver.receive data).2.Sized := by
  rcases receive_cases receiver data with ⟨hsame | ⟨hformed, hannounced⟩, -⟩ | htaken
  · rw [hsame]
    exact h
  · rw [hannounced]
    exact sized_announce h hformed
  · rw [receive_taken htaken]
    exact sized_finish (sized_take h htaken)

/-! ### Runs -/

/-- The calls of a receiver that is bound to its endpoint. -/
inductive ReceiverCall where
  | receive (endpointEpoch : Nat) (data : Bytes)
  | reset
  deriving DecidableEq, Repr

def EndpointBoundConfigReceiver.call (bound : EndpointBoundConfigReceiver) : ReceiverCall → EndpointBoundConfigReceiver
  | .receive endpointEpoch data => (bound.receive endpointEpoch data).2
  | .reset => bound.reset

def EndpointBoundConfigReceiver.run (calls : List ReceiverCall) : EndpointBoundConfigReceiver :=
  calls.foldl EndpointBoundConfigReceiver.call {}

theorem EndpointBoundConfigReceiver.run_snoc (calls : List ReceiverCall) (call : ReceiverCall) :
    EndpointBoundConfigReceiver.run (calls ++ [call]) = (EndpointBoundConfigReceiver.run calls).call call := by
  rw [EndpointBoundConfigReceiver.run, List.foldl_append]
  rfl

/-- The chunks of one payload, the first one first: of one announcement and in order. -/
structure InOrder (announced : Announced) (bodies : List Bytes) : Prop where
  config : ∀ body ∈ bodies, isConfigBody body = true ∧ isMalformed body = false ∧ announcedBy body = announced
  index : bodies.map chunkIndex = List.range bodies.length

/-- The reports of one lifetime that were put together: a part of the last calls, with no other lifetime and no reset
    between them. -/
structure Gathered (calls : List ReceiverCall) (endpointEpoch : Nat) (reports : List Bytes) : Prop where
  within : ∃ before recent, calls = before ++ recent ∧
    (∀ call ∈ recent, ∃ data, call = .receive endpointEpoch data ∨ call = .receive 0 data) ∧
    (reports.map (ReceiverCall.receive endpointEpoch)).Sublist recent

/-- What the receiver holds: the chunks it took. -/
structure Holds (calls : List ReceiverCall) (bound : EndpointBoundConfigReceiver) (reports : List Bytes) : Prop where
  sized : bound.receiver.Sized
  gathered : Gathered calls bound.endpointEpoch reports
  order : InOrder bound.receiver.announced (reports.map configBody)
  next : bound.receiver.nextChunk = reports.length
  received : bound.receiver.receivedLen = (reports.flatMap fun data => chunkPayload (configBody data)).length
  buffer : bound.receiver.buffer.take bound.receiver.receivedLen =
    reports.flatMap fun data => chunkPayload (configBody data)

variable {calls : List ReceiverCall} {bound : EndpointBoundConfigReceiver} {reports : List Bytes}
  {announced : Announced} {endpointEpoch : Nat}

theorem inOrder_nil (announced : Announced) : InOrder announced [] := ⟨nofun, rfl⟩

theorem gathered_nil (calls : List ReceiverCall) (endpointEpoch : Nat) : Gathered calls endpointEpoch [] :=
  ⟨calls, [], (List.append_nil calls).symm, nofun, List.Sublist.refl _⟩

theorem holds_nil (calls : List ReceiverCall) (endpointEpoch : Nat) : Holds calls ⟨{}, endpointEpoch⟩ [] where
  sized := sized_reset {}
  gathered := gathered_nil calls endpointEpoch
  order := inOrder_nil {}
  next := rfl
  received := rfl
  buffer := rfl

theorem Gathered.more (h : Gathered calls endpointEpoch reports) (data : Bytes) (epoch : Nat)
    (hepoch : epoch = endpointEpoch ∨ epoch = 0) : Gathered (calls ++ [.receive epoch data]) endpointEpoch reports := by
  obtain ⟨before, recent, rfl, hrecent, hsub⟩ := h.within
  refine ⟨before, recent ++ [.receive epoch data], List.append_assoc _ _ _, fun call hcall => ?_,
    hsub.trans (List.sublist_append_left _ _)⟩
  rcases List.mem_append.1 hcall with hold | hnew
  · exact hrecent call hold
  · rw [List.mem_singleton.1 hnew]
    rcases hepoch with rfl | rfl
    · exact ⟨data, Or.inl rfl⟩
    · exact ⟨data, Or.inr rfl⟩

theorem Gathered.add (h : Gathered calls endpointEpoch reports) (data : Bytes) :
    Gathered (calls ++ [.receive endpointEpoch data]) endpointEpoch (reports ++ [data]) := by
  obtain ⟨before, recent, rfl, hrecent, hsub⟩ := h.within
  refine ⟨before, recent ++ [.receive endpointEpoch data], List.append_assoc _ _ _, fun call hcall => ?_, ?_⟩
  · rcases List.mem_append.1 hcall with hold | hnew
    · exact hrecent call hold
    · rw [List.mem_singleton.1 hnew]
      exact ⟨data, Or.inl rfl⟩
  · rw [List.map_append]
    exact hsub.append (List.Sublist.refl _)

theorem Holds.more (h : Holds calls bound reports) (data : Bytes) (epoch : Nat)
    (hepoch : epoch = bound.endpointEpoch ∨ epoch = 0) : Holds (calls ++ [.receive epoch data]) bound reports :=
  { h with gathered := h.gathered.more data epoch hepoch }

theorem holds_within (h : Holds calls bound reports) (endpointEpoch : Nat) :
    ∃ reports, Holds calls ⟨bound.within endpointEpoch, endpointEpoch⟩ reports := by
  rw [EndpointBoundConfigReceiver.within]
  split
  · exact ⟨[], holds_nil calls endpointEpoch⟩
  next hsame =>
    rw [not_not] at hsame
    subst hsame
    exact ⟨reports, h⟩

/-- With a first chunk the receiver holds none. -/
theorem holds_first (h : Holds calls ⟨receiver, endpointEpoch⟩ reports) (hformed : isMalformed body = false)
    (hfirst : chunkIndex body = 0) : Holds calls ⟨receiver.announce body, endpointEpoch⟩ [] := by
  have hsized : (receiver.announce body).Sized := sized_announce h.sized hformed
  rw [ConfigReceiver.announce, if_pos hfirst] at hsized ⊢
  obtain ⟨before, recent, hcalls, hrecent, -⟩ := h.gathered.within
  exact ⟨hsized, ⟨before, recent, hcalls, hrecent, List.nil_sublist _⟩, inOrder_nil _, rfl, rfl, rfl⟩

theorem announce_later (h : chunkIndex body ≠ 0) : receiver.announce body = receiver := by
  rw [ConfigReceiver.announce, if_neg h]

theorem holds_announce (h : Holds calls ⟨receiver, endpointEpoch⟩ reports) (hformed : isMalformed body = false) :
    ∃ reports, Holds calls ⟨receiver.announce body, endpointEpoch⟩ reports := by
  rcases Nat.eq_zero_or_pos (chunkIndex body) with hfirst | hlater
  · exact ⟨[], holds_first h hformed hfirst⟩
  · rw [announce_later (Nat.ne_of_gt hlater)]
    exact ⟨reports, h⟩

theorem holds_take (htaken : Taken receiver (configBody data))
    (h : Holds calls ⟨receiver.announce (configBody data), endpointEpoch⟩ reports) :
    Holds (calls ++ [.receive endpointEpoch data])
      ⟨(receiver.announce (configBody data)).take (configBody data), endpointEpoch⟩ (reports ++ [data]) := by
  have hpayload := chunkPayload_length htaken.wellFormed
  have hbuffer := h.sized.buffer
  have htotal := h.sized.total
  have hreceived := h.sized.received
  have hfits := htaken.fits
  dsimp only at hbuffer htotal hreceived
  refine ⟨⟨?_, hfits, htotal⟩, h.gathered.add data, ⟨?_, ?_⟩, ?_, ?_, ?_⟩
  · rw [ConfigReceiver.take, length_splice]
    · exact hbuffer
    · omega
  · intro body hbody
    rw [List.map_append, List.mem_append] at hbody
    rcases hbody with hold | hnew
    · exact h.order.config body hold
    · rw [List.map_singleton, List.mem_singleton] at hnew
      rw [hnew]
      exact ⟨htaken.config, htaken.wellFormed, htaken.same⟩
  · have hindex := h.order.index
    rw [List.length_map] at hindex
    rw [List.map_append, List.map_append, hindex, List.length_append, List.length_map, List.map_singleton,
      List.map_singleton, List.length_singleton, List.range_succ, htaken.next]
    exact congrArg (fun n => List.range reports.length ++ [n]) h.next
  · rw [List.length_append]
    exact congrArg (· + 1) h.next
  · rw [List.flatMap_append, List.length_append, List.flatMap_singleton, hpayload]
    exact congrArg (· + chunkLen (configBody data)) h.received
  · have hinside : (receiver.announce (configBody data)).receivedLen ≤
        (receiver.announce (configBody data)).buffer.length := by omega
    have hfill := take_splice _ (chunkPayload (configBody data)) hinside
    rw [hpayload] at hfill
    rw [List.flatMap_append, List.flatMap_singleton]
    exact hfill.trans (congrArg (· ++ chunkPayload (configBody data)) h.buffer)

/-- The zero behind the text leaves the text as it is. -/
theorem holds_finish (h : Holds calls ⟨receiver, endpointEpoch⟩ reports) :
    Holds calls ⟨receiver.finish.2, endpointEpoch⟩ reports := by
  have hsized := sized_finish h.sized
  rw [ConfigReceiver.finish] at hsized ⊢
  split
  · exact h
  next hlast =>
    rw [if_neg hlast] at hsized
    split
    · exact h
    next hmatch =>
      rw [if_neg hmatch] at hsized
      have hinside : receiver.receivedLen ≤ receiver.buffer.length := by
        have hbuffer := h.sized.buffer
        have htotal := h.sized.total
        have hreceived := h.sized.received
        dsimp only at hbuffer htotal hreceived
        omega
      have hlength : (receiver.buffer.take receiver.receivedLen).length = receiver.receivedLen := by
        rw [List.length_take, Nat.min_eq_left hinside]
      refine ⟨hsized, h.gathered, h.order, h.next, h.received, ?_⟩
      rw [splice, List.append_assoc, List.take_left' hlength]
      exact h.buffer

theorem holds_receive (h : Holds calls ⟨receiver, endpointEpoch⟩ reports) (data : Bytes) :
    ∃ reports, Holds (calls ++ [.receive endpointEpoch data]) ⟨(receiver.receive data).2, endpointEpoch⟩ reports := by
  rcases receive_cases receiver data with ⟨hsame | ⟨hformed, hannounced⟩, -⟩ | htaken
  · rw [hsame]
    exact ⟨reports, h.more data endpointEpoch (Or.inl rfl)⟩
  · rw [hannounced]
    obtain ⟨after, hafter⟩ := holds_announce h hformed
    exact ⟨after, hafter.more data endpointEpoch (Or.inl rfl)⟩
  · rw [receive_taken htaken]
    obtain ⟨after, hafter⟩ := holds_announce h htaken.wellFormed
    exact ⟨after ++ [data], holds_finish (holds_take htaken hafter)⟩

theorem holds_call (h : Holds calls bound reports) (call : ReceiverCall) :
    ∃ reports, Holds (calls ++ [call]) (bound.call call) reports := by
  cases call with
  | reset => exact ⟨[], holds_nil _ 0⟩
  | receive epoch data =>
    rw [EndpointBoundConfigReceiver.call, EndpointBoundConfigReceiver.receive]
    split
    next hzero => exact ⟨reports, h.more data epoch (Or.inr hzero)⟩
    · obtain ⟨within, hwithin⟩ := holds_within h epoch
      exact holds_receive hwithin data

/-- After every run the receiver holds the chunks of one payload, in order and of one lifetime. -/
theorem run_holds (calls : List ReceiverCall) :
    ∃ reports, Holds calls (EndpointBoundConfigReceiver.run calls) reports := by
  induction calls using List.reverseRecOn with
  | nil => exact ⟨[], holds_nil [] 0⟩
  | append_singleton calls call ih =>
    obtain ⟨reports, h⟩ := ih
    rw [EndpointBoundConfigReceiver.run_snoc]
    exact holds_call h call

/-- A payload handed over, and the reports it was put together from. -/
structure Assembled (announced : Announced) (reports : List Bytes) (json : Bytes) : Prop where
  order : InOrder announced (reports.map configBody)
  all : reports.length = announced.totalChunks
  joined : json = reports.flatMap fun data => chunkPayload (configBody data)
  length : json.length = announced.totalLen
  bounded : 0 < json.length ∧ json.length ≤ kConfigMaxJsonLen
  checksum : (crc16Ccitt json).toNat = announced.expectedCrc

theorem finish_complete {json : Bytes} (hjson : receiver.finish.1 = .complete json) :
    receiver.announced.totalChunks ≤ receiver.nextChunk ∧ receiver.receivedLen = receiver.announced.totalLen ∧
      (crc16Ccitt json).toNat = receiver.announced.expectedCrc ∧ json = receiver.buffer.take receiver.receivedLen := by
  rw [ConfigReceiver.finish] at hjson
  split at hjson
  · cases hjson
  next hlast =>
    split at hjson
    · cases hjson
    next hmatch =>
      rw [not_or, not_not, not_not] at hmatch
      cases hjson
      exact ⟨Nat.not_lt.1 hlast, hmatch.1, hmatch.2, rfl⟩

theorem assembled_finish {json : Bytes} (h : Holds calls ⟨receiver, endpointEpoch⟩ (reports ++ [data]))
    (hjson : receiver.finish.1 = .complete json) : Assembled receiver.announced (reports ++ [data]) json := by
  obtain ⟨hlast, hreceived, hcrc, rfl⟩ := finish_complete hjson
  have hnext := h.next
  have hbuffer := h.buffer
  have hlength := h.received
  have htotal := h.sized.total
  dsimp only at hnext hbuffer hlength htotal
  rw [← hbuffer] at hlength
  -- the last chunk says that its index is one of the announced ones
  obtain ⟨-, hformed, hannounced⟩ := h.order.config (configBody data) (by simp)
  have hindex : chunkIndex (configBody data) = reports.length := by
    have hrange := congrArg (fun indices => indices[reports.length]?) h.order.index
    simpa using hrange
  rw [isMalformed, hannounced, hindex] at hformed
  simp only [Bool.or_eq_false_iff, decide_eq_false_iff_not, Nat.not_le, beq_eq_false_iff_ne] at hformed
  obtain ⟨⟨⟨⟨⟨-, hbelow⟩, hsome⟩, -⟩, -⟩, -⟩ := hformed
  rw [List.length_append, List.length_singleton] at hnext
  refine ⟨h.order, ?_, hbuffer, hlength.symm.trans hreceived, ?_, hcrc⟩
  · rw [List.length_append, List.length_singleton]
    omega
  · rw [← hlength, hreceived]
    exact ⟨Nat.pos_of_ne_zero hsome, htotal⟩

theorem holds_complete {json : Bytes} (h : Holds calls bound reports)
    (hjson : (bound.receive endpointEpoch data).1 = .complete json) :
    endpointEpoch ≠ 0 ∧ ∃ earlier announced, Assembled announced (earlier ++ [data]) json ∧
      Gathered (calls ++ [.receive endpointEpoch data]) endpointEpoch (earlier ++ [data]) := by
  rw [EndpointBoundConfigReceiver.receive] at hjson
  split at hjson
  · cases hjson
  next hepoch =>
    refine ⟨hepoch, ?_⟩
    dsimp only at hjson
    obtain ⟨within, hwithin⟩ := holds_within h endpointEpoch
    rcases receive_cases (bound.within endpointEpoch) data with ⟨-, hnot⟩ | htaken
    · exact absurd hjson (hnot json)
    · obtain ⟨earlier, hearlier⟩ := holds_announce hwithin htaken.wellFormed
      have htake := holds_take htaken hearlier
      rw [receive_taken htaken] at hjson
      exact ⟨earlier, _, assembled_finish htake hjson, htake.gathered⟩

/-- A payload is complete only when its chunks came in order, all of one announcement and within one lifetime of the
    endpoint; it is what they carry, and it has the length and the checksum they announce. -/
theorem complete_sound (calls : List ReceiverCall) (endpointEpoch : Nat) (data json : Bytes)
    (hjson : ((EndpointBoundConfigReceiver.run calls).receive endpointEpoch data).1 = .complete json) :
    endpointEpoch ≠ 0 ∧ ∃ earlier announced, Assembled announced (earlier ++ [data]) json ∧
      Gathered (calls ++ [.receive endpointEpoch data]) endpointEpoch (earlier ++ [data]) := by
  obtain ⟨reports, h⟩ := run_holds calls
  exact holds_complete h hjson

/-! ### Delivery -/

namespace EndpointBoundConfigReceiver

/-- What becomes of reports that follow one another within one lifetime. -/
def deliver (bound : EndpointBoundConfigReceiver) (endpointEpoch : Nat) : List Bytes → List ConfigReceiveResult
  | [] => []
  | data :: reports =>
    (bound.receive endpointEpoch data).1 :: (bound.receive endpointEpoch data).2.deliver endpointEpoch reports

end EndpointBoundConfigReceiver

section Delivery

variable {json : Bytes} {earlier rest : List Bytes}

theorem Assembled.index (h : Assembled announced (earlier ++ data :: rest) json) :
    isConfigBody (configBody data) = true ∧ isMalformed (configBody data) = false ∧
      announcedBy (configBody data) = announced ∧ chunkIndex (configBody data) = earlier.length := by
  obtain ⟨hconfig, hformed, hannounced⟩ := h.order.config (configBody data) (by simp)
  have hrange := congrArg (fun indices => indices[earlier.length]?) h.order.index
  exact ⟨hconfig, hformed, hannounced, by simpa using hrange⟩

/-- The next chunk of a payload is taken. -/
theorem Assembled.taken (h : Assembled announced (earlier ++ data :: rest) json)
    (hholds : Holds calls ⟨receiver.announce (configBody data), endpointEpoch⟩ earlier)
    (hannounced : (receiver.announce (configBody data)).announced = announced) : Taken receiver (configBody data) := by
  obtain ⟨hconfig, hformed, hsame, hindex⟩ := h.index
  refine ⟨hconfig, hformed, hindex.trans hholds.next.symm, hsame.trans hannounced.symm, ?_⟩
  have hreceived := hholds.received
  dsimp only at hreceived
  rw [hreceived, hannounced, ← h.length, h.joined, ← chunkPayload_length hformed, List.flatMap_append,
    List.length_append, List.flatMap_cons, List.length_append]
  omega

/-- Behind the last chunk of a payload the receiver has all of it. -/
theorem Assembled.finish (h : Assembled announced reports json) (hholds : Holds calls ⟨receiver, endpointEpoch⟩ reports)
    (hannounced : receiver.announced = announced) : receiver.finish.1 = .complete json := by
  have hnext := hholds.next
  have hreceived := hholds.received
  have hbuffer := hholds.buffer
  dsimp only at hnext hreceived hbuffer
  rw [← h.joined] at hreceived hbuffer
  have hlast : ¬ receiver.nextChunk < receiver.announced.totalChunks := by
    rw [hnext, hannounced, h.all]
    exact Nat.lt_irrefl _
  have hmatch : ¬ (receiver.receivedLen ≠ receiver.announced.totalLen ∨
      (crc16Ccitt (receiver.buffer.take receiver.receivedLen)).toNat ≠ receiver.announced.expectedCrc) := by
    rw [not_or, not_not, not_not, hbuffer, hannounced]
    exact ⟨hreceived.trans h.length, h.checksum⟩
  rw [ConfigReceiver.finish, if_neg hlast, if_neg hmatch, hbuffer]

theorem finish_pending (h : receiver.nextChunk < receiver.announced.totalChunks) :
    receiver.finish = (.pending, receiver) := by
  rw [ConfigReceiver.finish, if_pos h]

theorem receive_within (hepoch : endpointEpoch ≠ 0) (bound : EndpointBoundConfigReceiver) (data : Bytes) :
    bound.receive endpointEpoch data = (((bound.within endpointEpoch).receive data).1,
      ⟨((bound.within endpointEpoch).receive data).2, endpointEpoch⟩) := by
  rw [EndpointBoundConfigReceiver.receive, if_neg hepoch]

theorem within_same (receiver : ConfigReceiver) (endpointEpoch : Nat) :
    EndpointBoundConfigReceiver.within ⟨receiver, endpointEpoch⟩ endpointEpoch = receiver := by
  rw [EndpointBoundConfigReceiver.within, if_neg (not_not.2 rfl)]

/-- Of the chunks that are left each but the last is pending. -/
theorem deliver_rest (hepoch : endpointEpoch ≠ 0) (h : Assembled announced (earlier ++ data :: rest) json)
    (hbound : bound.within endpointEpoch = receiver)
    (hholds : Holds calls ⟨receiver.announce (configBody data), endpointEpoch⟩ earlier)
    (hannounced : (receiver.announce (configBody data)).announced = announced) :
    bound.deliver endpointEpoch (data :: rest) = List.replicate rest.length .pending ++ [.complete json] := by
  induction rest generalizing bound receiver calls earlier data with
  | nil =>
    have htaken := h.taken hholds hannounced
    rw [EndpointBoundConfigReceiver.deliver, receive_within hepoch, hbound, receive_taken htaken,
      h.finish (holds_take htaken hholds) hannounced]
    rfl
  | cons second rest ih =>
    have htaken := h.taken hholds hannounced
    have hnext := holds_take htaken hholds
    have hreports : earlier ++ data :: second :: rest = (earlier ++ [data]) ++ second :: rest := by simp
    have hpending : ((receiver.announce (configBody data)).take (configBody data)).finish =
        (.pending, (receiver.announce (configBody data)).take (configBody data)) := by
      refine finish_pending ?_
      have hcount := hnext.next
      have hall := h.all
      dsimp only at hcount
      rw [hcount,
        show ((receiver.announce (configBody data)).take (configBody data)).announced = announced from hannounced,
        ← hall, List.length_append, List.length_append]
      simp only [List.length_cons, List.length_nil]
      omega
    rw [hreports] at h
    have hlater : chunkIndex (configBody second) ≠ 0 := by
      rw [h.index.2.2.2, List.length_append, List.length_singleton]
      exact Nat.succ_ne_zero _
    have hsame : ((receiver.announce (configBody data)).take (configBody data)).announce (configBody second) =
        (receiver.announce (configBody data)).take (configBody data) := announce_later hlater
    rw [EndpointBoundConfigReceiver.deliver, receive_within hepoch, hbound, receive_taken htaken, hpending]
    dsimp only
    rw [ih h (within_same _ _) (by rw [hsame]; exact hnext) (by rw [hsame]; exact hannounced)]
    rfl

/-- The chunks of a payload, in order and within one lifetime, deliver it from whatever state earlier calls left. -/
theorem assembled_delivered (calls : List ReceiverCall) (hepoch : endpointEpoch ≠ 0)
    (h : Assembled announced reports json) :
    (EndpointBoundConfigReceiver.run calls).deliver endpointEpoch reports =
      List.replicate (reports.length - 1) .pending ++ [.complete json] := by
  cases reports with
  | nil =>
    have hlength := h.bounded.1
    rw [h.joined] at hlength
    exact absurd hlength (Nat.lt_irrefl 0)
  | cons data rest =>
    obtain ⟨held, hheld⟩ := run_holds calls
    obtain ⟨within, hwithin⟩ := holds_within hheld endpointEpoch
    have hchunks : Assembled announced ([] ++ data :: rest) json := h
    obtain ⟨-, hformed, hannounced, hfirst⟩ := hchunks.index
    refine deliver_rest hepoch hchunks rfl (holds_first hwithin hformed hfirst) ?_
    rw [List.length_nil] at hfirst
    rw [ConfigReceiver.announce, if_pos hfirst]
    exact hannounced

end Delivery

/-- The two chunks of `{}`. -/
def firstBrace : Bytes := [kConfigReportId, 0x53, 0x33, 0x43, 1, 0, 2, 2, 0, 1, 0x96, 0x66, 0x7B]
def secondBrace : Bytes := [0x53, 0x33, 0x43, 1, 1, 2, 2, 0, 1, 0x96, 0x66, 0x7D]

theorem complete_sound_braces : (41 : Nat) ≠ 0 ∧ ∃ earlier announced,
    Assembled announced (earlier ++ [secondBrace]) [0x7B, 0x7D] ∧
    Gathered ([.receive 41 firstBrace] ++ [.receive 41 secondBrace]) 41 (earlier ++ [secondBrace]) :=
  complete_sound [.receive 41 firstBrace] 41 secondBrace [0x7B, 0x7D] (by decide +kernel)

end CodexKeyboard.Config
