import CodexKeyboard.Lan.CaptureMoves

/-! `CaptureAssembler` over whole runs: what its captures are made of, and when a session can come
    back. -/

namespace CodexKeyboard.Lan

open Schemes.Bytes Schemes.Playout Schemes.Recent CaptureAssembler

inductive AssemblerCall where
  | ingest (datagram : List UInt8) (source : SocketAddr) (now : Nat)
  | takeReady
  | expireIncomplete (now : Nat)

inductive AssemblerOutcome where
  | ingested (result : Except LanVoiceError Unit)
  | taken (captures : List (Except LanVoiceError CompletedCapture))
  | expired (errors : List LanVoiceError)

def assemblerStep (c : Crypto) (a : CaptureAssembler) :
    AssemblerCall → AssemblerOutcome × CaptureAssembler
  | .ingest datagram source now =>
    (.ingested (a.ingest c datagram source now).1, (a.ingest c datagram source now).2)
  | .takeReady => (.taken a.takeReady.1, a.takeReady.2)
  | .expireIncomplete now => (.expired (a.expireIncomplete now).1, (a.expireIncomplete now).2)

def assemblerRun (c : Crypto) : CaptureAssembler → List AssemblerCall →
    List AssemblerOutcome × CaptureAssembler
  | a, [] => ([], a)
  | a, call :: calls =>
    let rest := assemblerRun c (assemblerStep c a call).2 calls
    ((assemblerStep c a call).1 :: rest.1, rest.2)

/-- The assembler with `authKey` after `calls`. -/
def assembled (c : Crypto) (authKey : Option (List UInt8)) (calls : List AssemblerCall) :
    CaptureAssembler :=
  (assemblerRun c (.new authKey) calls).2

variable {c : Crypto} {authKey : Option (List UInt8)} {calls : List AssemblerCall}

theorem assemblerRun_snoc (a : CaptureAssembler) (calls : List AssemblerCall)
    (call : AssemblerCall) :
    assemblerRun c a (calls ++ [call]) =
      ((assemblerRun c a calls).1 ++ [(assemblerStep c (assemblerRun c a calls).2 call).1],
        (assemblerStep c (assemblerRun c a calls).2 call).2) := by
  induction calls generalizing a with
  | nil => rfl
  | cons first calls ih =>
    simp only [List.cons_append, assemblerRun]
    rw [ih]

theorem assembled_snoc (calls : List AssemblerCall) (call : AssemblerCall) :
    assembled c authKey (calls ++ [call]) =
      (assemblerStep c (assembled c authKey calls) call).2 := by
  rw [assembled, assemblerRun_snoc]
  rfl

/-! ### Datagrams -/

theorem parseAudioFrame_ok {datagram : List UInt8} {frame : ParsedFrame}
    (h : parseAudioFrame c datagram authKey = .ok frame) : FrameOk frame := by
  unfold parseAudioFrame at h
  split at h
  · simp at h
  next hheader =>
    simp only [not_or, not_not] at hheader
    have hlength := hheader.1
    simp only [audioHeaderBytes, audioFrameBytes, audioFrameSamples, audioAuthTagBytes] at hlength
    cases hauth : verifyAudioAuthentication c datagram authKey with
    | error error => simp [hauth, bind, Except.bind] at h
    | ok _ =>
      cases hidentity : decodeCaptureSessionIdentity (getU64 datagram 8) with
      | error error => simp [hauth, hidentity, bind, Except.bind] at h
      | ok identity =>
        simp only [hauth, hidentity, bind, Except.bind, Except.ok.injEq] at h
        subst h
        refine ⟨length_slice ?_, ?_⟩
        · simp only [audioHeaderBytes, audioFrameBytes, audioFrameSamples]
          omega
        · have hlt := leNat_lt (slice datagram 16 4)
          rwa [length_slice (by omega)] at hlt

/-- The frame of a session that a call brings. -/
def frameOf (c : Crypto) (authKey : Option (List UInt8)) (sessionId : Nat) :
    AssemblerCall → Option (Block UInt8)
  | .ingest datagram _ _ =>
    match parseAudioFrame c datagram authKey with
    | .ok frame => if frame.sessionId = sessionId then some ⟨frame.sequence, frame.payload⟩ else none
    | .error _ => none
  | _ => none

/-- The authenticated frames of a session, as they arrived. -/
def framesOf (c : Crypto) (authKey : Option (List UInt8)) (sessionId : Nat)
    (calls : List AssemblerCall) : List (Block UInt8) :=
  calls.filterMap (frameOf c authKey sessionId)

/-- The session of an authenticated datagram, as `ingest` reads it. -/
def sessionOf (c : Crypto) (authKey : Option (List UInt8)) (datagram : List UInt8) : Option Nat :=
  if 4 ≤ datagram.length ∧ datagram.take 4 = magicEiae then
    match parseAudioEnd c datagram authKey with
    | .ok terminal => some terminal.sessionId
    | .error _ => none
  else
    match parseAudioFrame c datagram authKey with
    | .ok frame => some frame.sessionId
    | .error _ => none

/-- What a datagram makes of the assembler. -/
inductive IngestMove (c : Crypto) (a : CaptureAssembler) (datagram : List UInt8) :
    Except LanVoiceError Unit → CaptureAssembler → Prop
  | skipped {result : Except LanVoiceError Unit}
      (noFrame : ∀ frame, parseAudioFrame c datagram a.authKey ≠ .ok frame)
      (noSession : sessionOf c a.authKey datagram = none) : IngestMove c a datagram result a
  | frame {frame : ParsedFrame} (parsed : parseAudioFrame c datagram a.authKey = .ok frame)
      (session : sessionOf c a.authKey datagram = some frame.sessionId) (valid : FrameOk frame)
      {result : Except LanVoiceError Unit} {a' : CaptureAssembler}
      (move : FrameMove a frame result a') : IngestMove c a datagram result a'
  | terminal {terminal : ParsedEnd} (parsed : parseAudioEnd c datagram a.authKey = .ok terminal)
      (session : sessionOf c a.authKey datagram = some terminal.sessionId)
      (noFrame : ∀ frame, parseAudioFrame c datagram a.authKey ≠ .ok frame)
      {result : Except LanVoiceError Unit} {a' : CaptureAssembler}
      (move : EndMove a terminal result a') : IngestMove c a datagram result a'

theorem parseAudioFrame_magic {datagram : List UInt8} {frame : ParsedFrame}
    (h : parseAudioFrame c datagram authKey = .ok frame) : datagram.take 4 = magicEiau := by
  unfold parseAudioFrame at h
  split at h
  · simp at h
  next hheader =>
    simp only [not_or, not_not] at hheader
    exact hheader.2.1

theorem ingestDatagram_move {a : CaptureAssembler} (h : a.Inv) (datagram : List UInt8)
    (source : SocketAddr) (now : Nat) :
    IngestMove c a datagram (a.ingest c datagram source now).1
      (a.ingest c datagram source now).2 := by
  unfold ingest
  split
  next hend =>
    have hnone : ∀ frame, parseAudioFrame c datagram a.authKey ≠ .ok frame := by
      intro frame hframe
      have hmagic := parseAudioFrame_magic hframe
      rw [hend.2] at hmagic
      exact absurd hmagic (by decide)
    split
    next error hparsed =>
      have hsession : sessionOf c a.authKey datagram = none := by
        rw [sessionOf, if_pos hend, hparsed]
      exact .skipped hnone hsession
    next terminal hparsed =>
      have hsession : sessionOf c a.authKey datagram = some terminal.sessionId := by
        rw [sessionOf, if_pos hend, hparsed]
      exact .terminal hparsed hsession hnone (ingestEnd_move source now h)
  next hend =>
    split
    next error hparsed =>
      have hsession : sessionOf c a.authKey datagram = none := by
        rw [sessionOf, if_neg hend, hparsed]
      exact .skipped (fun frame hframe => by simp [hparsed] at hframe) hsession
    next frame hparsed =>
      have hsession : sessionOf c a.authKey datagram = some frame.sessionId := by
        rw [sessionOf, if_neg hend, hparsed]
      have hvalid := parseAudioFrame_ok hparsed
      exact .frame hparsed hsession hvalid (ingestFrame_move source now h hvalid)

/-! ### Expiry -/

theorem idle_active {a : CaptureAssembler} {now id : Nat} (h : id ∈ a.idle now) :
    ∃ capture, a.active[id]? = some capture := by
  simp only [idle, List.mem_filterMap, Option.ite_none_right_eq_some, Option.some.injEq] at h
  obtain ⟨⟨session, capture⟩, hmem, -, rfl⟩ := h
  exact ⟨capture, Std.ExtTreeMap.mem_toList_iff_getElem?_eq_some.1 hmem⟩

theorem idle_nodup (a : CaptureAssembler) (now : Nat) : (a.idle now).Nodup := by
  have hkeys : (a.active.toList.map Prod.fst).Nodup := by
    rw [List.Nodup, List.pairwise_map]
    refine Std.ExtTreeMap.distinct_keys_toList.imp ?_
    intro x y hne heq
    exact hne (heq ▸ Std.ReflCmp.compare_self)
  have hfilter : a.idle now = (a.active.toList.filter fun entry =>
      decide (captureAbortTimeout ≤ now - entry.2.lastFrameAt)).map Prod.fst := by
    rw [idle, ← List.filterMap_eq_map, List.filterMap_filter]
    refine List.filterMap_congr ?_
    rintro ⟨session, capture⟩ -
    simp
  rw [hfilter]
  exact hkeys.sublist (List.filter_sublist.map _)

theorem expire_fold {sessions : List Nat} {a : CaptureAssembler} (hnodup : sessions.Nodup)
    (hactive : ∀ id ∈ sessions, ∃ capture, a.active[id]? = some capture)
    (errors : List LanVoiceError) :
    sessions.foldl expireSession (errors, a) =
      (errors ++ sessions.map fun _ => .invalidSequence, sessions.foldl abandon a) := by
  induction sessions generalizing errors a with
  | nil => simp
  | cons id sessions ih =>
    obtain ⟨capture, hcapture⟩ := hactive id List.mem_cons_self
    obtain ⟨hid, hnodup⟩ := List.nodup_cons.1 hnodup
    have hrest : ∀ k ∈ sessions, ∃ capture, (a.abandon id).active[k]? = some capture := by
      intro k hk
      have hne : id ≠ k := fun heq => hid (heq ▸ hk)
      rw [active_abandon, if_neg hne]
      exact hactive k (List.mem_cons_of_mem _ hk)
    rw [List.foldl_cons, expireSession, hcapture]
    dsimp only
    rw [ih hnodup hrest]
    simp

theorem expireIncomplete_eq (a : CaptureAssembler) (now : Nat) :
    a.expireIncomplete now =
      ((a.idle now).map fun _ => .invalidSequence, (a.idle now).foldl abandon a) := by
  rw [expireIncomplete, expire_fold (idle_nodup a now) fun _ => idle_active]
  simp

/-! ### The invariant over a run -/

theorem foldl_abandon_inv {a : CaptureAssembler} (h : a.Inv) (sessions : List Nat) :
    (sessions.foldl abandon a).Inv := by
  induction sessions generalizing a with
  | nil => exact h
  | cons id sessions ih => exact ih (h.abandon id)

theorem assemblerStep_inv {a : CaptureAssembler} (h : a.Inv) (call : AssemblerCall) :
    (assemblerStep c a call).2.Inv := by
  cases call with
  | ingest datagram source now =>
    have hmove := ingestDatagram_move (c := c) h datagram source now
    simp only [assemblerStep]
    generalize a.ingest c datagram source now = r at hmove
    cases hmove with
    | skipped => exact h
    | frame parsed session valid move => exact move.inv h valid
    | terminal parsed session noFrame move => exact move.inv h
  | takeReady => exact ⟨h.captures, h.few, h.apart⟩
  | expireIncomplete now =>
    rw [assemblerStep, expireIncomplete_eq]
    exact foldl_abandon_inv h _

theorem assembled_inv (calls : List AssemblerCall) : (assembled c authKey calls).Inv := by
  induction calls using List.reverseRecOn with
  | nil => exact inv_new authKey
  | append_singleton calls call ih =>
    rw [assembled_snoc]
    exact assemblerStep_inv ih call

theorem foldl_abandon_authKey (a : CaptureAssembler) (sessions : List Nat) :
    (sessions.foldl abandon a).authKey = a.authKey := by
  induction sessions generalizing a with
  | nil => rfl
  | cons id sessions ih => rw [List.foldl_cons, ih, abandon_authKey]

theorem CaptureAssembler.FrameMove.keyKept {a a' : CaptureAssembler} {frame : ParsedFrame}
    {result : Except LanVoiceError Unit} (h : FrameMove a frame result a') :
    a'.authKey = a.authKey := by
  cases h <;> simp [put]

theorem CaptureAssembler.EndMove.keyKept {a a' : CaptureAssembler} {terminal : ParsedEnd}
    {result : Except LanVoiceError Unit} (h : EndMove a terminal result a') :
    a'.authKey = a.authKey := by
  cases h <;> simp [finish]

theorem assemblerStep_authKey {a : CaptureAssembler} (h : a.Inv) (call : AssemblerCall) :
    (assemblerStep c a call).2.authKey = a.authKey := by
  cases call with
  | ingest datagram source now =>
    have hmove := ingestDatagram_move (c := c) h datagram source now
    simp only [assemblerStep]
    generalize a.ingest c datagram source now = r at hmove
    cases hmove with
    | skipped => rfl
    | frame parsed session valid move => exact move.keyKept
    | terminal parsed session noFrame move => exact move.keyKept
  | takeReady => rfl
  | expireIncomplete now =>
    rw [assemblerStep, expireIncomplete_eq]
    exact foldl_abandon_authKey a _

theorem assembled_authKey (calls : List AssemblerCall) :
    (assembled c authKey calls).authKey = authKey := by
  induction calls using List.reverseRecOn with
  | nil => rfl
  | append_singleton calls call ih =>
    rw [assembled_snoc, assemblerStep_authKey (assembled_inv calls), ih]

/-! ### One session -/

/-- What a call does to one session. -/
inductive SessionMove (c : Crypto) (authKey : Option (List UInt8)) (a : CaptureAssembler)
    (call : AssemblerCall) (a' : CaptureAssembler) (id : Nat) : Prop
  | kept (frame : frameOf c authKey id call = none) (same : a'.active[id]? = a.active[id]?)
  | gone (gone : a'.active[id]? = none)
  | late {capture : ActiveCapture} {block : Block UInt8}
      (frame : frameOf c authKey id call = some block) (was : a.active[id]? = some capture)
      (passed : block.sequence < capture.nextSequence) (now : Nat)
      (is : a'.active[id]? = some { capture with lastFrameAt := now })
  | opened (frame : ParsedFrame) (source : SocketAddr) (now : Nat)
      (brought : frameOf c authKey id call = some ⟨frame.sequence, frame.payload⟩)
      (valid : FrameOk frame) (was : a.active[id]? = none)
      (gap : frame.sequence ≤ maxCaptureGapFrames)
      (is : a'.active[id]? = some (extend (openCapture frame source now) frame now))
  | taken {capture : ActiveCapture} {frame : ParsedFrame} (now : Nat)
      (brought : frameOf c authKey id call = some ⟨frame.sequence, frame.payload⟩)
      (valid : FrameOk frame) (was : a.active[id]? = some capture)
      (ahead : capture.nextSequence ≤ frame.sequence)
      (gap : frame.sequence - capture.nextSequence ≤ maxCaptureGapFrames)
      (is : a'.active[id]? = some (extend capture frame now))

theorem frameOf_parsed {datagram : List UInt8} {frame : ParsedFrame} {source : SocketAddr} {now : Nat}
    (h : parseAudioFrame c datagram authKey = .ok frame) (id : Nat) :
    frameOf c authKey id (.ingest datagram source now) =
      if frame.sessionId = id then some ⟨frame.sequence, frame.payload⟩ else none := by
  rw [frameOf, h]

theorem frameOf_none {datagram : List UInt8} {source : SocketAddr} {now : Nat}
    (h : ∀ frame, parseAudioFrame c datagram authKey ≠ .ok frame) (id : Nat) :
    frameOf c authKey id (.ingest datagram source now) = none := by
  rw [frameOf]
  split
  next frame hframe => exact absurd hframe (h frame)
  · rfl

theorem active_put_of {a : CaptureAssembler} {next : ActiveCapture} {id : Nat}
    (h : next.sessionId = id) : (a.put next).active[id]? = some next := by
  rw [active_put, if_pos h]

theorem active_put_other {a : CaptureAssembler} {next : ActiveCapture} {k id : Nat}
    (h : next.sessionId = k) (hne : k ≠ id) : (a.put next).active[id]? = a.active[id]? := by
  rw [active_put, if_neg (h ▸ hne)]

theorem CaptureAssembler.FrameMove.session {a a' : CaptureAssembler} {frame : ParsedFrame}
    {result : Except LanVoiceError Unit} (h : FrameMove a frame result a') (ha : a.Inv)
    (hframe : FrameOk frame) {datagram : List UInt8} (source : SocketAddr) (now : Nat)
    (hparsed : parseAudioFrame c datagram a.authKey = .ok frame) (id : Nat) :
    SessionMove c a.authKey a (.ingest datagram source now) a' id := by
  have hbrought := @frameOf_parsed _ _ _ _ source now hparsed id
  by_cases hid : frame.sessionId = id
  · subst hid
    rw [if_pos rfl] at hbrought
    cases h with
    | retired old => exact .gone (ha.apart _ old)
    | refused known new inactive => exact .gone (by rw [retire_active, inactive])
    | abandoned known active => exact .gone (by rw [active_abandon, if_pos rfl])
    | late active passed now =>
      exact .late hbrought active passed now (active_put_of (ha.captures _ _ active).session)
    | opened source now new inactive room gap =>
      exact .opened frame source now hbrought hframe inactive gap (active_put_of rfl)
    | taken active ahead gap fits now =>
      exact .taken now hbrought hframe active ahead gap
        (active_put_of (ha.captures _ _ active).session)
  · rw [if_neg hid] at hbrought
    apply SessionMove.kept hbrought
    cases h with
    | retired old => rfl
    | refused known new inactive => rw [retire_active]
    | abandoned known active => rw [active_abandon, if_neg hid]
    | late active passed now => exact active_put_other (ha.captures _ _ active).session hid
    | opened source now new inactive room gap => exact active_put_other rfl hid
    | taken active ahead gap fits now =>
      exact active_put_other (ha.captures _ _ active).session hid

theorem active_finish (a : CaptureAssembler) (capture : ActiveCapture) (id : Nat) :
    (a.finish capture).active[id]? = if capture.sessionId = id then none else a.active[id]? :=
  active_abandon a capture.sessionId id

theorem CaptureAssembler.EndMove.session {a a' : CaptureAssembler} {terminal : ParsedEnd}
    {result : Except LanVoiceError Unit} (h : EndMove a terminal result a')
    {call : AssemblerCall} (id : Nat) (hframe : frameOf c a.authKey id call = none) :
    SessionMove c a.authKey a call a' id := by
  have hother : ∀ k, (a.abandon k).active[id]? = a.active[id]? ∨ (a.abandon k).active[id]? = none := by
    intro k
    rw [active_abandon]
    split
    · exact Or.inr rfl
    · exact Or.inl rfl
  cases h with
  | retired old => exact .kept hframe rfl
  | unknown new inactive => exact .kept hframe rfl
  | abandoned known active =>
    rcases hother terminal.sessionId with h | h
    · exact .kept hframe h
    · exact .gone h
  | finished active ahead gap fits now =>
    rcases hother _ with h | h
    · exact .kept hframe h
    · exact .gone h

theorem foldl_abandon_active (a : CaptureAssembler) (sessions : List Nat) (id : Nat) :
    (sessions.foldl abandon a).active[id]? = if id ∈ sessions then none else a.active[id]? := by
  induction sessions generalizing a with
  | nil => simp
  | cons k sessions ih =>
    rw [List.foldl_cons, ih, active_abandon]
    by_cases hk : k = id
    · simp [hk]
    · simp [hk, Ne.symm hk]

theorem assemblerStep_session {a : CaptureAssembler} (h : a.Inv) (call : AssemblerCall) (id : Nat) :
    SessionMove c a.authKey a call (assemblerStep c a call).2 id := by
  cases call with
  | ingest datagram source now =>
    have hmove := ingestDatagram_move (c := c) h datagram source now
    simp only [assemblerStep]
    generalize a.ingest c datagram source now = r at hmove
    cases hmove with
    | skipped noFrame => exact .kept (frameOf_none noFrame id) rfl
    | frame parsed session valid move => exact move.session h valid source now parsed id
    | terminal parsed session noFrame move => exact move.session id (frameOf_none noFrame id)
  | takeReady => exact .kept rfl rfl
  | expireIncomplete now =>
    have hactive := foldl_abandon_active a (a.idle now) id
    rw [assemblerStep, expireIncomplete_eq]
    split at hactive
    · exact .gone hactive
    · exact .kept rfl hactive

/-! ### What a capture is made of -/

/-- The capture has played out `frames` so far. -/
structure Playing (frames : List (Block UInt8)) (capture : ActiveCapture) : Prop where
  waits : front 0 frames = capture.nextSequence
  stream : Assembled audioFrameBytes 0 maxCaptureGapFrames frames capture.pcm capture.nextSequence

theorem Playing.late {frames : List (Block UInt8)} {capture : ActiveCapture} {block : Block UInt8}
    (h : Playing frames capture) (passed : block.sequence < capture.nextSequence) (now : Nat) :
    Playing (frames ++ [block]) { capture with lastFrameAt := now } := by
  have hlate : block.sequence < front 0 frames := h.waits ▸ passed
  refine ⟨?_, h.stream.late hlate⟩
  rw [front_snoc, if_pos hlate]
  exact h.waits

theorem Playing.extend {frames : List (Block UInt8)} {capture : ActiveCapture} {frame : ParsedFrame}
    (h : Playing frames capture) (valid : FrameOk frame)
    (ahead : capture.nextSequence ≤ frame.sequence)
    (gap : frame.sequence - capture.nextSequence ≤ maxCaptureGapFrames) (now : Nat) :
    Playing (frames ++ [⟨frame.sequence, frame.payload⟩]) (extend capture frame now) := by
  have hfront : ¬ frame.sequence < front 0 frames := by
    rw [h.waits]
    exact Nat.not_lt.2 ahead
  refine ⟨?_, ?_⟩
  · rw [front_snoc, if_neg hfront]
    rfl
  · have hfill := h.stream.fill h.waits gap
    rw [Nat.add_sub_cancel' ahead] at hfill
    exact hfill.push (b := ⟨frame.sequence, frame.payload⟩) (Nat.not_lt.1 hfront) valid.payload

/-- The session is active all through `since`, and was not before it. -/
structure Life (c : Crypto) (authKey : Option (List UInt8)) (sessionId : Nat)
    (before since : List AssemblerCall) : Prop where
  inactive : (assembled c authKey before).active[sessionId]? = none
  active : ∀ part, part ≠ [] → part <+: since →
    ∃ capture, (assembled c authKey (before ++ part)).active[sessionId]? = some capture

theorem Life.snoc {id : Nat} {before since : List AssemblerCall} {call : AssemblerCall}
    {capture : ActiveCapture} (h : Life c authKey id before since)
    (active : (assembled c authKey (before ++ since ++ [call])).active[id]? = some capture) :
    Life c authKey id before (since ++ [call]) := by
  refine ⟨h.inactive, fun part hne hpart => ?_⟩
  rcases List.prefix_concat_iff.1 hpart with rfl | hpart
  · exact ⟨capture, by rwa [← List.append_assoc]⟩
  · exact h.active part hne hpart

/-- An active capture plays out the frames of its life. -/
def Growing (c : Crypto) (authKey : Option (List UInt8)) (calls : List AssemblerCall)
    (sessionId : Nat) (capture : ActiveCapture) : Prop :=
  ∃ before since, calls = before ++ since ∧ Life c authKey sessionId before since ∧
    Playing (framesOf c authKey sessionId since) capture

theorem framesOf_snoc (id : Nat) (since : List AssemblerCall) (call : AssemblerCall) :
    framesOf c authKey id (since ++ [call]) =
      framesOf c authKey id since ++ (frameOf c authKey id call).toList := by
  rw [framesOf, List.filterMap_append]
  cases h : frameOf c authKey id call <;> simp [framesOf, h]

/-- A capture that stays active grows by what the call brings. -/
theorem Growing.snoc {id : Nat} {capture next : ActiveCapture} {call : AssemblerCall}
    (h : Growing c authKey calls id capture)
    (active : (assembled c authKey (calls ++ [call])).active[id]? = some next)
    (playing : ∀ frames, Playing frames capture →
      Playing (frames ++ (frameOf c authKey id call).toList) next) :
    Growing c authKey (calls ++ [call]) id next := by
  obtain ⟨before, since, rfl, hlife, hplaying⟩ := h
  refine ⟨before, since ++ [call], by rw [List.append_assoc], hlife.snoc active, ?_⟩
  rw [framesOf_snoc]
  exact playing _ hplaying

theorem assembled_growing (calls : List AssemblerCall) :
    ∀ id capture, (assembled c authKey calls).active[id]? = some capture →
      Growing c authKey calls id capture := by
  induction calls using List.reverseRecOn with
  | nil =>
    intro id capture h
    simp [assembled, assemblerRun, CaptureAssembler.new] at h
  | append_singleton calls call ih =>
    intro id next hnext
    have hinv : (assembled c authKey calls).Inv := assembled_inv calls
    have hmove := assemblerStep_session (c := c) hinv call id
    rw [assembled_authKey] at hmove
    have hstep := hnext
    rw [assembled_snoc] at hstep
    cases hmove with
    | kept frame same =>
      rw [hstep] at same
      refine (ih id next same.symm).snoc hnext fun frames h => ?_
      rw [frame, Option.toList_none, List.append_nil]
      exact h
    | gone gone => simp [hstep] at gone
    | late frame was passed now is =>
      rw [hstep, Option.some.injEq] at is
      subst is
      refine (ih id _ was).snoc hnext fun frames h => ?_
      rw [frame]
      exact h.late passed now
    | opened frame source now brought valid was gap is =>
      rw [hstep, Option.some.injEq] at is
      subst is
      have hlife : Life c authKey id calls [] :=
        ⟨was, fun part hne hpart => absurd (List.prefix_nil.1 hpart) hne⟩
      have hopen : Playing [] (openCapture frame source now) := ⟨rfl, assembled_nil _ _ _⟩
      refine ⟨calls, [call], rfl, hlife.snoc (by rwa [List.append_nil]), ?_⟩
      rw [framesOf, List.filterMap_cons_some brought]
      exact hopen.extend valid (Nat.zero_le _) gap now
    | taken now brought valid was ahead gap is =>
      rw [hstep, Option.some.injEq] at is
      subst is
      refine (ih id _ was).snoc hnext fun frames h => ?_
      rw [brought]
      exact h.extend valid ahead gap now

/-! ### What is handed out -/

/-- `done` holds the frames of one life of its session, which a call of the run ended. -/
def Delivered (c : Crypto) (authKey : Option (List UInt8)) (calls : List AssemblerCall)
    (done : CompletedCapture) : Prop :=
  ∃ before since last later frames, calls = before ++ since ++ last :: later ∧
    Life c authKey done.sessionId before since ∧
    (assembled c authKey (before ++ since ++ [last])).active[done.sessionId]? = none ∧
    minCaptureFrames ≤ frames ∧ frames ≤ maxCaptureBytes / audioFrameBytes ∧
    Assembled audioFrameBytes 0 maxCaptureGapFrames
      (framesOf c authKey done.sessionId since) done.pcm frames

theorem Delivered.snoc {done : CompletedCapture} (h : Delivered c authKey calls done)
    (call : AssemblerCall) : Delivered c authKey (calls ++ [call]) done := by
  obtain ⟨before, since, last, later, frames, rfl, hrest⟩ := h
  exact ⟨before, since, last, later ++ [call], frames, by simp, hrest⟩

/-- What a call adds to the captures that are ready. -/
inductive ReadyMove (a : CaptureAssembler) (a' : CaptureAssembler) : Prop
  | same (same : a'.ready = a.ready)
  | emptied (emptied : a'.ready = [])
  | finished {capture : ActiveCapture} (finalSequence now : Nat)
      (active : a.active[capture.sessionId]? = some capture)
      (ahead : capture.nextSequence ≤ finalSequence)
      (gap : finalSequence - capture.nextSequence ≤ maxCaptureGapFrames)
      (fits : finalSequence * audioFrameBytes ≤ maxCaptureBytes)
      (is : a' = a.finish (close capture finalSequence now))

theorem foldl_abandon_ready (a : CaptureAssembler) (sessions : List Nat) :
    (sessions.foldl abandon a).ready = a.ready := by
  induction sessions generalizing a with
  | nil => rfl
  | cons id sessions ih => rw [List.foldl_cons, ih, abandon_ready]

theorem CaptureAssembler.FrameMove.ready {a a' : CaptureAssembler} {frame : ParsedFrame}
    {result : Except LanVoiceError Unit} (h : FrameMove a frame result a') : a'.ready = a.ready := by
  cases h <;> simp [put]

theorem CaptureAssembler.EndMove.ready {a a' : CaptureAssembler} {terminal : ParsedEnd}
    {result : Except LanVoiceError Unit} (h : EndMove a terminal result a') (ha : a.Inv) :
    ReadyMove a a' := by
  cases h with
  | retired old => exact .same rfl
  | unknown new inactive => exact .same rfl
  | abandoned known active => exact .same (abandon_ready _ _)
  | finished active ahead gap fits now =>
    have hsession := (ha.captures _ _ active).session
    exact .finished _ now (hsession ▸ active) ahead gap fits rfl

theorem assemblerStep_ready {a : CaptureAssembler} (h : a.Inv) (call : AssemblerCall) :
    ReadyMove a (assemblerStep c a call).2 := by
  cases call with
  | ingest datagram source now =>
    have hmove := ingestDatagram_move (c := c) h datagram source now
    simp only [assemblerStep]
    generalize a.ingest c datagram source now = r at hmove
    cases hmove with
    | skipped => exact .same rfl
    | frame parsed session valid move => exact .same move.ready
    | terminal parsed session noFrame move => exact move.ready h
  | takeReady => exact .emptied rfl
  | expireIncomplete now =>
    rw [assemblerStep, expireIncomplete_eq]
    exact .same (foldl_abandon_ready a _)

theorem assembled_ready (calls : List AssemblerCall) :
    ∀ done, .ok done ∈ (assembled c authKey calls).ready → Delivered c authKey calls done := by
  induction calls using List.reverseRecOn with
  | nil =>
    intro done h
    simp [assembled, assemblerRun, CaptureAssembler.new] at h
  | append_singleton calls call ih =>
    intro done hdone
    have hinv : (assembled c authKey calls).Inv := assembled_inv calls
    have hmove := assemblerStep_ready (c := c) hinv call
    rw [← assembled_snoc] at hmove
    cases hmove with
    | same same => exact (ih done (same ▸ hdone)).snoc call
    | emptied emptied => simp [emptied] at hdone
    | finished finalSequence now active ahead gap fits is =>
      rename_i capture
      have hready : (assembled c authKey (calls ++ [call])).ready = _ := congrArg ready is
      rw [hready, finish] at hdone
      rcases List.mem_append.1 hdone with hold | hnew
      · exact (ih done hold).snoc call
      · have hgone : (assembled c authKey (calls ++ [call])).active[capture.sessionId]? = none := by
          rw [is, active_finish]
          exact if_pos rfl
        obtain ⟨before, since, rfl, hlife, hplaying⟩ := assembled_growing calls _ _ active
        rw [List.mem_singleton] at hnew
        split at hnew
        · simp at hnew
        next hlong =>
          simp only [Except.ok.injEq] at hnew
          subst hnew
          have hfill := hplaying.stream.fill hplaying.waits gap
          rw [Nat.add_sub_cancel' ahead] at hfill
          refine ⟨before, since, call, [], finalSequence, rfl, hlife, hgone, Nat.not_lt.1 hlong,
            ?_, hfill⟩
          rw [Nat.le_div_iff_mul_le (by decide)]
          exact fits

theorem taken_delivered (calls : List AssemblerCall) :
    ∀ captures, .taken captures ∈ (assemblerRun c (.new authKey) calls).1 →
      ∀ done, .ok done ∈ captures → Delivered c authKey calls done := by
  induction calls using List.reverseRecOn with
  | nil => simp [assemblerRun]
  | append_singleton calls call ih =>
    intro captures hcaptures done hdone
    rw [assemblerRun_snoc] at hcaptures
    rcases List.mem_append.1 hcaptures with hold | hnew
    · exact (ih captures hold done hdone).snoc call
    · rw [List.mem_singleton] at hnew
      cases call with
      | takeReady =>
        simp only [assemblerStep, takeReady, AssemblerOutcome.taken.injEq] at hnew
        subst hnew
        exact (assembled_ready calls done hdone).snoc _
      | ingest datagram source now => simp [assemblerStep] at hnew
      | expireIncomplete now => simp [assemblerStep] at hnew

/-! ### When a session comes back -/

/-- A capture, or an error, and the session it is of. -/
abbrev Product := Nat × Except LanVoiceError CompletedCapture

/-- The products of a datagram of the session `id`, by what `ingest` returned. -/
def ingestProducts (a : CaptureAssembler) (id : Nat) (result : Except LanVoiceError Unit)
    (a' : CaptureAssembler) : List Product :=
  match result with
  | .error error => [(id, .error error)]
  | .ok () => (a'.ready.drop a.ready.length).map fun result => (id, result)

/-- The products of a call, in their order. -/
def products (c : Crypto) (a : CaptureAssembler) : AssemblerCall → List Product
  | .ingest datagram source now =>
    match sessionOf c a.authKey datagram with
    | none => []
    | some id =>
      ingestProducts a id (a.ingest c datagram source now).1 (a.ingest c datagram source now).2
  | .takeReady => []
  | .expireIncomplete now => (a.idle now).map fun id => (id, .error .invalidSequence)

def productLog (c : Crypto) : CaptureAssembler → List AssemblerCall → List Product
  | _, [] => []
  | a, call :: calls => products c a call ++ productLog c (assemblerStep c a call).2 calls

theorem productLog_snoc (a : CaptureAssembler) (calls : List AssemblerCall) (call : AssemblerCall) :
    productLog c a (calls ++ [call]) =
      productLog c a calls ++ products c (assemblerRun c a calls).2 call := by
  induction calls generalizing a with
  | nil => simp [productLog, assemblerRun]
  | cons first calls ih =>
    simp only [List.cons_append, productLog, assemblerRun]
    rw [ih, List.append_assoc]

/-- Its session is retired with it; an end of no known session is only refused. -/
def Product.retires (product : Product) : Bool :=
  match product.2 with
  | .error .invalidSession => false
  | _ => true

/-- The sessions the log retires. -/
def retirings (log : List Product) : List Nat := (log.filter Product.retires).map Prod.fst

/-- No product of the log is of a session that was remembered then. -/
inductive Logged : List Product → Prop
  | nil : Logged []
  | snoc {log : List Product} {product : Product} (h : Logged log)
      (new : product.1 ∉ latest maxRetiredSessions (retirings log)) : Logged (log ++ [product])

theorem retirings_snoc (log : List Product) (product : Product) :
    retirings (log ++ [product]) =
      retirings log ++ if product.retires then [product.1] else [] := by
  rw [retirings, List.filter_append, List.map_append]
  cases h : product.retires <;> simp [retirings, h]

theorem Logged.fresh {log : List Product} (h : Logged log) :
    Fresh maxRetiredSessions (retirings log) := by
  induction h with
  | nil => exact .nil
  | snoc h new ih =>
    rw [retirings_snoc]
    split
    · exact ih.snoc new
    · rwa [List.append_nil]

theorem Logged.earlier {log later : List Product} (h : Logged (log ++ later)) : Logged log := by
  induction later using List.reverseRecOn with
  | nil => rwa [List.append_nil] at h
  | append_singleton later product ih =>
    rw [← List.append_assoc] at h
    generalize hlog : log ++ later ++ [product] = whole at h
    cases h with
    | nil => simp at hlog
    | snoc h new =>
      obtain ⟨rfl, -⟩ := List.append_inj' hlog rfl
      exact ih h

theorem Logged.new {log : List Product} {product : Product} (h : Logged (log ++ [product])) :
    product.1 ∉ latest maxRetiredSessions (retirings log) := by
  generalize hlog : log ++ [product] = whole at h
  cases h with
  | nil => simp at hlog
  | snoc h new =>
    obtain ⟨rfl, hsingle⟩ := List.append_inj' hlog rfl
    obtain rfl : product = _ := by simpa using hsingle
    exact new

/-- A session that was retired has as many others retired after it, when it comes back. -/
theorem Logged.comes_back {before between after : List Product} {id : Nat}
    {first second : Except LanVoiceError CompletedCapture}
    (h : Logged (before ++ (id, first) :: between ++ (id, second) :: after))
    (retires : Product.retires (id, first) = true) :
    ∃ others : List Nat, others.Nodup ∧ id ∉ others ∧ others.length = maxRetiredSessions ∧
      ∀ other ∈ others, other ∈ retirings between := by
  rw [List.append_cons] at h
  have hupto := h.earlier
  have hsplit : retirings (before ++ (id, first) :: between) =
      retirings before ++ id :: retirings between := by
    simp only [retirings, List.filter_append, List.map_append, List.filter_cons, retires, if_true,
      List.map_cons]
  have hfresh := hupto.earlier.fresh
  have hforgotten := hupto.new
  rw [hsplit] at hfresh hforgotten
  exact hfresh.forgotten hforgotten

/-- The log accounts for the memory of the assembler. -/
structure LogOk (log : List Product) (a : CaptureAssembler) : Prop where
  logged : Logged log
  retired : a.retired = latest maxRetiredSessions (retirings log)

variable {a a' : CaptureAssembler} {log : List Product}

theorem LogOk.retire (h : LogOk log a) {id : Nat} (new : id ∉ a.retired)
    {result : Except LanVoiceError CompletedCapture} (retires : Product.retires (id, result) = true)
    (retired : a'.retired = (a.retire id).retired) : LogOk (log ++ [(id, result)]) a' := by
  rw [h.retired] at new
  refine ⟨h.logged.snoc new, ?_⟩
  rw [retired, retire_retired (h.retired ▸ new), h.retired, retirings_snoc, if_pos retires]
  exact latest_snoc _ _ _

theorem retires_error {error : LanVoiceError} (h : error ≠ .invalidSession) (id : Nat) :
    Product.retires (id, .error error) = true := by
  cases error <;> simp_all [Product.retires]

theorem Inv.new (h : a.Inv) {id : Nat} {capture : ActiveCapture}
    (active : a.active[id]? = some capture) : id ∉ a.retired := by
  intro hid
  simp [h.apart id hid] at active

theorem abandon_retired (a : CaptureAssembler) (id : Nat) :
    (a.abandon id).retired = (a.retire id).retired := by
  unfold abandon retire
  split <;> rfl

theorem CaptureAssembler.FrameMove.logged {frame : ParsedFrame}
    {result : Except LanVoiceError Unit} (h : FrameMove a frame result a') (ha : a.Inv)
    (hlog : LogOk log a) : LogOk (log ++ ingestProducts a frame.sessionId result a') a' := by
  have hquiet : ∀ next,
      LogOk (log ++ ingestProducts a frame.sessionId (.ok ()) (a.put next)) (a.put next) := by
    intro next
    have hnone : ingestProducts a frame.sessionId (.ok ()) (a.put next) = [] := by
      simp [ingestProducts, put]
    rw [hnone, List.append_nil]
    exact ⟨hlog.logged, hlog.retired⟩
  cases h with
  | retired old => simpa [ingestProducts] using hlog
  | refused known new inactive => exact hlog.retire new (retires_error known _) rfl
  | abandoned known active =>
    exact hlog.retire (Inv.new ha active) (retires_error known _) (abandon_retired _ _)
  | late active passed now => exact hquiet _
  | opened source now new inactive room gap => exact hquiet _
  | taken active ahead gap fits now => exact hquiet _

theorem retires_finished (capture : ActiveCapture) (id : Nat) :
    Product.retires (id, if capture.nextSequence < minCaptureFrames then .error .captureTooShort
      else .ok ⟨capture.sessionId, capture.identity, capture.pcm⟩) = true := by
  split <;> rfl

theorem CaptureAssembler.EndMove.logged {terminal : ParsedEnd}
    {result : Except LanVoiceError Unit} (h : EndMove a terminal result a') (ha : a.Inv)
    (hlog : LogOk log a) : LogOk (log ++ ingestProducts a terminal.sessionId result a') a' := by
  cases h with
  | retired old => simpa [ingestProducts] using hlog
  | unknown new inactive =>
    refine ⟨hlog.logged.snoc (hlog.retired ▸ new), ?_⟩
    simpa [ingestProducts, retirings_snoc, Product.retires] using hlog.retired
  | abandoned known active =>
    exact hlog.retire (Inv.new ha active) (retires_error known _) (abandon_retired _ _)
  | finished active ahead gap fits now =>
    rename_i capture
    have hsession : capture.sessionId = terminal.sessionId := (ha.captures _ _ active).session
    have hretired := @LogOk.retire _ (a.finish (close capture terminal.finalSequence now)) _ hlog _
      (Inv.new ha active) _ (retires_finished (close capture terminal.finalSequence now) _)
      (hsession ▸ abandon_retired a _)
    simpa [ingestProducts, finish] using hretired

theorem foldl_abandon_logged {sessions : List Nat} (ha : a.Inv) (hlog : LogOk log a)
    (hnodup : sessions.Nodup) (hactive : ∀ id ∈ sessions, ∃ capture, a.active[id]? = some capture) :
    LogOk (log ++ sessions.map fun id => (id, .error .invalidSequence)) (sessions.foldl abandon a) := by
  induction sessions generalizing a log with
  | nil => simpa using hlog
  | cons id sessions ih =>
    obtain ⟨capture, hcapture⟩ := hactive id List.mem_cons_self
    obtain ⟨hid, hnodup⟩ := List.nodup_cons.1 hnodup
    have hrest : ∀ k ∈ sessions, ∃ capture, (a.abandon id).active[k]? = some capture := by
      intro k hk
      have hne : id ≠ k := fun heq => hid (heq ▸ hk)
      rw [active_abandon, if_neg hne]
      exact hactive k (List.mem_cons_of_mem _ hk)
    have hfirst : LogOk (log ++ [(id, .error .invalidSequence)]) (a.abandon id) :=
      hlog.retire (Inv.new ha hcapture) rfl (abandon_retired a id)
    have hall := ih (ha.abandon id) hfirst hnodup hrest
    rwa [List.append_assoc] at hall

theorem assemblerStep_logged (ha : a.Inv) (hlog : LogOk log a) (call : AssemblerCall) :
    LogOk (log ++ products c a call) (assemblerStep c a call).2 := by
  cases call with
  | ingest datagram source now =>
    have hmove := ingestDatagram_move (c := c) ha datagram source now
    simp only [assemblerStep, products]
    generalize a.ingest c datagram source now = r at hmove
    cases hmove with
    | skipped noFrame noSession => simpa [noSession] using hlog
    | frame parsed session valid move =>
      rw [session]
      exact move.logged ha hlog
    | terminal parsed session noFrame move =>
      rw [session]
      exact move.logged ha hlog
  | takeReady =>
    rw [products, List.append_nil]
    exact ⟨hlog.logged, hlog.retired⟩
  | expireIncomplete now =>
    rw [assemblerStep, expireIncomplete_eq]
    exact foldl_abandon_logged ha hlog (idle_nodup a now) fun _ => idle_active

theorem assembled_logged (calls : List AssemblerCall) :
    LogOk (productLog c (.new authKey) calls) (assembled c authKey calls) := by
  induction calls using List.reverseRecOn with
  | nil =>
    refine ⟨.nil, ?_⟩
    simp [assembled, assemblerRun, CaptureAssembler.new, productLog, retirings, latest]
  | append_singleton calls call ih =>
    rw [productLog_snoc, assembled_snoc]
    exact assemblerStep_logged (assembled_inv calls) ih call

/-! ### What is handed out -/

def completed (results : List (Except LanVoiceError CompletedCapture)) : List CompletedCapture :=
  results.filterMap Except.toOption

theorem completed_append (results more : List (Except LanVoiceError CompletedCapture)) :
    completed (results ++ more) = completed results ++ completed more := List.filterMap_append

/-- The captures of some products. -/
def capturesOf (log : List Product) : List CompletedCapture := completed (log.map Prod.snd)

theorem capturesOf_append (log more : List Product) :
    capturesOf (log ++ more) = capturesOf log ++ capturesOf more := by
  rw [capturesOf, List.map_append, completed_append]
  rfl

def AssemblerOutcome.captures : AssemblerOutcome → List (Except LanVoiceError CompletedCapture)
  | .taken captures => captures
  | _ => []

/-- The captures that `take_ready` handed out, in order. -/
def handedOut (outcomes : List AssemblerOutcome) : List CompletedCapture :=
  completed (outcomes.flatMap AssemblerOutcome.captures)

theorem handedOut_snoc (outcomes : List AssemblerOutcome) (outcome : AssemblerOutcome) :
    handedOut (outcomes ++ [outcome]) = handedOut outcomes ++ completed outcome.captures := by
  rw [handedOut, List.flatMap_append, List.flatMap_singleton, completed_append]
  rfl

/-- A datagram that finishes nothing produces no capture. -/
theorem capturesOf_ingest {id : Nat} {result : Except LanVoiceError Unit} (h : a'.ready = a.ready) :
    completed a'.ready = completed a.ready ++ capturesOf (ingestProducts a id result a') := by
  have hnone : capturesOf (ingestProducts a id result a') = [] := by
    cases result with
    | error error => rfl
    | ok done => simp [ingestProducts, h, capturesOf, completed]
  rw [h, hnone, List.append_nil]

theorem CaptureAssembler.EndMove.captures {terminal : ParsedEnd} {result : Except LanVoiceError Unit}
    (h : EndMove a terminal result a') (id : Nat) :
    completed a'.ready = completed a.ready ++ capturesOf (ingestProducts a id result a') := by
  cases h with
  | retired old => exact capturesOf_ingest rfl
  | unknown new inactive => exact capturesOf_ingest rfl
  | abandoned known active => exact capturesOf_ingest (abandon_ready _ _)
  | finished active ahead gap fits now =>
    simp only [ingestProducts, finish, List.drop_left, List.map_cons, List.map_nil, completed_append]
    rfl

theorem capturesOf_errors (sessions : List Nat) :
    capturesOf (sessions.map fun id => (id, .error .invalidSequence)) = [] := by
  rw [capturesOf, List.map_map, completed, List.filterMap_map]
  exact List.filterMap_eq_nil_iff.2 fun _ _ => rfl

/-- What a call hands out and leaves ready is what was ready and what it produces. -/
theorem assemblerStep_captures (ha : a.Inv) (call : AssemblerCall) :
    completed (assemblerStep c a call).1.captures ++ completed (assemblerStep c a call).2.ready =
      completed a.ready ++ capturesOf (products c a call) := by
  cases call with
  | ingest datagram source now =>
    have hmove := ingestDatagram_move (c := c) ha datagram source now
    simp only [assemblerStep, products, AssemblerOutcome.captures]
    generalize a.ingest c datagram source now = r at hmove
    cases hmove with
    | skipped noFrame noSession =>
      rw [noSession]
      exact (List.append_nil _).symm
    | frame parsed session valid move =>
      rw [session]
      exact capturesOf_ingest move.ready
    | terminal parsed session noFrame move =>
      rw [session]
      exact move.captures _
  | takeReady => rfl
  | expireIncomplete now =>
    rw [assemblerStep, expireIncomplete_eq, products, capturesOf_errors, List.append_nil]
    dsimp only
    rw [foldl_abandon_ready]
    rfl

/-- Every capture that is produced is handed out once, in order, or still ready. -/
theorem handedOut_once (calls : List AssemblerCall) :
    handedOut (assemblerRun c (.new authKey) calls).1 ++ completed (assembled c authKey calls).ready =
      capturesOf (productLog c (.new authKey) calls) := by
  induction calls using List.reverseRecOn with
  | nil => rfl
  | append_singleton calls call ih =>
    have hinv : (assembled c authKey calls).Inv := assembled_inv calls
    rw [productLog_snoc, capturesOf_append, ← ih, assemblerRun_snoc, handedOut_snoc, assembled_snoc,
      List.append_assoc, List.append_assoc]
    exact congrArg _ (assemblerStep_captures hinv call)

/-! ### Every run -/

/-- What holds of an assembler after `calls`. -/
structure AssemblerSafe (c : Crypto) (authKey : Option (List UInt8)) (calls : List AssemblerCall) :
    Prop where
  captures : ∀ id capture, (assembled c authKey calls).active[id]? = some capture →
    CaptureOk id capture
  few : (assembled c authKey calls).active.size ≤ maxActiveCaptures
  apart : ∀ id ∈ (assembled c authKey calls).retired, (assembled c authKey calls).active[id]? = none
  delivered : ∀ captures, .taken captures ∈ (assemblerRun c (.new authKey) calls).1 →
    ∀ done, .ok done ∈ captures → Delivered c authKey calls done
  /-- No capture is handed out but those of the log, each of them once. -/
  once : handedOut (assemblerRun c (.new authKey) calls).1 ++ completed (assembled c authKey calls).ready =
    capturesOf (productLog c (.new authKey) calls)
  retired : (assembled c authKey calls).retired =
    latest maxRetiredSessions (retirings (productLog c (.new authKey) calls))
  comesBack : ∀ before id first between second after,
    productLog c (.new authKey) calls =
      before ++ (id, first) :: between ++ (id, second) :: after →
    first ≠ .error .invalidSession →
    ∃ others : List Nat, others.Nodup ∧ id ∉ others ∧ others.length = maxRetiredSessions ∧
      ∀ other ∈ others, other ∈ retirings between

theorem capture_assembly_exact (c : Crypto) (authKey : Option (List UInt8))
    (calls : List AssemblerCall) : AssemblerSafe c authKey calls := by
  have hinv : (assembled c authKey calls).Inv := assembled_inv calls
  have hlog : LogOk (productLog c (.new authKey) calls) (assembled c authKey calls) :=
    assembled_logged calls
  refine ⟨hinv.captures, hinv.few, hinv.apart, taken_delivered calls, handedOut_once calls, hlog.retired, ?_⟩
  intro before id first between second after hsplit hfirst
  have hlogged := hlog.logged
  rw [hsplit] at hlogged
  apply hlogged.comes_back
  unfold Product.retires
  split
  next heq => exact absurd heq hfirst
  · rfl

/-! ### An end that overtakes its frames

    It is refused, and its session is not retired: the frames behind it make a capture. -/

/-- Slot 1, first connection, first capture. -/
def firstSession : List UInt8 := [1, 0, 0, 0, 1, 0, 0x10, 0xEC]

def firstFrame (sequence : Nat) : List UInt8 :=
  magicEiau ++ [3, 32, 1, 1] ++ firstSession ++ leBytes 4 sequence ++ leBytes 4 audioSampleRate ++
    leBytes 4 0 ++ leBytes 2 audioFrameSamples ++ leBytes 2 audioFrameBytes ++
    List.replicate audioFrameBytes 7 ++ List.replicate audioAuthTagBytes 0

def firstEnd (finalSequence : Nat) : List UInt8 :=
  magicEiae ++ [3, 32, 1, 0] ++ firstSession ++ leBytes 4 finalSequence ++
    leBytes 4 audioSampleRate ++ leBytes 4 0 ++ leBytes 2 0 ++ leBytes 2 0 ++
    List.replicate audioAuthTagBytes 0

def overtakenFrames : List AssemblerCall :=
  (firstEnd minCaptureFrames :: (List.range minCaptureFrames).map firstFrame ++
    [firstEnd minCaptureFrames]).map fun datagram => .ingest datagram ⟨0, 0⟩ 0

theorem overtaken_products :
    (productLog default (.new (some [])) overtakenFrames).map (fun p => (p.1, p.2.toOption.isSome)) =
      [(0xEC10000100000001, false), (0xEC10000100000001, true)] := by
  decide +kernel

theorem refused_end_comes_back :
    ¬ ∀ (c : Crypto) (authKey : Option (List UInt8)) (calls : List AssemblerCall)
      (before : List Product) (id : Nat) (first : Except LanVoiceError CompletedCapture)
      (between : List Product) (second : Except LanVoiceError CompletedCapture)
      (after : List Product),
      productLog c (.new authKey) calls =
        before ++ (id, first) :: between ++ (id, second) :: after →
      ∃ others : List Nat, others.Nodup ∧ id ∉ others ∧ maxRetiredSessions ≤ others.length ∧
        ∀ other ∈ others, other ∈ retirings between := by
  intro h
  have hlog := overtaken_products
  obtain ⟨⟨id, first⟩, rest, hrest, hfirst, hmore⟩ := List.map_eq_cons_iff.1 hlog
  obtain ⟨⟨id', second⟩, later, rfl, hsecond, hlater⟩ := List.map_eq_cons_iff.1 hmore
  obtain rfl := List.map_eq_nil_iff.1 hlater
  simp only [Prod.mk.injEq] at hfirst hsecond
  obtain rfl : id = id' := hfirst.1.trans hsecond.1.symm
  obtain ⟨others, -, -, hmany, hothers⟩ := h default (some []) overtakenFrames [] id first [] second [] hrest
  cases others with
  | nil => simp [maxRetiredSessions] at hmany
  | cons other others => exact absurd (hothers other List.mem_cons_self) (by simp [retirings])

end CodexKeyboard.Lan
