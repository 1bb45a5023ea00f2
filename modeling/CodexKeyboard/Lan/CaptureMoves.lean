import CodexKeyboard.Lan.Capture

/-! What a datagram, or the passing of time, can do to the captures, said once. -/

namespace CodexKeyboard.Lan

open Schemes.Bytes Schemes.Playout Schemes.Recent

/-- An active capture is as long as the frames it has passed, and waits for no end. -/
structure CaptureOk (sessionId : Nat) (capture : ActiveCapture) : Prop where
  session : capture.sessionId = sessionId
  length : capture.pcm.length = audioFrameBytes * capture.nextSequence
  bounded : capture.pcm.length ≤ maxCaptureBytes
  opened : capture.finalSequence = none

namespace CaptureAssembler

structure Inv (a : CaptureAssembler) : Prop where
  captures : ∀ id capture, a.active[id]? = some capture → CaptureOk id capture
  few : a.active.size ≤ maxActiveCaptures
  apart : ∀ id ∈ a.retired, a.active[id]? = none

theorem inv_new (authKey : Option (List UInt8)) : Inv (new authKey) := by
  refine ⟨?_, ?_, ?_⟩
  · intro id capture h
    simp [new] at h
  · simp [new]
  · intro id h
    simp [new] at h

variable {a a' : CaptureAssembler} {id : Nat} {capture : ActiveCapture}

theorem active_put (a : CaptureAssembler) (capture : ActiveCapture) (id : Nat) :
    (a.put capture).active[id]? = if capture.sessionId = id then some capture else a.active[id]? := by
  simp [put, Std.ExtTreeMap.getElem?_insert]

@[simp] theorem retire_active (a : CaptureAssembler) (id : Nat) :
    (a.retire id).active = a.active := by
  unfold retire
  split <;> rfl

@[simp] theorem retire_ready (a : CaptureAssembler) (id : Nat) : (a.retire id).ready = a.ready := by
  unfold retire
  split <;> rfl

@[simp] theorem retire_authKey (a : CaptureAssembler) (id : Nat) :
    (a.retire id).authKey = a.authKey := by
  unfold retire
  split <;> rfl

theorem retire_retired (h : id ∉ a.retired) :
    (a.retire id).retired = latest maxRetiredSessions (a.retired ++ [id]) := by
  rw [retire, if_neg h, latest]

theorem mem_retire {k : Nat} (h : k ∈ (a.retire id).retired) : k = id ∨ k ∈ a.retired := by
  unfold retire at h
  split at h
  · exact Or.inr h
  · dsimp only at h
    rcases List.mem_append.1 (List.mem_of_mem_drop h) with h | h
    · exact Or.inr h
    · exact Or.inl (List.mem_singleton.1 h)

theorem active_abandon (a : CaptureAssembler) (id k : Nat) :
    (a.abandon id).active[k]? = if id = k then none else a.active[k]? := by
  simp [abandon, Std.ExtTreeMap.getElem?_erase]

@[simp] theorem abandon_ready (a : CaptureAssembler) (id : Nat) :
    (a.abandon id).ready = a.ready := retire_ready _ _

@[simp] theorem abandon_authKey (a : CaptureAssembler) (id : Nat) :
    (a.abandon id).authKey = a.authKey := retire_authKey _ _

/-- The capture ends: what `complete` does with it. -/
def finish (a : CaptureAssembler) (capture : ActiveCapture) : CaptureAssembler :=
  { a.abandon capture.sessionId with
    ready := a.ready ++ [
      if capture.nextSequence < minCaptureFrames then .error .captureTooShort
      else .ok ⟨capture.sessionId, capture.identity, capture.pcm⟩] }

theorem erase_put (a : CaptureAssembler) (capture : ActiveCapture) :
    (a.put capture).active.erase capture.sessionId = a.active.erase capture.sessionId := by
  apply Std.ExtTreeMap.ext_getElem?
  intro k
  simp only [put, Std.ExtTreeMap.getElem?_erase, Std.ExtTreeMap.getElem?_insert]
  split <;> simp_all

theorem complete_put (a : CaptureAssembler) (capture : ActiveCapture) :
    (a.put capture).complete capture.sessionId = a.finish capture := by
  have hsome : (a.put capture).active[capture.sessionId]? = some capture := by simp [active_put]
  have habandon : (a.put capture).abandon capture.sessionId = a.abandon capture.sessionId := by
    rw [abandon, abandon, erase_put]
    rfl
  simp only [complete, hsome, habandon, abandon_ready, finish]

theorem put_put (a : CaptureAssembler) {c d : ActiveCapture} (h : c.sessionId = d.sessionId) :
    (a.put c).put d = a.put d := by
  have hactive : (a.active.insert c.sessionId c).insert d.sessionId d =
      a.active.insert d.sessionId d := by
    apply Std.ExtTreeMap.ext_getElem?
    intro k
    simp only [Std.ExtTreeMap.getElem?_insert, h]
    split <;> rfl
  simp only [put, hactive]

/-! ### The captures stay well formed -/

theorem Inv.retire (h : a.Inv) (hid : a.active[id]? = none) : (a.retire id).Inv := by
  refine ⟨fun k c hk => h.captures k c (by simpa using hk), by simpa using h.few, ?_⟩
  intro k hk
  rw [retire_active]
  rcases mem_retire hk with rfl | hk
  · exact hid
  · exact h.apart k hk

theorem Inv.abandon (h : a.Inv) (id : Nat) : (a.abandon id).Inv := by
  have herase : Inv { a with active := a.active.erase id } := by
    refine ⟨?_, Nat.le_trans Std.ExtTreeMap.size_erase_le h.few, ?_⟩
    · intro k c hk
      simp only [Std.ExtTreeMap.getElem?_erase] at hk
      split at hk
      · simp at hk
      · exact h.captures k c hk
    · intro k hk
      simp only [Std.ExtTreeMap.getElem?_erase]
      split
      · rfl
      · exact h.apart k hk
  exact herase.retire (by simp)

theorem Inv.finish (h : a.Inv) (capture : ActiveCapture) : (a.finish capture).Inv := by
  have hgone := h.abandon capture.sessionId
  exact ⟨hgone.captures, hgone.few, hgone.apart⟩

theorem Inv.put (h : a.Inv) (hok : CaptureOk capture.sessionId capture)
    (new : capture.sessionId ∉ a.retired)
    (room : a.active[capture.sessionId]? = none → a.active.size < maxActiveCaptures) :
    (a.put capture).Inv := by
  refine ⟨?_, ?_, ?_⟩
  · intro k c hk
    rw [active_put] at hk
    split at hk
    next hid =>
      simp only [Option.some.injEq] at hk
      subst hk hid
      exact hok
    · exact h.captures k c hk
  · rw [CaptureAssembler.put, Std.ExtTreeMap.size_insert]
    split
    · exact h.few
    next hnew =>
      apply room
      rwa [getElem?_eq_none_iff]
  · intro k hk
    rw [active_put]
    split
    next hid => exact absurd (hid ▸ hk) new
    · exact h.apart k hk

/-! ### One datagram -/

/-- The capture with a frame it had not passed, after silence for what is missing before it. -/
def extend (capture : ActiveCapture) (frame : ParsedFrame) (now : Nat) : ActiveCapture :=
  { capture with
    pcm := capture.pcm ++
      List.replicate ((frame.sequence - capture.nextSequence) * audioFrameBytes) 0 ++ frame.payload
    nextSequence := frame.sequence + 1
    lastFrameAt := now }

/-- The capture at its end, after silence for what is missing. -/
def close (capture : ActiveCapture) (finalSequence now : Nat) : ActiveCapture :=
  { capture with
    pcm := capture.pcm ++
      List.replicate ((finalSequence - capture.nextSequence) * audioFrameBytes) 0
    nextSequence := finalSequence
    finalSequence := some finalSequence
    lastFrameAt := now }

inductive FrameMove (a : CaptureAssembler) (frame : ParsedFrame) :
    Except LanVoiceError Unit → CaptureAssembler → Prop
  | retired (old : frame.sessionId ∈ a.retired) : FrameMove a frame (.ok ()) a
  | refused {error : LanVoiceError} (known : error ≠ .invalidSession)
      (new : frame.sessionId ∉ a.retired) (inactive : a.active[frame.sessionId]? = none) :
      FrameMove a frame (.error error) (a.retire frame.sessionId)
  | abandoned {error : LanVoiceError} (known : error ≠ .invalidSession) {capture : ActiveCapture}
      (active : a.active[frame.sessionId]? = some capture) :
      FrameMove a frame (.error error) (a.abandon frame.sessionId)
  | late {capture : ActiveCapture} (active : a.active[frame.sessionId]? = some capture)
      (passed : frame.sequence < capture.nextSequence) (now : Nat) :
      FrameMove a frame (.ok ()) (a.put { capture with lastFrameAt := now })
  | opened (source : SocketAddr) (now : Nat) (new : frame.sessionId ∉ a.retired)
      (inactive : a.active[frame.sessionId]? = none) (room : a.active.size < maxActiveCaptures)
      (gap : frame.sequence ≤ maxCaptureGapFrames) :
      FrameMove a frame (.ok ()) (a.put (extend (openCapture frame source now) frame now))
  | taken {capture : ActiveCapture} (active : a.active[frame.sessionId]? = some capture)
      (ahead : capture.nextSequence ≤ frame.sequence)
      (gap : frame.sequence - capture.nextSequence ≤ maxCaptureGapFrames)
      (fits : (frame.sequence + 1) * audioFrameBytes ≤ maxCaptureBytes) (now : Nat) :
      FrameMove a frame (.ok ()) (a.put (extend capture frame now))

inductive EndMove (a : CaptureAssembler) (terminal : ParsedEnd) :
    Except LanVoiceError Unit → CaptureAssembler → Prop
  | retired (old : terminal.sessionId ∈ a.retired) : EndMove a terminal (.ok ()) a
  | unknown (new : terminal.sessionId ∉ a.retired)
      (inactive : a.active[terminal.sessionId]? = none) :
      EndMove a terminal (.error .invalidSession) a
  | abandoned {error : LanVoiceError} (known : error ≠ .invalidSession) {capture : ActiveCapture}
      (active : a.active[terminal.sessionId]? = some capture) :
      EndMove a terminal (.error error) (a.abandon terminal.sessionId)
  | finished {capture : ActiveCapture} (active : a.active[terminal.sessionId]? = some capture)
      (ahead : capture.nextSequence ≤ terminal.finalSequence)
      (gap : terminal.finalSequence - capture.nextSequence ≤ maxCaptureGapFrames)
      (fits : terminal.finalSequence * audioFrameBytes ≤ maxCaptureBytes) (now : Nat) :
      EndMove a terminal (.ok ()) (a.finish (close capture terminal.finalSequence now))

/-- What the parsers promise about a frame. -/
structure FrameOk (frame : ParsedFrame) : Prop where
  payload : frame.payload.length = audioFrameBytes
  sequence : frame.sequence < 2 ^ 32

theorem fillGap_eq {capture : ActiveCapture} {sequence : Nat}
    (h : capture.nextSequence ≤ sequence) :
    capture.fillGap sequence = { capture with
      pcm := capture.pcm ++
        List.replicate ((sequence - capture.nextSequence) * audioFrameBytes) 0
      nextSequence := sequence } := by
  unfold ActiveCapture.fillGap
  dsimp only
  split
  · rfl
  next hnone =>
    have heq : capture.nextSequence = sequence := by omega
    simp [← heq]

/-- A frame that the capture has not passed, and that fits. -/
theorem acceptFrame_ahead {frame : ParsedFrame} {source : SocketAddr} {now : Nat}
    (hcapture : CaptureOk frame.sessionId capture) (hframe : FrameOk frame)
    (hmatch : ¬ (capture.source ≠ source ∨ capture.identity ≠ frame.identity ∨
      capture.finalSequence.any (fun finalSequence => decide (finalSequence ≤ frame.sequence))))
    (hahead : capture.nextSequence ≤ frame.sequence)
    (hgap : frame.sequence - capture.nextSequence ≤ maxCaptureGapFrames)
    (hfits : (frame.sequence + 1) * audioFrameBytes ≤ maxCaptureBytes) :
    a.acceptFrame capture frame source now = (.ok (), a.put (extend capture frame now)) := by
  have hlength := hcapture.length
  have hpayload := hframe.payload
  have hbytes : capture.pcm.length + ((frame.sequence - capture.nextSequence) * audioFrameBytes +
      frame.payload.length) = (frame.sequence + 1) * audioFrameBytes := by
    rw [hlength, hpayload, Nat.mul_comm audioFrameBytes, ← Nat.add_assoc, ← Nat.add_mul,
      Nat.add_sub_cancel' hahead, Nat.succ_mul]
  have hsmall : frame.sequence + 1 ≤ 2 ^ 32 - 1 := by
    simp only [audioFrameBytes, audioFrameSamples, maxCaptureBytes, audioSampleRate] at hfits
    omega
  rw [acceptFrame, if_neg hmatch, if_neg (Nat.not_lt.2 hahead)]
  simp only [hbytes, if_neg (Nat.not_lt.2 hgap), if_neg (Nat.not_lt.2 hfits), fillGap_eq hahead,
    Nat.min_eq_left hsmall, hcapture.opened, extend]
  rfl

theorem acceptFrame_move {frame : ParsedFrame} {source : SocketAddr} (now : Nat)
    (hcapture : CaptureOk frame.sessionId capture) (hframe : FrameOk frame)
    (hactive : a.active[frame.sessionId]? = some capture) :
    FrameMove a frame (a.acceptFrame capture frame source now).1
      (a.acceptFrame capture frame source now).2 := by
  by_cases hmatch : capture.source ≠ source ∨ capture.identity ≠ frame.identity ∨
      capture.finalSequence.any (fun finalSequence => decide (finalSequence ≤ frame.sequence))
  · rw [acceptFrame, if_pos hmatch]
    exact .abandoned (by simp) hactive
  · rcases Nat.lt_or_ge frame.sequence capture.nextSequence with hlate | hahead
    · rw [acceptFrame, if_neg hmatch, if_pos hlate]
      exact .late hactive hlate now
    · by_cases hgap : maxCaptureGapFrames < frame.sequence - capture.nextSequence
      · rw [acceptFrame, if_neg hmatch, if_neg (Nat.not_lt.2 hahead)]
        simp only [if_pos hgap]
        exact .abandoned (by simp) hactive
      · by_cases hfits : (frame.sequence + 1) * audioFrameBytes ≤ maxCaptureBytes
        · rw [acceptFrame_ahead hcapture hframe hmatch hahead (Nat.not_lt.1 hgap) hfits]
          exact .taken hactive hahead (Nat.not_lt.1 hgap) hfits now
        · have hbytes : maxCaptureBytes < capture.pcm.length +
              ((frame.sequence - capture.nextSequence) * audioFrameBytes + frame.payload.length) := by
            rw [hcapture.length, hframe.payload, Nat.mul_comm audioFrameBytes, ← Nat.add_assoc,
              ← Nat.add_mul, Nat.add_sub_cancel' hahead, ← Nat.succ_mul]
            exact Nat.not_le.1 hfits
          rw [acceptFrame, if_neg hmatch, if_neg (Nat.not_lt.2 hahead)]
          simp only [if_neg hgap, if_pos hbytes]
          exact .abandoned (by simp) hactive

theorem openCapture_ok (frame : ParsedFrame) (source : SocketAddr) (now : Nat) :
    CaptureOk frame.sessionId (openCapture frame source now) := by
  refine ⟨rfl, rfl, ?_, rfl⟩
  simp [openCapture]

theorem ingestFrame_move {frame : ParsedFrame} (source : SocketAddr) (now : Nat) (h : a.Inv)
    (hframe : FrameOk frame) :
    FrameMove a frame (a.ingestFrame frame source now).1 (a.ingestFrame frame source now).2 := by
  unfold ingestFrame
  split
  next hold => exact .retired hold
  next hnew =>
    split
    next capture hactive =>
      exact acceptFrame_move now (h.captures _ _ hactive) hframe hactive
    next hinactive =>
      split
      · exact .refused (by simp) hnew hinactive
      next hgap =>
        split
        · exact .refused (by simp) hnew hinactive
        next hroom =>
          have hsmall : (frame.sequence + 1) * audioFrameBytes ≤ maxCaptureBytes := by
            simp only [audioFrameBytes, audioFrameSamples, maxCaptureBytes, audioSampleRate,
              maxCaptureGapFrames] at hgap ⊢
            omega
          have hmatch : ¬ ((openCapture frame source now).source ≠ source ∨
              (openCapture frame source now).identity ≠ frame.identity ∨
              (openCapture frame source now).finalSequence.any
                (fun finalSequence => decide (finalSequence ≤ frame.sequence))) := by
            simp [openCapture]
          have hput : (a.put (openCapture frame source now)).put
              (extend (openCapture frame source now) frame now) =
              a.put (extend (openCapture frame source now) frame now) := put_put a rfl
          dsimp only
          rw [acceptFrame_ahead (openCapture_ok frame source now) hframe hmatch (Nat.zero_le _)
            (Nat.not_lt.1 hgap) hsmall, hput]
          exact .opened source now hnew hinactive (Nat.not_le.1 hroom) (Nat.not_lt.1 hgap)

theorem ingestEnd_move {terminal : ParsedEnd} (source : SocketAddr) (now : Nat) (h : a.Inv) :
    EndMove a terminal (a.ingestEnd terminal source now).1 (a.ingestEnd terminal source now).2 := by
  unfold ingestEnd
  split
  next hold => exact .retired hold
  next hnew =>
    split
    next hinactive => exact .unknown hnew hinactive
    next capture hactive =>
      have hok := h.captures _ _ hactive
      split
      · exact .abandoned (by simp) hactive
      next hmatch =>
        simp only [not_or, Nat.not_lt] at hmatch
        rw [hok.opened]
        dsimp only
        split
        · exact .abandoned (by simp) hactive
        next hgap =>
          rw [fillGap_eq hmatch.2.2.1]
          simp only [if_true]
          have hcomplete := complete_put a (close capture terminal.finalSequence now)
          rw [show (close capture terminal.finalSequence now).sessionId = terminal.sessionId from
            hok.session] at hcomplete
          rw [← close, hcomplete]
          exact .finished hactive hmatch.2.2.1 (Nat.not_lt.1 hgap) hmatch.2.2.2 now

/-! ### What the moves keep -/

theorem extend_ok {frame : ParsedFrame} (h : CaptureOk id capture) (hframe : FrameOk frame)
    (ahead : capture.nextSequence ≤ frame.sequence)
    (fits : (frame.sequence + 1) * audioFrameBytes ≤ maxCaptureBytes) (now : Nat) :
    CaptureOk id (extend capture frame now) := by
  have hlength : (extend capture frame now).pcm.length = audioFrameBytes * (frame.sequence + 1) := by
    rw [extend, List.length_append, List.length_append, h.length, List.length_replicate,
      hframe.payload, Nat.mul_comm audioFrameBytes capture.nextSequence, ← Nat.add_mul,
      Nat.add_sub_cancel' ahead, ← Nat.succ_mul, Nat.mul_comm]
  refine ⟨h.session, hlength, ?_, h.opened⟩
  rw [hlength, Nat.mul_comm]
  exact fits

/-- An active capture is replaced. -/
theorem Inv.update (h : a.Inv) {next : ActiveCapture} (active : a.active[id]? = some capture)
    (hok : CaptureOk id next) : (a.put next).Inv := by
  obtain rfl := hok.session
  apply h.put hok
  · intro hretired
    simp [h.apart _ hretired] at active
  · intro hnone
    simp [hnone] at active

theorem FrameMove.inv {frame : ParsedFrame} {result : Except LanVoiceError Unit}
    (h : FrameMove a frame result a') (ha : a.Inv) (hframe : FrameOk frame) : a'.Inv := by
  cases h with
  | retired old => exact ha
  | refused known new inactive => exact ha.retire inactive
  | abandoned known active => exact ha.abandon _
  | late active passed now =>
    have hok := ha.captures _ _ active
    exact ha.update active ⟨hok.session, hok.length, hok.bounded, hok.opened⟩
  | opened source now new inactive room gap =>
    refine ha.put (extend_ok (openCapture_ok frame source now) hframe (Nat.zero_le _) ?_ now) new
      fun _ => room
    simp only [audioFrameBytes, audioFrameSamples, maxCaptureBytes, audioSampleRate,
      maxCaptureGapFrames] at gap ⊢
    omega
  | taken active ahead gap fits now =>
    exact ha.update active (extend_ok (ha.captures _ _ active) hframe ahead fits now)

theorem EndMove.inv {terminal : ParsedEnd} {result : Except LanVoiceError Unit}
    (h : EndMove a terminal result a') (ha : a.Inv) : a'.Inv := by
  cases h with
  | retired old => exact ha
  | unknown new inactive => exact ha
  | abandoned known active => exact ha.abandon _
  | finished active ahead gap fits now => exact ha.finish _

end CaptureAssembler

end CodexKeyboard.Lan
