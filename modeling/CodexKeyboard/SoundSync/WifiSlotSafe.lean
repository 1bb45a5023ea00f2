import CodexKeyboard.SoundSync.WifiSlotRuns

/-! The response slot comes back after every connection, unless a reply is offered too late.

    The teardown clears the pending response first and the active route only in a later section of the
    mutex. A reply of the same connection that is offered in between is taken by a slot whose route is
    gone a moment later, and no later step takes it out again. -/

namespace CodexKeyboard.SoundSync

/-- What the slot owes the connections. -/
structure SlotServes (s : SyncWorld) : Prop where
  free : s.slot.activeRoute = none → s.carrier = .outside →
    s.slot.pendingResponse = none ∧ s.slot.responseInFlight = false
  /-- The first reply of a later route finds the slot free. -/
  next : s.slot.activeRoute = none → s.carrier = .outside → ∀ response : PendingResponse,
    WifiSlot.Queueable response →
      ((s.slot.takeResponseAccepted.2.setActiveRoute response.route).queueResponse response).1 = true
  answered : Answered s.wire
  once : (writtenReplies s.wire).Nodup

/-- The states of the runs in which every reply is offered in time. -/
inductive TimelyReachable : SyncWorld → Prop
  | init : TimelyReachable {}
  | step {s s'} : TimelyReachable s → SyncStep s s' → Timely s s' → TimelyReachable s'

theorem TimelyReachable.inv {s : SyncWorld} (h : TimelyReachable s) : SyncInv s := by
  induction h with
  | init => exact syncInv_init
  | step _ hs ht ih => exact syncInv_step ih hs ht

theorem FlagsInv.free {s : SyncWorld} (h : FlagsInv s) (hout : s.carrier = .outside) :
    s.slot.pendingResponse = none ∧ s.slot.responseInFlight = false := by
  have hserving : s.carrier.serving = none := by rw [hout]; rfl
  constructor
  · by_contra hne
    obtain ⟨p, hp⟩ := Option.ne_none_iff_exists'.1 hne
    rw [h.pending p hp] at hserving
    cases hserving
  · by_contra hne
    exact h.inFlight (by simpa using hne) hserving

/-- While every reply is offered in time, the slot is left free by each connection, and each response
    answers the request read last on its own connection and is written once. -/
theorem timely_slot_served {s : SyncWorld} (h : TimelyReachable s) : SlotServes s := by
  have hinv := h.inv
  refine ⟨fun _ hout => hinv.flags.free hout, fun _ hout response hok => ?_, hinv.wire.answered,
    hinv.wire.once⟩
  obtain ⟨hpending, hflight⟩ := hinv.flags.free hout
  have hfree : (s.slot.takeResponseAccepted.2.setActiveRoute response.route).responsePending = false := by
    simp [WifiSlot.responsePending, WifiSlot.setActiveRoute, WifiSlot.takeResponseAccepted, hpending,
      hflight]
  unfold WifiSlot.queueResponse
  rw [if_pos ⟨hok, rfl, hfree⟩]

def someWifiRoute : SpeakerAssetsRouteToken := ⟨.wifi, 1, 1⟩
def someResponse : PendingResponse := ⟨someWifiRoute, 7, List.replicate 24 0, 0⟩

/-- A connection whose request is answered: the reply is offered while the connection waits for it,
    written and retired before the peer closes. -/
theorem slot_served_after_connection : SlotServes
    { routes := [someWifiRoute]
      nextRequest := 1
      wire := [.wrote someWifiRoute someResponse, .read someWifiRoute 0] } := by
  apply timely_slot_served
  have early : ∀ {s s' : SyncWorld}, s.supervisor = .polling → Timely s s' := by
    intro s s' h hoff
    rw [h] at hoff
    cases hoff
  have h1 := TimelyReachable.init.step (.carrier (.connect (r := someWifiRoute) rfl (by decide)
    (by simp))) (early rfl)
  have h2 := h1.step (.carrier (.activate rfl)) (early rfl)
  have h3 := h2.step (.carrier (.readAccepted rfl)) (early rfl)
  have h4 := h3.step (.supervisor (.answer 7 (some (List.replicate 24 0)) rfl List.mem_cons_self)) (early rfl)
  have h5 := h4.step (.supervisor (.slotFree rfl rfl)) (early rfl)
  have h6 : TimelyReachable
      { slot := { activeRoute := some someWifiRoute, pendingResponse := some someResponse }
        carrier := .waiting someWifiRoute 0
        core := { replies := [⟨7, someWifiRoute, some (List.replicate 24 0), 0⟩] }
        routes := [someWifiRoute]
        nextRequest := 1
        wire := [.read someWifiRoute 0] } := by
    have hoffer : offerWifiReply { replies := [⟨7, someWifiRoute, some (List.replicate 24 0), 0⟩] }
        { activeRoute := some someWifiRoute } =
          { activeRoute := some someWifiRoute, pendingResponse := some someResponse } := by decide
    rw [← hoffer]
    exact h5.step (.supervisor (.offer rfl)) fun _ _ _ _ hclosing => by cases hclosing
  have h7 := h6.step (.carrier (.take rfl rfl)) (early rfl)
  have h8 := h7.step (.carrier (.write rfl)) (early rfl)
  have h9 := h8.step (.carrier (.publish rfl)) (early rfl)
  have h10 := h9.step (.supervisor (.takeAccepted rfl rfl)) (early rfl)
  have h11 := h10.step (.supervisor (.retire rfl)) fun hoffering => nomatch hoffering
  have h12 := h11.step (.carrier (.retired rfl rfl)) (early rfl)
  have h13 := h12.step (.carrier (.readFailed rfl)) (early rfl)
  have h14 := h13.step (.carrier (.clearPending rfl)) (early rfl)
  have h15 := h14.step (.carrier (.clearActive rfl)) (early rfl)
  exact h15.step (.carrier (.closed rfl)) (early rfl)

/-- The peer closes before the reply is there, and the supervisor offers the reply after the pending
    response was cleared and before the route is: the slot keeps it for a route that is gone. -/
theorem slot_wedged : ¬ ∀ s, SyncReachable s → SlotServes s := by
  intro h
  have h1 := SyncReachable.init.step (.carrier (.connect (r := ⟨.wifi, 1, 1⟩) rfl (by decide)
    (by simp)))
  have h2 := h1.step (.carrier (.activate rfl))
  have h3 := h2.step (.carrier (.readAccepted rfl))
  have h4 := h3.step (.supervisor (.answer 1 (some (List.replicate 24 0)) rfl List.mem_cons_self))
  have h5 := h4.step (.carrier (.waitEnded rfl))
  have h6 := h5.step (.supervisor (.slotFree rfl rfl))
  have h7 := h6.step (.carrier (.clearPending rfl))
  have h8 := h7.step (.supervisor (.offer rfl))
  have h9 := h8.step (.carrier (.clearActive rfl))
  have h10 := h9.step (.carrier (.closed rfl))
  have hkept := ((h _ h10).free (by decide) rfl).1
  revert hkept
  decide

end CodexKeyboard.SoundSync
