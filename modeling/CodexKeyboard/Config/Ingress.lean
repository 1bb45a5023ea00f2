import CodexKeyboard.Config.Receiver
import CodexKeyboard.Config.Numbers

/-! A configuration on its way into the keyboard: put together behind the USB endpoint, applied and saved by the
    main loop, acknowledged to the endpoint it came from, and loaded again after a restart.

    The calls into the flash answer as they like: a save that fails may have written either of its keys, and a
    read that fails leaves its default. -/

namespace CodexKeyboard.Config

open Schemes Schemes.Bytes Transact

/-! ### The store -/

/-- The two keys of a configuration in flash. -/
structure NvsConfigStore where
  config : Option Bytes := none
  hostPlatform : Option UInt8 := none
  deriving DecidableEq, Repr

/-- How a save ended; a failed one says what it wrote nevertheless. -/
inductive SaveAnswer where
  | saved
  | failed (config hostPlatform : Bool)
  deriving DecidableEq, Repr

/-- Whether the reads of a start succeed. -/
structure LoadAnswers where
  config : Bool := true
  hostPlatform : Bool := true
  deriving DecidableEq, Repr

/-- A text as `c_str` hands it on. -/
def cString (json : Bytes) : Bytes := json.takeWhile (· != 0)

def platformByte : HostPlatform → UInt8
  | .windows => 1
  | .macOS => 0

namespace NvsConfigStore

def saveConfigAndHostPlatform (nvs : NvsConfigStore) (json : Bytes) (platform : HostPlatform) :
    SaveAnswer → Bool × NvsConfigStore
  | .saved => if json = [] then (false, nvs) else (true, ⟨some (cString json), some (platformByte platform)⟩)
  | .failed config hostPlatform =>
    if json = [] then (false, nvs)
    else
      (false,
        { config := if config then some (cString json) else nvs.config
          hostPlatform := if hostPlatform then some (platformByte platform) else nvs.hostPlatform })

def saveHostPlatform (nvs : NvsConfigStore) (platform : HostPlatform) : SaveAnswer → Bool × NvsConfigStore
  | .saved => (true, { nvs with hostPlatform := some (platformByte platform) })
  | .failed _ hostPlatform =>
    (false, { nvs with hostPlatform := if hostPlatform then some (platformByte platform) else nvs.hostPlatform })

def loadHostPlatform (nvs : NvsConfigStore) : Bool → Option HostPlatform
  | false => none
  | true =>
    match nvs.hostPlatform with
    | some stored => if stored = 1 then some .windows else if stored = 0 then some .macOS else none
    | none => none

def loadConfig (nvs : NvsConfigStore) : Bool → Option Bytes
  | false => none
  | true =>
    match nvs.config with
    | some json => if json = [] then none else some json
    | none => none

end NvsConfigStore

namespace ConfigState

/-- `set_target_platform` of the state. -/
def onPlatform (state : ConfigState) (platform : HostPlatform) : ConfigState :=
  { state with current := setTargetPlatform state.current platform }

/-- `load_stored_config`, of a state as it is constructed. -/
def loadStoredConfig (fresh : ConfigState) (nvs : NvsConfigStore) (reads : LoadAnswers) : ConfigState :=
  let storedPlatform := (nvs.loadHostPlatform reads.hostPlatform).getD .macOS
  let state := fresh.onPlatform storedPlatform
  match nvs.loadConfig reads.config with
  | none => state
  | some json =>
    match state.applyJson json with
    | .ok applied => applied.onPlatform storedPlatform
    | .error _ => state

end ConfigState

/-! ### The ingress -/

/-- An acknowledgement; `bytes` and `crc16` are the fingerprint of the payload as it was received. -/
structure ConfigAck where
  phase : UInt8
  ok : Bool
  bytes : Nat
  crc16 : Nat
  saved : Bool
  deriving DecidableEq, Repr

/-- The USB transport's receiver and its completed payload, the application's state, the flash, and every
    acknowledgement so far with the endpoint it is for. -/
structure ConfigIngress where
  receiver : EndpointBoundConfigReceiver := {}
  pending : Option (Bytes × Nat) := none
  state : ConfigState
  nvs : NvsConfigStore
  acks : List (Nat × ConfigAck) := []
  deriving DecidableEq, Repr

namespace ConfigIngress

/-- `queue_completed_config`: the newest payload replaces one that still waits. -/
def queueCompletedConfig (ingress : ConfigIngress) (json : Bytes) (endpointEpoch : Nat) : ConfigIngress :=
  if endpointEpoch = 0 ∨ json = [] ∨ kConfigMaxJsonLen < json.length then ingress
  else { ingress with pending := some (json, endpointEpoch) }

/-- `receive_config_report`, of the endpoint that is mounted. -/
def receiveConfigReport (ingress : ConfigIngress) (endpointEpoch : Nat) (data : Bytes) : ConfigIngress :=
  if endpointEpoch = 0 then ingress
  else
    let received := { ingress with receiver := (ingress.receiver.receive endpointEpoch data).2 }
    match (ingress.receiver.receive endpointEpoch data).1 with
    | .complete json => received.queueCompletedConfig json endpointEpoch
    | _ => received

/-- The payload to apply: the one of USB, or else one of another transport. -/
def takePendingConfig (ingress : ConfigIngress) (other : Option Bytes) : Option (Bytes × Option Nat) :=
  match ingress.pending with
  | some (json, endpointEpoch) =>
    if json = [] ∨ endpointEpoch = 0 then other.map (·, none) else some (json, some endpointEpoch)
  | none => other.map (·, none)

/-- `send_hid_config_ack`, to the USB endpoint a payload came from. -/
def sendHidConfigAck (ingress : ConfigIngress) (origin : Option Nat) (json : Bytes) (ok saved : Bool) : ConfigIngress :=
  match origin with
  | none => ingress
  | some endpointEpoch =>
    { ingress with
      acks := ingress.acks ++ [(endpointEpoch, ⟨1, ok, min json.length 65535, (crc16Ccitt json).toNat, saved⟩)] }

/-- A payload is applied to a copy of the state, which counts when it has been saved. One with a number that
    overflows an `int` is taken as refused. -/
def push (ingress : ConfigIngress) (json : Bytes) (origin : Option Nat) (answer : SaveAnswer) : ConfigIngress :=
  match ingress.state.applyJson json with
  | .error _ => ingress.sendHidConfigAck origin json false false
  | .ok candidate =>
    let result :=
      ingress.nvs.saveConfigAndHostPlatform candidate.lastAppliedJson candidate.current.targetPlatform answer
    { ingress with
      nvs := result.2
      state := if result.1 then candidate else ingress.state }.sendHidConfigAck origin json true result.1

def applyPendingConfig (ingress : ConfigIngress) (other : Option Bytes) (answer : SaveAnswer) : ConfigIngress :=
  match ingress.takePendingConfig other with
  | none => { ingress with pending := none }
  | some (json, origin) =>
    if json = [] then { ingress with pending := none }
    else { ingress with pending := none }.push json origin answer

def saveSelectedHostPlatform (ingress : ConfigIngress) (platform : HostPlatform) (answer : SaveAnswer) :
    ConfigIngress :=
  let result := ingress.nvs.saveHostPlatform platform answer
  { ingress with
    nvs := result.2
    state := if result.1 then ingress.state.onPlatform platform else ingress.state }

/-- The power comes back. -/
def restart (ingress : ConfigIngress) (fresh : ConfigState) (reads : LoadAnswers) : ConfigIngress :=
  { state := fresh.loadStoredConfig ingress.nvs reads, nvs := ingress.nvs, acks := ingress.acks }

end ConfigIngress

inductive IngressStep where
  | report (endpointEpoch : Nat) (data : Bytes)
  | apply (other : Option Bytes) (answer : SaveAnswer)
  | selectPlatform (platform : HostPlatform) (answer : SaveAnswer)
  | restart (reads : LoadAnswers)
  deriving DecidableEq, Repr

variable (fresh : ConfigState) (nvs : NvsConfigStore)

namespace ConfigIngress

def step (ingress : ConfigIngress) : IngressStep → ConfigIngress
  | .report endpointEpoch data => ingress.receiveConfigReport endpointEpoch data
  | .apply other answer => ingress.applyPendingConfig other answer
  | .selectPlatform platform answer => ingress.saveSelectedHostPlatform platform answer
  | .restart reads => ingress.restart fresh reads

def boot : ConfigIngress := { state := fresh.loadStoredConfig nvs {}, nvs }

/-- The runs of a keyboard that starts with the given flash. Where its reads fail the run begins with a restart. -/
def run (steps : List IngressStep) : ConfigIngress := steps.foldl (step fresh) (boot fresh nvs)

theorem run_snoc (steps : List IngressStep) (last : IngressStep) :
    run fresh nvs (steps ++ [last]) = (run fresh nvs steps).step fresh last := by
  rw [run, List.foldl_append]
  rfl

end ConfigIngress

/-! ### What an acknowledgement certifies -/

/-- What a step calls on the receiver; a restart leaves it as a reset does. -/
def IngressStep.receiverCalls : IngressStep → List ReceiverCall
  | .report endpointEpoch data => [.receive endpointEpoch data]
  | .apply _ _ => []
  | .selectPlatform _ _ => []
  | .restart _ => [.reset]

def receiverCalls (steps : List IngressStep) : List ReceiverCall := steps.flatMap IngressStep.receiverCalls

/-- A payload that was put together of the reports of one lifetime. -/
structure Arrived (calls : List ReceiverCall) (endpointEpoch : Nat) (json : Bytes) : Prop where
  within : ∃ reports announced before, Assembled announced reports json ∧ Gathered before endpointEpoch reports ∧
    before <+: calls
  epoch : endpointEpoch ≠ 0

theorem Arrived.more {calls : List ReceiverCall} {endpointEpoch : Nat} {json : Bytes}
    (h : Arrived calls endpointEpoch json) (more : List ReceiverCall) : Arrived (calls ++ more) endpointEpoch json := by
  obtain ⟨reports, announced, before, hassembled, hgathered, hprefix⟩ := h.within
  exact ⟨⟨reports, announced, before, hassembled, hgathered, hprefix.trans (List.prefix_append _ _)⟩, h.epoch⟩

namespace ConfigIngress

variable {fresh nvs} {ingress : ConfigIngress} {steps : List IngressStep} {json data : Bytes} {endpointEpoch : Nat}
  {other : Option Bytes} {answer : SaveAnswer} {origin : Option Nat} {ok saved : Bool} {platform : HostPlatform}

@[simp] theorem sendHidConfigAck_receiver :
    (ingress.sendHidConfigAck origin json ok saved).receiver = ingress.receiver := by
  cases origin <;> rfl

@[simp] theorem sendHidConfigAck_pending :
    (ingress.sendHidConfigAck origin json ok saved).pending = ingress.pending := by
  cases origin <;> rfl

@[simp] theorem sendHidConfigAck_state : (ingress.sendHidConfigAck origin json ok saved).state = ingress.state := by
  cases origin <;> rfl

@[simp] theorem sendHidConfigAck_nvs : (ingress.sendHidConfigAck origin json ok saved).nvs = ingress.nvs := by
  cases origin <;> rfl

theorem push_transport : (ingress.push json origin answer).receiver = ingress.receiver ∧
    (ingress.push json origin answer).pending = ingress.pending := by
  rw [push]
  split <;> simp

theorem apply_transport : (ingress.applyPendingConfig other answer).receiver = ingress.receiver ∧
    (ingress.applyPendingConfig other answer).pending = none := by
  rw [applyPendingConfig]
  split
  · exact ⟨rfl, rfl⟩
  · split
    · exact ⟨rfl, rfl⟩
    · exact push_transport

theorem queueCompletedConfig_receiver :
    (ingress.queueCompletedConfig json endpointEpoch).receiver = ingress.receiver := by
  rw [queueCompletedConfig]
  split <;> rfl

theorem report_receiver : (ingress.receiveConfigReport endpointEpoch data).receiver =
    (ingress.receiver.receive endpointEpoch data).2 := by
  rw [receiveConfigReport]
  split
  next hzero => rw [EndpointBoundConfigReceiver.receive, if_pos hzero]
  · dsimp only
    split
    · exact queueCompletedConfig_receiver
    · rfl

theorem receiverCalls_snoc (steps : List IngressStep) (last : IngressStep) :
    receiverCalls (steps ++ [last]) = receiverCalls steps ++ last.receiverCalls := by
  rw [receiverCalls, List.flatMap_append, List.flatMap_singleton]
  rfl

theorem step_receiver (step : IngressStep) : (ingress.step fresh step).receiver =
    step.receiverCalls.foldl EndpointBoundConfigReceiver.call ingress.receiver := by
  cases step with
  | report endpointEpoch data => exact report_receiver
  | apply other answer => exact apply_transport.1
  | selectPlatform platform answer => rfl
  | restart reads => rfl

/-- The receiver is where its calls leave it. -/
theorem run_receiver (steps : List IngressStep) :
    (run fresh nvs steps).receiver = EndpointBoundConfigReceiver.run (receiverCalls steps) := by
  induction steps using List.reverseRecOn with
  | nil => rfl
  | append_singleton steps last ih =>
    rw [run_snoc, step_receiver, ih, receiverCalls_snoc, EndpointBoundConfigReceiver.run,
      EndpointBoundConfigReceiver.run, List.foldl_append]

/-- A report leaves the payload that waits, or puts a completed one in its place. -/
theorem report_pending : (ingress.receiveConfigReport endpointEpoch data).pending = ingress.pending ∨
    ∃ json, (ingress.receiver.receive endpointEpoch data).1 = .complete json ∧
      (ingress.receiveConfigReport endpointEpoch data).pending = some (json, endpointEpoch) := by
  rw [receiveConfigReport]
  split
  · exact Or.inl rfl
  · dsimp only
    split
    next json hjson =>
      rw [queueCompletedConfig]
      split
      · exact Or.inl rfl
      · exact Or.inr ⟨json, hjson, rfl⟩
    · exact Or.inl rfl

theorem report_acks : (ingress.receiveConfigReport endpointEpoch data).acks = ingress.acks := by
  rw [receiveConfigReport]
  split
  · rfl
  · dsimp only
    split
    · rw [queueCompletedConfig]
      split <;> rfl
    · rfl

/-- A payload that waits arrived whole. -/
theorem pending_arrived (steps : List IngressStep) (h : (run fresh nvs steps).pending = some (json, endpointEpoch)) :
    Arrived (receiverCalls steps) endpointEpoch json := by
  induction steps using List.reverseRecOn with
  | nil => cases h
  | append_singleton steps last ih =>
    rw [run_snoc] at h
    rw [receiverCalls_snoc]
    cases last with
    | report epoch data =>
      rcases report_pending with hsame | ⟨completed, hcompleted, hnext⟩
      · exact (ih (hsame.symm.trans h)).more _
      · cases hnext.symm.trans h
        rw [run_receiver] at hcompleted
        obtain ⟨held, hheld⟩ := run_holds (receiverCalls steps)
        obtain ⟨hepoch, earlier, announced, hassembled, hgathered⟩ := holds_complete hheld hcompleted
        exact ⟨⟨_, announced, _, hassembled, hgathered, List.prefix_refl _⟩, hepoch⟩
    | apply other answer =>
      rw [show (step fresh (run fresh nvs steps) (.apply other answer)).pending = none from apply_transport.2] at h
      cases h
    | selectPlatform platform answer => exact (ih h).more _
    | restart reads => cases h

/-- The acknowledgement of a payload. -/
def ackOf (json : Bytes) (ok saved : Bool) : ConfigAck := ⟨1, ok, min json.length 65535, (crc16Ccitt json).toNat, saved⟩

/-- A payload is in the state and in the flash. -/
structure Kept (before : ConfigState) (after : ConfigIngress) (json : Bytes) (next : ConfigState) : Prop where
  applied : before.applyJson json = .ok next
  state : after.state = next
  nvs : after.nvs = ⟨some (cString json), some (platformByte next.current.targetPlatform)⟩

theorem applyJson_last {state next : ConfigState} (h : state.applyJson json = .ok next) :
    next.lastAppliedJson = json := by
  rw [ConfigState.applyJson] at h
  cases hparse : parseConfigPayload json with
  | error stop => rw [hparse] at h; cases h
  | ok parsed => rw [hparse] at h; cases h; rfl

theorem save_true {json : Bytes} {platform : HostPlatform}
    (h : (nvs.saveConfigAndHostPlatform json platform answer).1 = true) :
    answer = .saved ∧
      (nvs.saveConfigAndHostPlatform json platform answer).2 = ⟨some (cString json), some (platformByte platform)⟩ := by
  cases answer with
  | saved =>
    rw [NvsConfigStore.saveConfigAndHostPlatform] at h ⊢
    split at h
    · cases h
    next hsome =>
      rw [if_neg hsome]
      exact ⟨rfl, rfl⟩
  | failed config hostPlatform =>
    rw [NvsConfigStore.saveConfigAndHostPlatform] at h
    split at h <;> cases h

/-- What is saved is acknowledged, and what is acknowledged as saved is kept. -/
theorem push_acks : ∃ ok saved, (ingress.push json (some endpointEpoch) answer).acks =
      ingress.acks ++ [(endpointEpoch, ackOf json ok saved)] ∧
    (saved = true → ok = true ∧ answer = .saved ∧
      ∃ next, Kept ingress.state (ingress.push json (some endpointEpoch) answer) json next) := by
  rw [push]
  split
  next => exact ⟨false, false, rfl, nofun⟩
  next candidate happlied =>
    dsimp only
    refine ⟨true, _, rfl, fun hsaved => ?_⟩
    obtain ⟨hanswer, hnvs⟩ := save_true hsaved
    refine ⟨rfl, hanswer, candidate, happlied, ?_, ?_⟩
    · rw [sendHidConfigAck_state, if_pos hsaved]
    · rw [sendHidConfigAck_nvs, hnvs, applyJson_last happlied]

theorem push_other : (ingress.push json none answer).acks = ingress.acks := by
  rw [push]
  split <;> rfl

theorem apply_acks : (ingress.applyPendingConfig other answer).acks = ingress.acks ∨
    ∃ json endpointEpoch ok saved, ingress.pending = some (json, endpointEpoch) ∧
      (ingress.applyPendingConfig other answer).acks = ingress.acks ++ [(endpointEpoch, ackOf json ok saved)] ∧
      (saved = true → ok = true ∧ answer = .saved ∧
        ∃ next, Kept ingress.state (ingress.applyPendingConfig other answer) json next) := by
  rw [applyPendingConfig]
  split
  · exact Or.inl rfl
  next json origin htake =>
    split
    · exact Or.inl rfl
    · cases origin with
      | none => exact Or.inl push_other
      | some endpointEpoch =>
        have hpending : ingress.pending = some (json, endpointEpoch) := by
          rw [takePendingConfig] at htake
          split at htake
          next waiting epoch hwaiting =>
            split at htake
            · cases other <;> cases htake
            · cases htake
              exact hwaiting
          · cases other <;> cases htake
        obtain ⟨ok, saved, hacks, hkept⟩ := @push_acks { ingress with pending := none } json endpointEpoch answer
        exact Or.inr ⟨json, endpointEpoch, ok, saved, hpending, hacks, hkept⟩

/-- Some step applied and saved a payload that had arrived at the endpoint. -/
structure Served (fresh : ConfigState) (nvs : NvsConfigStore) (steps : List IngressStep) (endpointEpoch : Nat)
    (json : Bytes) : Prop where
  step : ∃ before other after next, steps = before ++ .apply other .saved :: after ∧
    Arrived (receiverCalls before) endpointEpoch json ∧
    Kept (run fresh nvs before).state (run fresh nvs (before ++ [.apply other .saved])) json next

theorem Served.more (h : Served fresh nvs steps endpointEpoch json) (last : IngressStep) :
    Served fresh nvs (steps ++ [last]) endpointEpoch json := by
  obtain ⟨before, other, after, next, rfl, harrived, hkept⟩ := h.step
  exact ⟨before, other, after ++ [last], next, by simp, harrived, hkept⟩

/-- An acknowledgement that says saved is of a payload that was served. -/
theorem acks_served (steps : List IngressStep) {ack : ConfigAck} (h : (endpointEpoch, ack) ∈ (run fresh nvs steps).acks)
    (hsaved : ack.saved = true) : ∃ json, Served fresh nvs steps endpointEpoch json ∧ ack = ackOf json true true := by
  induction steps using List.reverseRecOn with
  | nil => cases h
  | append_singleton steps last ih =>
    have hold : (endpointEpoch, ack) ∈ (run fresh nvs steps).acks →
        ∃ json, Served fresh nvs (steps ++ [last]) endpointEpoch json ∧ ack = ackOf json true true := by
      intro hmem
      obtain ⟨json, hserved, hack⟩ := ih hmem
      exact ⟨json, hserved.more last, hack⟩
    rw [run_snoc] at h
    cases last with
    | report epoch data =>
      refine hold ?_
      have hsame : (step fresh (run fresh nvs steps) (.report epoch data)).acks = (run fresh nvs steps).acks :=
        report_acks
      rwa [hsame] at h
    | selectPlatform platform answer => exact hold h
    | restart reads => exact hold h
    | apply other answer =>
      rcases @apply_acks (run fresh nvs steps) other answer
        with hsame | ⟨json, epoch, ok, saved, hpending, hacks, hkept⟩
      · exact hold (hsame ▸ h)
      · have hmem : (endpointEpoch, ack) ∈ (run fresh nvs steps).acks ++ [(epoch, ackOf json ok saved)] := hacks ▸ h
        rcases List.mem_append.1 hmem with hmem | hmem
        · exact hold hmem
        · cases List.mem_singleton.1 hmem
          obtain ⟨rfl, rfl, next, hnext⟩ := hkept hsaved
          have htrue : saved = true := hsaved
          subst htrue
          refine ⟨json, ⟨steps, other, [], next, rfl, pending_arrived steps hpending, ?_⟩, rfl⟩
          rw [run_snoc]
          exact hnext

end ConfigIngress

/-! ### Restarts -/

section Restarts

variable {state next : ConfigState} {json : Bytes} {platform other : HostPlatform}

theorem resolved_twice (hotkey : HotkeyConfig) (first second : Bytes) :
    (hotkey.resolved first).resolved second = hotkey.resolved second := by
  rcases hotkey with ⟨hotkey, source, explicit⟩
  cases source <;> rfl

/-- The platform chosen last is the one that counts. -/
theorem onPlatform_twice (state : ConfigState) (first second : HostPlatform) :
    (state.onPlatform first).onPlatform second = state.onPlatform second := by
  rw [ConfigState.onPlatform, ConfigState.onPlatform, ConfigState.setTargetPlatform, ConfigState.setTargetPlatform]
  dsimp only
  rw [resolved_twice, resolved_twice]
  rfl

/-- What a payload makes of a state depends on the state only in its platform. -/
theorem applyJson_onPlatform (h : state.applyJson json = .ok next) (another : ConfigState) :
    next.onPlatform next.current.targetPlatform = next ∧ ∃ applied, another.applyJson json = .ok applied ∧
      ∀ platform, applied.onPlatform platform = next.onPlatform platform := by
  rw [ConfigState.applyJson] at h ⊢
  cases hparse : parseConfigPayload json with
  | error stop => rw [hparse] at h; cases h
  | ok parsed =>
    rw [hparse] at h
    cases h
    refine ⟨onPlatform_twice ⟨parsed, json⟩ _ _, _, rfl, fun platform => ?_⟩
    exact (onPlatform_twice ⟨parsed, json⟩ _ _).trans (onPlatform_twice ⟨parsed, json⟩ _ _).symm

theorem loadHostPlatform_saved (nvs : NvsConfigStore) (platform : HostPlatform) :
    NvsConfigStore.loadHostPlatform { nvs with hostPlatform := some (platformByte platform) } true = some platform := by
  cases platform <;> rfl

theorem cString_whole (h : (0 : UInt8) ∉ json) : cString json = json := by
  rw [cString, List.takeWhile_eq_self_iff]
  intro byte hbyte
  rw [bne_iff_ne]
  rintro rfl
  exact h hbyte

/-- A saved payload without a zero byte is loaded as it was applied. -/
theorem load_saved (fresh : ConfigState) (h : state.applyJson json = .ok next) (hne : json ≠ [])
    (hzero : (0 : UInt8) ∉ json) :
    fresh.loadStoredConfig ⟨some (cString json), some (platformByte next.current.targetPlatform)⟩ {} = next := by
  obtain ⟨hnext, applied, happlied, hplatform⟩ := applyJson_onPlatform h (fresh.onPlatform next.current.targetPlatform)
  have hstored : NvsConfigStore.loadConfig
      ⟨some (cString json), some (platformByte next.current.targetPlatform)⟩ true = some json := by
    rw [NvsConfigStore.loadConfig, cString_whole hzero]
    exact if_neg hne
  have hload := loadHostPlatform_saved ⟨some (cString json), none⟩ next.current.targetPlatform
  rw [ConfigState.loadStoredConfig, hload, hstored]
  dsimp only [Option.getD_some]
  rw [happlied]
  exact (hplatform _).trans hnext

/-- A saved platform is loaded as it was chosen. -/
theorem load_platform (fresh : ConfigState) (nvs : NvsConfigStore) (platform : HostPlatform) :
    fresh.loadStoredConfig { nvs with hostPlatform := some (platformByte platform) } {} =
      (fresh.loadStoredConfig nvs {}).onPlatform platform := by
  rw [ConfigState.loadStoredConfig, ConfigState.loadStoredConfig, loadHostPlatform_saved]
  dsimp only [Option.getD_some]
  rw [show NvsConfigStore.loadConfig { nvs with hostPlatform := some (platformByte platform) } = nvs.loadConfig
    from rfl]
  cases nvs.loadConfig true with
  | none => exact (onPlatform_twice fresh _ _).symm
  | some json =>
    dsimp only
    cases hparse : parseConfigPayload json with
    | error stop =>
      rw [ConfigState.applyJson, ConfigState.applyJson, hparse]
      exact (onPlatform_twice fresh _ _).symm
    | ok parsed =>
      rw [ConfigState.applyJson, ConfigState.applyJson, hparse]
      have hfirst := onPlatform_twice ⟨parsed, json⟩
      dsimp only [ok_bind]
      exact ((hfirst _ _).trans (hfirst _ _).symm).trans (onPlatform_twice _ _ _).symm

end Restarts

/-- A save that fails writes nothing. -/
def SaveAnswer.Harmless : SaveAnswer → Prop
  | .saved => True
  | .failed config hostPlatform => config = false ∧ hostPlatform = false

/-- What a step saves can be loaded again, and a start loads it: the flash keeps what it held when a save fails,
    no payload has a zero byte, and what is read at a start is read. -/
def IngressStep.Quiet (ingress : ConfigIngress) : IngressStep → Prop
  | .apply other answer =>
    answer.Harmless ∧ ∀ json origin, ingress.takePendingConfig other = some (json, origin) → (0 : UInt8) ∉ json
  | .selectPlatform _ answer => answer.Harmless
  | .report _ _ => True
  | .restart reads => reads.config = true ∧ reads.hostPlatform = true

namespace ConfigIngress

variable {fresh nvs} {ingress : ConfigIngress} {steps : List IngressStep} {json data : Bytes} {endpointEpoch : Nat}
  {other : Option Bytes} {answer : SaveAnswer} {origin : Option Nat} {platform : HostPlatform}

/-- The state is the one that a restart loads. -/
def Durable (fresh : ConfigState) (ingress : ConfigIngress) : Prop :=
  ingress.state = fresh.loadStoredConfig ingress.nvs {}

theorem durable_push (h : ingress.Durable fresh) (hne : json ≠ []) (hanswer : answer.Harmless)
    (hzero : (0 : UInt8) ∉ json) : (ingress.push json origin answer).Durable fresh := by
  rw [push]
  split
  · rw [Durable, sendHidConfigAck_state, sendHidConfigAck_nvs]
    exact h
  next candidate happlied =>
    rw [Durable, sendHidConfigAck_state, sendHidConfigAck_nvs]
    dsimp only
    have hlast := applyJson_last happlied
    rw [hlast]
    cases answer with
    | saved =>
      rw [NvsConfigStore.saveConfigAndHostPlatform, if_neg hne]
      exact (load_saved fresh happlied hne hzero).symm
    | failed config hostPlatform =>
      obtain ⟨rfl, rfl⟩ := hanswer
      rw [NvsConfigStore.saveConfigAndHostPlatform, if_neg hne]
      exact h

theorem durable_selectPlatform (h : ingress.Durable fresh) (hanswer : answer.Harmless) :
    (ingress.saveSelectedHostPlatform platform answer).Durable fresh := by
  cases answer with
  | saved =>
    have hloaded := load_platform fresh ingress.nvs platform
    rw [← h] at hloaded
    exact hloaded.symm
  | failed config hostPlatform =>
    obtain ⟨rfl, rfl⟩ := hanswer
    exact h

theorem durable_report (h : ingress.Durable fresh) :
    (ingress.receiveConfigReport endpointEpoch data).Durable fresh := by
  rw [receiveConfigReport]
  split
  · exact h
  · dsimp only
    split
    · rw [queueCompletedConfig]
      split
      · exact h
      · exact h
    · exact h

theorem durable_step (h : ingress.Durable fresh) (last : IngressStep) (hquiet : last.Quiet ingress) :
    (ingress.step fresh last).Durable fresh := by
  cases last with
  | report endpointEpoch data => exact durable_report h
  | apply other answer =>
    rw [step, applyPendingConfig]
    split
    · exact h
    next json origin htake =>
      split
      · exact h
      next hne => exact durable_push h hne hquiet.1 (hquiet.2 json origin htake)
  | selectPlatform platform answer => exact durable_selectPlatform h hquiet
  | restart reads =>
    obtain ⟨config, hostPlatform⟩ := reads
    obtain ⟨rfl, rfl⟩ := hquiet
    rfl

theorem durable_run (steps : List IngressStep)
    (h : ∀ before last after, steps = before ++ last :: after → last.Quiet (run fresh nvs before)) :
    (run fresh nvs steps).Durable fresh := by
  induction steps using List.reverseRecOn with
  | nil => rfl
  | append_singleton steps last ih =>
    rw [run_snoc]
    refine durable_step (ih fun before earlier after hsteps => ?_) last (h steps last [] rfl)
    exact h before earlier (after ++ [last]) (by rw [hsteps, List.append_assoc, List.cons_append])

/-- A restart that reads the flash brings back the state that was there, after any run of payloads, choices of
    the platform and restarts whose failed saves wrote nothing and whose reads did not fail. -/
theorem restart_restores (steps : List IngressStep)
    (h : ∀ before last after, steps = before ++ last :: after → last.Quiet (run fresh nvs before)) :
    (run fresh nvs (steps ++ [.restart {}])).state = (run fresh nvs steps).state := by
  have hdurable := @durable_run fresh nvs steps h
  rw [run_snoc]
  exact hdurable.symm

/-- A state as it is constructed, without the keymap. -/
def freshState : ConfigState := ⟨{ ptt := { hotkey := [] }, editPtt := { hotkey := [] }, keymap := [] }, []⟩

/-- A configuration is saved, the power fails, and the platform is chosen. -/
def savedSteps : List IngressStep :=
  [.apply (some (NumberSample.payload "17333")) .saved, .restart {}, .selectPlatform .windows .saved]

theorem restart_restores_saved :
    (run freshState {} savedSteps).nvs = ⟨some (NumberSample.payload "17333"), some 1⟩ ∧
      (run freshState {} (savedSteps ++ [.restart {}])).state = (run freshState {} savedSteps).state := by
  refine ⟨by decide +kernel, restart_restores _ fun before last after hsteps => ?_⟩
  rcases before with _ | ⟨first, _ | ⟨second, _ | ⟨third, before⟩⟩⟩
  · cases hsteps
    refine ⟨trivial, fun json origin htake => ?_⟩
    cases htake
    decide +kernel
  · cases hsteps
    exact ⟨rfl, rfl⟩
  · cases hsteps
    trivial
  · simp [savedSteps] at hsteps

end ConfigIngress

end CodexKeyboard.Config
