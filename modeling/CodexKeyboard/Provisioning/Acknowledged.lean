import CodexKeyboard.Config.Ingress
import CodexKeyboard.Provisioning.Reports

/-! How the host learns that a payload was saved: the keyboard's acknowledgement as a report, and what the host may
    conclude from the one it accepts. -/

namespace CodexKeyboard.Provisioning

open Schemes Text Transact Schemes.Bytes Config ConfigIngress

/-! ### The report of an acknowledgement -/

def appCommandReportId : UInt8 := 0x11
def appCommandConfigAck : UInt8 := 0x03

def boolByte (flag : Bool) : UInt8 := if flag then 1 else 0

/-- `send_config_ack_for_epoch`, as the host reads it: the report id, the header of a command in one chunk of
    seven bytes, these bytes, and zeros. -/
def ackReport (ack : ConfigAck) : List UInt8 :=
  [appCommandReportId, appCommandConfigAck, 0, 1, 7, ack.phase, boolByte ack.ok] ++ leBytes 2 ack.bytes ++
    leBytes 2 ack.crc16 ++ boolByte ack.saved :: List.replicate (reportBytes - 12) 0

def decodeConfigAck (report : List UInt8) : Option ConfigAck :=
  if report.length < 12 ∨ report.getD 0 0 ≠ appCommandReportId ∨ report.getD 1 0 ≠ appCommandConfigAck ∨
      report.getD 2 0 ≠ 0 ∨ report.getD 3 0 ≠ 1 ∨ report.getD 4 0 ≠ 7 ∨ 1 < report.getD 6 0 ∨ 1 < report.getD 11 0 then
    none
  else
    some {
      phase := report.getD 5 0
      ok := report.getD 6 0 == 1
      bytes := leNat (slice report 7 2)
      crc16 := leNat (slice report 9 2)
      saved := report.getD 11 0 == 1 }

/-- One read of the host within its time. -/
inductive HidRead where
  | nothing
  | report (data : List UInt8)
  | failed
  deriving DecidableEq, Repr

/-- The first acknowledgement decides; `true` is the `Ok` of the source. -/
def waitForConfigAck (expectedBytes expectedCrc16 : Nat) : List HidRead → Bool
  | [] => false
  | .nothing :: reads => waitForConfigAck expectedBytes expectedCrc16 reads
  | .failed :: _ => false
  | .report data :: reads =>
    match decodeConfigAck data with
    | some ack =>
      ack.phase == 1 && ack.ok && ack.saved && ack.bytes == expectedBytes && ack.crc16 == expectedCrc16
    | none => waitForConfigAck expectedBytes expectedCrc16 reads

variable {ack : ConfigAck} {json data : List UInt8} {reports : List (List UInt8)} {reads : List HidRead}

/-- An acknowledgement is read as it was sent. -/
theorem decode_ackReport (hbytes : ack.bytes < 65536) (hcrc : ack.crc16 < 65536) :
    decodeConfigAck (ackReport ack) = some ack := by
  have hflag : ∀ flag, ¬ 1 < boolByte flag ∧ (boolByte flag == 1) = flag := by decide
  have hlength : ¬ (ackReport ack).length < 12 := by
    simp [ackReport, reportBytes]
  have hcount : slice (ackReport ack) 7 2 = leBytes 2 ack.bytes := rfl
  have hsum : slice (ackReport ack) 9 2 = leBytes 2 ack.crc16 := rfl
  have hok : (ackReport ack).getD 6 0 = boolByte ack.ok := rfl
  have hsaved : (ackReport ack).getD 11 0 = boolByte ack.saved := rfl
  have hhead : (ackReport ack).getD 0 0 = appCommandReportId ∧ (ackReport ack).getD 1 0 = appCommandConfigAck ∧
      (ackReport ack).getD 2 0 = 0 ∧ (ackReport ack).getD 3 0 = 1 ∧ (ackReport ack).getD 4 0 = 7 ∧
        (ackReport ack).getD 5 0 = ack.phase := ⟨rfl, rfl, rfl, rfl, rfl, rfl⟩
  obtain ⟨hid, hkind, hindex, htotal, hlen, hphase⟩ := hhead
  rw [decodeConfigAck, hcount, hsum, hok, hsaved, hid, hkind, hindex, htotal, hlen, hphase, (hflag ack.ok).2,
    (hflag ack.saved).2, leNat_leBytes hbytes, leNat_leBytes hcrc]
  refine if_neg ?_
  simp only [not_or, ne_eq, not_true_eq_false, not_false_eq_true, true_and]
  exact ⟨hlength, (hflag ack.ok).1, (hflag ack.saved).1⟩

/-- An acceptance rests on one acknowledgement. -/
theorem waitForConfigAck_accepts {expectedBytes expectedCrc16 : Nat}
    (h : waitForConfigAck expectedBytes expectedCrc16 reads = true) :
    ∃ data ack, .report data ∈ reads ∧ decodeConfigAck data = some ack ∧ ack.saved = true ∧
      ack.bytes = expectedBytes ∧ ack.crc16 = expectedCrc16 := by
  induction reads with
  | nil => cases h
  | cons read reads ih =>
    have hlater : waitForConfigAck expectedBytes expectedCrc16 reads = true →
        ∃ data ack, .report data ∈ read :: reads ∧ decodeConfigAck data = some ack ∧ ack.saved = true ∧
          ack.bytes = expectedBytes ∧ ack.crc16 = expectedCrc16 := by
      intro hreads
      obtain ⟨data, ack, hmem, hack⟩ := ih hreads
      exact ⟨data, ack, List.mem_cons_of_mem _ hmem, hack⟩
    cases read with
    | nothing => exact hlater h
    | failed => cases h
    | report data =>
      rw [waitForConfigAck] at h
      cases hdecode : decodeConfigAck data with
      | none =>
        rw [hdecode] at h
        exact hlater h
      | some ack =>
        rw [hdecode] at h
        simp only [Bool.and_eq_true, beq_iff_eq] at h
        exact ⟨data, ack, List.mem_cons_self, hdecode, h.1.1.2, h.1.2, h.2⟩

/-! ### What the host may conclude -/

variable {fresh : ConfigState} {nvs : NvsConfigStore} {steps : List IngressStep} {endpointEpoch : Nat}

/-- The host reads what the keyboard sends to its endpoint: acknowledgements, and reports that are none. -/
def Reads.From (ingress : ConfigIngress) (endpointEpoch : Nat) (reads : List HidRead) : Prop :=
  ∀ data, .report data ∈ reads →
    (∃ ack, (endpointEpoch, ack) ∈ ingress.acks ∧ data = ackReport ack) ∨ decodeConfigAck data = none

theorem ackOf_words (json : List UInt8) (ok saved : Bool) :
    (ackOf json ok saved).bytes < 65536 ∧ (ackOf json ok saved).crc16 < 65536 := by
  refine ⟨?_, (crc16Ccitt json).toNat_lt⟩
  have hmin := Nat.min_le_right json.length 65535
  rw [ackOf]
  dsimp only
  omega

/-- Every acknowledgement of a run is one of some payload. -/
theorem acks_of (steps : List IngressStep) (h : (endpointEpoch, ack) ∈ (run fresh nvs steps).acks) :
    ∃ json ok saved, ack = ackOf json ok saved := by
  induction steps using List.reverseRecOn with
  | nil => cases h
  | append_singleton steps last ih =>
    rw [run_snoc] at h
    cases last with
    | report epoch data =>
      have hsame : (step fresh (run fresh nvs steps) (.report epoch data)).acks = (run fresh nvs steps).acks :=
        report_acks
      exact ih (hsame ▸ h)
    | selectPlatform platform answer => exact ih h
    | restart reads => exact ih h
    | apply other answer =>
      rcases @apply_acks (run fresh nvs steps) other answer with hsame | ⟨json, epoch, ok, saved, -, hacks, -⟩
      · exact ih (hsame ▸ h)
      · have hmem : (endpointEpoch, ack) ∈ (run fresh nvs steps).acks ++ [(epoch, ackOf json ok saved)] := hacks ▸ h
        rcases List.mem_append.1 hmem with hmem | hmem
        · exact ih hmem
        · cases List.mem_singleton.1 hmem
          exact ⟨json, ok, saved, rfl⟩

/-- The payload that the host's acceptance is about. -/
theorem accepted_served {expectedBytes expectedCrc16 : Nat}
    (hreads : Reads.From (run fresh nvs steps) endpointEpoch reads)
    (h : waitForConfigAck expectedBytes expectedCrc16 reads = true) :
    ∃ json, Served fresh nvs steps endpointEpoch json ∧ (ackOf json true true).bytes = expectedBytes ∧
      (ackOf json true true).crc16 = expectedCrc16 := by
  obtain ⟨data, ack, hmem, hdecode, hsaved, hbytes, hcrc⟩ := waitForConfigAck_accepts h
  rcases hreads data hmem with ⟨sent, hsent, rfl⟩ | hnone
  · obtain ⟨payload, ok, saved, rfl⟩ := acks_of steps hsent
    obtain ⟨hcount, hsum⟩ := ackOf_words payload ok saved
    cases (decode_ackReport hcount hsum).symm.trans hdecode
    obtain ⟨json, hserved, hack⟩ := acks_served steps hsent hsaved
    rw [hack] at hbytes hcrc
    exact ⟨json, hserved, hbytes, hcrc⟩
  · cases hnone.symm.trans hdecode

/-- Within the lifetime only reports of one payload were sent. -/
def OnlyOf (reports : List (List UInt8)) (endpointEpoch : Nat) (steps : List IngressStep) : Prop :=
  ∀ data, .report endpointEpoch data ∈ steps → ∃ report ∈ reports, Arrives report data

theorem mem_receiverCalls (h : ReceiverCall.receive endpointEpoch data ∈ receiverCalls steps) :
    .report endpointEpoch data ∈ steps := by
  obtain ⟨step, hstep, hcall⟩ := List.mem_flatMap.1 h
  cases step with
  | report epoch other =>
    cases List.mem_singleton.1 hcall
    exact hstep
  | apply other answer => cases hcall
  | selectPlatform platform answer => cases hcall
  | restart reads => cases List.mem_singleton.1 hcall

/-- What arrived in such a lifetime is the payload. -/
theorem arrived_only {other : List UInt8} (hreports : encodeReports json = .ok reports)
    (h : Arrived (receiverCalls steps) endpointEpoch other) (honly : OnlyOf reports endpointEpoch steps) :
    other = json := by
  obtain ⟨sent, announced, before, hassembled, hgathered, hprefix⟩ := h.within
  obtain ⟨earlier, recent, rfl, -, hsub⟩ := hgathered.within
  refine assembled_only hreports hassembled fun data hdata => honly data (mem_receiverCalls ?_)
  exact hprefix.subset (List.mem_append_right _ (hsub.subset (List.mem_map_of_mem hdata)))

variable {ssid password : Text} {host : IpAddr} {port : Nat} {secret : List UInt8} {provisioning : LanProvisioning}

/-- At some point of the run the keyboard held this payload, in its state and so that a restart that reads the
    flash loads it again. -/
structure Provisioned (fresh : ConfigState) (nvs : NvsConfigStore) (steps : List IngressStep)
    (provisioning : LanProvisioning) (json : List UInt8) : Prop where
  held : ∃ before after, steps = before ++ after ∧ Delivers provisioning (run fresh nvs before).state.current ∧
    (run fresh nvs before).state.lastAppliedJson = json ∧ (run fresh nvs before).nvs.config = some json ∧
      fresh.loadStoredConfig (run fresh nvs before).nvs {} = (run fresh nvs before).state

theorem Delivers.applied {state next : ConfigState} {config : ParsedKeyboardConfig} (h : Delivers provisioning config)
    (hparse : parseConfigPayload json = .ok config) (happlied : state.applyJson json = .ok next) :
    Delivers provisioning next.current := by
  rw [applyJson_ok hparse] at happlied
  cases happlied
  exact ⟨h.ssid, h.password, h.host, h.port, h.key, h.epoch, h.keymap⟩

/-- When the host accepts an acknowledgement, and only its reports were sent to that endpoint, the keyboard has
    applied exactly its payload and keeps it over a restart, whichever of the reports were lost, repeated or out
    of order, whatever came over the other transports, and however often the keyboard was restarted. -/
theorem accepted_provisioned (hport : port < 2 ^ 16) (hsecret : secret.length = 32)
    (hnew : LanProvisioning.new ssid password host port secret = .ok provisioning)
    (hjson : provisioning.payloadJson = .ok json) (hreports : encodeReports json = .ok reports)
    (honly : OnlyOf reports endpointEpoch steps) (hreads : Reads.From (run fresh nvs steps) endpointEpoch reads)
    (haccepted : waitForConfigAck json.length (crc16Ccitt json).toNat reads = true) :
    Provisioned fresh nvs steps provisioning json := by
  obtain ⟨hprovisioning, rfl, rfl, hssid, hpassword⟩ := new_accepted hnew hport hsecret
  obtain ⟨payload, config, hpayload, hne, -, hparse, hdelivers⟩ := payload_delivers hprovisioning hssid hpassword
  cases hjson.symm.trans hpayload
  have hzero : (0 : UInt8) ∉ json := by
    cases hjson.symm.trans (payloadJson_ok hprovisioning hssid hpassword)
    exact (payload_object hprovisioning).no_zero
  obtain ⟨served, hserved, -, -⟩ := accepted_served hreads haccepted
  obtain ⟨before, other, after, next, rfl, harrived, hkept⟩ := hserved.step
  have honlyBefore : OnlyOf reports endpointEpoch before := fun data hdata => honly data (List.mem_append_left _ hdata)
  cases arrived_only hreports harrived honlyBefore
  refine ⟨before ++ [.apply other .saved], after, by simp, ?_, ?_, ?_, ?_⟩
  · rw [hkept.state]
    exact hdelivers.applied hparse hkept.applied
  · rw [hkept.state]
    exact applyJson_last hkept.applied
  · rw [hkept.nvs, cString_whole hzero]
  · rw [hkept.nvs, hkept.state]
    exact load_saved fresh hkept.applied hne hzero

/-! ### A payload that is delivered is acknowledged -/

/-- The reports that deliver a payload leave it waiting, and nothing else changed. -/
theorem deliver_pending {count : Nat} {sent : List (List UInt8)} (fresh : ConfigState) (ingress : ConfigIngress)
    (hepoch : endpointEpoch ≠ 0) (hne : json ≠ []) (hmax : json.length ≤ kConfigMaxJsonLen)
    (h : ingress.receiver.deliver endpointEpoch sent = List.replicate count .pending ++ [.complete json]) :
    ∃ receiver, (sent.map (IngressStep.report endpointEpoch)).foldl (step fresh) ingress =
      { ingress with receiver, pending := some (json, endpointEpoch) } := by
  induction sent generalizing ingress count with
  | nil => exact absurd h.symm (by simp [EndpointBoundConfigReceiver.deliver])
  | cons data sent ih =>
    have hstep : step fresh ingress (.report endpointEpoch data) = ingress.receiveConfigReport endpointEpoch data := rfl
    rw [EndpointBoundConfigReceiver.deliver] at h
    rw [List.map_cons, List.foldl_cons, hstep, receiveConfigReport, if_neg hepoch]
    cases count with
    | zero =>
      rw [List.replicate_zero, List.nil_append, List.cons.injEq] at h
      have hlast : sent = [] := by
        cases sent with
        | nil => rfl
        | cons second sent => exact absurd h.2 (by simp [EndpointBoundConfigReceiver.deliver])
      subst hlast
      dsimp only
      rw [h.1]
      dsimp only
      rw [queueCompletedConfig, if_neg (not_or.2 ⟨hepoch, not_or.2 ⟨hne, Nat.not_lt.2 hmax⟩⟩)]
      exact ⟨_, rfl⟩
    | succ count =>
      rw [List.replicate_succ, List.cons_append, List.cons.injEq] at h
      dsimp only
      rw [h.1]
      obtain ⟨receiver, hrest⟩ := ih { ingress with receiver := (ingress.receiver.receive endpointEpoch data).2 } h.2
      exact ⟨receiver, hrest⟩

/-- The payload that waits is acknowledged when it is saved. -/
theorem apply_acknowledged {ingress : ConfigIngress} {next : ConfigState} (other : Option (List UInt8))
    (hepoch : endpointEpoch ≠ 0) (hne : json ≠ []) (hpending : ingress.pending = some (json, endpointEpoch))
    (happlied : ingress.state.applyJson json = .ok next) :
    (ingress.applyPendingConfig other .saved).acks = ingress.acks ++ [(endpointEpoch, ackOf json true true)] := by
  have htake : ingress.takePendingConfig other = some (json, some endpointEpoch) := by
    rw [takePendingConfig, hpending]
    exact if_neg (not_or.2 ⟨hne, hepoch⟩)
  have hlast : next.lastAppliedJson ≠ [] := by
    rw [applyJson_last happlied]
    exact hne
  rw [applyPendingConfig, htake]
  dsimp only
  rw [if_neg hne, push, happlied]
  dsimp only
  rw [NvsConfigStore.saveConfigAndHostPlatform, if_neg hlast]
  rfl

/-- All reports of a payload and the step that saves it. -/
def delivery (reports : List (List UInt8)) (endpointEpoch : Nat) : List IngressStep :=
  reports.map (IngressStep.report endpointEpoch) ++ [.apply none .saved]

theorem delivery_acknowledged (hprovisioning : provisioning.Accepted) (hssid : size provisioning.ssid ≤ 32)
    (hpassword : size provisioning.password ≤ 64) (hepoch : endpointEpoch ≠ 0) : ∃ json reports,
      provisioning.payloadJson = .ok json ∧ encodeReports json = .ok reports ∧
      (endpointEpoch, ackOf json true true) ∈ (run fresh nvs (delivery reports endpointEpoch)).acks := by
  obtain ⟨json, config, hjson, hne, hmax, hparse, -⟩ := payload_delivers hprovisioning hssid hpassword
  have hreports := encodeReports_ok.2 ⟨hne, hmax, rfl⟩
  refine ⟨json, _, hjson, hreports, ?_⟩
  have hsame : ∀ l : List (List UInt8), List.Forall₂ Arrives l l := fun l => List.forall₂_same.2 fun _ _ => Or.inl rfl
  have hdeliver := assembled_delivered [] hepoch (reports_assembled hreports (hsame _))
  obtain ⟨receiver, hpending⟩ := deliver_pending fresh (boot fresh nvs) hepoch hne hmax hdeliver
  rw [delivery, run_snoc, run, hpending]
  show _ ∈ (applyPendingConfig _ none .saved).acks
  rw [apply_acknowledged none hepoch hne rfl (applyJson_ok hparse _)]
  exact List.mem_append_right _ List.mem_cons_self

theorem accepted_provisioned_home : ∃ provisioning json reports,
    Provisioned WifiSample.state {} (delivery reports 41) provisioning json := by
  have hnew : LanProvisioning.new "home".toList "password".toList WifiSample.lanHost 17333 WifiSample.sevens =
      .ok ⟨"home".toList, "password".toList, ⟨192, 168, 1, 10⟩, 17333, WifiSample.sevens⟩ := by decide +kernel
  obtain ⟨hprovisioning, -, -, hssid, hpassword⟩ := new_accepted hnew (by decide) rfl
  obtain ⟨json, reports, hjson, hreports, hack⟩ :=
    @delivery_acknowledged WifiSample.state {} 41 _ hprovisioning hssid hpassword (by decide)
  obtain ⟨hcount, hsum⟩ := ackOf_words json true true
  have hshort : (ackOf json true true).bytes = json.length := by
    have hmax := (encodeReports_ok.1 hreports).2.1
    have hlimit : maxConfigBytes = 2048 := rfl
    exact Nat.min_eq_left (by omega)
  have honly : OnlyOf reports 41 (delivery reports 41) := by
    intro data hdata
    rcases List.mem_append.1 hdata with hreport | happly
    · obtain ⟨report, hmem, heq⟩ := List.mem_map.1 hreport
      cases heq
      exact ⟨data, hmem, Or.inl rfl⟩
    · cases List.mem_singleton.1 happly
  have hreads : Reads.From (run WifiSample.state {} (delivery reports 41)) 41
      [.nothing, .report (ackReport (ackOf json true true))] := by
    intro data hdata
    have hmem : data = ackReport (ackOf json true true) := by simpa using hdata
    exact Or.inl ⟨_, hack, hmem⟩
  have haccepted : waitForConfigAck json.length (crc16Ccitt json).toNat
      [.nothing, .report (ackReport (ackOf json true true))] = true := by
    rw [waitForConfigAck, waitForConfigAck, decode_ackReport hcount hsum]
    dsimp only
    rw [hshort]
    simp [ackOf]
  exact ⟨_, json, reports, accepted_provisioned (by decide) rfl hnew hjson hreports honly hreads haccepted⟩

end CodexKeyboard.Provisioning
