import CodexKeyboard.Config.Receiver
import CodexKeyboard.Provisioning.WifiFields

/-! The reports of a payload: how the host cuts it, and that the keyboard puts it together again and applies it. -/

namespace CodexKeyboard.Provisioning

open Schemes Text Transact Schemes.Bytes Schemes.Chunks Config

def reportBytes : Nat := 64
def reportBodyBytes : Nat := reportBytes - 1
def configHeaderBytes : Nat := 11
def configChunkBytes : Nat := reportBodyBytes - configHeaderBytes

/-- A report of one chunk; the rest of its array is zero. -/
def chunkReport (announced : Announced) (index : Nat) (chunk : List UInt8) : List UInt8 :=
  0x10 :: 0x53 :: 0x33 :: 0x43 :: 1 :: UInt8.ofNat index :: UInt8.ofNat announced.totalChunks ::
    (leBytes 2 announced.totalLen ++ UInt8.ofNat chunk.length :: (leBytes 2 announced.expectedCrc ++
      (chunk ++ List.replicate (reportBytes - 12 - chunk.length) 0)))

/-- What the reports of a payload announce; both sides compute the same checksum. -/
def announcement (json : List UInt8) : Announced where
  totalLen := json.length
  expectedCrc := (crc16Ccitt json).toNat
  totalChunks := (chunks configChunkBytes json).length

def encodeReports (json : List UInt8) : Except ProvisioningError (List (List UInt8)) :=
  if json = [] ∨ maxConfigBytes < json.length then .error .invalidPayload
  else if chunks configChunkBytes json = [] ∨ 255 < (chunks configChunkBytes json).length ∨ 65535 < json.length then
    .error .invalidPayload
  else .ok ((chunks configChunkBytes json).mapIdx (chunkReport (announcement json)))

/-! ### One report -/

variable {announced : Announced} {index : Nat} {chunk json data : List UInt8} {reports sent : List (List UInt8)}

/-- The numbers of a report fit their fields. -/
structure Announced.Words (announced : Announced) : Prop where
  total : 0 < announced.totalLen ∧ announced.totalLen ≤ maxConfigBytes
  crc : announced.expectedCrc < 65536
  chunks : announced.totalChunks < 256

/-- A report as it reaches the keyboard, with its id or without. -/
def Arrives (report data : List UInt8) : Prop := data = report ∨ data = report.drop 1

theorem configBody_report (h : Arrives (chunkReport announced index chunk) data) :
    configBody data = (chunkReport announced index chunk).drop 1 := by
  rcases h with rfl | rfl
  · exact if_pos ⟨rfl, by simp [chunkReport]⟩
  · exact if_neg fun h => absurd h.1 (by simp [chunkReport, kConfigReportId])

theorem length_report (h : chunk.length ≤ configChunkBytes) :
    (chunkReport announced index chunk).length = reportBytes := by
  have hchunk : chunk.length ≤ 52 := h
  simp only [chunkReport, List.length_cons, List.length_append, length_leBytes, List.length_replicate, reportBytes]
  omega

theorem toNat_ofNat_byte {n : Nat} (h : n < 256) : (UInt8.ofNat n).toNat = n := by
  rw [UInt8.toNat_ofNat', Nat.mod_eq_of_lt h]

/-- What the keyboard reads in a report. -/
structure Reads (announced : Announced) (index : Nat) (chunk body : List UInt8) : Prop where
  config : isConfigBody body = true
  wellFormed : isMalformed body = false
  announced : announcedBy body = announced
  index : chunkIndex body = index
  payload : chunkPayload body = chunk

theorem reads_report (h : Announced.Words announced) (hindex : index < announced.totalChunks)
    (hchunk : chunk.length ≤ configChunkBytes) :
    Reads announced index chunk ((chunkReport announced index chunk).drop 1) := by
  have hsmall : chunk.length ≤ 52 := hchunk
  have hlength : ((chunkReport announced index chunk).drop 1).length = 63 := by
    rw [List.length_drop, length_report hchunk]
    rfl
  have hcount : chunkLen ((chunkReport announced index chunk).drop 1) = chunk.length :=
    toNat_ofNat_byte (by omega)
  have htotal : leNat (slice ((chunkReport announced index chunk).drop 1) 6 2) = announced.totalLen := by
    have hfield : slice ((chunkReport announced index chunk).drop 1) 6 2 = leBytes 2 announced.totalLen := rfl
    have hmax : announced.totalLen ≤ 2048 := h.total.2
    rw [hfield, leNat_leBytes (by omega)]
  have hcrc : leNat (slice ((chunkReport announced index chunk).drop 1) 9 2) = announced.expectedCrc := by
    have hfield : slice ((chunkReport announced index chunk).drop 1) 9 2 = leBytes 2 announced.expectedCrc := rfl
    rw [hfield, leNat_leBytes h.crc]
  have hannounced : announcedBy ((chunkReport announced index chunk).drop 1) = announced := by
    have hchunks : ((chunkReport announced index chunk).drop 1).getD 5 0 = UInt8.ofNat announced.totalChunks := rfl
    rw [announcedBy, htotal, hcrc, hchunks, toNat_ofNat_byte h.chunks]
  have hcurrent : chunkIndex ((chunkReport announced index chunk).drop 1) = index :=
    toNat_ofNat_byte (Nat.lt_trans hindex h.chunks)
  refine ⟨?_, ?_, hannounced, hcurrent, ?_⟩
  · rw [isConfigBody, hlength]
    rfl
  · rw [isMalformed, hannounced, hcurrent, hcount, hlength]
    have hmax : announced.totalLen ≤ 2048 := h.total.2
    simp only [Bool.or_eq_false_iff, decide_eq_false_iff_not, beq_eq_false_iff_ne, Nat.not_lt, Nat.not_le]
    exact ⟨⟨⟨⟨⟨Nat.ne_of_gt (Nat.zero_lt_of_lt hindex), hindex⟩, Nat.ne_of_gt h.total.1⟩, hmax⟩, hchunk⟩,
      Nat.add_le_add_left hsmall 11⟩
  · rw [chunkPayload, hcount]
    exact slice_append_here rfl

/-! ### All reports -/

theorem announcement_words (hne : json ≠ []) (hmax : json.length ≤ maxConfigBytes) :
    Announced.Words (announcement json) := by
  have hlong : json.length ≤ 2048 := hmax
  refine ⟨⟨List.length_pos_iff.2 hne, hmax⟩, (crc16Ccitt json).toNat_lt, ?_⟩
  have hcount : (announcement json).totalChunks = (json.length + 52 - 1) / 52 := length_chunks configChunkBytes json
  omega

/-- A payload within the limit is cut, and no other is. -/
theorem encodeReports_ok : encodeReports json = .ok reports ↔ json ≠ [] ∧ json.length ≤ maxConfigBytes ∧
    reports = (chunks configChunkBytes json).mapIdx (chunkReport (announcement json)) := by
  rw [encodeReports]
  split
  next hbad =>
    constructor
    · rintro ⟨⟩
    · rintro ⟨hne, hmax, -⟩
      exact absurd hbad (not_or.2 ⟨hne, Nat.not_lt.2 hmax⟩)
  next hgood =>
    rw [not_or, Nat.not_lt] at hgood
    have hwords := announcement_words hgood.1 hgood.2
    have hlong : json.length ≤ 2048 := hgood.2
    have hcount : (chunks configChunkBytes json).length < 256 := hwords.chunks
    have hsome : chunks configChunkBytes json ≠ [] := by
      rw [chunks_cons (by decide) hgood.1]
      exact List.cons_ne_nil _ _
    rw [if_neg (not_or.2 ⟨hsome, not_or.2 ⟨by omega, by omega⟩⟩)]
    constructor
    · intro h
      cases h
      exact ⟨hgood.1, hgood.2, rfl⟩
    · rintro ⟨-, -, rfl⟩
      rfl

/-- The reports carry the payload, however each of them arrives. -/
theorem reports_assembled (h : encodeReports json = .ok reports) (hsent : List.Forall₂ Arrives reports sent) :
    Assembled (announcement json) sent json := by
  obtain ⟨hne, hmax, rfl⟩ := encodeReports_ok.1 h
  have hwords := announcement_words hne hmax
  have hlength := hsent.length_eq
  rw [List.length_mapIdx] at hlength
  have hreads : ∀ i (hi : i < sent.length),
      Reads (announcement json) i ((chunks configChunkBytes json).get ⟨i, by omega⟩)
      (configBody (sent.get ⟨i, hi⟩)) := by
    intro i hi
    have hi' : i < (chunks configChunkBytes json).length := by omega
    have harrives := hsent.get (i := i) (by rw [List.length_mapIdx]; exact hi') hi
    rw [List.get_eq_getElem, List.getElem_mapIdx] at harrives
    rw [configBody_report harrives]
    exact reads_report hwords hi' (mem_chunks (by decide) (List.getElem_mem hi')).2
  have hpayloads : (sent.map fun data => chunkPayload (configBody data)) = chunks configChunkBytes json := by
    refine List.ext_getElem (by rw [List.length_map, hlength]) fun i hi hi' => ?_
    rw [List.getElem_map]
    rw [List.length_map] at hi
    exact (hreads i hi).payload
  have hjoined : json = sent.flatMap fun data => chunkPayload (configBody data) := by
    rw [List.flatMap_def, hpayloads, flatten_chunks (by decide)]
  refine ⟨⟨?_, ?_⟩, hlength.symm, hjoined, rfl, ⟨List.length_pos_iff.2 hne, hmax⟩, rfl⟩
  · intro body hbody
    obtain ⟨data, hdata, rfl⟩ := List.mem_map.1 hbody
    obtain ⟨i, hi, rfl⟩ := List.getElem_of_mem hdata
    have hread := hreads i hi
    exact ⟨hread.config, hread.wellFormed, hread.announced⟩
  · refine List.ext_getElem (by simp) fun i hi hi' => ?_
    rw [List.getElem_map, List.getElem_map, List.getElem_range]
    rw [List.length_map, List.length_map] at hi
    exact (hreads i hi).index

/-- Of the reports of one payload nothing else can be put together, whichever of them arrive, and how often. -/
theorem assembled_only (h : encodeReports json = .ok reports) {other : List UInt8}
    (hassembled : Assembled announced sent other)
    (hsent : ∀ data ∈ sent, ∃ report ∈ reports, Arrives report data) : other = json := by
  obtain ⟨hne, hmax, rfl⟩ := encodeReports_ok.1 h
  have hwords := announcement_words hne hmax
  have hreads : ∀ i (hi : i < sent.length), announced = announcement json ∧
      (chunks configChunkBytes json)[i]? = some (chunkPayload (configBody (sent.get ⟨i, hi⟩))) := by
    intro i hi
    have hindex : chunkIndex (configBody (sent.get ⟨i, hi⟩)) = i := by
      have hrange := congrArg (fun indices => indices[i]?) hassembled.order.index
      simpa [hi] using hrange
    obtain ⟨report, hreport, harrives⟩ := hsent _ (List.get_mem sent ⟨i, hi⟩)
    obtain ⟨j, hj, rfl⟩ := List.getElem_of_mem hreport
    rw [List.length_mapIdx] at hj
    rw [List.getElem_mapIdx] at harrives
    have hread := reads_report hwords hj (mem_chunks (by decide) (List.getElem_mem hj)).2
    rw [← configBody_report harrives] at hread
    have hsame : j = i := hread.index.symm.trans hindex
    subst hsame
    have hannounced := (hassembled.order.config _ (List.mem_map_of_mem (List.get_mem sent ⟨j, hi⟩))).2.2
    exact ⟨hannounced.symm.trans hread.announced, by rw [hread.payload, List.getElem?_eq_getElem hj]⟩
  have hpos : 0 < sent.length := by
    rcases Nat.eq_zero_or_pos sent.length with hnone | hsome
    · have hlength := hassembled.bounded.1
      rw [hassembled.joined, List.length_eq_zero_iff.1 hnone] at hlength
      exact absurd hlength (Nat.lt_irrefl 0)
    · exact hsome
  have hcount : sent.length = (chunks configChunkBytes json).length := by
    rw [hassembled.all, (hreads 0 hpos).1]
    rfl
  have hpayloads : (sent.map fun data => chunkPayload (configBody data)) = chunks configChunkBytes json := by
    refine List.ext_getElem (by rw [List.length_map, hcount]) fun i hi hi' => ?_
    rw [List.length_map] at hi
    have hpayload := (hreads i hi).2
    rw [List.getElem?_eq_getElem hi', Option.some.injEq] at hpayload
    rw [List.getElem_map]
    exact hpayload.symm
  rw [hassembled.joined, List.flatMap_def, hpayloads, flatten_chunks (by decide)]

/-! ### Provisioning -/

variable {ssid password : Text} {host : IpAddr} {port : Nat} {secret : List UInt8} {provisioning : LanProvisioning}

/-- What the keyboard reads in the payload of a provisioning. -/
structure Delivers (provisioning : LanProvisioning) (config : ParsedKeyboardConfig) : Prop where
  ssid : config.wifiSsid = asBytes provisioning.ssid
  password : config.wifiPassword = asBytes provisioning.password
  host : config.audioHost = asBytes provisioning.host.toText
  port : config.audioPort = provisioning.port
  key : config.speakerSyncKey = asBytes (hexEncode provisioning.deviceSecret)
  epoch : config.speakerSyncKeyEpoch = 1
  keymap : config.keymap = (keyNames ++ encoderNames).map fun _ => { kind := .disabled }

theorem payload_delivers (h : provisioning.Accepted) (hssid : size provisioning.ssid ≤ 32)
    (hpassword : size provisioning.password ≤ 64) :
    ∃ json config, provisioning.payloadJson = .ok json ∧ json ≠ [] ∧ json.length ≤ maxConfigBytes ∧
      parseConfigPayload json = .ok config ∧ Delivers provisioning config := by
  obtain ⟨config, hparse, hnetwork⟩ := parseConfigPayload_written (payload_object h) h
  have hjson := payloadJson_ok h hssid hpassword
  have hbounds : asBytes (jsonObject provisioning.members) ≠ [] ∧
      (asBytes (jsonObject provisioning.members)).length ≤ maxConfigBytes := by
    rw [LanProvisioning.payloadJson] at hjson
    split at hjson
    · cases hjson
    next hgood =>
      rw [not_or, Nat.not_lt] at hgood
      exact hgood
  obtain ⟨h1, h2, h3, h4, h5, h6, h7⟩ := hnetwork
  exact ⟨_, config, hjson, hbounds.1, hbounds.2, hparse, ⟨h1, h2, h3, h4, h5, h6, h7⟩⟩

/-- Every provisioning that the host accepts arrives as it was sent, from whatever state earlier calls left the
    receiver in and whichever reports come with their id: each report but the last is pending, and the payload
    of the last is read back with the credentials, the host, the port and the key, and with every key and the
    encoder disabled. -/
theorem provisioning_arrives (calls : List ReceiverCall) (endpointEpoch : Nat) (hepoch : endpointEpoch ≠ 0)
    (hport : port < 2 ^ 16) (hsecret : secret.length = 32)
    (hnew : LanProvisioning.new ssid password host port secret = .ok provisioning) :
    ∃ json reports config, provisioning.payloadJson = .ok json ∧ encodeReports json = .ok reports ∧
      parseConfigPayload json = .ok config ∧ Delivers provisioning config ∧
      ∀ sent, List.Forall₂ Arrives reports sent → (EndpointBoundConfigReceiver.run calls).deliver endpointEpoch sent =
        List.replicate (sent.length - 1) .pending ++ [.complete json] := by
  obtain ⟨haccepted, rfl, rfl, hssid, hpassword⟩ := new_accepted hnew hport hsecret
  obtain ⟨json, config, hjson, hne, hmax, hparse, hdelivers⟩ := payload_delivers haccepted hssid hpassword
  have hreports := encodeReports_ok.2 ⟨hne, hmax, rfl⟩
  refine ⟨json, _, config, hjson, hreports, hparse, hdelivers, fun sent hsent => ?_⟩
  exact assembled_delivered calls hepoch (reports_assembled hreports hsent)

theorem provisioning_arrives_home : ∃ provisioning json reports config,
    LanProvisioning.payloadJson provisioning = .ok json ∧ encodeReports json = .ok reports ∧
    parseConfigPayload json = .ok config ∧ Delivers provisioning config ∧
    ∀ sent, List.Forall₂ Arrives reports sent →
      (EndpointBoundConfigReceiver.run [.receive 41 firstBrace]).deliver 41 sent =
        List.replicate (sent.length - 1) .pending ++ [.complete json] := by
  have hnew : LanProvisioning.new "home".toList "password".toList WifiSample.lanHost 17333 WifiSample.sevens =
      .ok ⟨"home".toList, "password".toList, ⟨192, 168, 1, 10⟩, 17333, WifiSample.sevens⟩ := by decide +kernel
  exact ⟨_, provisioning_arrives [.receive 41 firstBrace] 41 (by decide) (by decide) rfl hnew⟩

end CodexKeyboard.Provisioning
