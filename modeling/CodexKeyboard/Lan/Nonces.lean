import CodexKeyboard.Lan.Canonical
import CodexKeyboard.Lan.Faithful
import Mathlib.Data.List.Pairwise

/-! No nonce is used for two payloads: within a transfer the offset of a chunk decides what it
    carries, and no two transfers share the context their data keys are derived from. -/

namespace CodexKeyboard.Lan

open Schemes.Chunks Schemes.Bytes

/-! ### Contexts and nonces -/

def contextSegments (identity : PlaybackIdentity) (requestNonce : Nat) : List (List UInt8) :=
  [keyLabel, leBytes 1 identity.slot, [0, 0, 0], leBytes 4 identity.requestGeneration,
   leBytes 4 identity.connectionGeneration, leBytes 8 identity.summaryGeneration,
   leBytes 8 identity.lease, leBytes 8 requestNonce]

theorem dataKeyContext_eq (identity : PlaybackIdentity) (requestNonce : Nat) :
    dataKeyContext identity requestNonce = (contextSegments identity requestNonce).flatten := by
  have hzeros : List.replicate 44 (0 : UInt8) =
      List.replicate 8 0 ++ (List.replicate 1 0 ++ ([0, 0, 0] ++ (List.replicate 4 0 ++
        (List.replicate 4 0 ++ (List.replicate 8 0 ++ (List.replicate 8 0 ++ List.replicate 8 0)))))) := rfl
  simp only [dataKeyContext, hzeros, putU8, putU32, putU64, putUint]
  simp (disch := simp [keyLabel]) only [splice_append_here, splice_append_right, splice_here,
    length_leBytes, keyLabel, List.length_cons, List.length_nil, Nat.reduceAdd, Nat.reduceSub]
  simp [contextSegments, keyLabel]

/-- The context names the identity. -/
theorem dataKeyContext_identity {identity identity' : PlaybackIdentity} {nonce nonce' : Nat}
    (hfits : identity.Fits) (hfits' : identity'.Fits)
    (h : dataKeyContext identity nonce = dataKeyContext identity' nonce') : identity = identity' := by
  have hlengths : ∀ identity nonce, (contextSegments identity nonce).map List.length =
      [8, 1, 3, 4, 4, 8, 8, 8] := by
    intro identity nonce
    simp [contextSegments, keyLabel]
  rw [dataKeyContext_eq, dataKeyContext_eq] at h
  have hchop := ((eq_flatten_iff (hlengths identity' nonce')).1 h).2
  rw [← hlengths identity nonce, chop_flatten] at hchop
  simp only [contextSegments, List.cons.injEq, and_true, true_and] at hchop
  obtain ⟨h1, h2, h3, h4, h5, -⟩ := hchop
  have hinj : ∀ {width a b : Nat}, a < 256 ^ width → b < 256 ^ width →
      leBytes width a = leBytes width b → a = b := by
    intro width a b ha hb hab
    rw [← leNat_leBytes ha, hab, leNat_leBytes hb]
  obtain ⟨s, r, c, g, l⟩ := identity
  obtain ⟨s', r', c', g', l'⟩ := identity'
  simp only [PlaybackIdentity.mk.injEq]
  exact ⟨hinj hfits.slot hfits'.slot h1, hinj hfits.requestGeneration hfits'.requestGeneration h2,
    hinj hfits.connectionGeneration hfits'.connectionGeneration h3,
    hinj hfits.summaryGeneration hfits'.summaryGeneration h4, hinj hfits.lease hfits'.lease h5⟩

theorem dataNonce_offset {offset offset' : Nat} (h : offset < 256 ^ 4) (h' : offset' < 256 ^ 4)
    (heq : dataNonce offset = dataNonce offset') : offset = offset' := by
  have hnonce : ∀ o, dataNonce o = leBytes 4 o ++ List.replicate 8 0 := by
    intro o
    exact splice_append_here (p := List.replicate 4 0) (by simp)
  rw [hnonce, hnonce, List.append_left_inj] at heq
  rw [← leNat_leBytes h, heq, leNat_leBytes h']

/-! ### The starts of a run -/

/-- The transfers the daemon asks for in a run. -/
def startsOf (as : List Act) : List LanPlaybackStart :=
  as.filterMap fun
    | .host _ (.command _ (.start s)) => some s
    | _ => none

/-- Starts as `begin_lan_playback` makes them, every one under a lease of its own. -/
structure ProperStarts (starts : List LanPlaybackStart) : Prop where
  fits : ∀ s ∈ starts, s.start.Fits
  chunk : ∀ s ∈ starts, s.start.chunkBytes = playbackChunkBytes
  leases : starts.Pairwise fun s s' => s.start.identity.lease ≠ s'.start.identity.lease

/-- The start under each identity. -/
def catalogOf (starts : List LanPlaybackStart) : Catalog := fun identity =>
  (starts.find? fun s => s.start.identity == identity).getD shortStart

theorem catalogOf_listed {starts : List LanPlaybackStart} (h : ProperStarts starts) {s : LanPlaybackStart}
    (hs : s ∈ starts) : catalogOf starts s.start.identity = s := by
  unfold catalogOf
  cases hfind : starts.find? fun s' => s'.start.identity == s.start.identity with
  | none =>
    have hnone := List.find?_eq_none.1 hfind s hs
    simp at hnone
  | some s' =>
    have hmem := List.mem_of_find?_eq_some hfind
    have hsame := List.find?_some hfind
    simp only [beq_iff_eq] at hsame
    by_contra hne
    have hsymm : Std.Symm fun s s' : LanPlaybackStart =>
      s.start.identity.lease ≠ s'.start.identity.lease := ⟨fun _ _ => Ne.symm⟩
    have hlease := h.leases.forall hmem hs hne
    rw [hsame] at hlease
    exact hlease rfl

theorem shortStart_fits : shortStart.start.Fits := by
  refine ⟨⟨?_, ?_, ?_, ?_, ?_⟩, ?_, ?_, ?_, ?_⟩ <;> decide

theorem catalogOf_fits {starts : List LanPlaybackStart} (h : ProperStarts starts)
    (identity : PlaybackIdentity) : (catalogOf starts identity).start.Fits := by
  unfold catalogOf
  cases hfind : starts.find? fun s => s.start.identity == identity with
  | none => exact shortStart_fits
  | some s => exact h.fits s (List.mem_of_find?_eq_some hfind)

theorem startsOf_from {as : List Act} (h : ProperStarts (startsOf as)) :
    ∀ a ∈ as, a.From (catalogOf (startsOf as)) := by
  intro a ha
  cases a with
  | device io a => trivial
  | host io a =>
    cases a with
    | command key command =>
      cases command with
      | start s =>
        have hs : s ∈ startsOf as := List.mem_filterMap.2 ⟨_, ha, rfl⟩
        exact ⟨h.chunk s hs, catalogOf_listed h hs⟩
      | _ => trivial
    | _ => trivial

/-! ### Nonces -/

/-- What two data packets of a run have in common, when their transfers or their nonces have. -/
structure NonceSafe (d d' : PlaybackData) : Prop where
  /-- Within a transfer the offset decides the payload. -/
  within : d.identity = d'.identity → d.offset = d'.offset → d.payload = d'.payload
  /-- Across transfers the contexts differ. -/
  across : d.identity ≠ d'.identity →
    dataKeyContext d.identity d.requestNonce ≠ dataKeyContext d'.identity d'.requestNonce
  /-- Under one context and one nonce there is one plaintext and one header. -/
  once : dataKeyContext d.identity d.requestNonce = dataKeyContext d'.identity d'.requestNonce →
    dataNonce d.offset = dataNonce d'.offset → d.payload = d'.payload ∧
      dataHeader d.identity d.offset d.payload.length = dataHeader d'.identity d'.offset d'.payload.length

theorem nonceSafe {starts : List LanPlaybackStart} (h : ProperStarts starts) {d d' : PlaybackData}
    (hd : PacketOk (catalogOf starts) (.eipd d)) (hd' : PacketOk (catalogOf starts) (.eipd d')) :
    NonceSafe d d' := by
  obtain ⟨s, hs, hid, hchunk⟩ := hd
  obtain ⟨s', hs', hid', hchunk'⟩ := hd'
  have hfits : s.start.Fits := by
    rw [← hs.listed]
    exact catalogOf_fits h _
  have hfits' : s'.start.Fits := by
    rw [← hs'.listed]
    exact catalogOf_fits h _
  have hwithin : d.identity = d'.identity → d.offset = d'.offset → d.payload = d'.payload := by
    intro hsame hoffset
    have hstart : s = s' := hs.unique hs' (by rw [hid, hid', hsame])
    rw [hchunk.payload, hchunk'.payload, hstart, hoffset]
  have hcontext : dataKeyContext d.identity d.requestNonce = dataKeyContext d'.identity d'.requestNonce →
      d.identity = d'.identity := by
    rw [← hid, ← hid']
    exact dataKeyContext_identity hfits.identity hfits'.identity
  have hoffset : ∀ {s : LanPlaybackStart} {d : PlaybackData}, Started (catalogOf starts) s → s.start.Fits →
      IsChunk playbackChunkBytes s.eiad d.offset d.payload → d.offset < 256 ^ 4 := by
    intro s d hs hfits hchunk
    have hinside := hchunk.inside
    rw [hs.total] at hinside
    exact Nat.lt_trans hinside hfits.totalBytes
  refine ⟨hwithin, fun hne hsame => hne (hcontext hsame), fun hsame hnonce => ?_⟩
  have hidentity := hcontext hsame
  have heq := dataNonce_offset (hoffset hs hfits hchunk) (hoffset hs' hfits' hchunk') hnonce
  have hpayload := hwithin hidentity heq
  exact ⟨hpayload, by rw [hidentity, heq, hpayload]⟩

/-- The contexts of the data packets sent do not collide under HMAC. -/
def NoCollision (c : Crypto) (rootKey : List UInt8) (net : List Packet) : Prop :=
  ∀ d d', .eipd d ∈ net → .eipd d' ∈ net →
    deriveDataKey c d.identity d.requestNonce rootKey = deriveDataKey c d'.identity d'.requestNonce rootKey →
    dataKeyContext d.identity d.requestNonce = dataKeyContext d'.identity d'.requestNonce

/-- In every run of the Host against the keyboard, whatever the network does, a nonce comes back under
    its key only with the same plaintext and the same header. -/
theorem data_nonces_never_reused {w : World} (hw : w.Fresh) (as : List Act)
    (hstarts : ProperStarts (startsOf as)) :
    (∀ d d', .eipd d ∈ (w.run as).net → .eipd d' ∈ (w.run as).net → NonceSafe d d') ∧
    ∀ (c : Crypto) (rootKey : List UInt8), NoCollision c rootKey (w.run as).net →
      ∀ d d', .eipd d ∈ (w.run as).net → .eipd d' ∈ (w.run as).net →
        deriveDataKey c d.identity d.requestNonce rootKey =
          deriveDataKey c d'.identity d'.requestNonce rootKey →
        dataNonce d.offset = dataNonce d'.offset → d.payload = d'.payload ∧
          dataHeader d.identity d.offset d.payload.length =
            dataHeader d'.identity d'.offset d'.payload.length := by
  have hok := run_ok hw.ok as (startsOf_from hstarts)
  have hsafe : ∀ d d', .eipd d ∈ (w.run as).net → .eipd d' ∈ (w.run as).net → NonceSafe d d' :=
    fun d d' hd hd' => nonceSafe hstarts (hok.net _ hd) (hok.net _ hd')
  refine ⟨hsafe, fun c rootKey hcollision d d' hd hd' hkey hnonce => ?_⟩
  exact (hsafe d d' hd hd').once (hcollision d d' hd hd' hkey) hnonce

theorem waitingWorld_fresh : waitingWorld.Fresh :=
  ⟨rfl, ⟨rfl, rfl, rfl⟩, Or.inr rfl, by simp [waitingWorld]⟩

def longStart : LanPlaybackStart := ⟨⟨shortIdentity, 1025, 2, 1024, 9⟩, ⟨1, 2⟩, List.replicate 1025 7⟩

def nextIdentity : PlaybackIdentity := { shortIdentity with lease := 2 }

def nextStart : LanPlaybackStart := ⟨⟨nextIdentity, 3, 2, 1024, 10⟩, ⟨1, 2⟩, [7, 8, 9]⟩

/-- Both chunks of a transfer are sent; the keyboard gives it up, asks again, and is sent another under a new lease. -/
def twoTransfers : List Act :=
  [.host steadyIo (.command true (.start longStart)),
   .device steadyDeviceIo (.receive (.eipb longStart.start)),
   .host steadyIo (.ingest (.eipa ⟨shortIdentity, 0, 0⟩) ⟨1, 2⟩),
   .device steadyDeviceIo .receiveError,
   .host steadyIo (.ingest (.eipa ⟨shortIdentity, 3, 3959422996⟩) ⟨1, 2⟩),
   .device steadyDeviceIo (.receive (.eipk shortIdentity 1)),
   .device steadyDeviceIo .poll,
   .device { steadyDeviceIo with nonce := 10 } (.input .key5 .pressed 1),
   .host steadyIo (.command true (.start nextStart)),
   .device steadyDeviceIo (.receive (.eipb nextStart.start)),
   .host steadyIo (.ingest (.eipa ⟨nextIdentity, 0, 0⟩) ⟨1, 2⟩)]

def firstChunk : PlaybackData := ⟨shortIdentity, 9, 0, List.replicate 1024 7⟩
def lastChunk : PlaybackData := ⟨shortIdentity, 9, 1024, [7]⟩
def nextChunk : PlaybackData := ⟨nextIdentity, 10, 0, [7, 8, 9]⟩

def dataOf (net : List Packet) : List PlaybackData := net.filterMap fun
  | .eipd d => some d
  | _ => none

theorem mem_dataOf {net : List Packet} {d : PlaybackData} : d ∈ dataOf net ↔ .eipd d ∈ net := by
  rw [dataOf, List.mem_filterMap]
  constructor
  · rintro ⟨packet, hpacket, hsome⟩
    cases packet with
    | eipd other =>
      cases hsome
      exact hpacket
    | _ => cases hsome
  · exact fun h => ⟨_, h, rfl⟩

/-- A code that tells contexts apart by their last bytes. -/
def tailCrypto : Crypto :=
  { (default : Crypto) with
    hmac := fun _ message => (message.drop 12 ++ List.replicate 32 0).take 32
    hmac_length := by simp }

theorem short_transfer_nonces :
    NonceSafe firstChunk lastChunk ∧ NonceSafe firstChunk nextChunk ∧
      dataNonce firstChunk.offset = dataNonce nextChunk.offset ∧
      deriveDataKey tailCrypto firstChunk.identity firstChunk.requestNonce [] ≠
        deriveDataKey tailCrypto nextChunk.identity nextChunk.requestNonce [] := by
  have hstarts : ProperStarts (startsOf twoTransfers) := by
    have hlisted : startsOf twoTransfers = [longStart, nextStart] := rfl
    rw [hlisted]
    have hlong : longStart.start.Fits := by
      refine ⟨shortStart_fits.identity, ?_, ?_, ?_, ?_⟩ <;> decide
    have hnext : nextStart.start.Fits := by
      refine ⟨⟨?_, ?_, ?_, ?_, ?_⟩, ?_, ?_, ?_, ?_⟩ <;> decide
    exact ⟨List.forall_mem_cons.2 ⟨hlong, List.forall_mem_singleton.2 hnext⟩,
      List.forall_mem_cons.2 ⟨rfl, List.forall_mem_singleton.2 rfl⟩, List.pairwise_pair.2 (by decide)⟩
  have hsent : dataOf (waitingWorld.run twoTransfers).net = [firstChunk, lastChunk, nextChunk] := by decide +kernel
  have hfirst : .eipd firstChunk ∈ (waitingWorld.run twoTransfers).net := mem_dataOf.1 (by simp [hsent])
  have hlast : .eipd lastChunk ∈ (waitingWorld.run twoTransfers).net := mem_dataOf.1 (by simp [hsent])
  have hnext : .eipd nextChunk ∈ (waitingWorld.run twoTransfers).net := mem_dataOf.1 (by simp [hsent])
  have hcollision : NoCollision tailCrypto [] (waitingWorld.run twoTransfers).net := by
    have hall : ∀ d ∈ [firstChunk, lastChunk, nextChunk], ∀ d' ∈ [firstChunk, lastChunk, nextChunk],
        deriveDataKey tailCrypto d.identity d.requestNonce [] =
          deriveDataKey tailCrypto d'.identity d'.requestNonce [] →
        dataKeyContext d.identity d.requestNonce = dataKeyContext d'.identity d'.requestNonce := by decide +kernel
    intro d d' hd hd'
    exact hall d (hsent ▸ mem_dataOf.2 hd) d' (hsent ▸ mem_dataOf.2 hd')
  obtain ⟨hsafe, hkeys⟩ := data_nonces_never_reused waitingWorld_fresh twoTransfers hstarts
  refine ⟨hsafe _ _ hfirst hlast, hsafe _ _ hfirst hnext, rfl, fun hkey => ?_⟩
  have hpayload := (hkeys tailCrypto [] hcollision _ _ hfirst hnext hkey rfl).1
  exact absurd hpayload (by decide)

end CodexKeyboard.Lan
