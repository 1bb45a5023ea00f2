import Mathlib.Tactic

/-! A byte string sent in chunks of a fixed size: offsets that a chunk can start or end at, the
    chunks themselves, and a block that is filled chunk by chunk. -/

namespace Schemes.Chunks

variable {α : Type} {c len n : Nat}

/-- An offset a chunk can end at: a multiple of the chunk size, or the end. -/
structure Aligned (c len n : Nat) : Prop where
  bounded : n ≤ len
  boundary : c ∣ n ∨ n = len

/-- `payload` is the chunk of `bytes` at `offset`; only the last one may be short. -/
structure IsChunk (c : Nat) (bytes : List α) (offset : Nat) (payload : List α) : Prop where
  starts : c ∣ offset
  inside : offset < bytes.length
  payload : payload = (bytes.drop offset).take c

theorem aligned_zero (c len : Nat) : Aligned c len 0 := ⟨Nat.zero_le _, Or.inl (Nat.dvd_zero _)⟩

theorem Aligned.dvd_of_lt (h : Aligned c len n) (hlt : n < len) : c ∣ n := by
  rcases h.boundary with hd | rfl
  · exact hd
  · exact absurd hlt (Nat.lt_irrefl _)

/-- A window of whole chunks ends at such an offset again. -/
theorem Aligned.window (h : Aligned c len n) (k : Nat) : Aligned c len (min (n + c * k) len) := by
  refine ⟨Nat.min_le_right _ _, ?_⟩
  rcases Nat.lt_or_ge (n + c * k) len with hlt | hge
  · left
    rw [Nat.min_eq_left (Nat.le_of_lt hlt)]
    exact Nat.dvd_add (h.dvd_of_lt (by omega)) (Nat.dvd_mul_right _ _)
  · exact Or.inr (Nat.min_eq_right hge)

/-- One chunk before `stop`, as a loop cuts it, is the chunk of the whole string. -/
theorem isChunk_slice {bytes : List α} {offset stop : Nat} (hc : 0 < c)
    (hstop : Aligned c bytes.length stop) (hoffset : c ∣ offset) (hlt : offset < stop) :
    IsChunk c bytes offset ((bytes.drop offset).take (min (offset + c) stop - offset)) ∧
      (c ∣ min (offset + c) stop ∨ min (offset + c) stop = stop) := by
  have hinside : offset < bytes.length := Nat.lt_of_lt_of_le hlt hstop.bounded
  rcases Nat.le_total (offset + c) stop with hle | hge
  · rw [Nat.min_eq_left hle, Nat.add_sub_cancel_left]
    exact ⟨⟨hoffset, hinside, rfl⟩, Or.inl (Nat.dvd_add hoffset (Nat.dvd_refl _))⟩
  · refine ⟨⟨hoffset, hinside, ?_⟩, Or.inr (Nat.min_eq_right hge)⟩
    rw [Nat.min_eq_right hge]
    rcases hstop.boundary with hd | hend
    · -- two multiples of the chunk size less than one chunk apart
      have hstep : offset + c ≤ stop := by
        obtain ⟨a, rfl⟩ := hoffset
        obtain ⟨b, rfl⟩ := hd
        have hab : a < b := Nat.lt_of_mul_lt_mul_left hlt
        calc c * a + c = c * (a + 1) := by ring
          _ ≤ c * b := Nat.mul_le_mul_left c hab
      rw [show stop - offset = c by omega]
    · rw [List.take_of_length_le, List.take_of_length_le] <;> simp <;> omega

theorem IsChunk.length {bytes payload : List α} {offset : Nat} (h : IsChunk c bytes offset payload) :
    payload.length = min c (bytes.length - offset) := by
  rw [h.payload, List.length_take, List.length_drop]

/-- Taking a chunk moves on to an offset a chunk can end at. -/
theorem IsChunk.aligned {bytes payload : List α} {offset : Nat} (h : IsChunk c bytes offset payload) :
    Aligned c bytes.length (offset + payload.length) := by
  have hinside := h.inside
  rw [h.length]
  rcases Nat.le_total c (bytes.length - offset) with hle | hge
  · rw [Nat.min_eq_left hle]
    exact ⟨by omega, Or.inl (Nat.dvd_add h.starts (Nat.dvd_refl _))⟩
  · rw [Nat.min_eq_right hge]
    exact ⟨by omega, Or.inr (by omega)⟩

/-- The chunks counted so far, the short one included. -/
theorem IsChunk.count {bytes payload : List α} {offset : Nat} (hc : 0 < c)
    (h : IsChunk c bytes offset payload) :
    (offset + payload.length + c - 1) / c = offset / c + 1 := by
  obtain ⟨a, ha⟩ := h.starts
  have hinside := h.inside
  have hpos : 0 < payload.length ∧ payload.length ≤ c := by
    rw [h.length]
    constructor
    · exact Nat.lt_min.2 ⟨hc, by omega⟩
    · exact Nat.min_le_left _ _
  have hdiv : offset / c = a := by rw [ha, Nat.mul_div_cancel_left a hc]
  rw [hdiv, Nat.div_eq_iff hc]
  have hmul : a * c = offset := by rw [ha, Nat.mul_comm]
  have hsucc : (a + 1) * c = offset + c := by rw [Nat.add_mul, hmul, Nat.one_mul]
  rw [hsucc]
  omega

theorem count_of_dvd (hc : 0 < c) (h : c ∣ n) : (n + c - 1) / c = n / c := by
  obtain ⟨a, rfl⟩ := h
  rw [Nat.mul_div_cancel_left a hc, Nat.div_eq_iff hc, Nat.mul_comm a c]
  omega

/-! ### Filling a block -/

/-- Overwrite the bytes of a block from `offset` on. -/
def splice (block : List α) (offset : Nat) (payload : List α) : List α :=
  block.take offset ++ payload ++ block.drop (offset + payload.length)

/-- The next chunk in its place keeps the block a copy of a prefix. -/
theorem IsChunk.splice_take {bytes block payload : List α} {offset : Nat}
    (h : IsChunk c bytes offset payload) (hlength : block.length = bytes.length)
    (hfront : block.take offset = bytes.take offset) :
    (splice block offset payload).take (offset + payload.length) =
      bytes.take (offset + payload.length) ∧
    (splice block offset payload).length = bytes.length := by
  have hinside := h.inside
  have hend := h.aligned.bounded
  have htake : (block.take offset).length = offset := by
    rw [List.length_take]
    omega
  constructor
  · have hfirst : (block.take offset ++ payload).length = offset + payload.length := by
      rw [List.length_append, htake]
    rw [splice, List.take_left' hfirst, hfront, List.take_add]
    congr 1
    have hlen : payload.length ≤ c := by
      rw [h.length]
      exact Nat.min_le_left _ _
    have hpay : ((bytes.drop offset).take c).length = payload.length := by rw [← h.payload]
    rw [h.payload, List.take_eq_take_iff, hpay]
    simp only [List.length_take, List.length_drop] at hpay ⊢
    omega
  · rw [splice, List.length_append, List.length_append, htake, List.length_drop]
    omega

/-! ### The chunks of a list -/

/-- The list cut in chunks of `c`, the last one perhaps short. -/
def chunks (c : Nat) (l : List α) : List (List α) :=
  (List.range ((l.length + c - 1) / c)).map fun k => (l.drop (c * k)).take c

variable {l : List α}

@[simp] theorem length_chunks (c : Nat) (l : List α) :
    (chunks c l).length = (l.length + c - 1) / c := by
  simp [chunks]

theorem chunks_nil (hc : 0 < c) : chunks c ([] : List α) = [] := by
  have hnone : ([] : List α).length + c - 1 < c := by
    simp only [List.length_nil]
    omega
  rw [chunks, Nat.div_eq_of_lt hnone]
  rfl

theorem chunks_cons (hc : 0 < c) (hl : l ≠ []) :
    chunks c l = l.take c :: chunks c (l.drop c) := by
  have hpos : 0 < l.length := List.length_pos_iff.2 hl
  have hcount : (l.length + c - 1) / c = (l.length - c + c - 1) / c + 1 := by
    rcases Nat.lt_or_ge l.length c with hshort | hlong
    · rw [Nat.div_eq_of_lt (show l.length - c + c - 1 < c by omega), Nat.div_eq_iff hc]
      omega
    · rw [show l.length + c - 1 = (l.length - c + c - 1) + c by omega, Nat.add_div_right _ hc]
  rw [chunks, hcount, List.range_succ_eq_map, List.map_cons, Nat.mul_zero, List.drop_zero,
    List.map_map, chunks, List.length_drop]
  congr 1
  refine List.map_congr_left fun k _ => ?_
  simp only [Function.comp_apply, Nat.mul_succ, List.drop_drop, Nat.add_comm]

theorem mem_chunks (hc : 0 < c) {chunk : List α} (h : chunk ∈ chunks c l) :
    chunk ≠ [] ∧ chunk.length ≤ c := by
  simp only [chunks, List.mem_map, List.mem_range] at h
  obtain ⟨k, hk, rfl⟩ := h
  have hinside : c * k < l.length := by
    have hmul := Nat.div_mul_le_self (l.length + c - 1) c
    have hsucc := Nat.mul_le_mul_right c hk
    rw [Nat.succ_mul, Nat.mul_comm k] at hsucc
    omega
  refine ⟨?_, List.length_take_le _ _⟩
  rw [← List.length_pos_iff, List.length_take, List.length_drop]
  omega

theorem mem_of_mem_chunks {chunk : List α} {x : α} (h : chunk ∈ chunks c l) (hx : x ∈ chunk) : x ∈ l := by
  rw [chunks, List.mem_map] at h
  obtain ⟨k, -, rfl⟩ := h
  exact List.mem_of_mem_drop (List.mem_of_mem_take hx)

/-- Induction over the chunks of a list. -/
theorem chunks_induction {motive : List α → Prop} (hc : 0 < c) (nil : motive [])
    (cons : ∀ l, l ≠ [] → motive (l.drop c) → motive l) (l : List α) : motive l := by
  rcases eq_or_ne l [] with rfl | hl
  · exact nil
  · refine cons l hl (chunks_induction hc nil cons (l.drop c))
termination_by l.length
decreasing_by
  have hpos : 0 < l.length := List.length_pos_iff.2 hl
  rw [List.length_drop]
  omega

theorem flatten_chunks (hc : 0 < c) (l : List α) : (chunks c l).flatten = l := by
  induction l using chunks_induction hc with
  | nil => rw [chunks_nil hc, List.flatten_nil]
  | cons l hl ih => rw [chunks_cons hc hl, List.flatten_cons, ih, List.take_append_drop]

end Schemes.Chunks
