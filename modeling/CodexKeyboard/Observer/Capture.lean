import CodexKeyboard.Redaction.Redact
import CodexKeyboard.Schemes.Budget

/-! The capture of a string by the streaming parser of the rollout observer: a message too long to be
    held keeps its head and its tail. -/

namespace CodexKeyboard.Observer

open Schemes Text Transact Budget Redaction

def maxTextBytes : Nat := 12 * 1024
def maxStreamSmallFieldBytes : Nat := 256

inductive ObserverError where
  | invalidRollout | turnPackTooLarge
  deriving DecidableEq, Repr

/-- How a call stops without its result. -/
inductive Stop where
  | failed (e : ObserverError)
  | halted (h : Halt)
  deriving DecidableEq, Repr

/-- `"\n[truncated]\n"`. -/
def truncatedMarker : Text := "\n[truncated]\n".toList

/-- `String::from_utf8`. -/
def fromUtf8 (bytes : List UInt8) : Option Text := bytes.toByteArray.utf8Decode?.map Array.toList

/-- The part of a long text its capture keeps from the front, and the part from the back. -/
def headLimit : Nat := (maxTextBytes - size truncatedMarker) / 3
def tailLimit : Nat := maxTextBytes - size truncatedMarker - headLimit

inductive BoundedCapture where
  | none
  | small (bytes : List UInt8) (overflowed : Bool)
  | text (head : List UInt8) (tail : List (List UInt8)) (tailBytes total : Nat)
  deriving DecidableEq, Repr

/-- The loop that shortens the tail; an empty tail has nothing to take from. -/
def popFront (limit : Nat) : (tail : List (List UInt8)) → (tailBytes : Nat) →
    Except Stop (List (List UInt8) × Nat)
  | [], tailBytes => if limit < tailBytes then .error (.halted .panic) else .ok ([], tailBytes)
  | removed :: tail, tailBytes =>
    if limit < tailBytes then popFront limit tail (tailBytes - removed.length)
    else .ok (removed :: tail, tailBytes)

namespace BoundedCapture

def push (bytes : List UInt8) : BoundedCapture → Except Stop BoundedCapture
  | none => .ok none
  | small captured overflowed =>
    let remaining := maxStreamSmallFieldBytes - captured.length
    .ok (small (captured ++ bytes.take (min bytes.length remaining))
      (overflowed || decide (remaining < bytes.length)))
  | text head tail tailBytes total =>
    if head.length + bytes.length ≤ headLimit then
      .ok (text (head ++ bytes) tail tailBytes (total + bytes.length))
    else do
      let (tail, tailBytes) ← popFront tailLimit (tail ++ [bytes]) (tailBytes + bytes.length)
      .ok (text head tail tailBytes (total + bytes.length))

def finish : BoundedCapture → Except Stop Text
  | none => .ok []
  | small bytes overflowed =>
    if overflowed then .error (.failed .invalidRollout)
    else orThrow (.failed .invalidRollout) (fromUtf8 bytes)
  | text head tail _ total => do
    let tail := tail.flatten
    let retained := head.length + tail.length
    let value ← orThrow (.failed .invalidRollout) (fromUtf8 head)
    let rest ← orThrow (.failed .invalidRollout) (fromUtf8 tail)
    .ok (value ++ (if retained < total then truncatedMarker else []) ++ rest)

end BoundedCapture

/-- A text pushed character by character, as the parser does. -/
def pushText (s : Text) (capture : BoundedCapture) : Except Stop BoundedCapture :=
  s.foldlM (fun capture c => capture.push (String.utf8EncodeChar c)) capture

def captureText (s : Text) : Except Stop BoundedCapture := pushText s (.text [] [] 0 0)

/-! ### UTF-8 -/

variable {s : Text} {c : Char}

@[simp] theorem fromUtf8_asBytes (s : Text) : fromUtf8 (asBytes s) = some s := by
  have hdecode : s.utf8Encode.utf8Decode? = some s.toArray := List.utf8Decode?_utf8Encode
  rw [fromUtf8, asBytes, show (s.flatMap String.utf8EncodeChar).toByteArray = s.utf8Encode from rfl, hdecode]
  rfl

theorem length_encode (c : Char) : (String.utf8EncodeChar c).length = c.utf8Size :=
  String.length_utf8EncodeChar c

theorem size_eq_weight (s : Text) : size s = weight Char.utf8Size s := rfl

theorem flatten_encode (s : Text) : (s.map String.utf8EncodeChar).flatten = asBytes s :=
  (List.flatMap_def ..).symm

/-! ### What a capture holds -/

/-- The tail in front of which the loop stops is the longest end that fits. -/
theorem popFront_eq (limit : Nat) (s : Text) :
    popFront limit (s.map String.utf8EncodeChar) (size s) =
      .ok ((keepLast Char.utf8Size limit s).map String.utf8EncodeChar,
        size (keepLast Char.utf8Size limit s)) := by
  induction s with
  | nil => rfl
  | cons c s ih =>
    rw [List.map_cons, popFront, length_encode]
    split
    next hover =>
      rw [keepLast_cons hover, ← ih, size_eq_weight, weight_cons, Nat.add_sub_cancel_left, size_eq_weight]
    next hfits => rw [keepLast_of_le (Nat.not_lt.1 hfits), List.map_cons]

/-- A capture that holds `head` and, of what did not fit there, the end of `rest`. -/
def holding (head rest : Text) (total : Nat) : BoundedCapture :=
  .text (asBytes head) ((keepLast Char.utf8Size tailLimit rest).map String.utf8EncodeChar)
    (size (keepLast Char.utf8Size tailLimit rest)) total

theorem push_holding (head rest : Text) (total : Nat) (c : Char) :
    (holding head rest total).push (String.utf8EncodeChar c) =
      if size head + c.utf8Size ≤ headLimit then .ok (holding (head ++ [c]) rest (total + c.utf8Size))
      else .ok (holding head (rest ++ [c]) (total + c.utf8Size)) := by
  rw [holding, BoundedCapture.push, length_asBytes, length_encode]
  split
  · rw [holding, asBytes_append]
    simp [asBytes]
  · have hpop := popFront_eq tailLimit (keepLast Char.utf8Size tailLimit rest ++ [c])
    rw [keepLast_append, List.map_append, size_append] at hpop
    rw [show size [c] = c.utf8Size by simp [size]] at hpop
    rw [show [String.utf8EncodeChar c] = [c].map String.utf8EncodeChar from rfl, hpop, ok_bind, holding]

/-- After a whole text: the head it was given, and the characters that went to the back. -/
theorem pushText_holding (s head rest : Text) (total : Nat) (hhead : size head ≤ headLimit) :
    pushText s (holding head rest total) =
      .ok (holding (head ++ taken Char.utf8Size (headLimit - size head) s)
        (rest ++ skipped Char.utf8Size (headLimit - size head) s) (total + size s)) := by
  induction s generalizing head rest total with
  | nil =>
    rw [taken, skipped, List.append_nil, List.append_nil]
    rfl
  | cons c s ih =>
    have hstep := push_holding head rest total c
    rw [pushText, List.foldlM_cons, hstep, taken, skipped]
    split
    next hfits =>
      have hsize : size (head ++ [c]) = size head + c.utf8Size := by simp [size]
      have hnext := ih (head ++ [c]) rest (total + c.utf8Size) (by omega)
      rw [pushText] at hnext
      rw [if_pos (by omega), if_pos (by omega), ok_bind, hnext, hsize, Nat.sub_add_eq, size_cons]
      simp [Nat.add_assoc]
    next hover =>
      have hnext := ih head (rest ++ [c]) (total + c.utf8Size) hhead
      rw [pushText] at hnext
      rw [if_neg (by omega), if_neg (by omega), ok_bind, hnext, size_cons]
      simp [Nat.add_assoc]

theorem captureText_eq (s : Text) :
    captureText s = .ok (holding (taken Char.utf8Size headLimit s) (skipped Char.utf8Size headLimit s)
      (size s)) := by
  have hall := pushText_holding s [] [] 0 (Nat.zero_le _)
  rwa [List.nil_append, List.nil_append, Nat.zero_add] at hall

theorem finish_holding (head rest : Text) (total : Nat) :
    (holding head rest total).finish =
      .ok (head ++ (if size head + size (keepLast Char.utf8Size tailLimit rest) < total
        then truncatedMarker else []) ++ keepLast Char.utf8Size tailLimit rest) := by
  rw [holding, BoundedCapture.finish, flatten_encode, fromUtf8_asBytes, fromUtf8_asBytes,
    length_asBytes, length_asBytes]
  rfl

/-! ### Order -/

/-- A text of at most the capture's bytes comes back as it is, a longer one as a beginning of it, the
    marker and an end of it; the beginning is what the capture has before the marker it puts in. -/
structure KeepsOrder (s : Text) (capture : BoundedCapture) (out : Text) : Prop where
  short : size s ≤ maxTextBytes - size truncatedMarker → out = s
  long : maxTextBytes - size truncatedMarker < size s → size out ≤ maxTextBytes ∧
    ∃ front back, out = front ++ truncatedMarker ++ back ∧ front <+: s ∧ back <:+ s ∧
      ∃ tail tailBytes total, capture = .text (asBytes front) tail tailBytes total

/-- Behind the longest beginning that fits in the head no character is short enough for what is left of
    it, and what is left of it is not missed by a text that should fit. -/
structure Fits (s : Text) : Prop where
  none_fits : ∀ c ∈ behind Char.utf8Size headLimit s,
    headLimit - size (front Char.utf8Size headLimit s) < c.utf8Size
  not_missed : size s ≤ size (front Char.utf8Size headLimit s) + tailLimit ∨
    headLimit + tailLimit < size s

/-- The text that is captured. -/
def captured (s : Text) : Except Stop (BoundedCapture × Text) := do
  let capture ← captureText s
  let out ← capture.finish
  .ok (capture, out)

theorem captured_eq (s : Text) :
    captured s = .ok (holding (taken Char.utf8Size headLimit s) (skipped Char.utf8Size headLimit s) (size s),
      taken Char.utf8Size headLimit s ++
        (if size (taken Char.utf8Size headLimit s) +
            size (keepLast Char.utf8Size tailLimit (skipped Char.utf8Size headLimit s)) < size s
          then truncatedMarker else []) ++
        keepLast Char.utf8Size tailLimit (skipped Char.utf8Size headLimit s)) := by
  rw [captured, captureText_eq, ok_bind, finish_holding, ok_bind]

theorem limits : headLimit = 4091 ∧ tailLimit = 8184 ∧ size truncatedMarker = 13 := by decide

/-- A text that fits is kept in order. -/
theorem Fits.keepsOrder {capture : BoundedCapture} {out : Text} (h : Fits s)
    (hcaptured : captured s = .ok (capture, out)) : KeepsOrder s capture out := by
  obtain ⟨hhead, htail, hmarker⟩ := limits
  obtain ⟨hnone, hall⟩ := taken_none h.none_fits
  have htaken := taken_eq (w := Char.utf8Size) headLimit s
  have hskipped := skipped_eq (w := Char.utf8Size) headLimit s
  have hs := front_behind (w := Char.utf8Size) headLimit s
  have hfront := weight_front_le (w := Char.utf8Size) headLimit s
  have hmissed := h.not_missed
  rw [size_eq_weight] at hnone hall hmissed
  rw [hnone, List.append_nil] at htaken
  rw [hall] at hskipped
  rw [captured_eq, htaken, hskipped] at hcaptured
  obtain ⟨rfl, rfl⟩ := Prod.mk.inj (Except.ok.inj hcaptured)
  generalize front Char.utf8Size headLimit s = a at *
  generalize behind Char.utf8Size headLimit s = b at *
  have hsize : size s = size a + size b := by rw [← hs, size_append]
  rw [size_eq_weight] at hmissed hsize
  constructor
  · intro hshort
    have hfits : weight Char.utf8Size b ≤ tailLimit := by
      simp only [maxTextBytes, size_eq_weight] at hshort hsize hmarker
      omega
    rw [keepLast_of_le hfits, if_neg (by simp only [size_eq_weight] at hsize ⊢; omega), List.append_nil, hs]
  · intro hlong
    have hover : size (keepLast Char.utf8Size tailLimit b) ≤ tailLimit := weight_keepLast_le _ _
    have hcut : size a + size (keepLast Char.utf8Size tailLimit b) < size s := by
      simp only [maxTextBytes, size_eq_weight] at hlong hsize hmarker hover ⊢
      omega
    rw [if_pos hcut]
    refine ⟨?_, a, _, rfl, ⟨b, hs⟩, ?_, _, _, _, rfl⟩
    · rw [size_append, size_append, hmarker]
      simp only [maxTextBytes, size_eq_weight] at hover ⊢
      omega
    · rw [← hs]
      exact (keepLast_suffix _ b).trans (List.suffix_append a b)

/-- A text that does not fit is not kept in order. -/
theorem fits_of_keepsOrder {capture : BoundedCapture} {out : Text}
    (hcaptured : captured s = .ok (capture, out)) (h : KeepsOrder s capture out) : Fits s := by
  obtain ⟨hhead, htail, hmarker⟩ := limits
  have hs := front_behind (w := Char.utf8Size) headLimit s
  have htaken := taken_eq (w := Char.utf8Size) headLimit s
  have hskipped := skipped_eq (w := Char.utf8Size) headLimit s
  have hfront := weight_front_le (w := Char.utf8Size) headLimit s
  have hnext : ∀ c rest, behind Char.utf8Size headLimit s = c :: rest →
      headLimit - weight Char.utf8Size (front Char.utf8Size headLimit s) < c.utf8Size :=
    fun c rest => behind_head
  rw [captured_eq] at hcaptured
  obtain ⟨rfl, rfl⟩ := Prod.mk.inj (Except.ok.inj hcaptured)
  suffices hboth : (∀ c ∈ behind Char.utf8Size headLimit s,
      headLimit - size (front Char.utf8Size headLimit s) < c.utf8Size) ∧
      (size s ≤ size (front Char.utf8Size headLimit s) + tailLimit ∨ headLimit + tailLimit < size s) from
    ⟨hboth.1, hboth.2⟩
  simp only [← size_eq_weight] at htaken hskipped hfront hnext
  generalize front Char.utf8Size headLimit s = a at *
  generalize behind Char.utf8Size headLimit s = b at *
  have hsize : size s = size a + size b := by rw [← hs, size_append]
  have hnone : ∀ c ∈ b, headLimit - size a < c.utf8Size := by
    by_contra hfits
    push Not at hfits
    obtain ⟨d, hd, hfits⟩ := hfits
    obtain ⟨e, rest, hsome, he⟩ := taken_some hd hfits
    cases b with
    | nil => exact absurd hd List.not_mem_nil
    | cons c after =>
      have hc := hnext c after rfl
      -- the text goes on with `c` behind `a`, the capture with the shorter `e`
      have hdiffer : e ≠ c := by
        rintro rfl
        omega
      rw [hsome] at htaken
      rcases Nat.lt_or_ge (maxTextBytes - size truncatedMarker) (size s) with hlong | hshort
      · obtain ⟨-, begun, _, -, hbegun, -, _, _, _, hcapture⟩ := h.long hlong
        rw [holding] at hcapture
        have hbytes := asBytes_inj (BoundedCapture.text.inj hcapture).1
        rw [← hbytes, htaken, ← hs, List.prefix_append_right_inj, List.cons_prefix_cons] at hbegun
        exact hdiffer hbegun.1
      · have hout := h.short hshort
        rw [htaken, ← hs, List.append_assoc, List.append_assoc] at hout
        exact hdiffer (List.cons.inj (List.append_cancel_left hout)).1
  refine ⟨hnone, ?_⟩
  by_contra hmissed
  push Not at hmissed
  obtain ⟨hnothing, hall⟩ := taken_none hnone
  rw [hnothing, List.append_nil] at htaken
  rw [hall] at hskipped
  have hout := h.short (by simp only [maxTextBytes]; omega)
  have hover : size (keepLast Char.utf8Size tailLimit b) ≤ tailLimit := weight_keepLast_le _ _
  rw [htaken, hskipped, if_pos (by omega), ← hs, List.append_assoc] at hout
  cases b with
  | nil =>
    rw [size_nil] at hsize
    omega
  | cons c after =>
    -- what is left out is replaced by the marker, whose newline would fit where `c` does not
    have hc := hnext c after rfl
    have hmark : truncatedMarker = '\n' :: truncatedMarker.tail := by decide
    have hone : '\n'.utf8Size = 1 := by decide
    rw [hmark, List.cons_append] at hout
    rw [← (List.cons.inj (List.append_cancel_left hout)).1, hone] at hc
    omega

/-- A text is kept in order exactly when it fits. -/
theorem captured_keepsOrder_iff (s : Text) :
    (∃ capture out, captured s = .ok (capture, out) ∧ KeepsOrder s capture out) ↔ Fits s := by
  constructor
  · rintro ⟨capture, out, hcaptured, horder⟩
    exact fits_of_keepsOrder hcaptured horder
  · intro hfits
    exact ⟨_, _, captured_eq s, hfits.keepsOrder (captured_eq s)⟩

theorem size_replicate (n : Nat) : size (List.replicate n 'a') = n := by
  have hone : 'a'.utf8Size = 1 := by decide
  simp [size, hone]

/-- A character of two bytes that just does not fit in the head is overtaken by the letter behind it. -/
theorem captured_reorders :
    (∃ capture, captured (List.replicate 4090 'a' ++ ['é', 'b']) =
      .ok (capture, List.replicate 4090 'a' ++ ['b', 'é'])) ∧
    ¬ ∃ capture out, captured (List.replicate 4090 'a' ++ ['é', 'b']) = .ok (capture, out) ∧
      KeepsOrder (List.replicate 4090 'a' ++ ['é', 'b']) capture out := by
  obtain ⟨hhead, htail, hmarker⟩ := limits
  have hsize := size_replicate 4090
  have hparts : taken Char.utf8Size headLimit (List.replicate 4090 'a' ++ ['é', 'b']) = _ ∧ _ :=
    taken_append ['é', 'b'] (by rw [← size_eq_weight, hsize, hhead]; omega)
  rw [← size_eq_weight, hsize, hhead] at hparts
  have hbehind : taken Char.utf8Size (4091 - 4090) ['é', 'b'] = ['b'] ∧
      skipped Char.utf8Size (4091 - 4090) ['é', 'b'] = ['é'] ∧ keepLast Char.utf8Size 8184 ['é'] = ['é'] ∧
      size ['é'] = 2 ∧ size ['b'] = 1 ∧ size ['é', 'b'] = 3 := by decide
  obtain ⟨hb, he, hkeep, hsizeE, hsizeB, hsizeEB⟩ := hbehind
  have hcaptured := captured_eq (List.replicate 4090 'a' ++ ['é', 'b'])
  rw [hhead, htail, hparts.1, hparts.2, hb, he, hkeep] at hcaptured
  simp only [size_append, hsize, hsizeE, hsizeB, hsizeEB] at hcaptured
  rw [if_neg (by decide), List.append_nil, List.append_assoc, List.singleton_append] at hcaptured
  refine ⟨⟨_, hcaptured⟩, ?_⟩
  rintro ⟨capture, out, hsame, horder⟩
  rw [hcaptured] at hsame
  obtain ⟨rfl, rfl⟩ := Prod.mk.inj (Except.ok.inj hsame)
  have hout := horder.short (by rw [size_append, hsize, hsizeEB, hmarker]; decide)
  exact absurd (List.append_cancel_left hout) (by decide)

end CodexKeyboard.Observer
