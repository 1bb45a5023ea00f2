import CodexKeyboard.Observer.Turn

/-! How large a packed turn is. The budgets of `compact_messages` and of the tools count bytes of text; the
    bound on the pack counts bytes of JSON, where a quote or a control character takes two to six. -/

namespace CodexKeyboard.Observer

open Schemes Text Transact Redaction

variable {text : Text} {index n : Nat}

/-! ### Cuts -/

theorem isCharBoundary_iff : isCharBoundary text index = true ↔ ∃ a b, text = a ++ b ∧ size a = index := by
  rw [isCharBoundary, Option.isSome_iff_exists]
  constructor
  · rintro ⟨⟨a, b⟩, h⟩
    exact ⟨a, b, splitBytes_iff.1 h⟩
  · rintro ⟨a, b, h⟩
    exact ⟨(a, b), splitBytes_iff.2 h⟩

theorem floorFrom_boundary (text : Text) (index : Nat) :
    ∃ a b, text = a ++ b ∧ size a = floorFrom text index ∧ floorFrom text index ≤ index := by
  induction index with
  | zero => exact ⟨[], text, rfl, rfl, le_rfl⟩
  | succ index ih =>
    rw [floorFrom]
    split
    next h =>
      obtain ⟨a, b, htext, hsize⟩ := isCharBoundary_iff.1 h
      exact ⟨a, b, htext, hsize, le_rfl⟩
    next =>
      obtain ⟨a, b, htext, hsize, hle⟩ := ih
      exact ⟨a, b, htext, hsize, Nat.le_succ_of_le hle⟩

theorem ceilFrom_boundary (text : Text) (left index : Nat) (h : left + index = size text) :
    ∃ a b, text = a ++ b ∧ size a = ceilFrom text left index ∧ index ≤ ceilFrom text left index := by
  induction left generalizing index with
  | zero => exact ⟨text, [], by rw [List.append_nil], by rw [ceilFrom]; omega, le_rfl⟩
  | succ left ih =>
    rw [ceilFrom]
    split
    next h =>
      obtain ⟨a, b, htext, hsize⟩ := isCharBoundary_iff.1 h
      exact ⟨a, b, htext, hsize, le_rfl⟩
    next =>
      obtain ⟨a, b, htext, hsize, hle⟩ := ih (index + 1) (by omega)
      exact ⟨a, b, htext, hsize, by omega⟩

/-- A text that is too long is cut to a beginning of it, the marker and an end of it. -/
theorem compactText_cut (hlong : n < size text) (hroom : size truncatedMarker < n) :
    ∃ head tail, compactText text n = .ok (head ++ truncatedMarker ++ tail) ∧ head <+: text ∧ tail <:+ text ∧
      size head + size tail ≤ n - size truncatedMarker := by
  have hmarker := limits.2.2
  rw [compactText, if_neg (by omega), if_neg (by omega)]
  dsimp only
  generalize hhead : (n - size truncatedMarker) / 3 = headBudget
  obtain ⟨a, b, htext, hsize, hle⟩ := floorFrom_boundary text (min headBudget (size text))
  obtain ⟨c, d, htext', hsize', hle'⟩ := ceilFrom_boundary text
    (size text - min (size text - (n - size truncatedMarker - headBudget)) (size text))
    (min (size text - (n - size truncatedMarker - headBudget)) (size text)) (by omega)
  have hto : sliceTo text (utf8Floor text headBudget) = some a := by
    rw [utf8Floor, ← hsize, htext, sliceTo_append]
  have hfrom : sliceFrom text (utf8Ceil text (size text - (n - size truncatedMarker - headBudget))) = some d := by
    rw [utf8Ceil, ← hsize', htext', sliceFrom_append]
  have hd : size text = size c + size d := by rw [htext', size_append]
  rw [hto, hfrom]
  refine ⟨a, d, rfl, ⟨b, htext.symm⟩, ⟨c, htext'.symm⟩, ?_⟩
  omega

theorem compactText_ok (text : Text) (n : Nat) : ∃ out, compactText text n = .ok out ∧ size out ≤ n := by
  have hmarker := limits.2.2
  rcases Nat.lt_or_ge n (size text) with hlong | hshort
  · rcases Nat.lt_or_ge (size truncatedMarker) n with hroom | hsmall
    · obtain ⟨head, tail, hcut, -, -, hsize⟩ := compactText_cut hlong hroom
      refine ⟨_, hcut, ?_⟩
      rw [size_append, size_append]
      omega
    · have hall : ∀ n < 14, ∃ out ∈ sliceTo truncatedMarker n, size out ≤ n := by decide
      obtain ⟨out, hout, hsize⟩ := hall n (by omega)
      refine ⟨out, ?_, hsize⟩
      rw [compactText, if_neg (by omega), if_pos hsmall, Option.mem_def.1 hout]
      rfl
  · exact ⟨text, by rw [compactText, if_pos hshort], hshort⟩

theorem compactLoop_ok (remaining : Nat) (messages : List Text) :
    ∃ kept, compactLoop remaining messages = .ok kept ∧ (kept.map size).sum ≤ remaining ∧
      kept.length ≤ messages.length := by
  induction messages generalizing remaining with
  | nil => exact ⟨[], rfl, Nat.zero_le _, le_rfl⟩
  | cons message rest ih =>
    rw [compactLoop]
    split
    · exact ⟨[], rfl, Nat.zero_le _, Nat.zero_le _⟩
    · obtain ⟨out, hout, hsize⟩ := compactText_ok message (min remaining maxTextBytes)
      obtain ⟨kept, hkept, hsum, hlength⟩ := ih (remaining - size out)
      rw [hout, ok_bind, hkept, ok_bind]
      refine ⟨_, rfl, ?_, ?_⟩
      · rw [List.map_cons, List.sum_cons]
        omega
      · rw [List.length_cons, List.length_cons]
        omega

/-- What is kept of the messages of a role stays within the budget of the role. -/
theorem compactMessages_ok (messages : List Text) :
    ∃ kept, compactMessages messages = .ok kept ∧ (kept.map size).sum ≤ maxTextBytesPerRole ∧
      kept.length ≤ maxMessagesPerRole := by
  obtain ⟨kept, hkept, hsum, hlength⟩ :=
    compactLoop_ok maxTextBytesPerRole (messages.reverse.take maxMessagesPerRole)
  refine ⟨kept.reverse, by rw [compactMessages, hkept, ok_bind], ?_, ?_⟩
  · rwa [List.map_reverse, List.sum_reverse]
  · rw [List.length_reverse]
    exact hlength.trans (List.length_take_le _ _)

/-! ### Sizes -/

/-- The bytes of a packed turn: 50 for its fixed parts, and what the texts need as JSON. -/
def packBytes (turnId : Text) (user assistant : List Text) (tools : List ToolFact) : Nat :=
  50 + escaped turnId + arrayBytes (user.map fun text => 2 + escaped text) +
    arrayBytes (assistant.map fun text => 2 + escaped text) +
    arrayBytes (tools.map fun tool => 23 + escaped tool.name + escaped tool.status)

theorem size_jsonTool (tool : ToolFact) :
    size (jsonTool tool) = 23 + escaped tool.name + escaped tool.status := by
  have hparts : size "\x7b\"name\":".toList = 8 ∧ size ",\"status\":".toList = 10 ∧ size ['\x7d'] = 1 := by
    decide
  obtain ⟨hname, hstatus, hend⟩ := hparts
  unfold jsonTool
  rw [size_append, size_append, size_append, size_append, size_jsonString, size_jsonString, hname, hstatus, hend]
  omega

theorem size_toJson (turnId : Text) (user assistant : List Text) (tools : List ToolFact) :
    size (TurnPack.toJson ⟨1, turnId, user, assistant, tools⟩) = packBytes turnId user assistant tools := by
  have hparts : size "\x7b\"v\":".toList = 5 ∧ size (Nat.repr 1).toList = 1 ∧ size ",\"turn_id\":".toList = 11 ∧
      size ",\"user\":".toList = 8 ∧ size ",\"assistant\":".toList = 13 ∧ size ",\"tools\":".toList = 9 ∧
      size ['\x7d'] = 1 := by decide
  obtain ⟨hv, hone, hturn, huser, hassistant, htools, hend⟩ := hparts
  have htexts : ∀ texts : List Text, (texts.map jsonString).map size = texts.map fun text => 2 + escaped text := by
    intro texts
    rw [List.map_map]
    exact List.map_congr_left fun text _ => size_jsonString text
  have hfacts : (tools.map jsonTool).map size =
      tools.map fun tool => 23 + escaped tool.name + escaped tool.status := by
    rw [List.map_map]
    exact List.map_congr_left fun tool _ => size_jsonTool tool
  unfold TurnPack.toJson
  simp only [size_append, size_jsonString, size_jsonArray, htexts, hfacts, hv, hone, hturn, huser, hassistant,
    htools, hend, packBytes]
  omega

end CodexKeyboard.Observer
