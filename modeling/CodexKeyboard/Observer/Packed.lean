import CodexKeyboard.Observer.PackSize
import CodexKeyboard.Redaction.Inert

/-! When a completed turn can be packed: a turn is refused exactly where the JSON of what is kept of it is
    larger than the bound on a pack, which only escapes can bring about. -/

namespace CodexKeyboard.Observer

open Schemes Text Transact Redaction

/-! ### What a builder holds -/

/-- What every observed item leaves of a builder. -/
structure Bounded (turnId : Text) (builder : TurnBuilder) : Prop where
  turnId : builder.turnId = turnId
  tools : builder.tools.length ≤ maxTools
  facts : ∀ tool ∈ builder.tools, size tool.name ≤ maxToolNameBytes ∧ size tool.status ≤ maxToolStatusBytes

variable {turnId : Text} {builder next : TurnBuilder} {P : Stop → Prop}

theorem bounded_new (turnId : Text) : Bounded turnId (newTurn turnId) :=
  ⟨rfl, Nat.zero_le _, fun _ h => absurd h List.not_mem_nil⟩

theorem Bounded.push (h : Bounded turnId builder) (role text : Text) : Bounded turnId (builder.push role text) := by
  rw [TurnBuilder.push]
  split <;> exact ⟨h.turnId, h.tools, h.facts⟩

theorem Bounded.pushMessage (h : Bounded turnId builder) (role text : Text) :
    Ends (fun _ => True) (Bounded turnId) (pushMessage role text builder) := by
  rw [Observer.pushMessage]
  refine ends_any.bind fun text _ => ?_
  split
  · exact h
  · exact ends_any.bind fun cut _ => h.push role cut

theorem Bounded.observePart (h : Bounded turnId builder) (role : Text) (part : Json) :
    Ends (fun _ => True) (Bounded turnId) (observePart role builder part) := by
  rw [Observer.observePart]
  refine ends_any.bind fun part _ => ?_
  split
  · split
    · exact h.pushMessage _ _
    · exact h
  · exact h

theorem Bounded.observeMessage (h : Bounded turnId builder) (object : List (Text × Json)) :
    Ends (fun _ => True) (Bounded turnId) (observeMessage object builder) := by
  rw [Observer.observeMessage]
  refine ends_any.bind fun role _ => ?_
  split
  · exact h
  · exact ends_any.bind fun content _ =>
      ends_foldlM (fun builder part hbuilder => hbuilder.observePart role part) h

/-- A new tool takes the place of the oldest where there are too many. -/
theorem Bounded.addTool (h : Bounded turnId builder) {tool : ToolFact} (callId : Option Text)
    (hname : size tool.name ≤ maxToolNameBytes) (hstatus : size tool.status ≤ maxToolStatusBytes) :
    Bounded turnId (builder.makeRoom.addTool tool callId) := by
  have hroom : Bounded turnId builder.makeRoom ∧ builder.makeRoom.tools.length < maxTools := by
    rw [TurnBuilder.makeRoom]
    have htools := h.tools
    split
    next hfull =>
      have htail : builder.tools.tail.length < maxTools := by
        rw [List.length_tail]
        have hmax : maxTools = 64 := rfl
        omega
      exact ⟨⟨h.turnId, htail.le, fun tool htool => h.facts tool (List.mem_of_mem_tail htool)⟩, htail⟩
    next hfree => exact ⟨h, Nat.not_le.1 hfree⟩
  obtain ⟨hroom, hfree⟩ := hroom
  refine ⟨hroom.turnId, ?_, ?_⟩
  · show (builder.makeRoom.tools ++ [tool]).length ≤ maxTools
    rw [List.length_append, List.length_singleton]
    exact hfree
  · rintro fact hfact
    have hmem : fact ∈ builder.makeRoom.tools ++ [tool] := hfact
    rw [List.mem_append, List.mem_singleton] at hmem
    rcases hmem with hfact | rfl
    · exact hroom.facts fact hfact
    · exact ⟨hname, hstatus⟩

/-- A cut keeps to its limit. -/
theorem ends_compactText (text : Text) (n : Nat) :
    Ends (fun _ : Stop => True) (fun out => size out ≤ n) (halting (compactText text n)) := by
  obtain ⟨out, hout, hsize⟩ := compactText_ok text n
  rw [halting, hout]
  exact hsize

theorem Bounded.observeCall (h : Bounded turnId builder) (object : List (Text × Json)) :
    Ends (fun _ => True) (Bounded turnId) (observeCall object builder) := by
  rw [Observer.observeCall]
  refine ends_any.bind fun name _ => ?_
  split
  · exact h
  · exact ends_any.bind fun name _ => ends_any.bind fun status _ =>
      (ends_compactText name _).bind fun name hname => (ends_compactText status _).bind fun status hstatus =>
        h.addTool _ hname hstatus

theorem Bounded.observeOutput (h : Bounded turnId builder) (object : List (Text × Json)) :
    Ends (fun _ => True) (Bounded turnId) (observeOutput object builder) := by
  rw [Observer.observeOutput]
  split
  · exact h
  · refine ends_orThrow_bind trivial fun tool htool => ⟨h.turnId, ?_, ?_⟩
    · rw [List.length_set]
      exact h.tools
    · rintro fact hfact
      rcases List.mem_or_eq_of_mem_set hfact with hfact | rfl
      · exact h.facts fact hfact
      · have hcompleted : size "completed".toList ≤ maxToolStatusBytes := by decide
        exact ⟨(h.facts tool (List.mem_of_getElem? htool)).1, hcompleted⟩

/-- Every item that is observed keeps a builder within its bounds. -/
theorem Bounded.observeResponseItem (h : Bounded turnId builder) (payload : Json) :
    Ends (fun _ => True) (Bounded turnId) (observeResponseItem payload builder) := by
  rw [Observer.observeResponseItem]
  refine ends_any.bind fun object _ => ?_
  split
  · exact h
  · split
    · exact h
    · split
      · exact h.observeMessage object
      · split
        · exact h.observeCall object
        · split
          · exact h.observeOutput object
          · exact h

/-- The items of a turn, observed one after the other. -/
def observeItems (items : List Json) (builder : TurnBuilder) : Except Stop TurnBuilder :=
  items.foldlM (fun builder item => observeResponseItem item builder) builder

theorem bounded_observeItems {items : List Json} (h : observeItems items (newTurn turnId) = .ok builder) :
    Bounded turnId builder := by
  have hrun : Ends (fun _ => True) (Bounded turnId) (observeItems items (newTurn turnId)) :=
    ends_foldlM (fun _ item hbuilder => hbuilder.observeResponseItem item) (bounded_new turnId)
  exact hrun.of_ok h

/-! ### The pack -/

/-- What is kept of an answer as it is redacted. -/
def answerCut (answer : Text) : Except Halt (List Text) :=
  if answer = [] then .ok [] else (compactText answer maxTextBytes).map fun cut => [cut]

theorem answerCut_ok (answer : Text) :
    ∃ kept, answerCut answer = .ok kept ∧ compactMessages kept = .ok kept ∧
      (kept.map size).sum ≤ maxTextBytes ∧ kept.length ≤ 1 := by
  rw [answerCut]
  split
  · exact ⟨[], rfl, rfl, Nat.zero_le _, Nat.zero_le _⟩
  · obtain ⟨cut, hcut, hsize⟩ := compactText_ok answer maxTextBytes
    refine ⟨[cut], by rw [hcut]; rfl, ?_, by simpa using hsize, le_rfl⟩
    have hbudget : min maxTextBytesPerRole maxTextBytes = maxTextBytes := rfl
    have hagain : compactText cut maxTextBytes = .ok cut := by rw [compactText, if_pos hsize]
    have hone : compactLoop maxTextBytesPerRole [cut] = .ok [cut] := by
      rw [compactLoop, if_neg (by decide), hbudget, hagain, ok_bind, compactLoop]
      rfl
    have hshort : [cut].length ≤ maxMessagesPerRole := Nat.le_of_lt_succ (by show 1 < 9; decide)
    rw [compactMessages, List.reverse_singleton, List.take_of_length_le hshort, hone]
    rfl

/-- The end of a turn, from what is kept of it. -/
theorem packTurn_eq (turnId : Text) (uuidOk : Text → Bool) {last answer : Text} {user kept : List Text}
    (huuid : uuidOk builder.turnId = true) (hanswer : redactSensitiveText last = .ok answer)
    (hkept : answerCut answer = .ok kept) (huser : compactMessages builder.user = .ok user) :
    ∃ json, size json = packBytes builder.turnId user kept builder.tools ∧
      packTurn uuidOk turnId last builder =
        if packBytes builder.turnId user kept builder.tools ≤ maxSerializedTurnPackBytes
        then .ok (turnId, json) else .error (.failed .turnPackTooLarge) := by
  refine ⟨_, size_toJson builder.turnId user kept builder.tools, ?_⟩
  obtain ⟨kept', hkept', hagain, -⟩ := answerCut_ok answer
  rw [hkept] at hkept'
  obtain rfl := Except.ok.inj hkept'
  have hpush : pushMessage "assistant".toList last { builder with assistant := [] } =
      .ok { builder with assistant := kept } := by
    rw [pushMessage, halting, hanswer]
    rw [answerCut] at hkept
    split at hkept
    next hempty =>
      obtain rfl := Except.ok.inj hkept
      rw [hempty]
      rfl
    next hsome =>
      obtain ⟨cut, hcut, -⟩ := compactText_ok answer maxTextBytes
      rw [hcut] at hkept
      obtain rfl := Except.ok.inj hkept
      rw [show (Except.ok answer : Except Halt Text).mapError Stop.halted = .ok answer from rfl, ok_bind,
        if_neg hsome, hcut]
      rfl
  rw [packTurn, hpush, ok_bind, TurnBuilder.finish, ensure_of huuid, ok_bind, huser, hagain,
    show halting (Except.ok user : Except Halt (List Text)) = .ok user from rfl,
    show halting (Except.ok kept : Except Halt (List Text)) = .ok kept from rfl, ok_bind, ok_bind, ok_bind]
  dsimp only
  rw [size_toJson]
  split
  next hfits => rw [ensure_of hfits, ok_bind]
  next hover =>
    rw [ensure, if_neg hover]
    rfl

/-- A record that completes the turn `turnId` with the answer `last`. -/
structure TaskComplete (value : Json) (turnId last : Text) : Prop where
  record : ∃ object payload, value = .object object ∧ getStr object "type" = some "event_msg".toList ∧
    get object "payload" = some (.object payload) ∧ getStr payload "type" = some "task_complete".toList ∧
    getStr payload "turn_id" = some turnId ∧ getStr payload "last_agent_message" = some last

/-- What is kept of a turn takes more bytes as JSON than a pack may have. -/
def TooLarge (builder : TurnBuilder) (last : Text) : Prop :=
  ∃ answer kept user, redactSensitiveText last = .ok answer ∧ answerCut answer = .ok kept ∧
    compactMessages builder.user = .ok user ∧
    maxSerializedTurnPackBytes < packBytes builder.turnId user kept builder.tools

theorem applyRolloutValue_complete (uuidOk : Text → Bool) {value : Json} {last : Text}
    (hvalue : TaskComplete value turnId last) (hlast : last ≠ []) (huuid : uuidOk turnId = true)
    (hturn : builder.turnId = turnId) :
    applyRolloutValue uuidOk value (some builder) =
      (packTurn uuidOk turnId last builder).map fun packed => (none, some packed) := by
  obtain ⟨object, payload, rfl, htype, hpayload, hevent, hid, hanswer⟩ := hvalue.record
  have hkinds : "event_msg".toList ≠ "response_item".toList ∧
      "task_complete".toList ≠ "task_started".toList := by decide
  have hrequired : requiredTurnId uuidOk payload = .ok turnId := by
    rw [requiredTurnId, hid, invalid, orThrow, ok_bind, ensure_of huuid, ok_bind]
  have hsome : (some last).filter (fun last => decide (last ≠ [])) = some last := by
    simp [Option.filter, hlast]
  have hcomplete : completeTask uuidOk payload (some builder) =
      (packTurn uuidOk turnId last builder).map some := by
    rw [completeTask, hrequired, ok_bind, invalid, orThrow, ok_bind, ensure_of hturn, ok_bind, hanswer, hsome]
    dsimp only
    cases packTurn uuidOk turnId last builder <;> rfl
  rw [applyRolloutValue, Json.asObject, invalid, orThrow, ok_bind, htype]
  dsimp only
  rw [if_pos rfl, hpayload, invalid, Option.bind_some, Json.asObject, orThrow, ok_bind, hevent]
  dsimp only
  rw [if_neg hkinds.2, if_pos rfl, hcomplete]
  cases packTurn uuidOk turnId last builder <;> rfl

/-- A turn is refused exactly where what is kept of it is too large; a pack that is made is not. -/
theorem turnPack_tooLarge_iff (uuidOk : Text → Bool) {items : List Json} {value : Json} {last : Text}
    (hitems : observeItems items (newTurn turnId) = .ok builder) (hvalue : TaskComplete value turnId last)
    (hlast : last ≠ []) (huuid : uuidOk turnId = true) :
    (applyRolloutValue uuidOk value (some builder) ≠ .error (.failed .turnPackTooLarge) ↔
      ¬ TooLarge builder last) ∧
    ∀ active turn json, applyRolloutValue uuidOk value (some builder) = .ok (active, some (turn, json)) →
      size json ≤ maxSerializedTurnPackBytes := by
  have hturn := (bounded_observeItems hitems).turnId
  obtain ⟨user, huser, -⟩ := compactMessages_ok builder.user
  rw [applyRolloutValue_complete uuidOk hvalue hlast huuid hturn]
  cases hanswer : redactSensitiveText last with
  | error halt =>
    have hpush : packTurn uuidOk turnId last builder = .error (.halted halt) := by
      rw [packTurn, pushMessage, halting, hanswer]
      rfl
    rw [hpush]
    refine ⟨⟨?_, fun _ => by simp [Except.map]⟩, fun _ _ _ h => by simp [Except.map] at h⟩
    rintro - ⟨answer, _, _, hok, -⟩
    rw [hanswer] at hok
    exact absurd hok (by simp)
  | ok answer =>
    obtain ⟨kept, hkept, -⟩ := answerCut_ok answer
    obtain ⟨json, hsize, hpack⟩ := packTurn_eq turnId uuidOk (hturn ▸ huuid) hanswer hkept huser
    have hlarge : TooLarge builder last ↔
        maxSerializedTurnPackBytes < packBytes builder.turnId user kept builder.tools := by
      constructor
      · rintro ⟨answer', kept', user', hanswer', hkept', huser', hover⟩
        rw [hanswer] at hanswer'
        obtain rfl := Except.ok.inj hanswer'
        rw [hkept] at hkept'
        rw [huser] at huser'
        obtain rfl := Except.ok.inj hkept'
        obtain rfl := Except.ok.inj huser'
        exact hover
      · exact fun hover => ⟨answer, kept, user, hanswer, hkept, huser, hover⟩
    rw [hpack, hlarge]
    split
    next hfits =>
      refine ⟨⟨fun _ => Nat.not_lt.2 hfits, fun _ => by simp [Except.map]⟩, ?_⟩
      rintro active turn json' hjson
      have hinner := (Prod.mk.inj (Except.ok.inj hjson)).2
      obtain ⟨-, rfl⟩ := Prod.mk.inj (Option.some.inj hinner)
      rw [hsize]
      exact hfits
    next hover =>
      exact ⟨⟨fun h => absurd rfl h, fun h => absurd (Nat.not_le.1 hover) h⟩,
        fun _ _ _ h => by simp [Except.map] at h⟩

/-- The record that begins a turn. -/
def taskStarted (turnId : Text) : Json :=
  .object [("type".toList, .string "event_msg".toList),
    ("payload".toList, .object [("type".toList, .string "task_started".toList), ("turn_id".toList, .string turnId)])]

/-- The record that completes a turn. -/
def taskComplete (turnId last : Text) : Json :=
  .object [("type".toList, .string "event_msg".toList),
    ("payload".toList, .object [("type".toList, .string "task_complete".toList), ("turn_id".toList, .string turnId),
      ("last_agent_message".toList, .string last)])]

theorem taskComplete_completes (turnId last : Text) : TaskComplete (taskComplete turnId last) turnId last :=
  ⟨_, _, rfl, rfl, rfl, rfl, rfl, rfl⟩

def sampleTurn : Text := "019fa972-5cfa-75e1-9008-0b17ade9a348".toList

/-- A question in quotes, the call of a tool, and its output. -/
def sampleItems : List Json :=
  [.object [("type".toList, .string "message".toList), ("role".toList, .string "user".toList),
      ("content".toList, .array [.object [("type".toList, .string "input_text".toList),
        ("text".toList, .string "say \"hi\"".toList)]])],
    .object [("type".toList, .string "function_call".toList), ("name".toList, .string "shell".toList),
      ("call_id".toList, .string "call-1".toList)],
    .object [("type".toList, .string "function_call_output".toList), ("call_id".toList, .string "call-1".toList)]]

def sampleBuilder : TurnBuilder where
  turnId := sampleTurn
  user := ["say \"hi\"".toList]
  assistant := []
  tools := [⟨"shell".toList, "completed".toList⟩]
  toolCalls := [("call-1".toList, 0)]

def sampleAnswer : Text := "I said \"hi\".\n".toList

theorem turnPack_tooLarge_short :
    applyRolloutValue hyphenated (taskStarted sampleTurn) none = .ok (some (newTurn sampleTurn), none) ∧
    observeItems sampleItems (newTurn sampleTurn) = .ok sampleBuilder ∧
    (applyRolloutValue hyphenated (taskComplete sampleTurn sampleAnswer) (some sampleBuilder) ≠
        .error (.failed .turnPackTooLarge) ↔
      ¬ TooLarge sampleBuilder sampleAnswer) := by
  have hitems : observeItems sampleItems (newTurn sampleTurn) = .ok sampleBuilder := by decide +kernel
  refine ⟨by decide +kernel, hitems, ?_⟩
  have hvalue := taskComplete_completes sampleTurn sampleAnswer
  exact (turnPack_tooLarge_iff hyphenated hitems hvalue (by decide) (by decide +kernel)).1

/-! ### Where it holds -/

theorem sum_le_mul {α : Type} {l : List α} {f : α → Nat} {n : Nat} (h : ∀ a ∈ l, f a ≤ n) :
    (l.map f).sum ≤ l.length * n := by
  induction l with
  | nil => exact Nat.zero_le _
  | cons a l ih =>
    have hhead := h a List.mem_cons_self
    have hrest := ih fun b hb => h b (List.mem_cons_of_mem a hb)
    rw [List.map_cons, List.sum_cons, List.length_cons, Nat.succ_mul]
    omega

/-- Texts without an escape are as long as JSON as they are, and quoted. -/
theorem arrayBytes_plain {texts : List Text} (h : ∀ text ∈ texts, escaped text = size text) :
    arrayBytes (texts.map fun text => 2 + escaped text) ≤ 2 + 3 * texts.length + (texts.map size).sum := by
  have hsum : (texts.map fun text => 2 + escaped text).sum = 2 * texts.length + (texts.map size).sum := by
    induction texts with
    | nil => rfl
    | cons text texts ih =>
      have hrest := ih fun t ht => h t (List.mem_cons_of_mem text ht)
      rw [List.map_cons, List.sum_cons, List.map_cons, List.sum_cons, hrest, h text List.mem_cons_self,
        List.length_cons]
      omega
  rw [arrayBytes, hsum, List.length_map]
  omega

/-- Without escapes the budgets of the texts are within the bound on the pack. -/
theorem not_tooLarge_plain (h : Bounded turnId builder) {last : Text} (hid : escaped turnId ≤ 64)
    (huser : ∀ user, compactMessages builder.user = .ok user → ∀ text ∈ user, escaped text = size text)
    (hlast : ∀ answer kept, redactSensitiveText last = .ok answer → answerCut answer = .ok kept →
      ∀ text ∈ kept, escaped text = size text)
    (htools : ∀ tool ∈ builder.tools, escaped tool.name = size tool.name ∧
      escaped tool.status = size tool.status) : ¬ TooLarge builder last := by
  rintro ⟨answer, kept, user, hanswer, hkept, huserOk, hover⟩
  obtain ⟨user', huser', huserSum, huserLength⟩ := compactMessages_ok builder.user
  rw [huserOk] at huser'
  obtain rfl := Except.ok.inj huser'
  obtain ⟨kept', hkept', -, hkeptSum, hkeptLength⟩ := answerCut_ok answer
  rw [hkept] at hkept'
  obtain rfl := Except.ok.inj hkept'
  have huserBytes := arrayBytes_plain (huser user huserOk)
  have hkeptBytes := arrayBytes_plain (hlast answer kept hanswer hkept)
  have htoolSum : (builder.tools.map fun tool => 23 + escaped tool.name + escaped tool.status).sum ≤
      builder.tools.length * 215 := by
    refine sum_le_mul fun tool htool => ?_
    have hplain := htools tool htool
    have hfact := h.facts tool htool
    simp only [maxToolNameBytes, maxToolStatusBytes] at hfact
    omega
  have htoolBytes : arrayBytes (builder.tools.map fun tool => 23 + escaped tool.name + escaped tool.status) ≤
      2 + builder.tools.length * 215 + builder.tools.length := by
    rw [arrayBytes, List.length_map]
    omega
  have htoolCount := h.tools
  have hturn := h.turnId
  simp only [maxTools, maxTextBytesPerRole, maxMessagesPerRole, maxTextBytes, maxSerializedTurnPackBytes] at *
  rw [packBytes, hturn] at hover
  omega

/-! ### Where it fails -/

/-- An answer of raw control characters only. -/
def controls : Text := List.replicate maxTextBytes '\x01'

theorem escaped_replicate (n : Nat) : escaped (List.replicate n '\x01') = n * 6 := by
  have hsix : size (escapeChar '\x01') = 6 := by decide
  induction n with
  | zero => rfl
  | succ n ih => rw [List.replicate_succ, escaped_cons, ih, hsix, Nat.succ_mul, Nat.add_comm]

/-- The pack of an answer alone. -/
theorem packBytes_answer (turnId answer : Text) :
    packBytes turnId [] [answer] [] = 58 + escaped turnId + escaped answer := by
  simp only [packBytes, arrayBytes, List.map_cons, List.map_nil, List.sum_cons, List.sum_nil, List.length_cons,
    List.length_nil]
  omega

theorem answerCut_controls : redactSensitiveText controls = .ok controls ∧ answerCut controls = .ok [controls] := by
  have hne : controls ≠ [] := by
    rw [controls, ← List.length_pos_iff, List.length_replicate]
    decide
  have hinert : ∀ c ∈ controls, Inert c := by
    rintro c hc
    obtain rfl := List.eq_of_mem_replicate hc
    exact ⟨by decide, by decide, by decide, by decide, by decide⟩
  have hone : '\x01'.utf8Size = 1 := by decide
  have hsize : size controls = maxTextBytes := by
    rw [controls, size, List.map_replicate, List.sum_replicate, hone, smul_eq_mul, Nat.mul_one]
  refine ⟨redactSensitiveText_inert hinert hne, ?_⟩
  rw [answerCut, if_neg hne, compactText, if_pos hsize.le]
  rfl

/-- A raw control character takes six bytes in JSON: one answer of them fills more than a pack. -/
theorem turnPack_refused :
    applyRolloutValue hyphenated (taskStarted sampleTurn) none = .ok (some (newTurn sampleTurn), none) ∧
    observeItems [] (newTurn sampleTurn) = .ok (newTurn sampleTurn) ∧
    TaskComplete (taskComplete sampleTurn controls) sampleTurn controls ∧
    packBytes sampleTurn [] [controls] [] = 73822 ∧
    applyRolloutValue hyphenated (taskComplete sampleTurn controls) (some (newTurn sampleTurn)) =
      .error (.failed .turnPackTooLarge) := by
  have hne : controls ≠ [] := by
    rw [controls, ← List.length_pos_iff, List.length_replicate]
    decide
  have huuid : hyphenated sampleTurn = true := by decide +kernel
  obtain ⟨hanswer, hkept⟩ := answerCut_controls
  have huser : compactMessages (newTurn sampleTurn).user = .ok [] := rfl
  obtain ⟨json, -, hpack⟩ := packTurn_eq sampleTurn hyphenated huuid hanswer hkept huser
  have hid : escaped sampleTurn = 36 := by decide +kernel
  have hcontrols : escaped controls = maxTextBytes * 6 := escaped_replicate maxTextBytes
  have hbytes : packBytes sampleTurn [] [controls] [] = 73822 := by
    rw [packBytes_answer, hid, hcontrols, maxTextBytes]
  have hlarge : ¬ packBytes (newTurn sampleTurn).turnId [] [controls] (newTurn sampleTurn).tools ≤
      maxSerializedTurnPackBytes := by
    rw [show packBytes (newTurn sampleTurn).turnId [] [controls] (newTurn sampleTurn).tools = 73822 from hbytes]
    decide
  rw [if_neg hlarge] at hpack
  have hvalue := taskComplete_completes sampleTurn controls
  refine ⟨by decide +kernel, rfl, hvalue, hbytes, ?_⟩
  rw [applyRolloutValue_complete hyphenated hvalue hne huuid rfl, hpack]
  rfl

end CodexKeyboard.Observer
