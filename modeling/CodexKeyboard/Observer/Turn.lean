import CodexKeyboard.Observer.Capture
import CodexKeyboard.Schemes.JsonWriter

/-! What the rollout observer keeps of a turn: `TurnBuilder`, the texts cut to their budgets, and
    `apply_rollout_value`, which packs a turn that is complete. -/

namespace CodexKeyboard.Observer

open Schemes Text Transact Redaction

def maxTextBytesPerRole : Nat := 22 * 1024
def maxRawMessagesPerRole : Nat := 32
def maxMessagesPerRole : Nat := 8
def maxTools : Nat := 64
def maxToolNameBytes : Nat := 128
def maxToolStatusBytes : Nat := 64
def maxSerializedTurnPackBytes : Nat := 64 * 1024

/-! ### JSON -/

/-- `serde_json::Value`; of two fields with one name an object has the last only. -/
inductive Json where
  | null
  | bool (b : Bool)
  | number (digits : Text)
  | string (s : Text)
  | array (items : List Json)
  | object (fields : List (Text × Json))

namespace Json

def asStr : Json → Option Text
  | string s => some s
  | _ => none

def asArray : Json → Option (List Json)
  | array items => some items
  | _ => none

def asObject : Json → Option (List (Text × Json))
  | object fields => some fields
  | _ => none

end Json

def get (object : List (Text × Json)) (key : String) : Option Json :=
  (object.find? fun field => field.1 = key.toList).map Prod.snd

def getStr (object : List (Text × Json)) (key : String) : Option Text := (get object key).bind Json.asStr

/-- A call of the redaction or of a cut. -/
def halting {α : Type} (x : Except Halt α) : Except Stop α := x.mapError .halted

def invalid {α : Type} (o : Option α) : Except Stop α := orThrow (.failed .invalidRollout) o

/-! ### Cuts -/

def isCharBoundary (text : Text) (index : Nat) : Bool := (splitBytes text index).isSome

/-- The loop of `utf8_floor`. -/
def floorFrom (text : Text) : (index : Nat) → Nat
  | 0 => 0
  | index + 1 => if isCharBoundary text (index + 1) then index + 1 else floorFrom text index

def utf8Floor (text : Text) (index : Nat) : Nat := floorFrom text (min index (size text))

/-- The loop of `utf8_ceil`, which has at most `left` bytes to go. -/
def ceilFrom (text : Text) : (left index : Nat) → Nat
  | 0, index => index
  | left + 1, index => if isCharBoundary text index then index else ceilFrom text left (index + 1)

def utf8Ceil (text : Text) (index : Nat) : Nat :=
  ceilFrom text (size text - min index (size text)) (min index (size text))

def compactText (text : Text) (maxBytes : Nat) : Except Halt Text :=
  if size text ≤ maxBytes then .ok text
  else if maxBytes ≤ size truncatedMarker then sliced (sliceTo truncatedMarker maxBytes)
  else do
    let available := maxBytes - size truncatedMarker
    let headBudget := available / 3
    let tailBudget := available - headBudget
    let headEnd := utf8Floor text headBudget
    let tailStart := utf8Ceil text (size text - tailBudget)
    let head ← sliced (sliceTo text headEnd)
    let tail ← sliced (sliceFrom text tailStart)
    .ok (head ++ truncatedMarker ++ tail)

/-- The loop of `compact_messages`, from the last message back. -/
def compactLoop : (remaining : Nat) → List Text → Except Halt (List Text)
  | _, [] => .ok []
  | remaining, message :: rest =>
    if remaining = 0 then .ok []
    else do
      let message ← compactText message (min remaining maxTextBytes)
      let rest ← compactLoop (remaining - size message) rest
      .ok (message :: rest)

def compactMessages (messages : List Text) : Except Halt (List Text) := do
  let compacted ← compactLoop maxTextBytesPerRole (messages.reverse.take maxMessagesPerRole)
  .ok compacted.reverse

/-! ### The turn -/

structure ToolFact where
  name : Text
  status : Text
  deriving DecidableEq, Repr

structure TurnBuilder where
  turnId : Text
  user : List Text
  assistant : List Text
  tools : List ToolFact
  toolCalls : List (Text × Nat)
  deriving DecidableEq, Repr

structure TurnPack where
  v : Nat
  turnId : Text
  user : List Text
  assistant : List Text
  tools : List ToolFact
  deriving DecidableEq, Repr

def newTurn (turnId : Text) : TurnBuilder := ⟨turnId, [], [], [], []⟩

def responseTurnId (payload : List (Text × Json)) : Option Text :=
  let nested := fun key => ((get payload key).bind Json.asObject).bind (getStr · "turn_id")
  getStr payload "turn_id" <|> nested "internal_chat_message_metadata_passthrough" <|> nested "metadata"

/-- A message behind those of its role, of which the oldest goes where there are too many. -/
def pushRaw (target : List Text) (text : Text) : List Text :=
  (if maxRawMessagesPerRole ≤ target.length then target.tail else target) ++ [text]

def TurnBuilder.push (builder : TurnBuilder) (role text : Text) : TurnBuilder :=
  if role = "user".toList then { builder with user := pushRaw builder.user text }
  else { builder with assistant := pushRaw builder.assistant text }

def pushMessage (role text : Text) (builder : TurnBuilder) : Except Stop TurnBuilder := do
  let text ← halting (redactSensitiveText text)
  if text = [] then .ok builder
  else do
    let compacted ← halting (compactText text maxTextBytes)
    .ok (builder.push role compacted)

/-- One part of the content of a message. -/
def observePart (role : Text) (builder : TurnBuilder) (part : Json) : Except Stop TurnBuilder := do
  let part ← invalid part.asObject
  match getStr part "type", getStr part "text" with
  | some kind, some text =>
    if kind = "input_text".toList ∨ kind = "output_text".toList then pushMessage role text builder
    else .ok builder
  | _, _ => .ok builder

def observeMessage (object : List (Text × Json)) (builder : TurnBuilder) : Except Stop TurnBuilder := do
  let role ← invalid (getStr object "role")
  if role ≠ "user".toList ∧ role ≠ "assistant".toList then .ok builder
  else do
    let content ← invalid ((get object "content").bind Json.asArray)
    content.foldlM (observePart role) builder

/-- Room for one more tool: where there is none the oldest goes, with the calls of it. -/
def TurnBuilder.makeRoom (builder : TurnBuilder) : TurnBuilder :=
  if maxTools ≤ builder.tools.length then
    { builder with
      tools := builder.tools.tail
      toolCalls := builder.toolCalls.filterMap fun call =>
        if call.2 = 0 then none else some (call.1, call.2 - 1) }
  else builder

def callIdOk (callId : Text) : Bool :=
  callId ≠ [] && decide (size callId ≤ maxToolNameBytes) &&
  !(asBytes callId).any fun byte => byte < 0x20 || byte == 0x7F

/-- `BTreeMap::insert`. -/
def insertCall (callId : Text) (index : Nat) (calls : List (Text × Nat)) : List (Text × Nat) :=
  (callId, index) :: calls.filter fun call => call.1 ≠ callId

def TurnBuilder.addTool (builder : TurnBuilder) (tool : ToolFact) (callId : Option Text) : TurnBuilder :=
  { builder with
    tools := builder.tools ++ [tool]
    toolCalls := match callId with
      | some callId =>
        if callIdOk callId then insertCall callId builder.tools.length builder.toolCalls
        else builder.toolCalls
      | none => builder.toolCalls }

def observeCall (object : List (Text × Json)) (builder : TurnBuilder) : Except Stop TurnBuilder := do
  let name ← invalid (getStr object "name")
  let status := (getStr object "status").getD "requested".toList
  if name = [] then .ok builder
  else do
    let name ← halting (redactSensitiveText name)
    let status ← halting (redactSensitiveText status)
    let name ← halting (compactText name maxToolNameBytes)
    let status ← halting (compactText status maxToolStatusBytes)
    .ok (builder.makeRoom.addTool ⟨name, status⟩ (getStr object "call_id"))

/-- The index of the call an output belongs to. -/
def TurnBuilder.callIndex (builder : TurnBuilder) (object : List (Text × Json)) : Option Nat :=
  (getStr object "call_id").bind fun callId =>
    (builder.toolCalls.find? fun call => call.1 = callId).map Prod.snd

def observeOutput (object : List (Text × Json)) (builder : TurnBuilder) : Except Stop TurnBuilder :=
  match builder.callIndex object with
  | none => .ok builder
  | some index => do
    let tool ← orThrow (.halted .panic) builder.tools[index]?
    .ok { builder with tools := builder.tools.set index { tool with status := "completed".toList } }

def observeResponseItem (payload : Json) (builder : TurnBuilder) : Except Stop TurnBuilder := do
  let object ← invalid payload.asObject
  if (responseTurnId object).any (· ≠ builder.turnId) then .ok builder
  else
    match getStr object "type" with
    | none => .ok builder
    | some kind =>
      if kind = "message".toList then observeMessage object builder
      else if kind = "function_call".toList ∨ kind = "custom_tool_call".toList then
        observeCall object builder
      else if kind = "function_call_output".toList ∨ kind = "custom_tool_call_output".toList then
        observeOutput object builder
      else .ok builder

/-! ### The pack -/

/-- `TurnBuilder::finish`; `uuidOk` is `Uuid::parse_str`. -/
def TurnBuilder.finish (uuidOk : Text → Bool) (builder : TurnBuilder) : Except Stop TurnPack := do
  ensure (uuidOk builder.turnId = true) (.failed .invalidRollout)
  let user ← halting (compactMessages builder.user)
  let assistant ← halting (compactMessages builder.assistant)
  .ok ⟨1, builder.turnId, user, assistant, builder.tools⟩

def jsonTool (tool : ToolFact) : Text :=
  "\x7b\"name\":".toList ++ jsonString tool.name ++ ",\"status\":".toList ++ jsonString tool.status ++
    ['\x7d']

/-- `serde_json::to_string` of a pack. -/
def TurnPack.toJson (pack : TurnPack) : Text :=
  "\x7b\"v\":".toList ++ (Nat.repr pack.v).toList ++ ",\"turn_id\":".toList ++ jsonString pack.turnId ++
    ",\"user\":".toList ++ jsonArray (pack.user.map jsonString) ++
    ",\"assistant\":".toList ++ jsonArray (pack.assistant.map jsonString) ++
    ",\"tools\":".toList ++ jsonArray (pack.tools.map jsonTool) ++ ['\x7d']

def requiredTurnId (uuidOk : Text → Bool) (payload : List (Text × Json)) : Except Stop Text := do
  let turnId ← invalid (getStr payload "turn_id")
  ensure (uuidOk turnId = true) (.failed .invalidRollout)
  .ok turnId

/-- The end of a turn whose last message is `last`. -/
def packTurn (uuidOk : Text → Bool) (turnId last : Text) (builder : TurnBuilder) :
    Except Stop (Text × Text) := do
  let builder ← pushMessage "assistant".toList last { builder with assistant := [] }
  let pack ← builder.finish uuidOk
  let serialized := pack.toJson
  ensure (size serialized ≤ maxSerializedTurnPackBytes) (.failed .turnPackTooLarge)
  .ok (turnId, serialized)

/-- `task_complete`: what is packed, if there is an answer. -/
def completeTask (uuidOk : Text → Bool) (payload : List (Text × Json)) (active : Option TurnBuilder) :
    Except Stop (Option (Text × Text)) := do
  let turnId ← requiredTurnId uuidOk payload
  let builder ← invalid active
  ensure (builder.turnId = turnId) (.failed .invalidRollout)
  match (getStr payload "last_agent_message").filter (· ≠ []) with
  | none => .ok none
  | some last => do
    let packed ← packTurn uuidOk turnId last builder
    .ok (some packed)

/-- `apply_rollout_value`: the turn that is active then, and what is packed. -/
def applyRolloutValue (uuidOk : Text → Bool) (value : Json) (active : Option TurnBuilder) :
    Except Stop (Option TurnBuilder × Option (Text × Text)) := do
  let object ← invalid value.asObject
  match getStr object "type" with
  | none => .ok (active, none)
  | some kind =>
    if kind = "event_msg".toList then do
      let payload ← invalid ((get object "payload").bind Json.asObject)
      match getStr payload "type" with
      | none => .ok (active, none)
      | some event =>
        if event = "task_started".toList then do
          let turnId ← requiredTurnId uuidOk payload
          .ok (some (newTurn turnId), none)
        else if event = "task_complete".toList then do
          let packed ← completeTask uuidOk payload active
          .ok (none, packed)
        else .ok (active, none)
    else if kind = "response_item".toList then
      match active with
      | none => .ok (none, none)
      | some builder => do
        let payload ← invalid (get object "payload")
        let builder ← observeResponseItem payload builder
        .ok (some builder, none)
    else .ok (active, none)

end CodexKeyboard.Observer
