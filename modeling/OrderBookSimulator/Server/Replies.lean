import OrderBookSimulator.Library.JsonQuoting
import OrderBookSimulator.Server.Records

/-!
# The values behind the answers

What the handlers answer, as JSON values with or without the `requestId` that
`with_request_id` puts in front.
-/

namespace OrderBookSimulator

open Library Json

/-! ## What an answer tells -/

structure TradeLine where
  price : Int
  qty : Int
  maker : Int
  taker : Int
  deriving DecidableEq

structure ResultDocument where
  id : Int
  status : OrderStatus
  error : Option Text
  originalQty : Int
  filledQty : Int
  remainingQty : Int
  trades : List TradeLine
  deriving DecidableEq

inductive AnswerDocument where
  | result (document : ResultDocument)
  | ok (ok : Bool)
  | error (message : Text)
  deriving DecidableEq

def Trade.line (trade : Trade) : TradeLine :=
  { price := trade.price, qty := trade.qty, maker := trade.makerId, taker := trade.takerId }

def OrderResult.document (result : OrderResult) : ResultDocument :=
  { id := result.id
    status := result.status
    error := if result.reason = "" then none else some result.reason.toList
    originalQty := result.originalQty
    filledQty := result.filledQty
    remainingQty := result.remainingQty
    trades := result.trades.map (·.line) }

def Answer.document : Answer → AnswerDocument
  | .result answered => .result answered.document
  | .ok done => .ok done
  | .error message => .error message.toList

/-! ## Trades -/

def TradeLine.fields (line : TradeLine) : List (String × Value) :=
  [("price", .int line.price), ("qty", .int line.qty), ("maker", .int line.maker),
    ("taker", .int line.taker)]

theorem TradeLine.names (line : TradeLine) : PlainNames (line.fields.map (·.1)) :=
  (by decide : PlainNames ["price", "qty", "maker", "taker"])

def TradeLine.value (line : TradeLine) : Value := .record line.fields

def TradeLine.read (value : Value) : Option TradeLine := do
  let price ← value.intAt? "price"
  let qty ← value.intAt? "qty"
  let maker ← value.intAt? "maker"
  let taker ← value.intAt? "taker"
  pure { price, qty, maker, taker }

theorem TradeLine.read_value (line : TradeLine) : TradeLine.read line.value = some line := by
  simp only [TradeLine.read, TradeLine.value, Value.intAt?, member?_record line.names]
  simp [TradeLine.fields]

theorem Trade.resultJson_eq (trade : Trade) : trade.resultJson = trade.line.value.written := by
  unfold Trade.resultJson TradeLine.value
  rw [written_record (TradeLine.names _), numbers_eq]
  simp [TradeLine.fields, Trade.line, commas_cons, fieldText]

/-! ## Answers -/

def statusFrom? (text : Text) : Option OrderStatus :=
  [.new, .partiallyFilled, .filled, .canceled, .rejected].find? fun status =>
    (statusToString status).toList = text

theorem statusFrom?_statusToString (status : OrderStatus) :
    statusFrom? (statusToString status).toList = some status := by
  cases status <;> decide

theorem plain_statusToString (status : OrderStatus) : PlainWord (statusToString status) := by
  cases status <;> decide

/-- The reason of a refusal; there is no such member where there is no reason. -/
def OrderResult.errorField (result : OrderResult) : List (String × Value) :=
  if result.reason = "" then [] else [("error", .word result.reason)]

namespace Answer

/-- What is put in as text needs no escapes. -/
def Plain : Answer → Prop
  | .result answered => PlainWord answered.reason
  | .ok _ => True
  | .error message => PlainWord message

def fields : Answer → List (String × Value)
  | .result answered =>
      [("id", .int answered.id), ("status", .word (statusToString answered.status))] ++
        answered.errorField ++
        [("originalQty", .int answered.originalQty), ("filledQty", .int answered.filledQty),
          ("remainingQty", .int answered.remainingQty),
          ("trades", .array (answered.trades.map (·.line.value)))]
  | .ok done => [("ok", .bool done)]
  | .error message => [("error", .word message)]

def fieldNames : List String :=
  ["id", "status", "error", "originalQty", "filledQty", "remainingQty", "trades", "ok"]

theorem name_mem (answer : Answer) {field : String × Value} (member : field ∈ answer.fields) :
    field.1 ∈ fieldNames := by
  cases answer with
  | result answered =>
      simp only [fields, OrderResult.errorField] at member
      by_cases noReason : answered.reason = ""
      · simp only [if_pos noReason, List.append_nil, List.cons_append, List.nil_append,
          List.mem_cons, List.not_mem_nil, or_false] at member
        rcases member with rfl | rfl | rfl | rfl | rfl | rfl <;> simp [fieldNames]
      · simp only [if_neg noReason, List.cons_append, List.nil_append, List.mem_cons,
          List.not_mem_nil, or_false] at member
        rcases member with rfl | rfl | rfl | rfl | rfl | rfl | rfl <;> simp [fieldNames]
  | ok done => rw [List.mem_singleton.mp member]; simp [fieldNames]
  | error message => rw [List.mem_singleton.mp member]; simp [fieldNames]

theorem fields_ne_nil (answer : Answer) : answer.fields ≠ [] := by
  cases answer <;> simp [fields]

theorem names (answer : Answer) : PlainNames (answer.fields.map (·.1)) := by
  intro name member
  obtain ⟨field, inFields, rfl⟩ := List.mem_map.mp member
  exact (by decide : PlainNames fieldNames) _ (answer.name_mem inFields)

theorem json_eq {answer : Answer} (plain : answer.Plain) :
    answer.json = (Value.record answer.fields).written := by
  rw [written_record answer.names]
  cases answer with
  | result answered =>
      unfold json jsonOrderResult
      rw [numbers_eq, funext Trade.resultJson_eq]
      by_cases noReason : answered.reason = ""
      · simp [fields, OrderResult.errorField, noReason, commas_cons, fieldText, written_array,
          commaSeparated_eq, written_word (plain_statusToString _), Function.comp_def]
      · simp [fields, OrderResult.errorField, noReason, commas_cons, fieldText, written_array,
          commaSeparated_eq, written_word (plain_statusToString _), written_word plain,
          Function.comp_def]
  | ok done =>
      cases done <;>
        simp [json, jsonOk, fields, commas, fieldText, Value.written, Value.tokens, compact,
          Token.text]
  | error message =>
      -- there is nothing to escape in a plain word
      have unescaped : message.toList.flatMap
          (fun c => if c = '"' ∨ c = '\\' then ['\\', c] else [c]) = message.toList := by
        have each : ∀ c ∈ message.toList,
            (if c = '"' ∨ c = '\\' then ['\\', c] else [c]) = [c] := by
          intro c member
          have ok := PlainWord.plain plain c member
          refine if_neg ?_
          rintro (rfl | rfl) <;> cases ok
        rw [List.flatMap_congr each, List.flatMap_singleton']
      have json : (Answer.error message).json = "\x7b\"error\":\"".toList ++ message.toList ++
          "\"\x7d".toList :=
        congrArg (fun inside => "\x7b\"error\":\"".toList ++ inside ++ "\"\x7d".toList) unescaped
      rw [json]
      simp [fields, commas, fieldText, written_word plain]

end Answer

/-! ## Reading an answer -/

def ResultDocument.read (value : Value) : Option ResultDocument := do
  let id ← value.intAt? "id"
  let statusName ← value.textAt? "status"
  let status ← statusFrom? statusName
  let originalQty ← value.intAt? "originalQty"
  let filledQty ← value.intAt? "filledQty"
  let remainingQty ← value.intAt? "remainingQty"
  let items ← value.itemsAt? "trades"
  let trades ← items.mapM TradeLine.read
  pure { id, status, error := value.textAt? "error", originalQty, filledQty, remainingQty, trades }

/-- Whatever kind of answer the value is. -/
def AnswerDocument.read (value : Value) : Option AnswerDocument :=
  match value.member? "ok", value.member? "id" with
  | some (.bool done), _ => some (.ok done)
  | _, some _ => (ResultDocument.read value).map .result
  | _, none => (value.textAt? "error").map .error

/-- The `requestId` of an answer, where there is one. -/
def requestIdField (pieces : List Piece) : List (String × Value) :=
  if pieces = [] then [] else [("requestId", .string pieces)]

namespace Answer

def value (pieces : List Piece) (answer : Answer) : Value :=
  .record (requestIdField pieces ++ answer.fields)

variable {pieces : List Piece} {answer : Answer}

theorem value_names (pieces : List Piece) (answer : Answer) :
    PlainNames ((requestIdField pieces ++ answer.fields).map (·.1)) := by
  intro name member
  rw [List.map_append] at member
  rcases List.mem_append.mp member with inFront | inFields
  · unfold requestIdField at inFront
    split at inFront
    · cases inFront
    · rw [List.mem_singleton.mp inFront]
      exact (by decide : PlainWord "requestId")
  · exact answer.names name inFields

theorem member?_value (pieces : List Piece) (answer : Answer) {name : String}
    (other : name ≠ "requestId") :
    (answer.value pieces).member? name = (answer.fields.find? (·.1 = name)).map (·.2) := by
  rw [value, member?_record (value_names pieces answer), List.find?_append]
  have notInFront : (requestIdField pieces).find? (·.1 = name) = none := by
    unfold requestIdField
    split
    · rfl
    · simp [Ne.symm other]
  rw [notInFront, Option.none_or]

/-- The answer is read back, with or without a `requestId`. -/
theorem read_value (pieces : List Piece) {answer : Answer} (plain : answer.Plain) :
    AnswerDocument.read (answer.value pieces) = some answer.document := by
  cases answer with
  | result answered =>
      have trades : answered.trades.mapM (TradeLine.read ∘ fun trade => trade.line.value) =
          some (answered.trades.map (·.line)) := by
        have readBack := mapM_read TradeLine.read_value (answered.trades.map (·.line))
        rwa [List.map_map, List.mapM_map] at readBack
      by_cases noReason : answered.reason = ""
      · simp [AnswerDocument.read, ResultDocument.read, Value.intAt?, Value.textAt?,
          Value.itemsAt?, member?_value, fields, OrderResult.errorField, noReason, document,
          OrderResult.document, Value.text?_word (plain_statusToString _),
          statusFrom?_statusToString, trades]
      · simp [AnswerDocument.read, ResultDocument.read, Value.intAt?, Value.textAt?,
          Value.itemsAt?, member?_value, fields, OrderResult.errorField, noReason, document,
          OrderResult.document, Value.text?_word (plain_statusToString _),
          statusFrom?_statusToString, trades, Value.text?_word plain]
  | ok done => simp [AnswerDocument.read, member?_value, fields, document]
  | error message =>
      simp [AnswerDocument.read, Value.textAt?, member?_value, fields, document,
        Value.text?_word plain]

theorem requestId_value (pieces : List Piece) (answer : Answer) :
    (answer.value pieces).textAt? "requestId" =
      if pieces = [] then none else some (stringValue pieces) := by
  rw [Value.textAt?, value, member?_record (value_names pieces answer), requestIdField]
  by_cases empty : pieces = []
  · have absent : answer.fields.find? (·.1 = "requestId") = none := by
      rw [List.find?_eq_none]
      intro field member named
      have listed := answer.name_mem member
      rw [of_decide_eq_true named] at listed
      exact absurd listed (by decide)
    rw [if_pos empty, if_pos empty, List.nil_append, absent]
    rfl
  · rw [if_neg empty, if_neg empty]
    rfl

/-! ## Putting the `requestId` in front -/

/-- The inside of a string put in front makes a member of it. -/
theorem withRequestId_stringText (plain : answer.Plain) (pieces : List Piece) :
    withRequestId (stringText pieces) answer.json = (answer.value pieces).written := by
  rw [value, written_record (value_names pieces answer), json_eq plain,
    written_record answer.names, withRequestId]
  cases pieces with
  | nil => rfl
  | cons piece pieces =>
      have nonempty : stringText (piece :: pieces) ≠ [] := by
        cases piece <;> simp [stringText, Piece.text]
      obtain ⟨field, fields, isFields⟩ := List.exists_cons_of_ne_nil answer.fields_ne_nil
      rw [if_neg nonempty, isFields]
      simp [requestIdField, commas_cons, fieldText, Value.written, Value.tokens, compact,
        Token.text]

/-- An answer starts with a name that starts like no token. -/
theorem json_start (answer : Answer) :
    ∃ c more, answer.json = '\x7b' :: '"' :: c :: more ∧ isBlank c = false ∧
      ∀ token : Token, ¬ token.StartsWith c := by
  have noToken : ∀ c ∈ ['i', 'o', 'e'], ∀ token : Token, ¬ token.StartsWith c := by
    intro c listed token
    simp only [List.mem_cons, List.not_mem_nil, or_false] at listed
    rcases listed with rfl | rfl | rfl
    all_goals
      cases token with
      | bool b => cases b <;> simp [Token.StartsWith]
      | _ => simp [Token.StartsWith]
  cases answer with
  | result answered => exact ⟨'i', _, rfl, rfl, noToken 'i' (by decide)⟩
  | ok done => cases done <;> exact ⟨'o', _, rfl, rfl, noToken 'o' (by decide)⟩
  | error message => exact ⟨'e', _, rfl, rfl, noToken 'e' (by decide)⟩

/-- Where the reply is JSON, what was put in front is the inside of a string. -/
theorem inside_of_withRequestId {requestId : Text} (noQuote : '"' ∉ requestId) {value : Value}
    (writes : Writes value (withRequestId requestId answer.json)) :
    ∃ pieces, stringText pieces = requestId := by
  by_cases empty : requestId = []
  · exact ⟨[], empty.symm⟩
  · obtain ⟨c, more, json, notBlank, noToken⟩ := json_start answer
    rw [withRequestId, if_neg empty, json, Writes] at writes
    have spells : Spells value.tokens ('\x7b' :: '"' :: ("requestId".toList ++ '"' :: ':' :: '"' ::
        (requestId ++ '"' :: ',' :: '"' :: c :: more))) := by
      simpa using writes
    exact inside_of_spells (List.all_eq_true.mp rfl) noQuote notBlank noToken spells

end Answer

end OrderBookSimulator
