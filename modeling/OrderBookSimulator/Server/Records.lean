import OrderBookSimulator.Library.JsonRecord
import OrderBookSimulator.Server.Messages

/-!
# The values behind the texts

Each text the server puts together is the text of a JSON value, and a reader of
that value gets back what the text was made of.
-/

namespace OrderBookSimulator

open Library Json

theorem numbers_eq : number = fun n => (Value.int n).written :=
  funext fun n => (written_int n).symm

theorem commaSeparated_eq (texts : List Text) : commaSeparated texts = commas texts := rfl

/-! ## The book -/

def LevelLine.fields (line : LevelLine) : List (String × Value) :=
  [("price", .int line.price), ("qty", .int line.qty), ("orders", .array (line.orders.map .int))]

theorem LevelLine.names (line : LevelLine) : PlainNames (line.fields.map (·.1)) :=
  (by decide : PlainNames ["price", "qty", "orders"])

def LevelLine.value (line : LevelLine) : Value := .record line.fields

def LevelLine.read (value : Value) : Option LevelLine := do
  let price ← value.intAt? "price"
  let qty ← value.intAt? "qty"
  let items ← value.itemsAt? "orders"
  let orders ← items.mapM Value.int?
  pure { price, qty, orders }

theorem LevelLine.json_eq (line : LevelLine) : line.json = line.value.written := by
  unfold LevelLine.json LevelLine.value
  rw [written_record line.names, numbers_eq]
  simp [LevelLine.fields, commas_cons, fieldText, written_array, commaSeparated_eq,
    Function.comp_def]

theorem LevelLine.read_value (line : LevelLine) : LevelLine.read line.value = some line := by
  simp only [LevelLine.read, LevelLine.value, Value.intAt?, Value.itemsAt?,
    member?_record line.names]
  simp [LevelLine.fields, mapM_read Value.int?_int]

def BookDocument.payload (document : BookDocument) : List (String × Value) :=
  [("bids", .array (document.bids.map (·.value))), ("asks", .array (document.asks.map (·.value)))]

theorem BookDocument.payloadNames (document : BookDocument) :
    PlainNames (document.payload.map (·.1)) :=
  (by decide : PlainNames ["bids", "asks"])

/-- A message of the given type. -/
def typed (type : String) (payload : Value) : List (String × Value) :=
  [("type", .word type), ("payload", payload)]

theorem typed_names (type : String) (payload : Value) :
    PlainNames ((typed type payload).map (·.1)) :=
  (by decide : PlainNames ["type", "payload"])

theorem written_typed {type : String} (plain : PlainWord type) (payload : Value) :
    (Value.record (typed type payload)).written = "\x7b\"type\":\"".toList ++ type.toList ++
      "\",\"payload\":".toList ++ payload.written ++ "\x7d".toList := by
  rw [written_record (typed_names _ _)]
  simp [typed, commas_cons, fieldText, written_word plain]

theorem type_typed {type : String} (plain : PlainWord type) (payload : Value) :
    (Value.record (typed type payload)).textAt? "type" = some type.toList := by
  rw [Value.textAt?, member?_record (typed_names _ _)]
  simp [typed, Value.text?_word plain]

theorem payload_typed (type : String) (payload : Value) :
    (Value.record (typed type payload)).member? "payload" = some payload := by
  rw [member?_record (typed_names _ _)]
  simp [typed]

def BookDocument.value (document : BookDocument) : Value :=
  .record (typed "book_snapshot" (.record document.payload))

def BookDocument.read (value : Value) : Option BookDocument := do
  guard (value.textAt? "type" = some "book_snapshot".toList)
  let payload ← value.member? "payload"
  let bidItems ← payload.itemsAt? "bids"
  let askItems ← payload.itemsAt? "asks"
  let bids ← bidItems.mapM LevelLine.read
  let asks ← askItems.mapM LevelLine.read
  pure { bids, asks }

theorem BookDocument.json_eq (document : BookDocument) :
    document.json = document.value.written := by
  have plain : PlainWord "book_snapshot" := by decide
  unfold BookDocument.json BookDocument.value
  rw [written_typed plain, written_record document.payloadNames, funext LevelLine.json_eq]
  simp [BookDocument.payload, commas_cons, fieldText, written_array, commaSeparated_eq,
    Function.comp_def]

theorem BookDocument.read_value (document : BookDocument) :
    BookDocument.read document.value = some document := by
  have plain : PlainWord "book_snapshot" := by decide
  simp only [BookDocument.read, BookDocument.value, payload_typed, type_typed plain,
    Value.itemsAt?, Option.bind_eq_bind, Option.bind_some, member?_record document.payloadNames]
  simp [guard, BookDocument.payload, mapM_read LevelLine.read_value]

/-! ## The orders -/

def sideWord : Side → String
  | .buy => "bid"
  | .sell => "ask"

def sideOf? (text : Text) : Option Side :=
  if text = "bid".toList then some .buy else if text = "ask".toList then some .sell else none

theorem sideOf?_sideWord (side : Side) : sideOf? (sideWord side).toList = some side := by
  cases side <;> decide

theorem plain_sideWord (side : Side) : PlainWord (sideWord side) := by
  cases side <;> decide

def OrderLine.fields (line : OrderLine) : List (String × Value) :=
  [("id", .int line.id), ("user_id", .int line.userId), ("side", .word (sideWord line.side)),
    ("price", .int line.price), ("qty", .int line.qty)]

theorem OrderLine.names (line : OrderLine) : PlainNames (line.fields.map (·.1)) :=
  (by decide : PlainNames ["id", "user_id", "side", "price", "qty"])

def OrderLine.value (line : OrderLine) : Value := .record line.fields

def OrderLine.read (value : Value) : Option OrderLine := do
  let id ← value.intAt? "id"
  let userId ← value.intAt? "user_id"
  let sideName ← value.textAt? "side"
  let side ← sideOf? sideName
  let price ← value.intAt? "price"
  let qty ← value.intAt? "qty"
  pure { id, userId, side, price, qty }

theorem OrderLine.json_eq (line : OrderLine) : line.json = line.value.written := by
  obtain ⟨id, userId, side, price, qty⟩ := line
  unfold OrderLine.json OrderLine.value
  rw [written_record (OrderLine.names _), numbers_eq]
  simp only [OrderLine.fields, List.map_cons, List.map_nil, fieldText,
    written_word (plain_sideWord side)]
  cases side <;> simp [commas_cons, sideWord]

theorem OrderLine.read_value (line : OrderLine) : OrderLine.read line.value = some line := by
  simp only [OrderLine.read, OrderLine.value, Value.intAt?, Value.textAt?,
    member?_record line.names]
  simp [OrderLine.fields, Value.text?_word (plain_sideWord _), sideOf?_sideWord]

def ordersValue (lines : List OrderLine) : Value :=
  .record (typed "orders_update" (.array (lines.map (·.value))))

def readOrders (value : Value) : Option (List OrderLine) := do
  guard (value.textAt? "type" = some "orders_update".toList)
  let items ← value.itemsAt? "payload"
  items.mapM OrderLine.read

theorem ordersJson_eq (lines : List OrderLine) : ordersJson lines = (ordersValue lines).written := by
  have plain : PlainWord "orders_update" := by decide
  unfold ordersJson ordersValue
  rw [written_typed plain, funext OrderLine.json_eq]
  simp [written_array, commaSeparated_eq, Function.comp_def]

theorem readOrders_ordersValue (lines : List OrderLine) :
    readOrders (ordersValue lines) = some lines := by
  have plain : PlainWord "orders_update" := by decide
  simp only [readOrders, ordersValue, type_typed plain, Value.itemsAt?, payload_typed]
  simp [guard, mapM_read OrderLine.read_value]

/-! ## What the texts decode to -/

theorem decodes_bookJson (document : BookDocument) :
    Decodes BookDocument.read document.json document :=
  decodes_written document.json_eq document.read_value

theorem decodes_ordersJson (lines : List OrderLine) : Decodes readOrders (ordersJson lines) lines :=
  decodes_written (ordersJson_eq lines) (readOrders_ordersValue lines)

end OrderBookSimulator
