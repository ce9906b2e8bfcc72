import OrderBookSimulator.Library.LineWindow
import OrderBookSimulator.Server.Records
import OrderBookSimulator.Server.Serializers

/-!
# Journal files

`logging/journal_trade_sink.cpp`, `logging/journal_order_sink.cpp` and what
`server/http_handlers.cpp` reads of their files.  A file is the text in it.
-/

namespace OrderBookSimulator

open Library Json

/-! ## Writing -/

/-- A sink opens its file with `std::ios::app`, which leaves what is in it. -/
def openJournal (file : Text) : Text := file

def JournalTradeSink.onTrade (out : Text) (t : Trade) : Text :=
  out ++ ("\x7b".toList ++
    "\"seq\":".toList ++ number t.seq ++ ",".toList ++
    "\"trade_id\":".toList ++ number t.tradeId ++ ",".toList ++
    "\"price\":".toList ++ number t.price ++ ",".toList ++
    "\"qty\":".toList ++ number t.qty ++ ",".toList ++
    "\"maker\":".toList ++ number t.makerId ++ ",".toList ++
    "\"taker\":".toList ++ number t.takerId ++ ",".toList ++
    "\"maker_user\":".toList ++ number t.makerUserId ++ ",".toList ++
    "\"taker_user\":".toList ++ number t.takerUserId ++ ",".toList ++
    "\"ts\":".toList ++ number t.timestamp ++
    "\x7d\n".toList)

def eventTypeStr : OrderStatus → String
  | .new => "NEW"
  | .filled => "FILL"
  | .partiallyFilled => "PARTIAL_FILL"
  | .canceled => "CANCELLED"
  | .rejected => "REJECTED"

def sideStr : Side → String
  | .buy => "BUY"
  | .sell => "SELL"

def JournalOrderSink.onOrderEvent (out : Text) (e : OrderEvent) : Text :=
  out ++ ("\x7b".toList ++
    "\"seq\":".toList ++ number e.seq ++ ",".toList ++
    "\"batch_id\":".toList ++ number e.batchId ++ ",".toList ++
    "\"order_id\":".toList ++ number e.orderId ++ ",".toList ++
    "\"user_id\":".toList ++ number e.userId ++ ",".toList ++
    "\"type\":\"".toList ++ (eventTypeStr e.status).toList ++ "\",".toList ++
    "\"side\":\"".toList ++ (sideStr e.side).toList ++ "\",".toList ++
    "\"price\":".toList ++ number e.price ++ ",".toList ++
    "\"qty\":".toList ++ number e.qty ++ ",".toList ++
    "\"remaining_qty\":".toList ++ number e.remainingQty ++ ",".toList ++
    "\"ts\":".toList ++ number e.timestamp ++
    "\x7d\n".toList)

/-- What the runs of a server leave in a file, each run opening it again. -/
def journalFile {Record : Type} (write : Text → Record → Text) (runs : List (List Record)) : Text :=
  runs.foldl (fun file records => records.foldl write (openJournal file)) []

/-! ## Reading -/

/-- The loop over `getline`; only wanted lines go into the buffer. -/
def bufferLines (limit : Nat) (wanted : Text → Bool) : List Text → List Text → List Text
  | [], buffer => buffer
  | line :: rest, buffer =>
      if line.isEmpty then bufferLines limit wanted rest buffer
      else if !wanted line then bufferLines limit wanted rest buffer
      else bufferLines limit wanted rest (pushBounded limit buffer line)

/-- The loop from `rbegin` to `rend`. -/
def writeLines : List Text → Bool → Text → Text
  | [], _, oss => oss
  | line :: rest, first, oss => writeLines rest false (oss ++ separator first ++ line)

def tailJson (limit : Nat) (wanted : Text → Bool) (file : Text) : Text :=
  writeLines (bufferLines limit wanted (getLines file) []).reverse true "[".toList ++ "]".toList

def readLastTradesJsonl (file : Text) (limit : Nat) : Text := tailJson limit (fun _ => true) file

/-- The `limit` parameter of a request. -/
def limitParam : Option Nat → Nat
  | none => 100
  | some limit =>
      let limit := if limit = 0 then 100 else limit
      if limit > 1000 then 1000 else limit

/-- `GET /user/trades`, whose lines are searched as texts. -/
def getUserTrades (file : Text) (uid : Int) (limit : Option Nat) : Text :=
  let mk := "\"maker_user\":".toList ++ number uid
  let tk := "\"taker_user\":".toList ++ number uid
  tailJson (limitParam limit)
    (fun line => (findText mk line).isSome || (findText tk line).isSome) file

/-! ## Lines as records -/

def Trade.fields (t : Trade) : List (String × Value) :=
  [("seq", .int t.seq), ("trade_id", .int t.tradeId), ("price", .int t.price),
    ("qty", .int t.qty), ("maker", .int t.makerId), ("taker", .int t.takerId),
    ("maker_user", .int t.makerUserId), ("taker_user", .int t.takerUserId),
    ("ts", .int t.timestamp)]

theorem Trade.names (t : Trade) : PlainNames (t.fields.map (·.1)) :=
  (by decide : PlainNames ["seq", "trade_id", "price", "qty", "maker", "taker", "maker_user",
    "taker_user", "ts"])

def Trade.value (t : Trade) : Value := .record t.fields

def Trade.read (value : Value) : Option Trade := do
  let seq ← value.intAt? "seq"
  let tradeId ← value.intAt? "trade_id"
  let price ← value.intAt? "price"
  let qty ← value.intAt? "qty"
  let makerId ← value.intAt? "maker"
  let takerId ← value.intAt? "taker"
  let makerUserId ← value.intAt? "maker_user"
  let takerUserId ← value.intAt? "taker_user"
  let timestamp ← value.intAt? "ts"
  pure { tradeId, makerId, takerId, makerUserId, takerUserId, price, qty, seq, timestamp }

theorem Trade.read_value (t : Trade) : Trade.read t.value = some t := by
  simp only [Trade.read, Trade.value, Value.intAt?, member?_record t.names]
  simp [Trade.fields]

theorem JournalTradeSink.onTrade_eq (out : Text) (t : Trade) :
    onTrade out t = out ++ (t.value.written ++ ['\n']) := by
  unfold onTrade Trade.value
  rw [written_record t.names, numbers_eq]
  simp [Trade.fields, commas_cons, fieldText]

def statusOf? (text : Text) : Option OrderStatus :=
  [.new, .filled, .partiallyFilled, .canceled, .rejected].find? fun status =>
    (eventTypeStr status).toList = text

def tradingSideOf? (text : Text) : Option Side :=
  [.buy, .sell].find? fun side => (sideStr side).toList = text

theorem statusOf?_eventTypeStr (status : OrderStatus) :
    statusOf? (eventTypeStr status).toList = some status := by
  cases status <;> decide

theorem tradingSideOf?_sideStr (side : Side) : tradingSideOf? (sideStr side).toList = some side := by
  cases side <;> decide

theorem plain_eventTypeStr (status : OrderStatus) : PlainWord (eventTypeStr status) := by
  cases status <;> decide

theorem plain_sideStr (side : Side) : PlainWord (sideStr side) := by
  cases side <;> decide

def OrderEvent.fields (e : OrderEvent) : List (String × Value) :=
  [("seq", .int e.seq), ("batch_id", .int e.batchId), ("order_id", .int e.orderId),
    ("user_id", .int e.userId), ("type", .word (eventTypeStr e.status)),
    ("side", .word (sideStr e.side)), ("price", .int e.price), ("qty", .int e.qty),
    ("remaining_qty", .int e.remainingQty), ("ts", .int e.timestamp)]

theorem OrderEvent.names (e : OrderEvent) : PlainNames (e.fields.map (·.1)) :=
  (by decide : PlainNames ["seq", "batch_id", "order_id", "user_id", "type", "side", "price", "qty",
    "remaining_qty", "ts"])

def OrderEvent.value (e : OrderEvent) : Value := .record e.fields

def OrderEvent.read (value : Value) : Option OrderEvent := do
  let seq ← value.intAt? "seq"
  let batchId ← value.intAt? "batch_id"
  let orderId ← value.intAt? "order_id"
  let userId ← value.intAt? "user_id"
  let typeName ← value.textAt? "type"
  let status ← statusOf? typeName
  let sideName ← value.textAt? "side"
  let side ← tradingSideOf? sideName
  let price ← value.intAt? "price"
  let qty ← value.intAt? "qty"
  let remainingQty ← value.intAt? "remaining_qty"
  let timestamp ← value.intAt? "ts"
  pure { seq, batchId, orderId, userId, status, side, price, qty, remainingQty, timestamp }

theorem OrderEvent.read_value (e : OrderEvent) : OrderEvent.read e.value = some e := by
  simp only [OrderEvent.read, OrderEvent.value, Value.intAt?, Value.textAt?,
    member?_record e.names]
  simp [OrderEvent.fields, Value.text?_word (plain_eventTypeStr _),
    Value.text?_word (plain_sideStr _), statusOf?_eventTypeStr, tradingSideOf?_sideStr]

theorem JournalOrderSink.onOrderEvent_eq (out : Text) (e : OrderEvent) :
    onOrderEvent out e = out ++ (e.value.written ++ ['\n']) := by
  unfold onOrderEvent OrderEvent.value
  rw [written_record e.names, numbers_eq]
  simp [OrderEvent.fields, commas_cons, fieldText, written_word (plain_eventTypeStr _),
    written_word (plain_sideStr _)]

/-! ## What is read back -/

theorem bufferLines_eq {limit : Nat} {wanted : Text → Bool} {lines : List Text}
    (nonempty : ∀ line ∈ lines, line ≠ []) (buffer : List Text) :
    bufferLines limit wanted lines buffer =
      (lines.filter wanted).foldl (pushBounded limit) buffer := by
  induction lines generalizing buffer with
  | nil => rfl
  | cons line rest ih =>
      have later := ih fun other member => nonempty other (.tail _ member)
      have notEmpty : ¬ line.isEmpty = true := by simpa using nonempty line (.head _)
      rw [bufferLines, if_neg notEmpty]
      cases isWanted : wanted line with
      | true => rw [if_neg (by simp), List.filter_cons_of_pos isWanted, List.foldl_cons, later]
      | false => rw [if_pos (by simp), List.filter_cons_of_neg (by simp [isWanted]), later]

theorem writeLines_eq (lines : List Text) (first : Bool) (oss : Text) :
    writeLines lines first oss = oss ++ flagged first lines := by
  induction lines generalizing first oss with
  | nil => rw [writeLines, flagged_nil, List.append_nil]
  | cons line rest ih => simp only [writeLines, ih, flagged_cons, List.append_assoc]

section Tail

variable {Record : Type} {write : Text → Record → Text} {value : Record → Value}
  {read : Value → Option Record}
  (writes : ∀ out record, write out record = out ++ ((value record).written ++ ['\n']))

include writes

/-- All runs together leave one line for each record. -/
theorem journalFile_eq (runs : List (List Record)) :
    journalFile write runs =
      (runs.flatten.map fun record => (value record).written).flatMap (· ++ ['\n']) := by
  have oneRun : ∀ (records : List Record) (file : Text), records.foldl write file =
      file ++ (records.map fun record => (value record).written).flatMap (· ++ ['\n']) := by
    intro records
    induction records with
    | nil => exact fun file => (List.append_nil file).symm
    | cons record records ih =>
        intro file
        rw [List.foldl_cons, ih, writes, List.map_cons, List.flatMap_cons, List.append_assoc]
  have allRuns : ∀ file, runs.foldl (fun file records => records.foldl write (openJournal file))
      file = file ++
        (runs.flatten.map fun record => (value record).written).flatMap (· ++ ['\n']) := by
    induction runs with
    | nil => exact fun file => (List.append_nil file).symm
    | cons records runs ih =>
        intro file
        rw [List.foldl_cons, ih, openJournal, oneRun, List.flatten_cons, List.map_append,
          List.flatMap_append, List.append_assoc]
  rw [journalFile, allRuns, List.nil_append]

theorem getLines_journalFile (runs : List (List Record)) :
    getLines (journalFile write runs) =
      runs.flatten.map fun record => (value record).written := by
  rw [journalFile_eq writes]
  refine getLines_written fun line member => ?_
  obtain ⟨record, _, rfl⟩ := List.mem_map.mp member
  exact newline_not_mem_written (value record)

/-- The last wanted records, newest first. -/
def lastRecords (limit : Nat) (wanted : Record → Bool) (records : List Record) : List Record :=
  (records.filter wanted).reverse.take limit

theorem tailJson_eq (limit : Nat) (wanted : Text → Bool) (runs : List (List Record)) :
    tailJson limit wanted (journalFile write runs) =
      (Value.array ((lastRecords limit (fun record => wanted (value record).written)
        runs.flatten).map value)).written := by
  have nonempty : ∀ line ∈ runs.flatten.map (fun record => (value record).written),
      line ≠ [] := by
    intro line member
    obtain ⟨record, _, rfl⟩ := List.mem_map.mp member
    exact written_ne_nil (value record)
  rw [tailJson, getLines_journalFile writes, bufferLines_eq nonempty, foldl_pushBounded,
    reverse_lastItems, writeLines_eq, flagged_true, written_array, List.filter_map,
    ← List.map_reverse, ← List.map_take, List.map_map]
  rfl

end Tail

end OrderBookSimulator
