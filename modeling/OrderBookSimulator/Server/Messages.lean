import OrderBookSimulator.Book.OrderBook
import OrderBookSimulator.Server.Requests

/-!
# What the server writes

`server/book_serializer.cpp`, the JSON helpers of `server/http_handlers.cpp` and
the frames of `server/ws_server.cpp`.  A frame is kept as the document it
spells out; `json` is its text.
-/

namespace OrderBookSimulator

/-- One price level in a book snapshot. -/
structure LevelLine where
  price : Int
  qty : Int
  orders : List Int
  deriving DecidableEq

structure BookDocument where
  bids : List LevelLine
  asks : List LevelLine
  deriving DecidableEq

structure OrderLine where
  id : Int
  userId : Int
  side : Side
  price : Int
  qty : Int
  deriving DecidableEq

/-- The quantity of a level is added up in a `long long`. -/
def levelLine (host : Host) (level : Int × OrderList) : LevelLine :=
  { price := level.1
    qty := level.2.foldl (fun qty node => host.longLong (qty + node.order.qty)) 0
    orders := level.2.map (·.order.qty) }

/-- The first `depth` levels of each side. -/
def bookDocument (host : Host) (snapshot : Snapshot) (depth : Nat) : BookDocument :=
  { bids := (snapshot.bids.entries.take depth).map (levelLine host)
    asks := (snapshot.asks.entries.take depth).map (levelLine host) }

def orderLines (side : Side) (level : Int × OrderList) : List OrderLine :=
  level.2.map fun node =>
    { id := node.order.id, userId := node.order.userId, side, price := level.1
      qty := node.order.qty }

/-- Every resting order, bids before asks. -/
def ordersDocument (snapshot : Snapshot) : List OrderLine :=
  snapshot.bids.entries.flatMap (orderLines .buy) ++ snapshot.asks.entries.flatMap (orderLines .sell)

/-! ## Text -/

def number (value : Int) : Text := (toString value).toList

def commaSeparated (items : List Text) : Text := [','].intercalate items

def LevelLine.json (line : LevelLine) : Text :=
  "\x7b\"price\":".toList ++ number line.price ++ ",\"qty\":".toList ++ number line.qty ++
    ",\"orders\":[".toList ++ commaSeparated (line.orders.map number) ++ "]\x7d".toList

def BookDocument.json (document : BookDocument) : Text :=
  "\x7b\"type\":\"book_snapshot\",\"payload\":\x7b\"bids\":[".toList ++
    commaSeparated (document.bids.map (·.json)) ++ "],\"asks\":[".toList ++
    commaSeparated (document.asks.map (·.json)) ++ "]\x7d\x7d".toList

def OrderLine.json (line : OrderLine) : Text :=
  "\x7b\"id\":".toList ++ number line.id ++ ",\"user_id\":".toList ++ number line.userId ++
    (match line.side with
      | .buy => ",\"side\":\"bid\"".toList
      | .sell => ",\"side\":\"ask\"".toList) ++
    ",\"price\":".toList ++ number line.price ++ ",\"qty\":".toList ++ number line.qty ++
    "\x7d".toList

def ordersJson (lines : List OrderLine) : Text :=
  "\x7b\"type\":\"orders_update\",\"payload\":[".toList ++
    commaSeparated (lines.map (·.json)) ++ "]\x7d".toList

/-- `serialize_book_json`, at the depth every caller in the program leaves to the default. -/
def serializeBookJson (host : Host) (snapshot : Snapshot) (depth : Nat := 20) : Text :=
  (bookDocument host snapshot depth).json

def serializeOrdersJson (snapshot : Snapshot) : Text := ordersJson (ordersDocument snapshot)

def jsonError (message : String) : Text :=
  "\x7b\"error\":\"".toList ++
    message.toList.flatMap (fun c => if c = '"' ∨ c = '\\' then ['\\', c] else [c]) ++
    "\"\x7d".toList

def jsonOk (ok : Bool) : Text :=
  if ok then "\x7b\"ok\":true\x7d".toList else "\x7b\"ok\":false\x7d".toList

def statusToString : OrderStatus → String
  | .new => "NEW"
  | .partiallyFilled => "PARTIALLY_FILLED"
  | .filled => "FILLED"
  | .canceled => "CANCELED"
  | .rejected => "REJECTED"

def Trade.resultJson (trade : Trade) : Text :=
  "\x7b\"price\":".toList ++ number trade.price ++ ",\"qty\":".toList ++ number trade.qty ++
    ",\"maker\":".toList ++ number trade.makerId ++ ",\"taker\":".toList ++
    number trade.takerId ++ "\x7d".toList

def jsonOrderResult (result : OrderResult) : Text :=
  "\x7b\"id\":".toList ++ number result.id ++ ",\"status\":\"".toList ++
    (statusToString result.status).toList ++ "\"".toList ++
    (if result.reason = "" then []
      else ",\"error\":\"".toList ++ result.reason.toList ++ "\"".toList) ++
    ",\"originalQty\":".toList ++ number result.originalQty ++
    ",\"filledQty\":".toList ++ number result.filledQty ++
    ",\"remainingQty\":".toList ++ number result.remainingQty ++
    ",\"trades\":[".toList ++ commaSeparated (result.trades.map (·.resultJson)) ++ "]\x7d".toList

/-- `with_request_id` -/
def withRequestId (requestId json : Text) : Text :=
  if requestId = [] then json
  else "\x7b\"requestId\":\"".toList ++ requestId ++ "\",".toList ++ json.tail

/-! ## Frames -/

/-- What a handler answers. -/
inductive Answer where
  | result (result : OrderResult)
  | ok (ok : Bool)
  | error (message : String)
  deriving DecidableEq

def Answer.json : Answer → Text
  | .result answered => jsonOrderResult answered
  | .ok done => jsonOk done
  | .error message => jsonError message

inductive Message where
  | session (userId : Int) (reconnected : Bool)
  | bookSnapshot (document : BookDocument)
  | ordersUpdate (lines : List OrderLine)
  | trade (trade : Trade)
  | answer (requestId : Text) (answer : Answer)
  deriving DecidableEq

namespace Message

def json : Message → Text
  | .session userId reconnected =>
      "\x7b\"type\":\"session\",\"userId\":".toList ++ number userId ++
        ",\"reconnected\":".toList ++ (if reconnected then "true" else "false").toList ++
        "\x7d".toList
  | .bookSnapshot document => document.json
  | .ordersUpdate lines => ordersJson lines
  | .trade made =>
      "\x7b\"type\":\"trade\",\"seq\":".toList ++ number made.seq ++
        ",\"trade_id\":".toList ++ number made.tradeId ++
        ",\"price\":".toList ++ number made.price ++ ",\"qty\":".toList ++ number made.qty ++
        ",\"maker\":".toList ++ number made.makerId ++
        ",\"taker\":".toList ++ number made.takerId ++
        ",\"maker_user\":".toList ++ number made.makerUserId ++
        ",\"taker_user\":".toList ++ number made.takerUserId ++
        ",\"ts\":".toList ++ number made.timestamp ++ "\x7d".toList
  | .answer requestId given => withRequestId requestId given.json

/-- What the callback set by `main` broadcasts each time the book has changed. -/
def ofChange (host : Host) (snapshot : Snapshot) : List Message :=
  [.bookSnapshot (bookDocument host snapshot 20), .ordersUpdate (ordersDocument snapshot)]

def book? : Message → Option BookDocument
  | .bookSnapshot document => some document
  | _ => none

def orders? : Message → Option (List OrderLine)
  | .ordersUpdate lines => some lines
  | _ => none

end Message

/-- The last book snapshot sent. -/
def lastBook (sent : List Message) : Option BookDocument := (sent.filterMap Message.book?).getLast?

/-- The last list of orders sent. -/
def lastOrders (sent : List Message) : Option (List OrderLine) :=
  (sent.filterMap Message.orders?).getLast?

end OrderBookSimulator
