import OrderBookSimulator.Book.OrderBook
import OrderBookSimulator.User.UserManager

/-!
# The matching engine

`engine/matching_engine.hpp` and `engine/matching_engine.cpp`.  A sink pointer
is the list of what the sink received, or `none` where the pointer is null.
The two counters the source keeps at file scope are fields like the others.
-/

namespace OrderBookSimulator

open Library

inductive PreflightStatus where
  | ok
  | rejected
  | cancelled
  deriving DecidableEq, Repr

structure PreflightResult where
  status : PreflightStatus
  reason : String
  deriving DecidableEq, Repr

namespace PreflightResult

def ok : PreflightResult := ⟨.ok, ""⟩
def rejected (reason : String) : PreflightResult := ⟨.rejected, reason⟩
def cancelled (reason : String) : PreflightResult := ⟨.cancelled, reason⟩
def isOk (result : PreflightResult) : Bool := result.status = .ok

end PreflightResult

structure MatchingEngine where
  book : OrderBook := {}
  tradeSink : Option (List Trade) := none
  orderSink : Option (List OrderEvent) := none
  userManager : Option UserManager := none
  nextId : Int := 1000
  eventSeq : Int := 1
  batchSeq : Int := 1
  globalSeq : Int := 1
  globalTradeId : Int := 1
  /-- How often the clock has been read. -/
  clockReads : Nat := 0
  deriving DecidableEq

/-- The local state of `match_buy` and `match_sell`. -/
structure Sweep where
  engine : MatchingEngine
  taker : Order
  trades : List Trade
  deriving DecidableEq

namespace MatchingEngine

def nextOrderId (engine : MatchingEngine) : MatchingEngine × Int :=
  ({ engine with nextId := engine.nextId + 1 }, engine.nextId)

/-- A call through `user_manager_`, skipped when the pointer is null. -/
def updateUsers (engine : MatchingEngine) (update : UserManager → UserManager) : MatchingEngine :=
  { engine with userManager := engine.userManager.map update }

/-- A call through `book_`. -/
def updateBook (engine : MatchingEngine) (update : OrderBook → OrderBook) : MatchingEngine :=
  { engine with book := update engine.book }

/-- Give each trade its sequence number and identifier and hand it to the sink. -/
def emitEach (timestamp : Int) : MatchingEngine → List Trade → MatchingEngine × List Trade
  | engine, [] => (engine, [])
  | engine, trade :: rest =>
      let trade := { trade with
        seq := engine.globalSeq, tradeId := engine.globalTradeId, timestamp := timestamp }
      let engine := { engine with
        globalSeq := engine.globalSeq + 1
        globalTradeId := engine.globalTradeId + 1
        tradeSink := engine.tradeSink.map (· ++ [trade]) }
      let emitted := emitEach timestamp engine rest
      (emitted.1, trade :: emitted.2)

def emitTrades (host : Host) (engine : MatchingEngine) (trades : List Trade) :
    MatchingEngine × List Trade :=
  match engine.tradeSink with
  | none => (engine, trades)
  | some _ =>
      emitEach (host.now engine.clockReads)
        { engine with clockReads := engine.clockReads + 1 } trades

def preflightCheck (host : Host) (engine : MatchingEngine) (order : Order) : PreflightResult :=
  if order.qty ≤ 0 then .rejected "quantity must be positive"
  else if order.type = .limit ∧ order.price ≤ 0 then
    .rejected "limit order price must be positive"
  else if order.type = .market ∧ order.side = .buy ∧ engine.book.bestAsk = none then
    .cancelled "no asks available for market buy"
  else if order.type = .market ∧ order.side = .sell ∧ engine.book.bestBid = none then
    .cancelled "no bids available for market sell"
  else
    match engine.userManager with
    | none => .ok
    | some users =>
        if order.userId > 0 then
          let pos := users.getPosition order.userId
          match order.side with
          | .buy =>
              -- a market buy got here only with a best ask
              let costPrice :=
                if order.type = .limit then order.price else engine.book.bestAsk.getD 0
              let required := host.longLong (costPrice * order.qty)
              let available := host.longLong (pos.balance - pos.reservedBalance)
              if available < required then .rejected "insufficient cash" else .ok
          | .sell =>
              let available := host.longLong (pos.shares - pos.reservedShares)
              if available < order.qty then .rejected "insufficient shares" else .ok
        else .ok

def emitOrderEvent (host : Host) (engine : MatchingEngine) (batchId orderId userId : Int)
    (status : OrderStatus) (side : Side) (price qty remaining : Int) : MatchingEngine :=
  match engine.orderSink with
  | none => engine
  | some events =>
      { engine with
        eventSeq := engine.eventSeq + 1
        clockReads := engine.clockReads + 1
        orderSink := some (events ++
          [{ seq := engine.eventSeq, batchId, orderId, userId, status, side, price, qty,
             remainingQty := remaining, timestamp := host.now engine.clockReads }]) }

/-- `user_manager_ ? user_manager_->get_user_for_order(maker.id) : maker.user_id` -/
def makerUser (engine : MatchingEngine) (maker : Order) : Int :=
  match engine.userManager with
  | some users => users.getUserForOrder maker.id
  | none => maker.userId

/-- The test that ends a sweep: `ask_price > taker.price`, `bid_price < taker.price`. -/
def beyondLimit : Side → Int → Int → Bool
  | .buy, askPrice, limit => askPrice > limit
  | .sell, bidPrice, limit => bidPrice < limit

def fillQty (taker maker : Order) : Int :=
  if taker.qty < maker.qty then taker.qty else maker.qty

/-- The body of the inner loop, for the order `maker` in front of `rest`. -/
def fillFront (host : Host) (takerSide : Side) (price batchId : Int) (sweep : Sweep)
    (maker : Node) (rest : OrderList) : Sweep :=
  let engine := sweep.engine
  let taker := sweep.taker
  let qty := fillQty taker maker.order
  let trade : Trade :=
    { makerId := maker.order.id, takerId := taker.id
      makerUserId := engine.makerUser maker.order, takerUserId := taker.userId
      price, qty }
  let engine := engine.updateUsers fun users =>
    users.onFill host maker.order.id taker.id price qty takerSide
  let left := maker.order.qty - qty
  let engine :=
    if left = 0 then
      (engine.emitOrderEvent host batchId maker.order.id maker.order.userId
        .filled maker.order.side price qty 0).updateBook fun book =>
          book.setBestQueue takerSide.opposite rest
    else
      (engine.emitOrderEvent host batchId maker.order.id maker.order.userId
        .partiallyFilled maker.order.side price qty left).updateBook fun book =>
          book.setBestQueue takerSide.opposite
            ({ maker with order := { maker.order with qty := left } } :: rest)
  { engine, taker := { taker with qty := taker.qty - qty }, trades := sweep.trades ++ [trade] }

/-- The inner loop: each turn empties the taker or pops the queue's front. -/
def drainLevel (host : Host) (takerSide : Side) (price batchId : Int) : Nat → Sweep → Sweep
  | 0, sweep => sweep
  | fuel + 1, sweep =>
      if 0 < sweep.taker.qty then
        match sweep.engine.book.bestQueue takerSide.opposite with
        | some (maker :: rest) =>
            drainLevel host takerSide price batchId fuel
              (fillFront host takerSide price batchId sweep maker rest)
        | _ => sweep
      else sweep

/-- The outer loop: each turn empties the taker or removes the best level. -/
def matchLevels (host : Host) (takerSide : Side) (batchId : Int) : Nat → Sweep → Sweep
  | 0, sweep => sweep
  | fuel + 1, sweep =>
      if 0 < sweep.taker.qty then
        match sweep.engine.book.bestPrice takerSide.opposite with
        | none => sweep
        | some price =>
            if sweep.taker.type = .limit ∧ beyondLimit takerSide price sweep.taker.price then sweep
            else
              match sweep.engine.book.bestQueue takerSide.opposite with
              | none => sweep
              | some [] => sweep
              | some (_ :: rest) =>
                  let drained :=
                    drainLevel host takerSide price batchId (rest.length + 1) sweep
                  matchLevels host takerSide batchId fuel { drained with
                    engine := drained.engine.updateBook fun book =>
                      book.cleanupBestLevelIfEmpty takerSide.opposite }
      else sweep

def matchBuy (host : Host) (sweep : Sweep) (batchId : Int) : Sweep :=
  matchLevels host .buy batchId sweep.engine.book.asks.entries.length sweep

def matchSell (host : Host) (sweep : Sweep) (batchId : Int) : Sweep :=
  matchLevels host .sell batchId sweep.engine.book.bids.entries.length sweep

/-- `process_order` between preflight and the end of matching. -/
def sweepIncoming (host : Host) (engine : MatchingEngine) (batchId : Int) (incoming : Order) :
    Sweep :=
  let engine := engine.emitOrderEvent host batchId incoming.id incoming.userId .new
    incoming.side incoming.price incoming.qty incoming.qty
  match incoming.side with
  | .buy => matchBuy host { engine, taker := incoming, trades := [] } batchId
  | .sell => matchSell host { engine, taker := incoming, trades := [] } batchId

/-- Announce the trades, then rest what a limit order has left. -/
def restRemainder (host : Host) (sweep : Sweep) : MatchingEngine :=
  let taker := sweep.taker
  let engine :=
    if sweep.trades = [] then sweep.engine else sweep.engine.updateBook (·.notifyChange)
  if taker.type = .limit ∧ 0 < taker.qty then
    (engine.updateBook (·.addRestingOrder taker)).updateUsers fun users =>
      users.onOrderResting host taker.id taker.side taker.price taker.qty
  else engine

/-- `process_order` once preflight has passed. -/
def processAccepted (host : Host) (engine : MatchingEngine) (batchId : Int) (incoming : Order) :
    MatchingEngine × OrderResult :=
  let sweep := engine.sweepIncoming host batchId incoming
  let taker := sweep.taker
  let emitted := (restRemainder host sweep).emitTrades host sweep.trades
  let engine := emitted.1
  let filled := incoming.qty - taker.qty
  let result (status : OrderStatus) : OrderResult :=
    { id := incoming.id, status, originalQty := incoming.qty, filledQty := filled
      remainingQty := taker.qty, trades := emitted.2, reason := "" }
  if filled = 0 then (engine, result .new)
  else if taker.qty = 0 then
    (engine.emitOrderEvent host batchId incoming.id incoming.userId .filled
      taker.side incoming.price filled 0, result .filled)
  else
    (engine.emitOrderEvent host batchId incoming.id incoming.userId .partiallyFilled
      taker.side incoming.price filled taker.qty, result .partiallyFilled)

/-- What `process_order` does before preflight: register the owner and take a batch id. -/
def opened (engine : MatchingEngine) (incoming : Order) : MatchingEngine :=
  { engine.updateUsers (·.registerOrder incoming.id incoming.userId) with
    batchSeq := engine.batchSeq + 1 }

def processOrder (host : Host) (engine : MatchingEngine) (incoming : Order) :
    MatchingEngine × OrderResult :=
  let batchId := engine.batchSeq
  let engine := engine.opened incoming
  let preflight := engine.preflightCheck host incoming
  let refused (status : OrderStatus) : MatchingEngine × OrderResult :=
    (engine.emitOrderEvent host batchId incoming.id incoming.userId status
      incoming.side incoming.price 0 0,
      { id := incoming.id, status, originalQty := incoming.qty, filledQty := 0
        remainingQty := 0, trades := [], reason := preflight.reason })
  match preflight.status with
  | .rejected => refused .rejected
  | .cancelled => refused .canceled
  | .ok => engine.processAccepted host batchId incoming

def cancelOrder (host : Host) (engine : MatchingEngine) (orderId : Int) :
    Except Fault (MatchingEngine × Bool) := do
  let order ← engine.book.findOrder orderId
  let (book, ok) ← engine.book.cancelOrder orderId
  let engine := { engine with book }
  if ok then
    let batchId := engine.batchSeq
    let engine := { engine with batchSeq := engine.batchSeq + 1 }
    let userId :=
      match engine.userManager with
      | some users => users.getUserForOrder orderId
      | none => 0
    let engine := engine.emitOrderEvent host batchId orderId userId .canceled .buy 0 0 0
    let engine :=
      match order with
      | none => engine
      | some order =>
          engine.updateUsers fun users =>
            users.onCancel host orderId order.side order.price order.qty
    pure (engine.updateBook (·.notifyChange), true)
  else pure (engine, false)

end MatchingEngine

end OrderBookSimulator
