import OrderBookSimulator.Engine.MatchingEngine

/-!
# The two matching functions, each on its own

The source writes `match_buy` and `match_sell` out separately, over two maps
with their own accessors and clean-ups.  Here each is transcribed line by line
with nothing shared, so that a slip in one copy would be a slip in one
definition.  Both are then shown to be the loop `matchLevels` at their side.
-/

namespace OrderBookSimulator

open Library

namespace OrderBook

def bestBidQueue (book : OrderBook) : Option OrderList := book.bids.first?.map (·.2)

def bestAskQueue (book : OrderBook) : Option OrderList := book.asks.first?.map (·.2)

/-- Write through the pointer that `bestBidQueue` returned. -/
def setBestBidQueue (book : OrderBook) (queue : OrderList) : OrderBook :=
  match book.bids.first? with
  | none => book
  | some (price, _) => { book with bids := book.bids.insert price queue }

/-- Write through the pointer that `bestAskQueue` returned. -/
def setBestAskQueue (book : OrderBook) (queue : OrderList) : OrderBook :=
  match book.asks.first? with
  | none => book
  | some (price, _) => { book with asks := book.asks.insert price queue }

def cleanupBestBidLevelIfEmpty (book : OrderBook) : OrderBook :=
  match book.bids.first? with
  | none => book
  | some (price, queue) =>
      if queue = [] then { book with bids := book.bids.erase price } else book

def cleanupBestAskLevelIfEmpty (book : OrderBook) : OrderBook :=
  match book.asks.first? with
  | none => book
  | some (price, queue) =>
      if queue = [] then { book with asks := book.asks.erase price } else book

end OrderBook

namespace MatchingEngine.TwoLoops

/-! ## `match_buy` -/

/-- The body of the inner loop of `match_buy`. -/
def buyFrom (host : Host) (askPrice batchId : Int) (sweep : Sweep) (maker : Node)
    (rest : OrderList) : Sweep :=
  let engine := sweep.engine
  let taker := sweep.taker
  let qty := if taker.qty < maker.order.qty then taker.qty else maker.order.qty
  let trade : Trade :=
    { makerId := maker.order.id, takerId := taker.id
      makerUserId := engine.makerUser maker.order, takerUserId := taker.userId
      price := askPrice, qty }
  let engine := engine.updateUsers fun users =>
    users.onFill host maker.order.id taker.id askPrice qty .buy
  let left := maker.order.qty - qty
  let engine :=
    if left = 0 then
      (engine.emitOrderEvent host batchId maker.order.id maker.order.userId
        .filled maker.order.side askPrice qty 0).updateBook (·.setBestAskQueue rest)
    else
      (engine.emitOrderEvent host batchId maker.order.id maker.order.userId
        .partiallyFilled maker.order.side askPrice qty left).updateBook
          (·.setBestAskQueue ({ maker with order := { maker.order with qty := left } } :: rest))
  { engine, taker := { taker with qty := taker.qty - qty }, trades := sweep.trades ++ [trade] }

/-- `while (taker.qty > 0 && !q->empty())` -/
def drainAsks (host : Host) (askPrice batchId : Int) : Nat → Sweep → Sweep
  | 0, sweep => sweep
  | fuel + 1, sweep =>
      if 0 < sweep.taker.qty then
        match sweep.engine.book.bestAskQueue with
        | some (maker :: rest) =>
            drainAsks host askPrice batchId fuel (buyFrom host askPrice batchId sweep maker rest)
        | _ => sweep
      else sweep

/-- `while (taker.qty > 0)` -/
def matchAsks (host : Host) (batchId : Int) : Nat → Sweep → Sweep
  | 0, sweep => sweep
  | fuel + 1, sweep =>
      if 0 < sweep.taker.qty then
        match sweep.engine.book.bestAsk with
        | none => sweep
        | some askPrice =>
            if sweep.taker.type = .limit ∧ askPrice > sweep.taker.price then sweep
            else
              match sweep.engine.book.bestAskQueue with
              | none => sweep
              | some [] => sweep
              | some (_ :: rest) =>
                  let drained := drainAsks host askPrice batchId (rest.length + 1) sweep
                  matchAsks host batchId fuel { drained with
                    engine := drained.engine.updateBook (·.cleanupBestAskLevelIfEmpty) }
      else sweep

/-- Each turn of the outer loop empties the taker or removes an ask level. -/
def matchBuy (host : Host) (sweep : Sweep) (batchId : Int) : Sweep :=
  matchAsks host batchId sweep.engine.book.asks.entries.length sweep

/-! ## `match_sell` -/

/-- The body of the inner loop of `match_sell`. -/
def sellTo (host : Host) (bidPrice batchId : Int) (sweep : Sweep) (maker : Node)
    (rest : OrderList) : Sweep :=
  let engine := sweep.engine
  let taker := sweep.taker
  let qty := if taker.qty < maker.order.qty then taker.qty else maker.order.qty
  let trade : Trade :=
    { makerId := maker.order.id, takerId := taker.id
      makerUserId := engine.makerUser maker.order, takerUserId := taker.userId
      price := bidPrice, qty }
  let engine := engine.updateUsers fun users =>
    users.onFill host maker.order.id taker.id bidPrice qty .sell
  let left := maker.order.qty - qty
  let engine :=
    if left = 0 then
      (engine.emitOrderEvent host batchId maker.order.id maker.order.userId
        .filled maker.order.side bidPrice qty 0).updateBook (·.setBestBidQueue rest)
    else
      (engine.emitOrderEvent host batchId maker.order.id maker.order.userId
        .partiallyFilled maker.order.side bidPrice qty left).updateBook
          (·.setBestBidQueue ({ maker with order := { maker.order with qty := left } } :: rest))
  { engine, taker := { taker with qty := taker.qty - qty }, trades := sweep.trades ++ [trade] }

/-- `while (taker.qty > 0 && !q->empty())` -/
def drainBids (host : Host) (bidPrice batchId : Int) : Nat → Sweep → Sweep
  | 0, sweep => sweep
  | fuel + 1, sweep =>
      if 0 < sweep.taker.qty then
        match sweep.engine.book.bestBidQueue with
        | some (maker :: rest) =>
            drainBids host bidPrice batchId fuel (sellTo host bidPrice batchId sweep maker rest)
        | _ => sweep
      else sweep

/-- `while (taker.qty > 0)` -/
def matchBids (host : Host) (batchId : Int) : Nat → Sweep → Sweep
  | 0, sweep => sweep
  | fuel + 1, sweep =>
      if 0 < sweep.taker.qty then
        match sweep.engine.book.bestBid with
        | none => sweep
        | some bidPrice =>
            if sweep.taker.type = .limit ∧ bidPrice < sweep.taker.price then sweep
            else
              match sweep.engine.book.bestBidQueue with
              | none => sweep
              | some [] => sweep
              | some (_ :: rest) =>
                  let drained := drainBids host bidPrice batchId (rest.length + 1) sweep
                  matchBids host batchId fuel { drained with
                    engine := drained.engine.updateBook (·.cleanupBestBidLevelIfEmpty) }
      else sweep

/-- Each turn of the outer loop empties the taker or removes a bid level. -/
def matchSell (host : Host) (sweep : Sweep) (batchId : Int) : Sweep :=
  matchBids host batchId sweep.engine.book.bids.entries.length sweep

/-! ## Both are the loop over levels -/

section Agreement

variable (host : Host) (price batchId : Int)

theorem setBestAskQueue_eq (book : OrderBook) (queue : OrderList) :
    book.setBestAskQueue queue = book.setBestQueue .sell queue := by
  rw [OrderBook.setBestAskQueue, OrderBook.setBestQueue, OrderBook.bestPrice, OrderBook.levels]
  cases book.asks.first? <;> rfl

theorem setBestBidQueue_eq (book : OrderBook) (queue : OrderList) :
    book.setBestBidQueue queue = book.setBestQueue .buy queue := by
  rw [OrderBook.setBestBidQueue, OrderBook.setBestQueue, OrderBook.bestPrice, OrderBook.levels]
  cases book.bids.first? <;> rfl

theorem buyFrom_eq (sweep : Sweep) (maker : Node) (rest : OrderList) :
    buyFrom host price batchId sweep maker rest =
      fillFront host .buy price batchId sweep maker rest := by
  simp only [buyFrom, setBestAskQueue_eq]
  rfl

theorem sellTo_eq (sweep : Sweep) (maker : Node) (rest : OrderList) :
    sellTo host price batchId sweep maker rest =
      fillFront host .sell price batchId sweep maker rest := by
  simp only [sellTo, setBestBidQueue_eq]
  rfl

theorem drainAsks_eq (fuel : Nat) (sweep : Sweep) :
    drainAsks host price batchId fuel sweep = drainLevel host .buy price batchId fuel sweep := by
  induction fuel generalizing sweep with
  | zero => rfl
  | succ fuel ih =>
      simp only [drainAsks, drainLevel, ih, buyFrom_eq]
      rfl

theorem drainBids_eq (fuel : Nat) (sweep : Sweep) :
    drainBids host price batchId fuel sweep = drainLevel host .sell price batchId fuel sweep := by
  induction fuel generalizing sweep with
  | zero => rfl
  | succ fuel ih =>
      simp only [drainBids, drainLevel, ih, sellTo_eq]
      rfl

theorem matchAsks_eq (fuel : Nat) (sweep : Sweep) :
    matchAsks host batchId fuel sweep = matchLevels host .buy batchId fuel sweep := by
  induction fuel generalizing sweep with
  | zero => rfl
  | succ fuel ih =>
      simp only [matchAsks, matchLevels, ih, drainAsks_eq, beyondLimit, decide_eq_true_eq]
      rfl

theorem matchBids_eq (fuel : Nat) (sweep : Sweep) :
    matchBids host batchId fuel sweep = matchLevels host .sell batchId fuel sweep := by
  induction fuel generalizing sweep with
  | zero => rfl
  | succ fuel ih =>
      simp only [matchBids, matchLevels, ih, drainBids_eq, beyondLimit, decide_eq_true_eq]
      rfl

/-- The source's `match_buy` is the loop over the asks. -/
theorem matchBuy_eq (sweep : Sweep) :
    matchBuy host sweep batchId = MatchingEngine.matchBuy host sweep batchId :=
  matchAsks_eq host batchId _ sweep

/-- The source's `match_sell` is the loop over the bids. -/
theorem matchSell_eq (sweep : Sweep) :
    matchSell host sweep batchId = MatchingEngine.matchSell host sweep batchId :=
  matchBids_eq host batchId _ sweep

end Agreement

end MatchingEngine.TwoLoops

end OrderBookSimulator
