import OrderBookSimulator.Engine.MatchingEngine

/-!
# The market maker

`market_maker/market_maker.hpp` and `market_maker/market_maker.cpp`.  A tick is
one turn of a loop, all of it under the mutex.  Prices are `int`s and wrap
around at 32 bits, depths are `long long`s.
-/

namespace OrderBookSimulator

/-- `engine_.process_order(Order{.id = engine_.next_order_id(), ...})`, without a user. -/
def MatchingEngine.submit (host : Host) (engine : MatchingEngine) (side : Side) (price qty : Int)
    (type : OrderType) : MatchingEngine × OrderResult :=
  let (engine, id) := engine.nextOrderId
  engine.processOrder host { id, side, price, qty, type }

namespace MarketMaker

/-- The mid where the book is empty. -/
def anchorPx : Int := 100
def spread : Int := 2
def makerQty : Int := 50
def takerQty : Int := 20
def targetDepth : Int := 2000
def minDepth : Int := 1000

def mid (book : OrderBook) : Int :=
  match book.bestBid, book.bestAsk with
  | some bb, some ba => (castInt (bb + ba)).tdiv 2
  | some bb, none => bb
  | none, some ba => ba
  | none, none => anchorPx

def bidPx (book : OrderBook) : Int := castInt (mid book - spread.tdiv 2)

def askPx (book : OrderBook) : Int :=
  let askPx := castInt (mid book + spread.tdiv 2)
  if askPx ≤ bidPx book then castInt (bidPx book + 1) else askPx

def bidDepth (host : Host) (book : OrderBook) : Int := host.longLong (book.depth .buy)

def askDepth (host : Host) (book : OrderBook) : Int := host.longLong (book.depth .sell)

/-- Top up whichever side is lower, then match the other side to it. -/
def toAdd (host : Host) (book : OrderBook) : Int :=
  let minDepth := min (bidDepth host book) (askDepth host book)
  min makerQty (host.longLong (targetDepth - minDepth))

/-- One tick of `run_maker`, with what its orders are answered. -/
def runMaker (host : Host) (engine : MatchingEngine) : MatchingEngine × List OrderResult :=
  let qty := toAdd host engine.book
  if 0 < qty then
    let bid := engine.submit host .buy (bidPx engine.book) qty .limit
    let ask := bid.1.submit host .sell (askPx engine.book) qty .limit
    (ask.1, [bid.2, ask.2])
  else (engine, [])

/-- One tick of `run_taker`: trade against the heavier side. -/
def runTaker (host : Host) (engine : MatchingEngine) : MatchingEngine × List OrderResult :=
  let bidDepth := bidDepth host engine.book
  let askDepth := askDepth host engine.book
  if minDepth ≤ bidDepth ∧ minDepth ≤ askDepth then
    let side : Side := if askDepth ≤ bidDepth then .sell else .buy
    let taken := engine.submit host side 0 takerQty .market
    (taken.1, [taken.2])
  else (engine, [])

end MarketMaker

end OrderBookSimulator
