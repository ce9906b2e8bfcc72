import OrderBookSimulator.MarketMaker.MarketMaker

/-!
# The trading bots

One turn of each loop of `market_maker/trading_bots.cpp`, under the mutex.
What a bot computes in floating point or draws at random is a parameter of its
turn.
-/

namespace OrderBookSimulator

namespace TradingBots

/-- A turn that submits nothing. -/
def idle (engine : MatchingEngine) : MatchingEngine × List OrderResult := (engine, [])

/-- A turn that submits one limit order. -/
def quote (host : Host) (engine : MatchingEngine) (side : Side) (price qty : Int) :
    MatchingEngine × List OrderResult :=
  let quoted := engine.submit host side price qty .limit
  (quoted.1, [quoted.2])

/-! ## Momentum -/

/-- Push a sample, and drop the oldest where there are more than eight. -/
def sample (prices : List Int) (mid : Int) : List Int :=
  let sampled := prices ++ [mid]
  if 8 < sampled.length then sampled.tail else sampled

/-- One turn of `run_momentum`, with the samples before it and those after it. -/
def runMomentum (host : Host) (engine : MatchingEngine) (prices : List Int) :
    MatchingEngine × List Int × List OrderResult :=
  match engine.book.bestBid, engine.book.bestAsk with
  | some bb, some ba =>
      let mid := (castInt (bb + ba)).tdiv 2
      let prices := sample prices mid
      if prices.length < 8 then (engine, prices, [])
      else
        let momentum := castInt (mid - prices.headD mid)
        if 2 ≤ momentum then
          let (engine, results) := quote host engine .buy ba 10
          (engine, prices, results)
        else if momentum ≤ -2 then
          let (engine, results) := quote host engine .sell bb 10
          (engine, prices, results)
        else (engine, prices, [])
  | _, _ => (engine, prices, [])

/-! ## Mean reversion -/

/-- Where the mid stands to its average, 2.5 ticks away or not. -/
inductive Deviation where
  | above
  | below
  | within
  deriving DecidableEq, Repr

/-- One turn of `run_mean_reversion`; `ema` is the average after its cast to `int`. -/
def runMeanReversion (host : Host) (engine : MatchingEngine) (deviation : Deviation) (ema : Int) :
    MatchingEngine × List OrderResult :=
  match engine.book.bestBid, engine.book.bestAsk with
  | some bb, some ba =>
      match deviation with
      | .above => quote host engine .sell (max (castInt (ema + 1)) (castInt (bb + 1))) 15
      | .below =>
          let buyPx := min ema (castInt (ba - 1))
          quote host engine .buy (if buyPx < 1 then 1 else buyPx) 15
      | .within => idle engine
  | _, _ => idle engine

/-! ## Noise -/

/-- One turn of `run_noise`, with the side, the offset and the quantity it draws. -/
def runNoise (host : Host) (engine : MatchingEngine) (buy : Bool) (offset qty : Int) :
    MatchingEngine × List OrderResult :=
  match engine.book.bestBid, engine.book.bestAsk with
  | some bb, some ba =>
      let mid := (castInt (bb + ba)).tdiv 2
      let price := max 1 (castInt (mid + offset))
      quote host engine (if buy then .buy else .sell) price qty
  | _, _ => idle engine

/-! ## Sniper -/

/-- One turn of `run_sniper`: step inside a wide spread on both sides. -/
def runSniper (host : Host) (engine : MatchingEngine) : MatchingEngine × List OrderResult :=
  match engine.book.bestBid, engine.book.bestAsk with
  | some bb, some ba =>
      let spread := castInt (ba - bb)
      if spread < 3 then idle engine
      else
        let insideBid := castInt (bb + 1)
        let insideAsk := castInt (ba - 1)
        if insideAsk ≤ insideBid then idle engine
        else
          let bid := engine.submit host .buy insideBid 20 .limit
          let ask := bid.1.submit host .sell insideAsk 20 .limit
          (ask.1, [bid.2, ask.2])
  | _, _ => idle engine

end TradingBots

end OrderBookSimulator
