import OrderBookSimulator.Engine.Passive
import OrderBookSimulator.MarketMaker.TradingBots
import OrderBookSimulator.Properties.WellFormedBook

/-!
# Markets

The strategies and the requests take turns on one engine.  Whoever acts, the
book stays orderly: sound, uncrossed and priced within a positive `int`.
-/

namespace OrderBookSimulator

open Library

structure Market where
  engine : MatchingEngine
  /-- The samples that the momentum bot keeps between its turns. -/
  prices : List Int := []

inductive Activity where
  | call (call : Call)
  | maker
  | taker
  | momentum
  | meanReversion (deviation : TradingBots.Deviation) (ema : Int)
  | noise (buy : Bool) (offset qty : Int)
  | sniper
  deriving DecidableEq, Repr

/-- What the calls of one activity are answered. -/
def Reply.results : Reply → List OrderResult
  | .result answer => [answer]
  | _ => []

def act (host : Host) (market : Market) : Activity → Except Fault (Market × List OrderResult)
  | .call call => do
      let (engine, reply) ← exec host market.engine call
      pure ({ market with engine }, reply.results)
  | .maker =>
      let (engine, results) := MarketMaker.runMaker host market.engine
      .ok ({ market with engine }, results)
  | .taker =>
      let (engine, results) := MarketMaker.runTaker host market.engine
      .ok ({ market with engine }, results)
  | .momentum =>
      let (engine, prices, results) := TradingBots.runMomentum host market.engine market.prices
      .ok ({ engine, prices }, results)
  | .meanReversion deviation ema =>
      let (engine, results) := TradingBots.runMeanReversion host market.engine deviation ema
      .ok ({ market with engine }, results)
  | .noise buy offset qty =>
      let (engine, results) := TradingBots.runNoise host market.engine buy offset qty
      .ok ({ market with engine }, results)
  | .sniper =>
      let (engine, results) := TradingBots.runSniper host market.engine
      .ok ({ market with engine }, results)

/-- A request whose price is an `int`; only seeding adds to the book directly. -/
def Call.Legal : Call → Prop
  | .addRestingOrder _ => False
  | .processOrder order => FitsInt order.price
  | _ => True

/-- What the random draws and the average of a bot can be. -/
def Activity.Legal : Activity → Prop
  | .call made => made.Legal
  | .meanReversion _ ema => FitsInt ema ∧ ema < intMax
  | .noise _ offset qty => (-5 ≤ offset ∧ offset ≤ 5) ∧ 1 ≤ qty ∧ qty ≤ 8
  | _ => True

instance : DecidablePred Call.Legal
  | .addRestingOrder _ => instDecidableFalse
  | .processOrder order => inferInstanceAs (Decidable (FitsInt order.price))
  | .nextOrderId | .cancelOrder _ => instDecidableTrue

instance : DecidablePred Activity.Legal
  | .call made => inferInstanceAs (Decidable made.Legal)
  | .meanReversion _ ema => inferInstanceAs (Decidable (FitsInt ema ∧ ema < intMax))
  | .noise _ offset qty =>
      inferInstanceAs (Decidable ((-5 ≤ offset ∧ offset ≤ 5) ∧ 1 ≤ qty ∧ qty ≤ 8))
  | .maker | .taker | .momentum | .sniper => instDecidableTrue

/-- Runs of requests and turns of the strategies, in any order. -/
abbrev MarketRun (host : Host) (start : Market) :
    List (Transition Market Activity (List OrderResult)) → Market → Prop :=
  Run (act host) (fun _ activity => activity.Legal) start

/-! ## Orderly books -/

structure OrderBook.Orderly (book : OrderBook) : Prop where
  sound : book.Sound
  uncrossed : book.Uncrossed
  priced : ∀ order ∈ book.resting, 0 < order.price ∧ order.price ≤ intMax

namespace MatchingEngine

variable {host : Host} {engine next : MatchingEngine}

theorem Answered.orderly {call : Call} {reply : Reply}
    (answered : Answered host engine call reply next) (legal : call.Legal)
    (orderly : engine.book.Orderly) : next.book.Orderly where
  sound := answered.sound orderly.sound
  uncrossed := by
    refine answered.uncrossed ?_ orderly.sound orderly.uncrossed
    rintro order rfl
    exact legal
  priced := by
    cases answered with
    | allotted => exact orderly.priced
    | added order => exact legal.elim
    | refused order status => simpa using orderly.priced
    | accepted incoming ok swept =>
        intro order member
        rcases mem_resting_concluded member with rests | old
        · obtain ⟨rfl, limit, _⟩ := eq_of_mem_remainder rests
          rw [swept.taker] at limit ⊢
          exact ⟨(passed_of_isOk ok).price_pos limit, legal.2⟩
        · obtain ⟨before, beforeMember, same⟩ := swept.kept order old
          rw [same]
          exact orderly.priced before beforeMember
    | unknown => exact orderly.priced
    | withdrawn node queued =>
        intro order member
        rw [book_cancelled] at member
        exact orderly.priced order
          ((orderly.sound.resting_withdrawn queued).mem_iff.mpr (.tail _ member))

variable (host) in
theorem orderly_submit (orderly : engine.book.Orderly) (side : Side) {price : Int}
    (fits : FitsInt price) (qty : Int) (type : OrderType) :
    (engine.submit host side price qty type).1.book.Orderly := by
  have answered : Answered host engine.nextOrderId.1
      (.processOrder { id := engine.nextOrderId.2, side, price, qty, type }) (.result _)
      (engine.submit host side price qty type).1 := answered_of_exec orderly.sound rfl
  exact answered.orderly fits orderly

end MatchingEngine

theorem FitsInt.max {first second : Int} (fits : FitsInt first) (fitsOther : FitsInt second) :
    FitsInt (max first second) := by
  unfold FitsInt at *
  omega

theorem FitsInt.min {first second : Int} (fits : FitsInt first) (fitsOther : FitsInt second) :
    FitsInt (min first second) := by
  unfold FitsInt at *
  omega

namespace OrderBook.Orderly

variable {book : OrderBook} (orderly : book.Orderly) {side : Side} {price : Int}

include orderly

theorem bestPrice_pos (best : book.bestPrice side = some price) :
    0 < price ∧ price ≤ intMax := by
  obtain ⟨order, member, _, rfl⟩ := exists_resting_of_bestPrice orderly.sound best
  exact orderly.priced order member

theorem bid_lt_ask {bb ba : Int} (bid : book.bestBid = some bb) (ask : book.bestAsk = some ba) :
    bb < ba :=
  (uncrossed_iff orderly.sound).mp orderly.uncrossed bb bid ba ask

theorem fitsInt_bestPrice (best : book.bestPrice side = some price) : FitsInt price := by
  obtain ⟨positive, small⟩ := orderly.bestPrice_pos best
  exact ⟨by omega, small⟩

end OrderBook.Orderly

/-! ## What every order of a strategy keeps, every turn keeps -/

/-- Kept by each order without a user whose price is an `int`. -/
structure KeptBySubmit (host : Host) (kept : MatchingEngine → Prop) : Prop where
  orderly : ∀ {engine : MatchingEngine}, kept engine → engine.book.Orderly
  submit : ∀ {engine : MatchingEngine} (side : Side) {price : Int} (qty : Int) (type : OrderType),
    kept engine → FitsInt price → kept (engine.submit host side price qty type).1

theorem keptBySubmit_orderly (host : Host) :
    KeptBySubmit host (fun engine => engine.book.Orderly) where
  orderly := id
  submit side _ qty type orderly fits :=
    MatchingEngine.orderly_submit host orderly side fits qty type

theorem MarketMaker.fitsInt_askPx (book : OrderBook) : FitsInt (askPx book) := by
  unfold askPx
  simp only
  split
  · exact fitsInt_castInt _
  · exact fitsInt_castInt _

section Turns

variable {host : Host} {kept : MatchingEngine → Prop} (keeps : KeptBySubmit host kept)
  {engine : MatchingEngine} (before : kept engine)

include keeps before

theorem MarketMaker.kept_runMaker : kept (runMaker host engine).1 := by
  unfold runMaker
  simp only
  split
  · exact keeps.submit _ _ _ (keeps.submit _ _ _ before (fitsInt_castInt _)) (fitsInt_askPx _)
  · exact before

theorem MarketMaker.kept_runTaker : kept (runTaker host engine).1 := by
  unfold runTaker
  simp only
  split
  · exact keeps.submit _ _ _ before (by decide)
  · exact before

namespace TradingBots

theorem kept_quote {side : Side} {price qty : Int} (fits : FitsInt price) :
    kept (quote host engine side price qty).1 :=
  keeps.submit side qty _ before fits

theorem kept_runMomentum (prices : List Int) : kept (runMomentum host engine prices).1 := by
  have orderly := keeps.orderly before
  unfold runMomentum
  cases bid : engine.book.bestBid with
  | none => exact before
  | some bb =>
      cases ask : engine.book.bestAsk with
      | none => exact before
      | some ba =>
          simp only
          split
          · exact before
          split
          · exact kept_quote keeps before (orderly.fitsInt_bestPrice ask)
          split
          · exact kept_quote keeps before (orderly.fitsInt_bestPrice bid)
          · exact before

theorem kept_runMeanReversion (deviation : Deviation) {ema : Int} (fits : FitsInt ema) :
    kept (runMeanReversion host engine deviation ema).1 := by
  unfold runMeanReversion
  cases engine.book.bestBid with
  | none => exact before
  | some bb =>
      cases engine.book.bestAsk with
      | none => exact before
      | some ba =>
          cases deviation with
          | above => exact kept_quote keeps before ((fitsInt_castInt _).max (fitsInt_castInt _))
          | below =>
              refine kept_quote keeps before ?_
              split
              · decide
              · exact fits.min (fitsInt_castInt _)
          | within => exact before

theorem kept_runNoise (buy : Bool) (offset qty : Int) :
    kept (runNoise host engine buy offset qty).1 := by
  have fitsOne : FitsInt 1 := by decide
  unfold runNoise
  cases engine.book.bestBid with
  | none => exact before
  | some bb =>
      cases engine.book.bestAsk with
      | none => exact before
      | some ba => exact kept_quote keeps before (fitsOne.max (fitsInt_castInt _))

theorem kept_runSniper : kept (runSniper host engine).1 := by
  unfold runSniper
  cases engine.book.bestBid with
  | none => exact before
  | some bb =>
      cases engine.book.bestAsk with
      | none => exact before
      | some ba =>
          simp only
          split
          · exact before
          split
          · exact before
          · exact keeps.submit _ _ _ (keeps.submit _ _ _ before (fitsInt_castInt _))
              (fitsInt_castInt _)

end TradingBots

end Turns

/-- What the orders and the calls keep, an activity keeps. -/
theorem KeptBySubmit.kept_act {host : Host} {kept : MatchingEngine → Prop}
    (keeps : KeptBySubmit host kept) {market next : Market} {activity : Activity}
    {results : List OrderResult} (before : kept market.engine) (legal : activity.Legal)
    (calls : ∀ call reply engine, activity = .call call →
      MatchingEngine.Answered host market.engine call reply engine → kept engine)
    (acts : act host market activity = .ok (next, results)) : kept next.engine := by
  cases activity with
  | call call =>
      obtain ⟨answer, answers, made⟩ := exists_of_bind acts
      cases made
      exact calls call _ _ rfl
        (MatchingEngine.answered_of_exec (keeps.orderly before).sound answers)
  | maker =>
      cases acts
      exact MarketMaker.kept_runMaker keeps before
  | taker =>
      cases acts
      exact MarketMaker.kept_runTaker keeps before
  | momentum =>
      cases acts
      exact TradingBots.kept_runMomentum keeps before _
  | meanReversion deviation ema =>
      cases acts
      exact TradingBots.kept_runMeanReversion keeps before deviation legal.1
  | noise buy offset qty =>
      cases acts
      exact TradingBots.kept_runNoise keeps before buy offset qty
  | sniper =>
      cases acts
      exact TradingBots.kept_runSniper keeps before

theorem orderly_of_marketRun {host : Host} {start market : Market}
    {log : List (Transition Market Activity (List OrderResult))}
    (orderly : start.engine.book.Orderly) (run : MarketRun host start log market) :
    market.engine.book.Orderly := by
  refine run.invariant (fun _ market => market.engine.book.Orderly) orderly ?_
  intro log market activity results next _ soFar legal acts
  refine (keptBySubmit_orderly host).kept_act soFar legal ?_ acts
  rintro call reply engine rfl answered
  exact answered.orderly legal soFar

end OrderBookSimulator
