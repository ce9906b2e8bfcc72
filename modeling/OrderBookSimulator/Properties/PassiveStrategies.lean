import OrderBookSimulator.Engine.Walk
import OrderBookSimulator.MarketMaker.Quotes

/-!
# Passive strategies

The market maker, the mean-reversion bot and the sniper quote beside the best
prices and never at them.  The one exception is a quote that is pushed past the
largest `int` and comes back as the best bid.
-/

namespace OrderBookSimulator

open Library

/-- Nothing was traded, every queue keeps what it held, and the book is uncrossed. -/
structure TakesNothing (before after : OrderBook) (results : List OrderResult) : Prop where
  noTrade : ∀ result ∈ results, result.trades = []
  kept : before.Extends after
  uncrossed : after.Uncrossed

/-! ## Single quotes and pairs of quotes -/

namespace MatchingEngine

variable (host : Host) {engine : MatchingEngine}

/-- A quote that meets nobody takes nothing and adds at most itself. -/
theorem takesNothing_submit (qty : Int) (orderly : engine.book.Orderly) (side : Side)
    {price : Int} (fits : FitsInt price)
    (behind : 0 < price → ∀ other ∈ engine.book.resting, other.side = side.opposite →
      beyondLimit side other.price price = true) :
    TakesNothing engine.book (engine.submit host side price qty .limit).1.book
        [(engine.submit host side price qty .limit).2] ∧
      ∀ order ∈ (engine.submit host side price qty .limit).1.book.resting,
        order ∈ engine.book.resting ∨ order.side = side ∧ order.price = price := by
  have uncrossed := (orderly_submit host orderly side fits qty .limit).uncrossed
  obtain ⟨noTrade, book⟩ := submit_of_behind host qty orderly.sound behind
  refine ⟨⟨by simpa using noTrade, ?_, uncrossed⟩, ?_⟩
  · rw [book]
    split
    · exact OrderBook.extends_addRestingOrder _ _
    · exact .refl _
  · intro order member
    rw [book] at member
    split at member
    · rcases OrderBook.mem_resting_addRestingOrder member with rfl | old
      · exact Or.inr ⟨rfl, rfl⟩
      · exact Or.inl old
    · exact Or.inl member

section Pair

variable (qty : Int) (orderly : engine.book.Orderly) {bid ask : Int} (bidFits : FitsInt bid)
  (below : 0 < bid → ∀ ba ∈ engine.book.bestAsk, bid < ba)

include orderly below

theorem bid_behind (positive : 0 < bid) : ∀ other ∈ engine.book.resting,
    other.side = Side.buy.opposite → beyondLimit .buy other.price bid = true :=
  orderly.sound.beyond_of_best fun ba best => by
    simpa [beyondLimit] using below positive ba best

include bidFits

/-- An ask above every bid and above the bid before it meets nobody after that bid. -/
theorem ask_behind (above : 0 < ask → ∀ bb ∈ engine.book.bestBid, bb < ask)
    (apart : 0 < ask → bid < ask) (positive : 0 < ask) :
    ∀ other ∈ (engine.submit host .buy bid qty .limit).1.book.resting,
      other.side = Side.sell.opposite → beyondLimit .sell other.price ask = true := by
  intro other member isBid
  have grows := (takesNothing_submit host qty orderly .buy bidFits
    (bid_behind orderly below)).2
  rcases grows other member with old | ⟨_, samePrice⟩
  · refine orderly.sound.beyond_of_best (fun bb best => ?_) other old isBid
    simpa [beyondLimit] using above positive bb best
  · rw [samePrice]
    simpa [beyondLimit] using apart positive

/-- A bid below every ask and an ask above every bid, and above the bid before it. -/
theorem takesNothing_pair (askFits : FitsInt ask)
    (above : 0 < ask → ∀ bb ∈ engine.book.bestBid, bb < ask) (apart : 0 < ask → bid < ask) :
    TakesNothing engine.book
      ((engine.submit host .buy bid qty .limit).1.submit host .sell ask qty .limit).1.book
      [(engine.submit host .buy bid qty .limit).2,
        ((engine.submit host .buy bid qty .limit).1.submit host .sell ask qty .limit).2] := by
  have first := (takesNothing_submit host qty orderly .buy bidFits (bid_behind orderly below)).1
  have second := (takesNothing_submit host qty (orderly_submit host orderly .buy bidFits qty .limit)
    .sell askFits (ask_behind host qty orderly bidFits below above apart)).1
  exact {
    noTrade := by
      simpa using ⟨first.noTrade _ (.head _), second.noTrade _ (.head _)⟩
    kept := first.kept.trans second.kept
    uncrossed := second.uncrossed }

end Pair

/-- An order that the best opposing price admits trades. -/
theorem trades_ne_nil_of_admitted (sound : engine.book.Sound) {order : Order}
    (ok : (engine.preflightCheck host order).isOk = true) {price : Int}
    (best : engine.book.bestPrice order.side.opposite = some price)
    (admits : beyondLimit order.side price order.price = false) :
    (engine.processOrder host order).2.trades ≠ [] := by
  have wants := (passed_of_isOk ok).qty_pos
  obtain ⟨⟨level, queue⟩, first, rfl⟩ := Option.map_eq_some_iff.mp best
  obtain ⟨_, maker, rest, isFirst⟩ := sound.exists_front (by rw [first]; simp)
  obtain ⟨rfl, rfl⟩ := Prod.mk.inj (Option.some.inj (first.symm.trans isFirst))
  have startBook : (startSweep host engine engine.batchSeq order).engine.book = engine.book := by
    simp [startSweep]
  have fillable : Fillable order.side (startSweep host engine engine.batchSeq order) level
      maker rest := by
    refine ⟨wants, ?_, fun beyond => ?_⟩
    · rw [startBook]
      exact isFirst
    · have isBeyond := beyond.2
      rw [show (startSweep host engine engine.batchSeq order).taker = order from rfl,
        admits] at isBeyond
      cases isBeyond
  obtain ⟨tail, opposing, _⟩ :=
    opposing_of_fillable host engine.batchSeq (startBook ▸ sound) fillable
  rw [startBook] at opposing
  rw [processOrder_of_accepted host engine order ok]
  intro none
  have traded := trades_callSweep host sound (Int.le_of_lt wants)
  have reported := unstamped_report host order (engine.callSweep host order)
  rw [show (startSweep host engine engine.batchSeq order).taker = order from rfl] at opposing
  rw [none, traded, opposing, takes, if_pos wants] at reported
  cases reported

theorem trades_submit_of_admitted (sound : engine.book.Sound) {side : Side} {price qty : Int}
    (wants : 0 < qty) (positive : 0 < price) {opposing : Int}
    (best : engine.book.bestPrice side.opposite = some opposing)
    (admits : beyondLimit side opposing price = false) :
    (engine.submit host side price qty .limit).2.trades ≠ [] := by
  let order := engine.quoted side price qty
  have ok : (engine.nextOrderId.1.preflightCheck host order).isOk = true :=
    (isOk_of_house host rfl rfl).mpr ⟨wants, positive⟩
  have soundThen : engine.nextOrderId.1.book.Sound := sound
  exact trades_ne_nil_of_admitted host soundThen ok best admits

end MatchingEngine

/-! ## The market maker -/

namespace MarketMaker

/-- Only bids, the best of them at the largest `int`: the ask comes back as that price. -/
def AskWraps (host : Host) (book : OrderBook) : Prop :=
  book.bestAsk = none ∧ book.bestBid = some intMax ∧ 0 < toAdd host book

variable {host : Host} {engine : MatchingEngine} (orderly : engine.book.Orderly)

include orderly

/-- The quotes stand beside the best prices, or preflight refuses them. -/
theorem quotes_beside (notLargest : ¬ (engine.book.bestAsk = none ∧
      engine.book.bestBid = some intMax)) :
    (∀ ba ∈ engine.book.bestAsk, bidPx engine.book < ba) ∧
      (0 < askPx engine.book → ∀ bb ∈ engine.book.bestBid, bb < askPx engine.book) ∧
      bidPx engine.book < askPx engine.book := by
  have range := mid_range orderly
  rw [bidPx_eq orderly, askPx_eq orderly]
  cases bid : engine.book.bestBid with
  | none =>
      cases ask : engine.book.bestAsk with
      | none => exact ⟨by simp, by simp, by omega⟩
      | some ba =>
          have isMid : mid engine.book = ba := by simp only [mid, bid, ask]
          rw [isMid] at range ⊢
          refine ⟨fun other isBest => ?_, by simp, by omega⟩
          obtain rfl := Option.some.inj isBest
          omega
  | some bb =>
      cases ask : engine.book.bestAsk with
      | none =>
          have isMid : mid engine.book = bb := by simp only [mid, bid, ask]
          have below : bb ≠ intMax := by
            rintro rfl
            exact notLargest ⟨ask, bid⟩
          rw [isMid] at range ⊢
          refine ⟨by simp, fun _ other isBest => ?_, by omega⟩
          obtain rfl := Option.some.inj isBest
          omega
      | some ba =>
          have apart := orderly.bid_lt_ask bid ask
          have rangeBid := orderly.bestPrice_pos bid
          have rangeAsk := orderly.bestPrice_pos ask
          by_cases fits : bb + ba ≤ intMax
          · obtain ⟨low, high, _⟩ := mid_of_fits orderly bid ask fits
            refine ⟨fun other isBest => ?_, fun _ other isBest => ?_, by omega⟩
            · obtain rfl := Option.some.inj isBest
              omega
            · obtain rfl := Option.some.inj isBest
              omega
          · obtain ⟨_, negative⟩ := mid_of_wraps orderly bid ask (by omega)
            refine ⟨fun other isBest => ?_, fun positive => ?_, by omega⟩
            · obtain rfl := Option.some.inj isBest
              omega
            · omega

/-- An ask that comes back as the best bid sells into the bids. -/
theorem trades_of_wraps (noAsk : engine.book.bestAsk = none)
    (largest : engine.book.bestBid = some intMax) {qty : Int} (adds : 0 < qty) :
    ((engine.submit host .buy (bidPx engine.book) qty .limit).1.submit host .sell
      (askPx engine.book) qty .limit).2.trades ≠ [] := by
  have isMid : mid engine.book = intMax := by simp only [mid, noAsk, largest]
  have ask : askPx engine.book = intMax := by
    rw [askPx_eq orderly, isMid]
    decide
  let first := engine.submit host .buy (bidPx engine.book) qty .limit
  have bidFits : FitsInt (bidPx engine.book) := fitsInt_castInt _
  have kept := (MatchingEngine.takesNothing_submit host qty orderly .buy bidFits
    (MatchingEngine.bid_behind orderly fun _ ba isBest => by
      rw [noAsk] at isBest
      cases isBest)).1.kept
  have firstOrderly : first.1.book.Orderly :=
    MatchingEngine.orderly_submit host orderly .buy bidFits _ _
  have wasBest : engine.book.bestPrice .buy = some intMax := largest
  obtain ⟨best, isBest, atOrAhead⟩ := kept.bestPrice orderly.sound firstOrderly.sound wasBest
  refine MatchingEngine.trades_submit_of_admitted host firstOrderly.sound adds ?_ isBest ?_
  · rw [ask]
    decide
  · simp only [MatchingEngine.beyondLimit, ask, decide_eq_false_iff_not]
    simp only [Ahead] at atOrAhead
    omega

/-- A tick takes liquidity if and only if its ask comes back as the best bid. -/
theorem takesNothing_runMaker_iff :
    TakesNothing engine.book (runMaker host engine).1.book (runMaker host engine).2 ↔
      ¬ AskWraps host engine.book := by
  unfold runMaker
  by_cases adds : 0 < toAdd host engine.book
  · simp only [if_pos adds]
    by_cases wraps : engine.book.bestAsk = none ∧ engine.book.bestBid = some intMax
    · refine ⟨fun takes => ?_, fun notWraps => absurd ⟨wraps.1, wraps.2, adds⟩ notWraps⟩
      exact absurd (takes.noTrade _ (.tail _ (.head _)))
        (trades_of_wraps orderly wraps.1 wraps.2 adds)
    · obtain ⟨below, above, apart⟩ := quotes_beside orderly wraps
      refine iff_of_true ?_ fun askWraps => wraps ⟨askWraps.1, askWraps.2.1⟩
      exact MatchingEngine.takesNothing_pair host _ orderly (fitsInt_castInt _) (fun _ => below)
        (fitsInt_askPx _) above fun _ => apart
  · simp only [if_neg adds]
    exact iff_of_true ⟨by simp, .refl _, orderly.uncrossed⟩ fun askWraps => adds askWraps.2.2

end MarketMaker

/-! ## The bots -/

namespace TradingBots

variable {host : Host} {engine : MatchingEngine} (orderly : engine.book.Orderly)

include orderly

theorem takesNothing_idle : TakesNothing engine.book engine.book [] :=
  ⟨by simp, .refl _, orderly.uncrossed⟩

/-- One tick towards the other side leaves the range of an `int` on neither side. -/
theorem castInt_inside {bb ba : Int} (bid : engine.book.bestBid = some bb)
    (ask : engine.book.bestAsk = some ba) :
    castInt (bb + 1) = bb + 1 ∧ castInt (ba - 1) = ba - 1 := by
  have apart := orderly.bid_lt_ask bid ask
  have rangeBid := orderly.bestPrice_pos bid
  have rangeAsk := orderly.bestPrice_pos ask
  exact ⟨castInt_of_fits ⟨by omega, by omega⟩, castInt_of_fits ⟨by omega, by omega⟩⟩

/-- A firing quotes one tick above the best bid or below the best ask, or further away. -/
theorem takesNothing_runMeanReversion (deviation : Deviation) {ema : Int} (fits : FitsInt ema)
    (small : ema < intMax) :
    TakesNothing engine.book (runMeanReversion host engine deviation ema).1.book
      (runMeanReversion host engine deviation ema).2 := by
  unfold runMeanReversion
  cases bid : engine.book.bestBid with
  | none => exact takesNothing_idle orderly
  | some bb =>
      cases ask : engine.book.bestAsk with
      | none => exact takesNothing_idle orderly
      | some ba =>
          have apart := orderly.bid_lt_ask bid ask
          have rangeBid := orderly.bestPrice_pos bid
          obtain ⟨above, below⟩ := castInt_inside orderly bid ask
          cases deviation with
          | above =>
              refine (MatchingEngine.takesNothing_submit host 15 orderly .sell
                ((fitsInt_castInt _).max (fitsInt_castInt _)) fun _ =>
                  orderly.sound.beyond_of_best fun best isBest => ?_).1
              obtain rfl := Option.some.inj (bid.symm.trans isBest)
              simp only [MatchingEngine.beyondLimit, decide_eq_true_eq, above]
              omega
          | below =>
              simp only [below]
              have fitsPrice : FitsInt (if min ema (ba - 1) < 1 then 1 else min ema (ba - 1)) := by
                have range := fits.1
                unfold FitsInt
                split <;> omega
              refine (MatchingEngine.takesNothing_submit host 15 orderly .buy fitsPrice fun _ =>
                orderly.sound.beyond_of_best fun best isBest => ?_).1
              obtain rfl := Option.some.inj (ask.symm.trans isBest)
              simp only [MatchingEngine.beyondLimit, decide_eq_true_eq]
              split <;> omega
          | within => exact takesNothing_idle orderly

/-- The sniper quotes one tick inside a spread of at least three. -/
theorem takesNothing_runSniper :
    TakesNothing engine.book (runSniper host engine).1.book (runSniper host engine).2 := by
  unfold runSniper
  cases bid : engine.book.bestBid with
  | none => exact takesNothing_idle orderly
  | some bb =>
      cases ask : engine.book.bestAsk with
      | none => exact takesNothing_idle orderly
      | some ba =>
          have apart := orderly.bid_lt_ask bid ask
          have rangeBid := orderly.bestPrice_pos bid
          have rangeAsk := orderly.bestPrice_pos ask
          obtain ⟨above, below⟩ := castInt_inside orderly bid ask
          simp only [above, below]
          split
          · exact takesNothing_idle orderly
          split
          · exact takesNothing_idle orderly
          · refine MatchingEngine.takesNothing_pair host 20 orderly ⟨by omega, by omega⟩
              (fun _ best isBest => ?_) ⟨by omega, by omega⟩ (fun _ best isBest => ?_)
              fun _ => by omega
            · obtain rfl := Option.some.inj (ask.symm.trans isBest)
              omega
            · obtain rfl := Option.some.inj (bid.symm.trans isBest)
              omega

end TradingBots

/-! ## Runs -/

/-- The turns of the strategies that are meant to be passive. -/
def Activity.Passive : Activity → Prop
  | .maker | .meanReversion _ _ | .sniper => True
  | _ => False

theorem takesNothing_act_iff {host : Host} {market next : Market} {activity : Activity}
    {results : List OrderResult} (orderly : market.engine.book.Orderly) (legal : activity.Legal)
    (passive : activity.Passive) (acts : act host market activity = .ok (next, results)) :
    TakesNothing market.engine.book next.engine.book results ↔
      ¬ (activity = .maker ∧ MarketMaker.AskWraps host market.engine.book) := by
  cases activity with
  | maker =>
      obtain ⟨rfl, rfl⟩ := Prod.mk.inj (Except.ok.inj acts)
      exact (MarketMaker.takesNothing_runMaker_iff orderly).trans (by simp)
  | meanReversion deviation ema =>
      cases acts
      exact iff_of_true
        (TradingBots.takesNothing_runMeanReversion orderly deviation legal.1 legal.2) (by simp)
  | sniper =>
      cases acts
      exact iff_of_true (TradingBots.takesNothing_runSniper orderly) (by simp)
  | call | taker | momentum | noise => exact passive.elim

/--
Whoever takes turns on an orderly book, it stays uncrossed, and each turn of a
passive strategy takes nothing, except for the market maker's where its ask
comes back as the best bid.
-/
theorem passive_strategies_iff {host : Host} {start market : Market}
    {log : List (Transition Market Activity (List OrderResult))}
    (orderly : start.engine.book.Orderly) (run : MarketRun host start log market) :
    market.engine.book.Uncrossed ∧
      ∀ entry ∈ log, entry.call.Passive →
        (TakesNothing entry.before.engine.book entry.after.engine.book entry.reply ↔
          ¬ (entry.call = .maker ∧ MarketMaker.AskWraps host entry.before.engine.book)) := by
  refine ⟨(orderly_of_marketRun orderly run).uncrossed, fun entry member passive => ?_⟩
  obtain ⟨past, earlier, legal, acts, _⟩ := run.of_mem member
  exact takesNothing_act_iff (orderly_of_marketRun orderly earlier) legal passive acts

theorem orderly_empty (onChange : Option (List Snapshot)) :
    ({ onChange } : OrderBook).Orderly where
  sound := OrderBook.sound_empty onChange
  uncrossed := by
    intro bid member
    cases member
  priced := by
    intro order member
    cases member

/-- Every passive strategy takes a turn between a bid at 99 and an ask at 104. -/
theorem passive_strategies_sample :
    ∃ log market, MarketRun (Host.twosComplement (·)) { engine := {} } log market ∧
      log.length = 5 ∧ market.engine.book.Uncrossed ∧
      ∀ entry ∈ log, entry.call.Passive →
        (TakesNothing entry.before.engine.book entry.after.engine.book entry.reply ↔
          ¬ (entry.call = .maker ∧
            MarketMaker.AskWraps (Host.twosComplement (·)) entry.before.engine.book)) := by
  have run := Run.of_isSome (act (Host.twosComplement (·))) (fun _ activity => activity.Legal)
    { engine := {} }
    [.call (.processOrder ⟨1, 0, .buy, 99, 5, .limit⟩),
      .call (.processOrder ⟨2, 0, .sell, 104, 5, .limit⟩), .sniper, .maker,
      .meanReversion .above 100] (by decide)
  exact ⟨_, _, run, by decide, passive_strategies_iff (orderly_empty none) run⟩

/-- A bid at the largest `int` and no ask: the market maker sells into it. -/
theorem maker_sells_into_best_bid :
    ∃ log market, MarketRun (Host.twosComplement (·)) { engine := {} } log market ∧
      ∃ entry ∈ log, entry.call = .maker ∧
        ¬ TakesNothing entry.before.engine.book entry.after.engine.book entry.reply := by
  have run := Run.of_isSome (act (Host.twosComplement (·))) (fun _ activity => activity.Legal)
    { engine := {} } [.call (.processOrder ⟨1, 0, .buy, 2147483647, 5, .limit⟩), .maker]
    (by decide)
  refine ⟨_, _, run, _, List.getLast_mem (by decide), by decide, fun takes => ?_⟩
  exact absurd takes.noTrade (by decide)

end OrderBookSimulator
