import OrderBookSimulator.MarketMaker.Market

/-!
# Quotes

What a limit quote without a user does that meets nobody, and which prices the
market maker quotes.
-/

namespace OrderBookSimulator

open Library

/-! ## Submitting a quote -/

namespace OrderBook

variable {book : OrderBook}

/-- What is beyond the best opposing price is beyond every opposing price. -/
theorem Sound.beyond_of_best (sound : book.Sound) {side : Side} {price : Int}
    (best : ∀ opposing ∈ book.bestPrice side.opposite,
      MatchingEngine.beyondLimit side opposing price = true) :
    ∀ other ∈ book.resting, other.side = side.opposite →
      MatchingEngine.beyondLimit side other.price price = true := by
  intro other member isOpposite
  obtain ⟨opposing, isBest, atOrBehind⟩ := bestPrice_of_resting sound member
  rw [isOpposite] at isBest atOrBehind
  have beyond := best opposing isBest
  rcases atOrBehind with same | ahead
  · rw [same]
    exact beyond
  · cases side <;>
      simp only [MatchingEngine.beyondLimit, decide_eq_true_eq, Ahead, Side.opposite]
        at beyond ahead ⊢ <;>
      omega

/-- A book that only grows has a best price at least as good. -/
theorem Extends.bestPrice {before after : OrderBook} (kept : before.Extends after)
    (sound : before.Sound) (soundAfter : after.Sound) {side : Side} {price : Int}
    (best : before.bestPrice side = some price) :
    ∃ now, after.bestPrice side = some now ∧ (price = now ∨ Ahead side now price) := by
  obtain ⟨order, member, rfl, rfl⟩ := exists_resting_of_bestPrice sound best
  exact bestPrice_of_resting soundAfter (kept.mem_resting member)

end OrderBook

namespace MatchingEngine

variable (host : Host) {engine : MatchingEngine}

/-- The order that `submit` makes of a limit quote. -/
def quoted (engine : MatchingEngine) (side : Side) (price qty : Int) : Order :=
  { id := engine.nextId, side, price, qty, type := .limit }

/-- Without a user, only the quantity and the limit can be refused. -/
theorem isOk_of_house {order : Order} (house : order.userId = 0) (limit : order.type = .limit) :
    (engine.preflightCheck host order).isOk = true ↔ 0 < order.qty ∧ 0 < order.price := by
  constructor
  · intro ok
    exact ⟨(passed_of_isOk ok).qty_pos, (passed_of_isOk ok).price_pos limit⟩
  · rintro ⟨wants, priced⟩
    have notMarket : order.type ≠ .market := by
      rw [limit]
      decide
    unfold preflightCheck
    rw [if_neg (Int.not_le.mpr wants), if_neg (fun refused => Int.not_le.mpr priced refused.2),
      if_neg (fun refused => notMarket refused.1), if_neg (fun refused => notMarket refused.1)]
    cases engine.userManager with
    | none => rfl
    | some users => simp [house, PreflightResult.isOk, PreflightResult.ok]

/-- What a quote does that meets nobody, if it is accepted at all. -/
theorem submit_of_behind (qty : Int) (sound : engine.book.Sound) {side : Side} {price : Int}
    (behind : 0 < price → ∀ other ∈ engine.book.resting, other.side = side.opposite →
      beyondLimit side other.price price = true) :
    (engine.submit host side price qty .limit).2.trades = [] ∧
      (engine.submit host side price qty .limit).1.book =
        if 0 < qty ∧ 0 < price then
          engine.book.addRestingOrder (engine.quoted side price qty)
        else engine.book := by
  let order := engine.quoted side price qty
  have accepted : (engine.nextOrderId.1.preflightCheck host order).isOk = true ↔
      0 < qty ∧ 0 < price := isOk_of_house host rfl rfl
  have processed : (engine.nextOrderId.1.processOrder host order).2.trades = [] ∧
      (engine.nextOrderId.1.processOrder host order).1.book = _ :=
    processOrder_of_behind sound rfl fun ok => behind (accepted.mp ok).2
  simp only [accepted] at processed
  exact processed

end MatchingEngine

/-! ## The market maker's prices -/

namespace MarketMaker

variable {book : OrderBook}

theorem mid_of_both {bb ba : Int} (bid : book.bestBid = some bb) (ask : book.bestAsk = some ba) :
    mid book = (castInt (bb + ba)).tdiv 2 := by
  simp only [mid, bid, ask]

variable (orderly : book.Orderly)

include orderly

theorem mid_of_fits {bb ba : Int} (bid : book.bestBid = some bb) (ask : book.bestAsk = some ba)
    (fits : bb + ba ≤ intMax) : bb ≤ mid book ∧ mid book < ba ∧ mid book = (bb + ba) / 2 := by
  have apart := orderly.bid_lt_ask bid ask
  have positive := (orderly.bestPrice_pos bid).1
  rw [mid_of_both bid ask, castInt_of_fits ⟨by omega, fits⟩, Int.tdiv_eq_ediv_of_nonneg (by omega)]
  omega

/-- Where the sum of the best prices is too large, the mid is negative. -/
theorem mid_of_wraps {bb ba : Int} (bid : book.bestBid = some bb) (ask : book.bestAsk = some ba)
    (wraps : intMax < bb + ba) : -(2 ^ 30) ≤ mid book ∧ mid book < 0 := by
  have apart := orderly.bid_lt_ask bid ask
  have small := (orderly.bestPrice_pos ask).2
  have negative : castInt (bb + ba) = -(2 ^ 32 - bb - ba) := by
    rw [castInt_of_large wraps (by omega)]
    omega
  unfold intMax at *
  rw [mid_of_both bid ask, negative, Int.neg_tdiv, Int.tdiv_eq_ediv_of_nonneg (by omega)]
  omega

theorem mid_range : -(2 ^ 30) ≤ mid book ∧ mid book ≤ intMax := by
  cases bid : book.bestBid with
  | none =>
      cases ask : book.bestAsk with
      | none =>
          simp only [mid, bid, ask]
          decide
      | some ba =>
          have range := orderly.bestPrice_pos ask
          simp only [mid, bid, ask]
          omega
  | some bb =>
      have range := orderly.bestPrice_pos bid
      cases ask : book.bestAsk with
      | none =>
          simp only [mid, bid, ask]
          omega
      | some ba =>
          have rangeAsk := orderly.bestPrice_pos ask
          by_cases fits : bb + ba ≤ intMax
          · have between := mid_of_fits orderly bid ask fits
            omega
          · have negative := mid_of_wraps orderly bid ask (by omega)
            unfold intMax
            omega

theorem bidPx_eq : bidPx book = mid book - 1 := by
  have range := mid_range orderly
  have half : spread.tdiv 2 = 1 := rfl
  rw [bidPx, half, castInt_of_fits ⟨by omega, by omega⟩]

/-- The ask is one above the mid, unless that is no `int`: then it is the mid itself. -/
theorem askPx_eq : askPx book = min (mid book + 1) intMax := by
  have range := mid_range orderly
  have half : spread.tdiv 2 = 1 := rfl
  simp only [askPx, bidPx_eq orderly, half]
  by_cases largest : mid book = intMax
  · have wrapped : castInt (mid book + 1) = -(2 ^ 31) := by
      rw [largest]
      decide
    rw [wrapped, if_pos (by omega), Int.sub_add_cancel, castInt_of_fits ⟨by omega, by omega⟩]
    omega
  · rw [castInt_of_fits ⟨by omega, by omega⟩, if_neg (by omega)]
    omega

end MarketMaker

end OrderBookSimulator
