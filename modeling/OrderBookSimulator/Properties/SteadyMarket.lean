import Mathlib.Data.List.TakeWhile
import Mathlib.Data.Set.Finite.Lemmas
import OrderBookSimulator.Properties.TopUp

/-!
# A market maker left to itself

The two loops of the market maker take turns in any order, and nobody else
trades.  Prices stay in the corridor they start in, neither side runs dry or
outgrows the other, every quote rests whole and every taker order is filled.
-/

namespace OrderBookSimulator

open Library

/-! ## Orders without a user -/

namespace MatchingEngine

section Submit

variable (host : Host) {engine : MatchingEngine}

/-- A quote that meets nobody is answered that it is new. -/
theorem status_submit_of_behind (sound : engine.book.Sound) {side : Side} {price qty : Int}
    (wants : 0 < qty) (positive : 0 < price)
    (behind : ∀ other ∈ engine.book.resting, other.side = side.opposite →
      beyondLimit side other.price price = true) :
    (engine.submit host side price qty .limit).2.status = .new := by
  let order := engine.quoted side price qty
  have ok : (engine.nextOrderId.1.preflightCheck host order).isOk = true :=
    (isOk_of_house host rfl rfl).mpr ⟨wants, positive⟩
  have swept : engine.nextOrderId.1.callSweep host order =
      startSweep host (engine.nextOrderId.1.opened order) engine.batchSeq order :=
    callSweep_of_behind sound rfl behind
  have answered := processOrder_of_accepted host engine.nextOrderId.1 order ok
  rw [swept] at answered
  change (engine.nextOrderId.1.processOrder host order).2.status = .new
  rw [answered]
  exact (fillStatus_eq_new_iff _ _).mpr (Int.sub_self _)

/-- The order that `submit` makes of a market order. -/
def taking (engine : MatchingEngine) (side : Side) (qty : Int) : Order :=
  { id := engine.nextId, side, price := 0, qty, type := .market }

/-- Without a user, a market order is let through if there is anything on the other side. -/
theorem isOk_of_house_market {order : Order} (house : order.userId = 0)
    (market : order.type = .market) (wants : 0 < order.qty)
    (opposed : engine.book.bestPrice order.side.opposite ≠ none) :
    (engine.preflightCheck host order).isOk = true := by
  have notLimit : order.type ≠ .limit := by
    rw [market]
    decide
  unfold preflightCheck
  rw [if_neg (Int.not_le.mpr wants), if_neg (fun refused => notLimit refused.1), if_neg, if_neg]
  · cases engine.userManager with
    | none => rfl
    | some users => simp [house, PreflightResult.isOk, PreflightResult.ok]
  · rintro ⟨_, sells, none⟩
    rw [sells] at opposed
    exact opposed none
  · rintro ⟨_, buys, none⟩
    rw [buys] at opposed
    exact opposed none

/-- A market order may trade with the whole other side. -/
theorem sum_opposing_of_market (book : OrderBook) {order : Order} (market : order.type = .market) :
    ((book.opposing order).map (·.qty)).sum = book.depth order.side.opposite := by
  have all : book.opposing order = (book.queue order.side.opposite).map (·.order) := by
    refine List.takeWhile_eq_self_iff.mpr fun maker _ => ?_
    simp [admitsMaker, market]
  rw [all, OrderBook.depth_eq_queue, List.map_map]
  rfl

/-- What a market order without a user does that the other side covers. -/
structure Taken (host : Host) (engine : MatchingEngine) (side : Side) (qty : Int) : Prop where
  status : (engine.submit host side 0 qty .market).2.status = .filled
  opposite : (engine.submit host side 0 qty .market).1.book.depth side.opposite =
    engine.book.depth side.opposite - qty
  own : (engine.submit host side 0 qty .market).1.book.depth side = engine.book.depth side
  kept : ∀ order ∈ (engine.submit host side 0 qty .market).1.book.resting,
    ∃ old ∈ engine.book.resting, order = { old with qty := order.qty }

theorem taken_of_covered (sound : engine.book.Sound) {side : Side} {qty : Int} (wants : 0 < qty)
    (covered : qty ≤ engine.book.depth side.opposite) : Taken host engine side qty := by
  let order := engine.taking side qty
  have opposed : engine.book.bestPrice side.opposite ≠ none := by
    intro none
    have empty := OrderBook.depth_of_first? (Option.map_eq_none_iff.mp none)
    omega
  have answered := processOrder_of_accepted host engine.nextOrderId.1 order
    (isOk_of_house_market host rfl rfl wants opposed)
  have swept : Swept engine.book order (engine.nextOrderId.1.callSweep host order) :=
    swept_callSweep host (show engine.nextOrderId.1.book.Sound from sound) (Int.le_of_lt wants)
  have left : (engine.nextOrderId.1.callSweep host order).taker.qty = 0 := by
    have taken : (engine.nextOrderId.1.callSweep host order).taker.qty = order.qty -
        min order.qty ((engine.nextOrderId.1.book.opposing order).map (·.qty)).sum :=
      left_callSweep host sound (Int.le_of_lt wants)
    rw [sum_opposing_of_market _ rfl] at taken
    have all : min order.qty (engine.nextOrderId.1.book.depth order.side.opposite) = order.qty :=
      Int.min_eq_left covered
    rw [all, Int.sub_self] at taken
    exact taken
  have book : (engine.submit host side 0 qty .market).1.book =
      announcedBook (engine.nextOrderId.1.callSweep host order) := by
    change (engine.nextOrderId.1.processOrder host order).1.book = _
    rw [answered, book_concluded, book_restRemainder, if_neg]
    rintro ⟨_, rests⟩
    rw [left] at rests
    exact Int.lt_irrefl _ rests
  have depth : ∀ counted, (engine.submit host side 0 qty .market).1.book.depth counted =
      (engine.nextOrderId.1.callSweep host order).engine.book.depth counted := by
    intro counted
    rw [book]
    unfold announcedBook
    split
    · rfl
    · exact OrderBook.depth_notifyChange _ _
  refine ⟨?_, ?_, ?_, ?_⟩
  · change (engine.nextOrderId.1.processOrder host order).2.status = .filled
    rw [answered]
    change fillStatus (order.qty - (engine.nextOrderId.1.callSweep host order).taker.qty) _ = _
    refine (fillStatus_eq_filled_iff ?_).mpr left
    rw [left, Int.add_zero, Int.sub_zero]
    exact wants
  · have moved := depth_callSweep host engine.nextOrderId.1 order
    rw [left] at moved
    have fromBook : engine.nextOrderId.1.book.depth order.side.opposite =
        engine.book.depth side.opposite := rfl
    have wanted : order.qty = qty := rfl
    have sameSide : order.side = side := rfl
    rw [fromBook, wanted, sameSide] at moved
    rw [depth]
    omega
  · rw [depth]
    exact depth_callSweep_own host engine.nextOrderId.1 order
  · intro other member
    rw [book, swept.announced.1] at member
    exact swept.kept other member

end Submit

end MatchingEngine

/-! ## The corridor -/

/-- Prices between which the market maker is to stay, and how deep and how uneven the book may be. -/
structure Corridor where
  lowest : Int
  highest : Int
  /-- By how much one side may be deeper than the other. -/
  skew : Int
  /-- How little each side holds at least. -/
  floor : Int
  /-- How much the less deep side holds at most. -/
  ceiling : Int
  lowestPos : 1 ≤ lowest
  highestFits : 2 * highest - 2 ≤ intMax
  skewWide : MarketMaker.takerQty ≤ skew
  floorPos : 0 < floor
  floorLow : floor ≤ MarketMaker.minDepth - MarketMaker.takerQty
  ceilingHigh : MarketMaker.targetDepth ≤ ceiling
  fits : ceiling + skew ≤ longLongMax

namespace Corridor

/-- The prices of a bid and of an ask within the corridor. -/
def Admits (corridor : Corridor) : Side → Int → Prop
  | .buy, price => corridor.lowest ≤ price ∧ price ≤ corridor.highest - 2
  | .sell, price => corridor.lowest + 2 ≤ price ∧ price ≤ corridor.highest

instance (corridor : Corridor) (side : Side) (price : Int) :
    Decidable (corridor.Admits side price) := by
  cases side <;> exact inferInstanceAs (Decidable (_ ∧ _))

/-- A book of which the market maker keeps hold. -/
structure Holds (corridor : Corridor) (book : OrderBook) : Prop where
  band : ∀ order ∈ book.resting, corridor.Admits order.side order.price
  deep : ∀ side, corridor.floor ≤ book.depth side
  even : ∀ side : Side, book.depth side - book.depth side.opposite ≤ corridor.skew
  low : min (book.depth .buy) (book.depth .sell) ≤ corridor.ceiling

variable {corridor : Corridor} {book : OrderBook}

namespace Holds

variable (holds : corridor.Holds book)

include holds

theorem fitsLongLong (sound : book.Sound) (side : Side) : FitsLongLong (book.depth side) := by
  have even := holds.even side
  have low := holds.low
  have fits := corridor.fits
  have nonneg := sound.depth_nonneg side
  have opposite : book.depth side.opposite ≤ corridor.ceiling ∨ book.depth side ≤ corridor.ceiling := by
    cases side <;> simp only [Side.opposite] <;> omega
  have skewPos := corridor.skewWide
  unfold MarketMaker.takerQty at skewPos
  unfold FitsLongLong
  omega

/-- Both sides have a best price, and it is within the corridor. -/
theorem best (sound : book.Sound) (side : Side) :
    ∃ price, book.bestPrice side = some price ∧ corridor.Admits side price := by
  cases best : book.bestPrice side with
  | none =>
      have empty := OrderBook.depth_of_first? (Option.map_eq_none_iff.mp best)
      have deep := holds.deep side
      have floorPos := corridor.floorPos
      omega
  | some price =>
      obtain ⟨order, member, rfl, rfl⟩ := OrderBook.exists_resting_of_bestPrice sound best
      exact ⟨_, rfl, holds.band order member⟩

/-- The mid is far enough from the ends of the corridor to be quoted on both sides of. -/
theorem mid (orderly : book.Orderly) : corridor.lowest + 1 ≤ MarketMaker.mid book ∧
    MarketMaker.mid book ≤ corridor.highest - 1 := by
  obtain ⟨bb, bid, bidLow, bidHigh⟩ := holds.best orderly.sound .buy
  obtain ⟨ba, ask, askLow, askHigh⟩ := holds.best orderly.sound .sell
  have fits := corridor.highestFits
  have isMid := (MarketMaker.mid_of_fits orderly bid ask (by omega)).2.2
  omega

theorem quotesBoth (orderly : book.Orderly) : MarketMaker.QuotesBoth book := by
  obtain ⟨bb, bid, bidLow, bidHigh⟩ := holds.best orderly.sound .buy
  obtain ⟨ba, ask, askLow, askHigh⟩ := holds.best orderly.sound .sell
  have fits := corridor.highestFits
  have lowestPos := corridor.lowestPos
  have bestBid : book.bestBid = some bb := bid
  have bestAsk : book.bestAsk = some ba := ask
  simp only [MarketMaker.QuotesBoth, bestBid, bestAsk]
  omega

theorem quotes (orderly : book.Orderly) : corridor.Admits .buy (MarketMaker.bidPx book) ∧
    corridor.Admits .sell (MarketMaker.askPx book) := by
  have between := holds.mid orderly
  have fits := corridor.highestFits
  rw [MarketMaker.bidPx_eq orderly, MarketMaker.askPx_eq orderly]
  unfold Admits intMax at *
  omega

end Holds

end Corridor

/-! ### The corridor of a book -/

/-- The lowest price at which the order, or what is quoted opposite to it, is a bid. -/
def Order.low (order : Order) : Int :=
  match order.side with
  | .buy => order.price
  | .sell => order.price - 2

/-- The highest price at which the order, or what is quoted opposite to it, is an ask. -/
def Order.high (order : Order) : Int :=
  match order.side with
  | .buy => order.price + 2
  | .sell => order.price

theorem Corridor.admits_iff (corridor : Corridor) (order : Order) :
    corridor.Admits order.side order.price ↔
      corridor.lowest ≤ order.low ∧ order.high ≤ corridor.highest := by
  cases side : order.side <;> simp only [Admits, Order.low, Order.high, side] <;> omega

/--
An order on either side, prices from which the market maker quotes positive
prices without an overflow, and room for what it adds.
-/
structure OrderBook.Quotable (book : OrderBook) : Prop where
  twoSided : ∀ side, 0 < book.depth side
  range : ∀ order ∈ book.resting, 1 ≤ order.low ∧ order.high ≤ 2 ^ 30
  room : ∀ side, book.depth side + MarketMaker.targetDepth ≤ longLongMax

/-- There is a lowest and a highest order. -/
theorem OrderBook.Quotable.exists_ends {book : OrderBook} (quotable : book.Quotable)
    (sound : book.Sound) :
    (∃ low ∈ book.resting, ∀ order ∈ book.resting, low.low ≤ order.low) ∧
      ∃ high ∈ book.resting, ∀ order ∈ book.resting, order.high ≤ high.high := by
  have nonempty : {order | order ∈ book.resting}.Nonempty := by
    refine List.exists_mem_of_ne_nil _ fun empty => ?_
    have bids := quotable.twoSided .buy
    rw [sound.depth_eq_tally, empty, tally_nil] at bids
    exact Int.lt_irrefl _ bids
  have finite := List.finite_toSet book.resting
  exact ⟨Set.exists_min_image _ Order.low finite nonempty,
    Set.exists_max_image _ Order.high finite nonempty⟩

/-- The narrowest corridor that a book is in. -/
theorem OrderBook.Quotable.exists_corridor {book : OrderBook} (quotable : book.Quotable)
    (sound : book.Sound) :
    ∃ corridor : Corridor, corridor.Holds book ∧
      (∃ order ∈ book.resting, corridor.lowest = order.low) ∧
      (∃ order ∈ book.resting, corridor.highest = order.high) ∧
      corridor.skew = max MarketMaker.takerQty (book.depth .buy - book.depth .sell).natAbs ∧
      corridor.floor = min (MarketMaker.minDepth - MarketMaker.takerQty)
        (min (book.depth .buy) (book.depth .sell)) := by
  have bids := quotable.twoSided .buy
  have asks := quotable.twoSided .sell
  have bidRoom := quotable.room .buy
  have askRoom := quotable.room .sell
  have target : MarketMaker.targetDepth = 2000 := rfl
  have enough : MarketMaker.minDepth - MarketMaker.takerQty = 980 := rfl
  have taken : MarketMaker.takerQty = 20 := rfl
  obtain ⟨⟨low, lowIn, lowest⟩, high, highIn, highest⟩ := quotable.exists_ends sound
  have lowRange := (quotable.range low lowIn).1
  have highRange := (quotable.range high highIn).2
  let corridor : Corridor := {
    lowest := low.low
    highest := high.high
    skew := max MarketMaker.takerQty (book.depth .buy - book.depth .sell).natAbs
    floor := min (MarketMaker.minDepth - MarketMaker.takerQty)
      (min (book.depth .buy) (book.depth .sell))
    ceiling := max MarketMaker.targetDepth (min (book.depth .buy) (book.depth .sell))
    lowestPos := lowRange
    highestFits := by unfold intMax; omega
    skewWide := Int.le_max_left _ _
    floorPos := by omega
    floorLow := Int.min_le_left _ _
    ceilingHigh := Int.le_max_left _ _
    fits := by
      unfold longLongMax at *
      omega }
  refine ⟨corridor, ⟨?_, ?_, ?_, ?_⟩, ⟨low, lowIn, rfl⟩, ⟨high, highIn, rfl⟩, rfl, rfl⟩
  · exact fun order member =>
      (corridor.admits_iff order).mpr ⟨lowest order member, highest order member⟩
  · rintro (_ | _)
    · exact Int.le_trans (Int.min_le_right _ _) (Int.min_le_left _ _)
    · exact Int.le_trans (Int.min_le_right _ _) (Int.min_le_right _ _)
  · rintro (_ | _) <;> exact Int.le_trans (by simp only [Side.opposite]; omega) (Int.le_max_right _ _)
  · exact Int.le_max_right _ _

/-! ## Turns of the market maker -/

namespace MarketMaker

variable {host : Host} {engine : MatchingEngine} {corridor : Corridor}
  (orderly : engine.book.Orderly) (holds : corridor.Holds engine.book)

include orderly holds

/-- A turn of the maker that has something to add rests both of its quotes. -/
theorem quotes_rest (adds : 0 < toAdd host engine.book) :
    (∀ order ∈ (runMaker host engine).1.book.resting,
        corridor.Admits order.side order.price) ∧
      ∀ result ∈ (runMaker host engine).2, result.status = .new := by
  obtain ⟨bidWithin, askWithin⟩ := holds.quotes orderly
  have lowestPos := corridor.lowestPos
  have bidPos : 0 < bidPx engine.book := by
    unfold Corridor.Admits at bidWithin
    omega
  have askPos : 0 < askPx engine.book := by
    unfold Corridor.Admits at askWithin
    omega
  obtain ⟨ba, bestAsk, _⟩ := holds.best orderly.sound .sell
  obtain ⟨below, above, apart⟩ := quotes_beside orderly (fun wraps => by
    have none : engine.book.bestPrice .sell = none := wraps.1
    rw [bestAsk] at none
    cases none)
  have bidFits : FitsInt (bidPx engine.book) := fitsInt_castInt _
  have bidBehind := MatchingEngine.bid_behind orderly (fun _ => below)
  have askBehind := MatchingEngine.ask_behind host (toAdd host engine.book) orderly bidFits
    (fun _ => below) above (fun _ => apart)
  have orderlyThen := MatchingEngine.orderly_submit host orderly .buy bidFits
    (toAdd host engine.book) .limit
  have bidRests := (MatchingEngine.takesNothing_submit host (toAdd host engine.book) orderly .buy
    bidFits bidBehind).2
  have askRests := (MatchingEngine.takesNothing_submit host (toAdd host engine.book) orderlyThen
    .sell (fitsInt_askPx engine.book) askBehind).2
  unfold runMaker
  simp only [if_pos adds]
  constructor
  · intro order member
    rcases askRests order member with earlier | ⟨isAsk, isPrice⟩
    · rcases bidRests order earlier with old | ⟨isBid, isPrice⟩
      · exact holds.band order old
      · rwa [isBid, isPrice]
    · rwa [isAsk, isPrice]
  · intro result member
    rcases List.mem_cons.mp member with rfl | last
    · exact MatchingEngine.status_submit_of_behind host orderly.sound adds bidPos (bidBehind bidPos)
    · obtain rfl := List.mem_singleton.mp last
      exact MatchingEngine.status_submit_of_behind host orderlyThen.sound adds askPos
        (askBehind askPos)

theorem holds_runMaker (stores : host.Stores) (known : engine.KnownBelow) :
    corridor.Holds (runMaker host engine).1.book ∧
      ∀ result ∈ (runMaker host engine).2, result.status = .new := by
  by_cases adds : 0 < toAdd host engine.book
  · obtain ⟨band, news⟩ := quotes_rest orderly holds adds
    have tops := (grows_runMaker_iff host orderly known).mpr (Or.inr (holds.quotesBoth orderly))
    have exact := toAdd_eq stores orderly.sound fun side => (holds.fitsLongLong orderly.sound side).2
    have bids := tops .buy
    have asks := tops .sell
    have deep := holds.deep
    have even := holds.even
    have ceilingHigh := corridor.ceilingHigh
    refine ⟨⟨band, fun side => ?_, fun side => ?_, ?_⟩, news⟩
    · have before := deep side
      have after := tops side
      omega
    · have before := even side
      have after := tops side
      have afterOther := tops side.opposite
      omega
    · unfold makerQty at exact
      omega
  · have idle : runMaker host engine = (engine, []) := by
      unfold runMaker
      rw [if_neg adds]
    rw [idle]
    exact ⟨holds, fun result member => by cases member⟩

theorem holds_runTaker (stores : host.Stores) :
    corridor.Holds (runTaker host engine).1.book ∧
      ∀ result ∈ (runTaker host engine).2, result.status = .filled := by
  have bids : bidDepth host engine.book = engine.book.depth .buy :=
    stores _ (holds.fitsLongLong orderly.sound .buy)
  have asks : askDepth host engine.book = engine.book.depth .sell :=
    stores _ (holds.fitsLongLong orderly.sound .sell)
  unfold runTaker
  simp only [bids, asks]
  by_cases enough : minDepth ≤ engine.book.depth .buy ∧ minDepth ≤ engine.book.depth .sell
  · rw [if_pos enough]
    -- the heavier side is the one that is taken from
    obtain ⟨side, isSide, heavier⟩ : ∃ side : Side,
        (if engine.book.depth .sell ≤ engine.book.depth .buy then Side.sell else .buy) = side ∧
          engine.book.depth side ≤ engine.book.depth side.opposite := by
      by_cases bidsHeavier : engine.book.depth .sell ≤ engine.book.depth .buy
      · exact ⟨.sell, if_pos bidsHeavier, bidsHeavier⟩
      · exact ⟨.buy, if_neg bidsHeavier, Int.le_of_lt (Int.not_le.mp bidsHeavier)⟩
    rw [isSide]
    have plenty : minDepth ≤ engine.book.depth side.opposite := by
      cases side
      · exact enough.2
      · exact enough.1
    have taken : MatchingEngine.Taken host engine side takerQty :=
      MatchingEngine.taken_of_covered host orderly.sound (by decide)
        (Int.le_trans (by decide) plenty)
    have skewWide := corridor.skewWide
    have floorLow := corridor.floorLow
    have isMin : ∀ book : OrderBook, min (book.depth .buy) (book.depth .sell) =
        min (book.depth side) (book.depth side.opposite) := by
      intro book
      cases side
      · rfl
      · exact Int.min_comm _ _
    have low := holds.low
    rw [isMin] at low
    have back : side.opposite.opposite = side := by
      cases side <;> rfl
    have even := holds.even side.opposite
    rw [back] at even
    have deep := holds.deep side
    have opposite := taken.opposite
    have own := taken.own
    have wants : 0 < takerQty := by decide
    have after : corridor.Holds (engine.submit host side 0 takerQty .market).1.book := by
      refine ⟨fun order member => ?_, fun counted => ?_, fun counted => ?_, ?_⟩
      · obtain ⟨old, wasResting, same⟩ := taken.kept order member
        rw [same]
        exact holds.band old wasResting
      · rcases side.eq_or_eq_opposite counted with rfl | rfl <;> omega
      · rcases side.eq_or_eq_opposite counted with rfl | rfl
        · omega
        · rw [back]
          omega
      · rw [isMin]
        omega
    refine ⟨after, fun result member => ?_⟩
    obtain rfl := List.mem_singleton.mp member
    exact taken.status
  · rw [if_neg enough]
    exact ⟨holds, fun result member => by cases member⟩

end MarketMaker

/-! ## Runs -/

/-- One of the two loops of the market maker takes a turn. -/
def Activity.OfMarketMaker : Activity → Prop
  | .maker | .taker => True
  | _ => False

instance : DecidablePred Activity.OfMarketMaker
  | .maker | .taker => instDecidableTrue
  | .call _ | .momentum | .meanReversion _ _ | .noise _ _ _ | .sniper => instDecidableFalse

/-- Runs in which nobody but the market maker acts. -/
abbrev MakerRun (host : Host) (start : Market) :
    List (Transition Market Activity (List OrderResult)) → Market → Prop :=
  Run (act host) (fun _ activity => activity.OfMarketMaker) start

theorem drawnRun_of_makerRun {host : Host} {start market : Market}
    {log : List (Transition Market Activity (List OrderResult))}
    (run : MakerRun host start log market) : DrawnRun host start log market := by
  refine run.mono fun log activity ofMaker => ?_
  cases activity with
  | maker | taker => exact ⟨trivial, trivial⟩
  | call | momentum | meanReversion | noise | sniper => exact ofMaker.elim

/-- What the orders of a turn are answered: each quote rests whole, each taker order is filled. -/
def Activity.Succeeds : Activity → OrderResult → Prop
  | .maker, result => result.status = .new
  | .taker, result => result.status = .filled
  | _, _ => False

theorem holds_act {host : Host} {corridor : Corridor} {market next : Market} {activity : Activity}
    {results : List OrderResult} (stores : host.Stores) (orderly : market.engine.book.Orderly)
    (known : market.engine.KnownBelow) (holds : corridor.Holds market.engine.book)
    (ofMaker : activity.OfMarketMaker) (acts : act host market activity = .ok (next, results)) :
    corridor.Holds next.engine.book ∧ ∀ result ∈ results, activity.Succeeds result := by
  cases activity with
  | maker =>
      cases acts
      exact MarketMaker.holds_runMaker orderly holds stores known
  | taker =>
      cases acts
      exact MarketMaker.holds_runTaker orderly holds stores
  | call | momentum | meanReversion | noise | sniper => exact ofMaker.elim

/--
While only the two loops of the market maker run, in whatever order their turns
come, the book stays in the corridor it starts in: prices within its ends, no
side running dry, neither side outgrowing the other; each quote rests whole at
its price and each taker order is filled.
-/
theorem market_maker_keeps_corridor {host : Host} {corridor : Corridor} {start market : Market}
    {log : List (Transition Market Activity (List OrderResult))} (stores : host.Stores)
    (orderly : start.engine.book.Orderly) (known : start.engine.KnownBelow)
    (holds : corridor.Holds start.engine.book) (run : MakerRun host start log market) :
    corridor.Holds market.engine.book ∧
      ∀ entry ∈ log, ∀ result ∈ entry.reply, entry.call.Succeeds result := by
  have kept : ∀ {log market}, MakerRun host start log market →
      market.engine.book.Orderly ∧ market.engine.KnownBelow ∧ corridor.Holds market.engine.book := by
    intro log market run
    induction run with
    | nil => exact ⟨orderly, known, holds⟩
    | snoc past ofMaker acts ih =>
        obtain ⟨orderlyThen, knownThen, holdsThen⟩ := ih
        have drawn := drawnRun_of_makerRun (.snoc past ofMaker acts)
        obtain ⟨orderlyNow, knownNow⟩ := knownBelow_of_drawnRun orderly known drawn
        exact ⟨orderlyNow, knownNow,
          (holds_act stores orderlyThen knownThen holdsThen ofMaker acts).1⟩
  refine ⟨(kept run).2.2, fun entry member => ?_⟩
  obtain ⟨past, earlier, ofMaker, acts, _⟩ := run.of_mem member
  obtain ⟨orderlyThen, knownThen, holdsThen⟩ := kept earlier
  exact (holds_act stores orderlyThen knownThen holdsThen ofMaker acts).2

/--
From a two-sided book with asks from 3 and prices up to 2^30, in every
interleaving of the two loops of the market maker: the book stays in the
narrowest corridor it starts in, each quote rests whole and each taker order is
filled.
-/
theorem market_maker_stable {host : Host} {start market : Market}
    {log : List (Transition Market Activity (List OrderResult))} (stores : host.Stores)
    (orderly : start.engine.book.Orderly) (known : start.engine.KnownBelow)
    (quotable : start.engine.book.Quotable) (run : MakerRun host start log market) :
    ∃ corridor : Corridor,
      (∃ order ∈ start.engine.book.resting, corridor.lowest = order.low) ∧
      (∃ order ∈ start.engine.book.resting, corridor.highest = order.high) ∧
      corridor.skew = max MarketMaker.takerQty
        (start.engine.book.depth .buy - start.engine.book.depth .sell).natAbs ∧
      corridor.floor = min (MarketMaker.minDepth - MarketMaker.takerQty)
        (min (start.engine.book.depth .buy) (start.engine.book.depth .sell)) ∧
      corridor.Holds market.engine.book ∧
      ∀ entry ∈ log, ∀ result ∈ entry.reply, entry.call.Succeeds result := by
  obtain ⟨corridor, holds, lowest, highest, skew, floor⟩ := quotable.exists_corridor orderly.sound
  exact ⟨corridor, lowest, highest, skew, floor,
    market_maker_keeps_corridor stores orderly known holds run⟩

/-- The maker fills an empty book until the taker begins to take. -/
theorem market_maker_stable_sample :
    ∃ (corridor : Corridor) (start market : Market)
      (log : List (Transition Market Activity (List OrderResult))),
      MakerRun (Host.twosComplement (·)) start log market ∧ corridor.skew = 20 ∧
        log.flatMap (·.reply.map (·.status)) = List.replicate 38 .new ++ [.filled] ∧
        corridor.Holds market.engine.book ∧
        ∀ entry ∈ log, ∀ result ∈ entry.reply, entry.call.Succeeds result := by
  let start : Market := { engine := (MarketMaker.runMaker (Host.twosComplement (·)) {}).1 }
  obtain ⟨orderly, known⟩ : start.engine.book.Orderly ∧ start.engine.KnownBelow :=
    MarketMaker.kept_runMaker (keptBySubmit_knownBelow _) ⟨orderly_empty none, knownBelow_empty⟩
  have quotable : start.engine.book.Quotable :=
    ⟨fun side => by cases side <;> decide, by decide, fun side => by cases side <;> decide⟩
  have run := Run.of_isSome (act (Host.twosComplement (·))) (fun _ call => call.OfMarketMaker) start
    (List.replicate 19 .maker ++ [.taker]) (by decide)
  obtain ⟨corridor, _, _, skew, _, holds, succeeds⟩ :=
    market_maker_stable (Host.stores_twosComplement _) orderly known quotable run
  exact ⟨corridor, start, _, _, run, skew.trans (by decide), by decide, holds, succeeds⟩

end OrderBookSimulator
