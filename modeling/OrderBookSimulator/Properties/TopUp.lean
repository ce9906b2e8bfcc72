import OrderBookSimulator.Engine.Allotment
import OrderBookSimulator.Engine.Depth
import OrderBookSimulator.Properties.PassiveStrategies

/-!
# Topping up

A tick of the market maker is meant to add the same to both sides.  It does
where both of its prices are positive and neither a price nor a depth overflows:
at the bottom of the price range the bid is refused and the ask is not.
-/

namespace OrderBookSimulator

open Library

/-! ## Ids below the counter -/

/-- Adding an order makes at most its own id known. -/
theorem OrderBook.known_addRestingOrder {book : OrderBook} {order : Order} {orderId : Int}
    (known : ((book.addRestingOrder order).index.find? orderId).isSome) :
    (book.index.find? orderId).isSome ∨ order.id = orderId := by
  by_cases positive : 0 < order.qty
  · cases new : book.index.find? order.id with
    | none =>
        rw [index_addRestingOrder positive new, SortedMap.find?_insert] at known
        split at known
        · exact Or.inr (Eq.symm ‹_›)
        · exact Or.inl known
    | some loc =>
        rw [addRestingOrder_of_known new] at known
        exact Or.inl known
  · rw [addRestingOrder_of_nonpos (by omega)] at known
    exact Or.inl known

/-- The book knows no id that `next_order_id` is still to give. -/
def MatchingEngine.KnownBelow (engine : MatchingEngine) : Prop :=
  ∀ orderId, (engine.book.index.find? orderId).isSome → orderId < engine.nextId

/-- Where the run so far has arrived. -/
def current (start : Market) (log : List (Transition Market Activity (List OrderResult))) : Market :=
  (log.getLast?.map (·.after)).getD start

/-- A request takes its id from `next_order_id`. -/
def Call.Drawn (engine : MatchingEngine) : Call → Prop
  | .processOrder order => order.id < engine.nextId
  | _ => True

instance (engine : MatchingEngine) : DecidablePred (Call.Drawn engine)
  | .processOrder order => inferInstanceAs (Decidable (order.id < engine.nextId))
  | .nextOrderId | .addRestingOrder _ | .cancelOrder _ => instDecidableTrue

/-- An order is processed under an id that was given out before. -/
def Activity.Drawn (market : Market) : Activity → Prop
  | .call made => made.Drawn market.engine
  | _ => True

instance (market : Market) : DecidablePred (Activity.Drawn market)
  | .call made => inferInstanceAs (Decidable (made.Drawn market.engine))
  | .maker | .taker | .momentum | .meanReversion _ _ | .noise _ _ _ | .sniper => instDecidableTrue

/-- Runs in which each order takes its id from `next_order_id`. -/
abbrev DrawnRun (host : Host) (start : Market) :
    List (Transition Market Activity (List OrderResult)) → Market → Prop :=
  Run (act host) (fun log activity => activity.Legal ∧ activity.Drawn (current start log)) start

theorem current_of_run {host : Host} {start market : Market}
    {log : List (Transition Market Activity (List OrderResult))}
    (run : DrawnRun host start log market) : current start log = market := by
  cases run with
  | nil => rfl
  | snoc past allowed answered => simp [current]

namespace MatchingEngine

variable {host : Host} {engine next : MatchingEngine}

/-- A call makes at most the id of its own order known. -/
theorem Answered.known {call : Call} {reply : Reply}
    (answered : Answered host engine call reply next) {orderId : Int}
    (found : (next.book.index.find? orderId).isSome) :
    (engine.book.index.find? orderId).isSome ∨
      ∃ order, (call = .processOrder order ∨ call = .addRestingOrder order) ∧
        order.id = orderId := by
  cases answered with
  | allotted => exact Or.inl found
  | added order =>
      exact (OrderBook.known_addRestingOrder found).imp_right fun same => ⟨order, Or.inr rfl, same⟩
  | refused order status => exact Or.inl (by simpa using found)
  | accepted order ok swept =>
      have index := swept.announced.2
      rw [book_concluded, book_restRemainder] at found
      split at found
      · rcases OrderBook.known_addRestingOrder found with old | same
        · exact Or.inl (index ▸ old)
        · rw [swept.taker] at same
          exact Or.inr ⟨order, Or.inl rfl, same⟩
      · exact Or.inl (index ▸ found)
  | unknown => exact Or.inl found
  | withdrawn node queued =>
      rw [book_cancelled, OrderBook.index_notifyChange, OrderBook.index_withdrawn,
        SortedMap.find?_erase] at found
      split at found
      · cases found
      · exact Or.inl found

theorem Answered.knownBelow {call : Call} {reply : Reply}
    (answered : Answered host engine call reply next) (known : engine.KnownBelow)
    (drawn : ∀ order, call = .processOrder order ∨ call = .addRestingOrder order →
      order.id < engine.nextId) : next.KnownBelow := by
  intro orderId found
  have counter := answered.nextId
  have advances : engine.nextId ≤ next.nextId := by
    rw [counter]
    split <;> omega
  rcases answered.known found with old | ⟨order, isCall, rfl⟩
  · exact Int.lt_of_lt_of_le (known orderId old) advances
  · exact Int.lt_of_lt_of_le (drawn order isCall) advances

variable (host) in
theorem knownBelow_submit (sound : engine.book.Sound) (known : engine.KnownBelow) (side : Side)
    (price qty : Int) (type : OrderType) :
    (engine.submit host side price qty type).1.KnownBelow ∧
      (engine.submit host side price qty type).1.nextId = engine.nextId + 1 := by
  have answered : Answered host engine.nextOrderId.1
      (.processOrder { id := engine.nextOrderId.2, side, price, qty, type }) (.result _)
      (engine.submit host side price qty type).1 := answered_of_exec sound rfl
  have knownThen : engine.nextOrderId.1.KnownBelow := fun orderId found =>
    Int.lt_of_lt_of_le (known orderId found) (Int.le_of_lt (Int.lt_succ _))
  refine ⟨answered.knownBelow knownThen ?_, ?_⟩
  · rintro order (isOrder | isAdded)
    · cases isOrder
      exact Int.lt_succ engine.nextId
    · cases isAdded
  · rw [answered.nextId]
    simp [nextOrderId]

theorem KnownBelow.fresh (known : engine.KnownBelow) :
    engine.book.index.find? engine.nextId = none := by
  cases found : engine.book.index.find? engine.nextId with
  | none => rfl
  | some loc => exact absurd (known engine.nextId (by simp [found])) (Int.lt_irrefl _)

variable (host) in
/-- A quote that meets nobody adds to the depth of its side, if it is accepted at all. -/
theorem depth_submit_of_behind (sound : engine.book.Sound) (known : engine.KnownBelow)
    {side : Side} {price qty : Int} (wants : 0 < qty)
    (behind : 0 < price → ∀ other ∈ engine.book.resting, other.side = side.opposite →
      beyondLimit side other.price price = true) (counted : Side) :
    (engine.submit host side price qty .limit).1.book.depth counted =
      engine.book.depth counted + if side = counted ∧ 0 < price then qty else 0 := by
  rw [(submit_of_behind host qty sound behind).2]
  by_cases positive : 0 < price
  · rw [if_pos ⟨wants, positive⟩, sound.depth_addRestingOrder wants known.fresh]
    by_cases same : side = counted
    · simp [quoted, same, positive]
    · simp [quoted, same]
  · rw [if_neg fun both => positive both.2, if_neg fun both => positive both.2, add_zero]

end MatchingEngine

/-! ## Both depths -/

namespace MarketMaker

/-- What a tick is to add to each side. -/
def addition (book : OrderBook) : Int :=
  max 0 (min makerQty (targetDepth - min (book.depth .buy) (book.depth .sell)))

/-- No `int` that a tick computes on the way to its prices overflows. -/
structure TickFits (book : OrderBook) : Prop where
  sum : ∀ bb ∈ book.bestBid, ∀ ba ∈ book.bestAsk, FitsInt (bb + ba)
  below : FitsInt (mid book - spread.tdiv 2)
  above : FitsInt (mid book + spread.tdiv 2)

end MarketMaker

/-- Both sides grow by the same addition, and no price and no depth overflows. -/
structure ToppedUp (before after : OrderBook) : Prop where
  prices : MarketMaker.TickFits before
  counts : ∀ side, FitsLongLong (before.depth side) ∧ FitsLongLong (after.depth side)
  grows : ∀ side, after.depth side = before.depth side + MarketMaker.addition before

namespace MarketMaker

/-- Best prices whose sum, and whose neighbours, are `int`s. -/
def InRange (book : OrderBook) : Prop :=
  match book.bestBid, book.bestAsk with
  | some bb, some ba => bb + ba ≤ intMax
  | some price, none | none, some price => price < intMax
  | none, none => True

/-- The best prices from which the market maker can quote on both sides. -/
def QuotesBoth (book : OrderBook) : Prop :=
  match book.bestBid, book.bestAsk with
  | some bb, some ba => 4 ≤ bb + ba ∧ bb + ba ≤ intMax
  | some bb, none => 1 < bb ∧ bb < intMax
  | none, some ba => 1 < ba
  | none, none => True

variable {host : Host} {engine : MatchingEngine} (orderly : engine.book.Orderly)

include orderly

theorem quotesBoth_iff : QuotesBoth engine.book ↔ 0 < bidPx engine.book ∧
    ¬ (engine.book.bestAsk = none ∧ engine.book.bestBid = some intMax) := by
  rw [bidPx_eq orderly]
  cases bid : engine.book.bestBid with
  | none =>
      cases ask : engine.book.bestAsk with
      | none => simp [QuotesBoth, mid, bid, ask, anchorPx]
      | some ba =>
          simp only [QuotesBoth, mid, bid, ask]
          simp
  | some bb =>
      have range := orderly.bestPrice_pos bid
      cases ask : engine.book.bestAsk with
      | none =>
          simp only [QuotesBoth, mid, bid, ask, true_and, Option.some.injEq]
          omega
      | some ba =>
          have rangeAsk := orderly.bestPrice_pos ask
          simp only [QuotesBoth, bid, ask, reduceCtorEq, false_and, not_false_eq_true, and_true]
          by_cases fits : bb + ba ≤ intMax
          · have isMid := (mid_of_fits orderly bid ask fits).2.2
            omega
          · have negative := (mid_of_wraps orderly bid ask (by omega)).2
            omega

theorem tickFits_iff : TickFits engine.book ↔ InRange engine.book := by
  have half : spread.tdiv 2 = 1 := rfl
  have largest : intMax = 2 ^ 31 - 1 := rfl
  cases bid : engine.book.bestBid with
  | none =>
      cases ask : engine.book.bestAsk with
      | none =>
          simp only [InRange, bid, ask, iff_true]
          have isMid : mid engine.book = anchorPx := by simp only [mid, bid, ask]
          exact ⟨by simp [bid], by rw [isMid]; decide, by rw [isMid]; decide⟩
      | some ba =>
          have range := orderly.bestPrice_pos ask
          have isMid : mid engine.book = ba := by simp only [mid, bid, ask]
          simp only [InRange, bid, ask]
          constructor
          · intro fits
            have above := fits.above.2
            omega
          · intro small
            exact ⟨by simp [bid], ⟨by omega, by omega⟩, ⟨by omega, by omega⟩⟩
  | some bb =>
      have range := orderly.bestPrice_pos bid
      cases ask : engine.book.bestAsk with
      | none =>
          have isMid : mid engine.book = bb := by simp only [mid, bid, ask]
          simp only [InRange, bid, ask]
          constructor
          · intro fits
            have above := fits.above.2
            omega
          · intro small
            exact ⟨by simp [ask], ⟨by omega, by omega⟩, ⟨by omega, by omega⟩⟩
      | some ba =>
          have rangeAsk := orderly.bestPrice_pos ask
          simp only [InRange, bid, ask]
          constructor
          · exact fun fits => (fits.sum bb bid ba ask).2
          · intro small
            have isMid := mid_of_fits orderly bid ask small
            refine ⟨?_, ⟨by omega, by omega⟩, ⟨by omega, by omega⟩⟩
            intro first isBid second isAsk
            obtain rfl := Option.some.inj (bid.symm.trans isBid)
            obtain rfl := Option.some.inj (ask.symm.trans isAsk)
            exact ⟨by omega, small⟩

/-- Quotes that meet nobody add to each side whose price preflight accepts. -/
theorem depth_runMaker (known : engine.KnownBelow) (adds : 0 < toAdd host engine.book)
    (beside : ¬ (engine.book.bestAsk = none ∧ engine.book.bestBid = some intMax)) :
    (runMaker host engine).1.book.depth .buy = engine.book.depth .buy +
        (if 0 < bidPx engine.book then toAdd host engine.book else 0) ∧
      (runMaker host engine).1.book.depth .sell = engine.book.depth .sell +
        (if 0 < askPx engine.book then toAdd host engine.book else 0) := by
  obtain ⟨below, above, apart⟩ := quotes_beside orderly beside
  have bidFits : FitsInt (bidPx engine.book) := fitsInt_castInt _
  let first := engine.submit host .buy (bidPx engine.book) (toAdd host engine.book) .limit
  have bid := MatchingEngine.depth_submit_of_behind host orderly.sound known adds
    (MatchingEngine.bid_behind orderly fun _ => below)
  have firstSound : first.1.book.Sound :=
    (MatchingEngine.orderly_submit host orderly .buy bidFits _ _).sound
  have firstKnown := (MatchingEngine.knownBelow_submit host orderly.sound known .buy
    (bidPx engine.book) (toAdd host engine.book) .limit).1
  have ask := MatchingEngine.depth_submit_of_behind host firstSound firstKnown adds
    (MatchingEngine.ask_behind host _ orderly bidFits (fun _ => below) above fun _ => apart)
  unfold runMaker
  simp only [if_pos adds]
  constructor
  · rw [ask, bid]
    simp
  · rw [ask, bid]
    simp

/-- An ask that comes back as the best bid takes from what the bid adds to. -/
theorem depth_lt_of_wraps (known : engine.KnownBelow) (adds : 0 < toAdd host engine.book)
    (wraps : engine.book.bestAsk = none ∧ engine.book.bestBid = some intMax) :
    (runMaker host engine).1.book.depth .buy <
      engine.book.depth .buy + toAdd host engine.book := by
  have bidFits : FitsInt (bidPx engine.book) := fitsInt_castInt _
  let first := engine.submit host .buy (bidPx engine.book) (toAdd host engine.book) .limit
  have firstSound : first.1.nextOrderId.1.book.Sound :=
    (MatchingEngine.orderly_submit host orderly .buy bidFits _ _).sound
  have isMid : mid engine.book = intMax := by simp only [mid, wraps.1, wraps.2]
  have positive : 0 < bidPx engine.book := by
    rw [bidPx_eq orderly, isMid]
    decide
  have noAsk : ∀ ba ∈ engine.book.bestAsk, bidPx engine.book < ba := by
    intro ba isBest
    rw [wraps.1] at isBest
    cases isBest
  have bid := MatchingEngine.depth_submit_of_behind host orderly.sound known adds
    (MatchingEngine.bid_behind orderly fun _ => noAsk) .buy
  rw [if_pos ⟨rfl, positive⟩] at bid
  have taken := MatchingEngine.depth_lt_of_trades host firstSound
    (trades_of_wraps orderly wraps.1 wraps.2 adds)
  unfold runMaker
  rw [if_pos adds, ← bid]
  exact taken

variable (host) in
/-- Both sides grow by what is computed if that is nothing or both can be quoted. -/
theorem grows_runMaker_iff (known : engine.KnownBelow) :
    (∀ side, (runMaker host engine).1.book.depth side =
        engine.book.depth side + max 0 (toAdd host engine.book)) ↔
      toAdd host engine.book ≤ 0 ∨ QuotesBoth engine.book := by
  by_cases adds : 0 < toAdd host engine.book
  · have grows : max 0 (toAdd host engine.book) = toAdd host engine.book := by omega
    rw [quotesBoth_iff orderly]
    by_cases wraps : engine.book.bestAsk = none ∧ engine.book.bestBid = some intMax
    · have neither : ¬ (toAdd host engine.book ≤ 0 ∨ 0 < bidPx engine.book ∧
          ¬ (engine.book.bestAsk = none ∧ engine.book.bestBid = some intMax)) := by
        rintro (none | ⟨_, beside⟩)
        · exact absurd adds (Int.not_lt.mpr none)
        · exact beside wraps
      refine iff_of_false (fun tops => ?_) neither
      have smaller := depth_lt_of_wraps orderly known adds wraps
      rw [tops .buy, grows] at smaller
      exact Int.lt_irrefl _ smaller
    · obtain ⟨_, _, apart⟩ := quotes_beside orderly wraps
      obtain ⟨bids, asks⟩ := depth_runMaker orderly known adds wraps
      constructor
      · intro tops
        have both := tops .buy
        rw [bids, grows] at both
        split at both
        · exact Or.inr ⟨‹_›, wraps⟩
        · exact absurd both (by omega)
      · rintro (none | ⟨positive, _⟩)
        · exact absurd adds (Int.not_lt.mpr none)
        · rintro (_ | _)
          · rw [bids, if_pos positive, grows]
          · rw [asks, if_pos (by omega), grows]
  · have same : (runMaker host engine).1 = engine := by
      unfold runMaker
      rw [if_neg adds]
    refine iff_of_true (fun side => ?_) (Or.inl (by omega))
    rw [same]
    omega

omit orderly in
/-- Where the depths fit, what is computed is what a tick is to add. -/
theorem toAdd_eq (stores : host.Stores) (sound : engine.book.Sound)
    (fits : ∀ side, engine.book.depth side ≤ longLongMax) : toAdd host engine.book =
      min makerQty (targetDepth - min (engine.book.depth .buy) (engine.book.depth .sell)) := by
  have bids := fits .buy
  have asks := fits .sell
  have bidsNonneg := sound.depth_nonneg .buy
  have asksNonneg := sound.depth_nonneg .sell
  unfold toAdd bidDepth askDepth
  simp only [stores _ ⟨by omega, bids⟩, stores _ ⟨by omega, asks⟩]
  rw [stores]
  unfold FitsLongLong longLongMax targetDepth at *
  omega

omit orderly in
theorem addition_nonneg (book : OrderBook) : 0 ≤ addition book := Int.le_max_left 0 _

/-- The best prices and the depths at which a tick does what it is to do. -/
structure CanTopUp (book : OrderBook) : Prop where
  prices : InRange book
  room : ∀ side, book.depth side + addition book ≤ longLongMax
  quotes : addition book = 0 ∨ QuotesBoth book

theorem toppedUp_runMaker_iff (stores : host.Stores) (known : engine.KnownBelow) :
    ToppedUp engine.book (runMaker host engine).1.book ↔ CanTopUp engine.book := by
  have grown := grows_runMaker_iff host orderly known
  have nonneg := addition_nonneg engine.book
  have bounds : ∀ side, -(2 ^ 63) ≤ engine.book.depth side := fun side => by
    have depthNonneg := orderly.sound.depth_nonneg side
    omega
  constructor
  · rintro ⟨prices, counts, grows⟩
    have adds : addition engine.book = max 0 (toAdd host engine.book) := by
      rw [toAdd_eq stores orderly.sound fun side => (counts side).1.2, addition]
    rw [adds] at grows
    refine ⟨(tickFits_iff orderly).mp prices, fun side => ?_, ?_⟩
    · rw [adds, ← grows side]
      exact (counts side).2.2
    · exact (grown.mp grows).imp_left fun nothing => by omega
  · rintro ⟨prices, room, quotes⟩
    have fits : ∀ side, engine.book.depth side ≤ longLongMax := fun side => by
      have roomy := room side
      omega
    have adds : addition engine.book = max 0 (toAdd host engine.book) := by
      rw [toAdd_eq stores orderly.sound fits, addition]
    have grows := grown.mpr (quotes.imp_left fun nothing => by omega)
    rw [← adds] at grows
    refine ⟨(tickFits_iff orderly).mpr prices, fun side => ⟨⟨bounds side, fits side⟩, ?_⟩, grows⟩
    have before := bounds side
    rw [grows side]
    exact ⟨by omega, room side⟩

end MarketMaker

/-! ## Runs -/

theorem keptBySubmit_knownBelow (host : Host) :
    KeptBySubmit host (fun engine => engine.book.Orderly ∧ engine.KnownBelow) where
  orderly := And.left
  submit side price qty type before fits :=
    ⟨MatchingEngine.orderly_submit host before.1 side fits qty type,
      (MatchingEngine.knownBelow_submit host before.1.sound before.2 side price qty type).1⟩

theorem knownBelow_of_drawnRun {host : Host} {start market : Market}
    {log : List (Transition Market Activity (List OrderResult))}
    (orderly : start.engine.book.Orderly) (known : start.engine.KnownBelow)
    (run : DrawnRun host start log market) :
    market.engine.book.Orderly ∧ market.engine.KnownBelow := by
  refine run.invariant
    (fun _ market => market.engine.book.Orderly ∧ market.engine.KnownBelow)
    ⟨orderly, known⟩ ?_
  intro log market activity results next past soFar allowed acts
  rw [current_of_run past] at allowed
  refine (keptBySubmit_knownBelow host).kept_act soFar allowed.1 ?_ acts
  rintro call reply engine rfl answered
  refine ⟨answered.orderly allowed.1 soFar.1, answered.knownBelow soFar.2 ?_⟩
  rintro order (rfl | rfl)
  · exact allowed.2
  · exact allowed.1.elim

theorem toppedUp_act_iff {host : Host} {market next : Market} {results : List OrderResult}
    (stores : host.Stores) (orderly : market.engine.book.Orderly)
    (known : market.engine.KnownBelow) (acts : act host market .maker = .ok (next, results)) :
    ToppedUp market.engine.book next.engine.book ↔
      MarketMaker.CanTopUp market.engine.book := by
  obtain ⟨rfl, rfl⟩ := Prod.mk.inj (Except.ok.inj acts)
  exact MarketMaker.toppedUp_runMaker_iff orderly stores known

/--
Wherever orders and turns lead, a tick of the market maker adds the same to both
sides without an overflow, if and only if the best prices are in range, both
sides have room for the addition, and there is nothing to add or both of the
prices it quotes are positive.
-/
theorem topped_up_iff {host : Host} {start market : Market}
    {log : List (Transition Market Activity (List OrderResult))} (stores : host.Stores)
    (orderly : start.engine.book.Orderly) (known : start.engine.KnownBelow)
    (run : DrawnRun host start log market) :
    ∀ entry ∈ log, entry.call = .maker →
      (ToppedUp entry.before.engine.book entry.after.engine.book ↔
        MarketMaker.CanTopUp entry.before.engine.book) := by
  rintro ⟨before, activity, results, after⟩ member rfl
  obtain ⟨past, earlier, _, acts, _⟩ := run.of_mem member
  obtain ⟨orderlyThen, knownThen⟩ := knownBelow_of_drawnRun orderly known earlier
  exact toppedUp_act_iff stores orderlyThen knownThen acts

theorem knownBelow_empty : MatchingEngine.KnownBelow {} := by
  intro orderId found
  cases found

/-- From an empty book the market maker quotes on both sides of the anchor. -/
theorem topped_up_sample :
    ∃ log market, DrawnRun (Host.twosComplement (·)) { engine := {} } log market ∧
      log.length = 2 ∧ ∀ entry ∈ log, entry.call = .maker →
        (ToppedUp entry.before.engine.book entry.after.engine.book ↔
          MarketMaker.CanTopUp entry.before.engine.book) := by
  have run := Run.of_isSome (act (Host.twosComplement (·)))
    (fun log activity => activity.Legal ∧ activity.Drawn (current { engine := {} } log))
    { engine := {} } [.maker, .call (.processOrder ⟨1000, 0, .buy, 99, 5, .limit⟩)] (by decide)
  exact ⟨_, _, run, by decide, topped_up_iff (Host.stores_twosComplement _) (orderly_empty none)
    knownBelow_empty run⟩

/-- A bid at one and an ask at two: the market maker tops up only the asks. -/
theorem maker_tops_up_one_side :
    ∃ log market, DrawnRun (Host.twosComplement (·)) { engine := {} } log market ∧
      ∃ entry ∈ log, entry.call = .maker ∧
        ¬ ToppedUp entry.before.engine.book entry.after.engine.book := by
  have run := Run.of_isSome (act (Host.twosComplement (·)))
    (fun log activity => activity.Legal ∧ activity.Drawn (current { engine := {} } log))
    { engine := {} }
    [.call (.processOrder ⟨999, 0, .buy, 1, 5, .limit⟩),
      .call (.processOrder ⟨998, 0, .sell, 2, 5, .limit⟩), .maker] (by decide)
  refine ⟨_, _, run, _, List.getLast_mem (by decide), by decide, fun tops => ?_⟩
  exact absurd (tops.grows .buy) (by decide)

end OrderBookSimulator
