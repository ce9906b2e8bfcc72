import Mathlib.Data.List.TakeWhile
import OrderBookSimulator.Engine.Leaves

/-!
# Limits, and orders without one

A looser limit only prolongs a sweep, and a market order is a limit order
whose price admits the whole opposing side and whose remainder is dropped.
Both compare two calls on the same engine: the trades they push are compared
record by record, the trades they answer up to the reading of the clock.
-/

namespace OrderBookSimulator

open Library

/-- A trade without the reading of the clock. -/
def Trade.undated (trade : Trade) : Trade := { trade with timestamp := 0 }

/-- The market order of the same id, owner, side and quantity, whatever price is written on it. -/
def Order.asMarket (order : Order) (price : Int) : Order := { order with type := .market, price }

namespace MatchingEngine

/-! ## Numbering -/

/-- The numbers the next trade gets, or `none` where no sink is attached. -/
def numbering (engine : MatchingEngine) : Option (Int × Int) :=
  engine.tradeSink.map fun _ => (engine.globalSeq, engine.globalTradeId)

/-- Trades with successive numbers. -/
def numbered (seq tradeId : Int) : List Trade → List Trade
  | [] => []
  | trade :: rest =>
      { trade with seq, tradeId, timestamp := 0 } :: numbered (seq + 1) (tradeId + 1) rest

/-- What is answered of a trade list, but for the clock. -/
def answered (numbers : Option (Int × Int)) (trades : List Trade) : List Trade :=
  match numbers with
  | none => trades.map Trade.undated
  | some (seq, tradeId) => numbered seq tradeId trades

section Numbering

variable (host : Host)

theorem undated_emitEach (timestamp : Int) (engine : MatchingEngine) (trades : List Trade) :
    (emitEach timestamp engine trades).2.map Trade.undated =
      numbered engine.globalSeq engine.globalTradeId trades := by
  induction trades generalizing engine with
  | nil => rfl
  | cons trade rest ih =>
      rw [emitEach, List.map_cons, ih]
      rfl

theorem undated_emitTrades (engine : MatchingEngine) (trades : List Trade) :
    (engine.emitTrades host trades).2.map Trade.undated = answered engine.numbering trades := by
  unfold emitTrades numbering
  cases engine.tradeSink with
  | none => rfl
  | some sink => exact undated_emitEach _ _ _

theorem numbered_prefix {first second : List Trade} (isPrefix : first <+: second)
    (seq tradeId : Int) : numbered seq tradeId first <+: numbered seq tradeId second := by
  induction first generalizing second seq tradeId with
  | nil => exact List.nil_prefix
  | cons trade rest ih =>
      obtain ⟨tail, rfl⟩ := isPrefix
      rw [List.cons_append, numbered, numbered]
      exact List.cons_prefix_cons.mpr ⟨rfl, ih ⟨tail, rfl⟩ _ _⟩

theorem answered_prefix {first second : List Trade} (isPrefix : first <+: second)
    (numbers : Option (Int × Int)) : answered numbers first <+: answered numbers second := by
  cases numbers with
  | none => exact isPrefix.map _
  | some numbers => exact numbered_prefix isPrefix _ _

theorem numbering_emitOrderEvent (engine : MatchingEngine) (batchId orderId userId : Int)
    (status : OrderStatus) (side : Side) (price qty remaining : Int) :
    (engine.emitOrderEvent host batchId orderId userId status side price qty
      remaining).numbering = engine.numbering := by
  unfold emitOrderEvent
  split <;> rfl

theorem numbering_callSweep (engine : MatchingEngine) (order : Order) :
    (engine.callSweep host order).engine.numbering = engine.numbering := by
  refine (callSweep_settles host engine order).invariant
    (fun sweep => sweep.engine.numbering = engine.numbering) ?_
    (numbering_emitOrderEvent host _ _ _ _ _ _ _ _ _)
  intro sweep next soFar moves
  obtain ⟨price, maker, rest, _, rfl⟩ := fillStep_cases moves
  exact (numbering_emitOrderEvent host _ _ _ _ _ _ _ _ _).trans soFar

theorem numbering_restRemainder (sweep : Sweep) :
    (restRemainder host sweep).numbering = sweep.engine.numbering := by
  unfold restRemainder
  by_cases rests : sweep.taker.type = .limit ∧ 0 < sweep.taker.qty <;>
    by_cases traded : sweep.trades = [] <;> simp only [rests, traded, if_true, if_false] <;> rfl

/-- The trades of an answer, but for the clock, from the trades of the sweep. -/
theorem undated_report (engine : MatchingEngine) (order : Order) :
    (report host order (engine.callSweep host order)).trades.map Trade.undated =
      answered engine.numbering (engine.callSweep host order).trades := by
  rw [report, undated_emitTrades, numbering_restRemainder, numbering_callSweep]

end Numbering

/-! ## A looser limit -/

/-- The limit `loose` admits whatever `tight` admits. -/
def NotTighter : Side → Int → Int → Prop
  | .buy, tight, loose => tight ≤ loose
  | .sell, tight, loose => tight ≥ loose

instance (side : Side) (tight loose : Int) : Decidable (NotTighter side tight loose) := by
  cases side
  · exact inferInstanceAs (Decidable (tight ≤ loose))
  · exact inferInstanceAs (Decidable (tight ≥ loose))

theorem takes_extend {first second : List Order} (isPrefix : first <+: second) (qty : Int) :
    takes qty first <+: takes qty second := by
  induction first generalizing second qty with
  | nil => exact List.nil_prefix
  | cons maker rest ih =>
      obtain ⟨tail, rfl⟩ := isPrefix
      rw [List.cons_append, takes, takes]
      split
      · exact List.cons_prefix_cons.mpr ⟨rfl, ih ⟨tail, rfl⟩ _⟩
      · exact List.nil_prefix

theorem takeWhile_prefix {tight loose : Order → Bool}
    (looser : ∀ maker, tight maker = true → loose maker = true) (queue : List Order) :
    queue.takeWhile tight <+: queue.takeWhile loose := by
  induction queue with
  | nil => exact List.nil_prefix
  | cons maker rest ih =>
      by_cases admitted : tight maker = true
      · rw [List.takeWhile_cons_of_pos admitted, List.takeWhile_cons_of_pos (looser maker admitted)]
        exact List.cons_prefix_cons.mpr ⟨rfl, ih⟩
      · rw [List.takeWhile_cons_of_neg admitted]
        exact List.nil_prefix

section Looser

variable {host : Host} {engine : MatchingEngine} {order : Order} {price : Int}

theorem admitsMaker_of_notTighter (looser : NotTighter order.side order.price price)
    (maker : Order) (admits : admitsMaker order maker = true) :
    admitsMaker { order with price } maker = true := by
  simp only [admitsMaker, decide_eq_true_eq, not_and] at admits ⊢
  intro limit
  have within := admits limit
  revert looser within
  cases order.side <;> simp only [NotTighter, beyondLimit, decide_eq_true_eq] <;> omega

variable (host) in
/-- What the matching functions push under the tighter limit, they push first under the looser. -/
theorem trades_extend (sound : engine.book.Sound) (qtyPos : 0 < order.qty)
    (looser : NotTighter order.side order.price price) :
    (engine.callSweep host order).trades <+:
      (engine.callSweep host { order with price }).trades := by
  have nonneg := Int.le_of_lt qtyPos
  have nonnegLoose : 0 ≤ ({ order with price } : Order).qty := nonneg
  rw [trades_callSweep host sound nonneg, trades_callSweep host sound nonnegLoose]
  refine List.IsPrefix.map _ (takes_extend ?_ _)
  exact takeWhile_prefix (admitsMaker_of_notTighter looser) _

theorem accepted_of_limit (alone : engine.userManager = none) (limit : order.type = .limit)
    (qtyPos : 0 < order.qty) (pricePos : 0 < order.price) :
    (engine.preflightCheck host order).isOk = true := by
  cases ok : (engine.preflightCheck host order).isOk with
  | true => rfl
  | false =>
      have market := (illiquid_of_refused alone qtyPos (fun _ => pricePos) ok).1
      rw [limit] at market
      cases market

variable (host) in
theorem answer_prefix (sound : engine.book.Sound) (alone : engine.userManager = none)
    (limit : order.type = .limit) (qtyPos : 0 < order.qty) (pricePos : 0 < price)
    (looser : NotTighter order.side order.price price) :
    (engine.processOrder host order).2.trades.map Trade.undated <+:
      (engine.processOrder host { order with price }).2.trades.map Trade.undated := by
  cases ok : (engine.preflightCheck host order).isOk with
  | false =>
      obtain ⟨status, _, answer⟩ := processOrder_of_refused host engine order ok
      rw [answer]
      exact List.nil_prefix
  | true =>
      have looseOk : (engine.preflightCheck host { order with price }).isOk = true :=
        accepted_of_limit alone limit qtyPos pricePos
      rw [processOrder_of_accepted host engine order ok,
        processOrder_of_accepted host engine _ looseOk, undated_report, undated_report]
      exact answered_prefix (trades_extend host sound qtyPos looser) _

end Looser

/-! ## No limit at all -/

/-- The order's price is at or beyond every opposing level. -/
def ReachesWorst (book : OrderBook) (order : Order) : Prop :=
  ∀ level ∈ (book.levels order.side.opposite).entries,
    NotTighter order.side level.1 order.price

instance (book : OrderBook) (order : Order) : Decidable (ReachesWorst book order) :=
  inferInstanceAs (Decidable (∀ level ∈ (book.levels order.side.opposite).entries, _))

theorem book_eq {first second : OrderBook} (levels : ∀ side, first.levels side = second.levels side)
    (index : first.index = second.index) (address : first.nextAddress = second.nextAddress)
    (onChange : first.onChange = second.onChange) : first = second := by
  have bids := levels .buy
  have asks := levels .sell
  cases first
  cases second
  simp_all [OrderBook.levels]

theorem leaves_congr {admits other : Order → Bool} {queue : OrderList}
    (same : ∀ node ∈ queue, ∀ qty, admits { node.order with qty } = other { node.order with qty })
    (qty : Int) : leaves admits qty queue = leaves other qty queue := by
  induction queue generalizing qty with
  | nil => rfl
  | cons maker rest ih =>
      rw [leaves, leaves, show admits maker.order = other maker.order from same maker (.head _) _,
        ih fun node member => same node (.tail _ member)]

section Market

variable {host : Host} {engine : MatchingEngine} {order : Order}

/-- Such a limit stops at no maker of the book. -/
theorem admitsMaker_of_reachesWorst (sound : engine.book.Sound)
    (reaches : ReachesWorst engine.book order) :
    ∀ node ∈ engine.book.queue order.side.opposite, ∀ qty,
      admitsMaker order { node.order with qty } = true := by
  intro node member qty
  obtain ⟨⟨price, queue⟩, atLevel, queued⟩ := List.mem_flatMap.mp member
  have found := SortedMap.mem_entries_iff.mp atLevel
  have placed : node.order.price = price := by
    refine (sound.placed order.side.opposite price node ?_).2
    rw [OrderBook.level, SortedMap.findD, found]
    exact queued
  have within := reaches _ atLevel
  simp only [admitsMaker, decide_eq_true_eq, not_and, placed]
  revert within
  cases order.side <;> simp only [NotTighter, beyondLimit, decide_eq_true_eq] <;> omega

theorem admitsMaker_asMarket (price : Int) (maker : Order) :
    admitsMaker (order.asMarket price) maker = true := by
  simp [admitsMaker, Order.asMarket]

theorem opposing_asMarket (sound : engine.book.Sound) (reaches : ReachesWorst engine.book order)
    (price : Int) : engine.book.opposing (order.asMarket price) = engine.book.opposing order := by
  have all : ∀ maker ∈ (engine.book.queue order.side.opposite).map (·.order),
      admitsMaker order maker = true := by
    intro maker member
    obtain ⟨node, queued, rfl⟩ := List.mem_map.mp member
    exact admitsMaker_of_reachesWorst sound reaches node queued node.order.qty
  rw [OrderBook.opposing, OrderBook.opposing, List.takeWhile_eq_self_iff.mpr all]
  exact List.takeWhile_eq_self_iff.mpr fun maker _ => admitsMaker_asMarket price maker

variable (host) in
theorem nextAddress_callSweep (engine : MatchingEngine) (order : Order) :
    (engine.callSweep host order).engine.book.nextAddress = engine.book.nextAddress := by
  refine (callSweep_settles host engine order).invariant
    (fun sweep => sweep.engine.book.nextAddress = engine.book.nextAddress) ?_
    (by simp [startSweep])
  intro sweep next soFar moves
  obtain ⟨price, maker, rest, _, rfl⟩ := fillStep_cases moves
  rw [book_afterFill, OrderBook.nextAddress_setLevel, soFar]

variable (host) in
/-- Up to its remainder, the market order's sweep is the limit order's. -/
theorem callSweep_asMarket (sound : engine.book.Sound) (qtyPos : 0 < order.qty)
    (reaches : ReachesWorst engine.book order) (price : Int) :
    (engine.callSweep host (order.asMarket price)).trades =
        (engine.callSweep host order).trades ∧
      (engine.callSweep host (order.asMarket price)).engine.book =
        (engine.callSweep host order).engine.book ∧
      (engine.callSweep host (order.asMarket price)).taker.qty =
        (engine.callSweep host order).taker.qty := by
  have nonneg := Int.le_of_lt qtyPos
  have nonnegMarket : 0 ≤ (order.asMarket price).qty := nonneg
  have sameOpposing := opposing_asMarket sound reaches price
  have swept := swept_callSweep host sound nonneg
  have sweptMarket := swept_callSweep host sound nonnegMarket
  refine ⟨?_, ?_, ?_⟩
  · rw [trades_callSweep host sound nonneg, trades_callSweep host sound nonnegMarket, sameOpposing]
    rfl
  · have queues : (engine.callSweep host (order.asMarket price)).engine.book.queue
        order.side.opposite = (engine.callSweep host order).engine.book.queue
          order.side.opposite := by
      have marketQueue := queue_callSweep host sound nonnegMarket
      rw [show (order.asMarket price).side = order.side from rfl] at marketQueue
      rw [marketQueue, queue_callSweep host sound nonneg]
      refine leaves_congr (fun node member qty => ?_) _
      rw [admitsMaker_of_reachesWorst sound reaches node member qty, admitsMaker_asMarket]
    refine book_eq (fun side => ?_) (sweptMarket.index.trans swept.index.symm)
      ((nextAddress_callSweep host engine _).trans (nextAddress_callSweep host engine _).symm)
      (sweptMarket.onChange.trans swept.onChange.symm)
    rcases Side.eq_or_eq_opposite order.side side with rfl | rfl
    · exact (ownLevels_callSweep host engine (order.asMarket price)).trans
        (ownLevels_callSweep host engine order).symm
    · exact sweptMarket.sound.levels_eq_of_queue_eq swept.sound queues
  · rw [left_callSweep host sound nonneg, left_callSweep host sound nonnegMarket, sameOpposing]
    rfl

/-- One answer and one book are the other's, but for the remainder that the limit order rests. -/
structure SameButRested (order : Order) (limit market : MatchingEngine × OrderResult) : Prop where
  trades : limit.2.trades.map Trade.undated = market.2.trades.map Trade.undated
  filled : limit.2.filledQty = market.2.filledQty
  opposing : limit.1.book.levels order.side.opposite = market.1.book.levels order.side.opposite
  book : limit.1.book =
    market.1.book.addRestingOrder { order with qty := order.qty - market.2.filledQty }

variable (host) in
theorem sameButRested_of_accepted (sound : engine.book.Sound) (alone : engine.userManager = none)
    (limit : order.type = .limit) (qtyPos : 0 < order.qty) (pricePos : 0 < order.price)
    (reaches : ReachesWorst engine.book order) {price : Int}
    (ok : (engine.preflightCheck host (order.asMarket price)).isOk = true) :
    SameButRested order (engine.processOrder host order)
      (engine.processOrder host (order.asMarket price)) := by
  have limitOk : (engine.preflightCheck host order).isOk = true :=
    accepted_of_limit alone limit qtyPos pricePos
  obtain ⟨trades, book, left⟩ := callSweep_asMarket host sound qtyPos reaches price
  have swept := swept_callSweep host sound (Int.le_of_lt qtyPos)
  have type : (engine.callSweep host order).taker.type = .limit := by rw [swept.taker, limit]
  have marketType : ¬ (engine.callSweep host (order.asMarket price)).taker.type = .limit := by
    have nonnegMarket : 0 ≤ (order.asMarket price).qty := Int.le_of_lt qtyPos
    rw [(swept_callSweep host sound nonnegMarket).taker]
    exact fun same => OrderType.noConfusion same
  have announced : announcedBook (engine.callSweep host (order.asMarket price)) =
      announcedBook (engine.callSweep host order) := by
    rw [announcedBook, announcedBook, trades, book]
  have filled : order.qty - (engine.callSweep host (order.asMarket price)).taker.qty =
      order.qty - (engine.callSweep host order).taker.qty := by rw [left]
  have rested : (concluded host order engine.batchSeq (engine.callSweep host order)).book =
      (announcedBook (engine.callSweep host order)).addRestingOrder
        (engine.callSweep host order).taker := by
    rw [book_concluded, book_restRemainder_eq, if_pos type]
  have dropped : (concluded host (order.asMarket price) engine.batchSeq
      (engine.callSweep host (order.asMarket price))).book =
        announcedBook (engine.callSweep host order) := by
    rw [book_concluded, book_restRemainder_eq, if_neg marketType, announced]
  have takerSide : (engine.callSweep host order).taker.side = order.side := by rw [swept.taker]
  rw [processOrder_of_accepted host engine order limitOk,
    processOrder_of_accepted host engine _ ok]
  refine ⟨?_, filled.symm, ?_, ?_⟩
  · rw [undated_report, undated_report, trades]
  · rw [rested, dropped, ← takerSide, levels_addRestingOrder_opposite]
  · have taker : (engine.callSweep host order).taker =
        { order with qty := order.qty -
          (report host (order.asMarket price)
            (engine.callSweep host (order.asMarket price))).filledQty } := by
      have remains : order.qty - (report host (order.asMarket price)
          (engine.callSweep host (order.asMarket price))).filledQty =
            (engine.callSweep host order).taker.qty := by
        simp only [report, Order.asMarket] at filled ⊢
        omega
      rw [remains]
      exact swept.taker
    rw [rested, dropped, ← taker]

variable (host) in
theorem sameButRested_of_refused (alone : engine.userManager = none)
    (limit : order.type = .limit) (qtyPos : 0 < order.qty) (pricePos : 0 < order.price)
    {price : Int}
    (refused : (engine.preflightCheck host (order.asMarket price)).isOk = false) :
    SameButRested order (engine.processOrder host order)
      (engine.processOrder host (order.asMarket price)) := by
  have limitOk : (engine.preflightCheck host order).isOk = true :=
    accepted_of_limit alone limit qtyPos pricePos
  have marketPos : 0 < (order.asMarket price).qty := qtyPos
  have none : (engine.book.levels order.side.opposite).first? = none :=
    (illiquid_of_refused alone marketPos
      (fun marketIsLimit => OrderType.noConfusion marketIsLimit) refused).2
  have idle : engine.callSweep host order =
      startSweep host (engine.opened order) engine.batchSeq order := by
    refine (callSweep_settles host engine order).eq_of_none (fillStep_of_not_fillable ?_)
    rintro atPrice maker rest ⟨_, best, _⟩
    rw [startSweep, book_emitOrderEvent, book_opened, none] at best
    cases best
  have rested : (concluded host order engine.batchSeq (engine.callSweep host order)).book =
      engine.book.addRestingOrder order := by
    rw [book_concluded, book_restRemainder_eq, idle]
    simp [startSweep, announcedBook, limit]
  obtain ⟨status, _, answer⟩ := processOrder_of_refused host engine _ refused
  rw [processOrder_of_accepted host engine order limitOk, answer]
  refine ⟨?_, ?_, ?_, ?_⟩
  · rw [undated_report, idle]
    cases engine.numbering <;> rfl
  · rw [idle]
    exact Int.sub_self _
  · rw [rested, levels_addRestingOrder_opposite, book_emitOrderEvent, book_opened]
  · rw [rested, book_emitOrderEvent, book_opened, Int.sub_zero]

end Market

/--
From every reachable book: a looser limit prolongs the trades of a tighter one,
and a market order trades as a limit order that admits the whole opposing side,
whose remainder it does not rest.
-/
theorem limits_only_cut_short {host : Host} {start engine : MatchingEngine} {log : Log}
    (sound : start.book.Sound) (alone : start.userManager = none)
    (run : AnySession host start log engine) {order : Order} (limit : order.type = .limit)
    (qtyPos : 0 < order.qty) :
    (∀ price, NotTighter order.side order.price price →
      (engine.callSweep host order).trades <+:
          (engine.callSweep host { order with price }).trades ∧
        (0 < price → (engine.processOrder host order).2.trades.map Trade.undated <+:
          (engine.processOrder host { order with price }).2.trades.map Trade.undated)) ∧
    (ReachesWorst engine.book order → ∀ price,
      (engine.callSweep host (order.asMarket price)).trades =
          (engine.callSweep host order).trades ∧
        (engine.callSweep host (order.asMarket price)).engine.book =
          (engine.callSweep host order).engine.book ∧
        (0 < order.price → SameButRested order (engine.processOrder host order)
          (engine.processOrder host (order.asMarket price)))) := by
  have soundNow := sound_of_anySession sound run
  have aloneNow := noUsers_of_anySession sound alone run
  constructor
  · intro price looser
    exact ⟨trades_extend host soundNow qtyPos looser,
      fun pricePos => answer_prefix host soundNow aloneNow limit qtyPos pricePos looser⟩
  · intro reaches price
    obtain ⟨trades, book, _⟩ := callSweep_asMarket host soundNow qtyPos reaches price
    refine ⟨trades, book, fun pricePos => ?_⟩
    cases ok : (engine.preflightCheck host (order.asMarket price)).isOk with
    | true => exact sameButRested_of_accepted host soundNow aloneNow limit qtyPos pricePos reaches ok
    | false => exact sameButRested_of_refused host aloneNow limit qtyPos pricePos ok

/-- Two asks, a buy whose limit reaches both, and the market order for the same quantity. -/
theorem limits_only_cut_short_sample :
    ∃ log engine, AnySession (Host.exact (·)) {} log engine ∧
      (engine.processOrder (Host.exact (·)) ⟨3, 0, .buy, 101, 9, .limit⟩).2.filledQty = 7 ∧
      (engine.callSweep (Host.exact (·)) ⟨3, 0, .buy, 101, 9, .limit⟩).trades <+:
        (engine.callSweep (Host.exact (·)) ⟨3, 0, .buy, 102, 9, .limit⟩).trades ∧
      SameButRested ⟨3, 0, .buy, 101, 9, .limit⟩
        (engine.processOrder (Host.exact (·)) ⟨3, 0, .buy, 101, 9, .limit⟩)
        (engine.processOrder (Host.exact (·)) ⟨3, 0, .buy, 0, 9, .market⟩) := by
  have run := Run.of_isSome (exec (Host.exact (·))) (fun _ _ => True) {}
    [.processOrder ⟨1, 0, .sell, 100, 3, .limit⟩, .processOrder ⟨2, 0, .sell, 101, 4, .limit⟩]
    (by decide)
  have limit : (⟨3, 0, .buy, 101, 9, .limit⟩ : Order).type = .limit := rfl
  obtain ⟨prolongs, asMarket⟩ := limits_only_cut_short (OrderBook.sound_empty none) rfl run limit
    (by decide)
  exact ⟨_, _, run, by decide, (prolongs 102 (by decide)).1,
    (asMarket (by decide) 0).2.2 (by decide)⟩

end MatchingEngine

end OrderBookSimulator
