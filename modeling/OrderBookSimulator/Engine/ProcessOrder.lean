import OrderBookSimulator.Engine.Sweep
import OrderBookSimulator.Library.Tally

/-!
# What a call can do

`processOrder` either refuses the order with one event, or sweeps, rests the
remainder, emits and reports.  Each stage is described by the fields it
touches, so that a property of a call is assembled from its stages.
-/

namespace OrderBookSimulator

open Library

/-- A trade without what emission stamps on it. -/
def Trade.unstamped (trade : Trade) : Trade :=
  { trade with tradeId := 0, seq := 0, timestamp := 0 }

namespace MatchingEngine

/-! ## Preflight -/

section Opened

variable (engine : MatchingEngine) (incoming : Order)

@[simp] theorem book_opened : (engine.opened incoming).book = engine.book := rfl
@[simp] theorem userManager_opened : (engine.opened incoming).userManager =
    engine.userManager.map (·.registerOrder incoming.id incoming.userId) := rfl
@[simp] theorem orderSink_opened : (engine.opened incoming).orderSink = engine.orderSink := rfl
@[simp] theorem tradeSink_opened : (engine.opened incoming).tradeSink = engine.tradeSink := rfl
@[simp] theorem eventSeq_opened : (engine.opened incoming).eventSeq = engine.eventSeq := rfl
@[simp] theorem batchSeq_opened : (engine.opened incoming).batchSeq = engine.batchSeq + 1 := rfl

/-- Preflight reads positions and the book, and registering an owner moves neither. -/
theorem preflightCheck_opened (host : Host) (order : Order) :
    (engine.opened incoming).preflightCheck host order = engine.preflightCheck host order := by
  unfold preflightCheck
  rw [userManager_opened]
  cases engine.userManager <;> rfl

end Opened

/-- What an order that passed preflight is known to satisfy. -/
structure Passed (host : Host) (engine : MatchingEngine) (order : Order) : Prop where
  qty_pos : 0 < order.qty
  price_pos : order.type = .limit → 0 < order.price
  liquidity : order.type = .market →
    (engine.book.levels order.side.opposite).first? ≠ none
  cash : ∀ users, engine.userManager = some users → 0 < order.userId → order.side = .buy →
    order.type = .limit → host.longLong (order.price * order.qty) ≤
      host.longLong ((users.getPosition order.userId).balance -
        (users.getPosition order.userId).reservedBalance)
  stock : ∀ users, engine.userManager = some users → 0 < order.userId → order.side = .sell →
    order.qty ≤ host.longLong ((users.getPosition order.userId).shares -
      (users.getPosition order.userId).reservedShares)

theorem passed_of_isOk {host : Host} {engine : MatchingEngine} {order : Order}
    (ok : (engine.preflightCheck host order).isOk = true) : Passed host engine order := by
  unfold preflightCheck at ok
  split at ok
  · simp [PreflightResult.isOk, PreflightResult.rejected] at ok
  rename_i qtyPos
  split at ok
  · simp [PreflightResult.isOk, PreflightResult.rejected] at ok
  rename_i pricePos
  split at ok
  · simp [PreflightResult.isOk, PreflightResult.cancelled] at ok
  rename_i asks
  split at ok
  · simp [PreflightResult.isOk, PreflightResult.cancelled] at ok
  rename_i bids
  have liquidity : order.type = .market →
      (engine.book.levels order.side.opposite).first? ≠ none := by
    intro market none
    cases side : order.side with
    | buy =>
        rw [side] at none
        exact asks ⟨market, side, by simp [OrderBook.bestAsk, OrderBook.bestPrice, ← none,
          Side.opposite]⟩
    | sell =>
        rw [side] at none
        exact bids ⟨market, side, by simp [OrderBook.bestBid, OrderBook.bestPrice, ← none,
          Side.opposite]⟩
  refine ⟨by omega, fun limit => ?_, liquidity, ?_, ?_⟩
  · by_contra notPos
    exact pricePos ⟨limit, by omega⟩
  · intro users hasUsers positive buys limit
    simp only [hasUsers, if_pos positive, buys, if_pos limit] at ok
    split at ok
    · simp [PreflightResult.isOk, PreflightResult.rejected] at ok
    · omega
  · intro users hasUsers positive sells
    simp only [hasUsers, if_pos positive, sells] at ok
    split at ok
    · simp [PreflightResult.isOk, PreflightResult.rejected] at ok
    · omega

/-! ## Emission -/

section Emission

theorem emitEach_fields (timestamp : Int) (engine : MatchingEngine) (trades : List Trade) :
    (emitEach timestamp engine trades).1.book = engine.book ∧
    (emitEach timestamp engine trades).1.userManager = engine.userManager ∧
    (emitEach timestamp engine trades).1.orderSink = engine.orderSink ∧
    (emitEach timestamp engine trades).1.eventSeq = engine.eventSeq ∧
    (emitEach timestamp engine trades).1.batchSeq = engine.batchSeq ∧
    (emitEach timestamp engine trades).2.map Trade.unstamped = trades.map Trade.unstamped := by
  induction trades generalizing engine with
  | nil => exact ⟨rfl, rfl, rfl, rfl, rfl, rfl⟩
  | cons trade rest ih =>
      obtain ⟨book, users, sink, seq, batch, stamped⟩ := ih { engine with
        globalSeq := engine.globalSeq + 1
        globalTradeId := engine.globalTradeId + 1
        tradeSink := engine.tradeSink.map (· ++ [{ trade with
          seq := engine.globalSeq, tradeId := engine.globalTradeId, timestamp := timestamp }]) }
      exact ⟨book, users, sink, seq, batch, congrArg (trade.unstamped :: ·) stamped⟩

variable (host : Host) (engine : MatchingEngine) (trades : List Trade)

@[simp] theorem book_emitTrades : (engine.emitTrades host trades).1.book = engine.book := by
  unfold emitTrades
  split
  · rfl
  · exact (emitEach_fields _ _ _).1

@[simp] theorem userManager_emitTrades :
    (engine.emitTrades host trades).1.userManager = engine.userManager := by
  unfold emitTrades
  split
  · rfl
  · exact (emitEach_fields _ _ _).2.1

@[simp] theorem orderSink_emitTrades :
    (engine.emitTrades host trades).1.orderSink = engine.orderSink := by
  unfold emitTrades
  split
  · rfl
  · exact (emitEach_fields _ _ _).2.2.1

@[simp] theorem eventSeq_emitTrades :
    (engine.emitTrades host trades).1.eventSeq = engine.eventSeq := by
  unfold emitTrades
  split
  · rfl
  · exact (emitEach_fields _ _ _).2.2.2.1

@[simp] theorem batchSeq_emitTrades :
    (engine.emitTrades host trades).1.batchSeq = engine.batchSeq := by
  unfold emitTrades
  split
  · rfl
  · exact (emitEach_fields _ _ _).2.2.2.2.1

/-- Emission changes nothing of a trade but its stamps. -/
theorem unstamped_emitTrades :
    (engine.emitTrades host trades).2.map Trade.unstamped = trades.map Trade.unstamped := by
  unfold emitTrades
  split
  · rfl
  · exact (emitEach_fields _ _ _).2.2.2.2.2

end Emission

/-- A tally that does not look at stamps is the same before and after emission. -/
theorem tally_of_unstamped {select : Trade → Prop} [DecidablePred select] {weight : Trade → Int}
    (blind : ∀ trade, (select trade ↔ select trade.unstamped) ∧
      weight trade = weight trade.unstamped) {first second : List Trade}
    (same : first.map Trade.unstamped = second.map Trade.unstamped) :
    tally select weight first = tally select weight second := by
  have drop : ∀ trades : List Trade,
      tally select weight trades = tally select weight (trades.map Trade.unstamped) := by
    intro trades
    rw [tally_map]
    exact tally_congr (fun trade _ => (blind trade).1) fun trade _ _ => (blind trade).2
  rw [drop first, same, ← drop second]

theorem exists_of_unstamped {first second : List Trade}
    (same : first.map Trade.unstamped = second.map Trade.unstamped) {trade : Trade}
    (member : trade ∈ first) : ∃ other ∈ second, other.unstamped = trade.unstamped := by
  have inMap : trade.unstamped ∈ first.map Trade.unstamped := List.mem_map_of_mem member
  rw [same] at inMap
  exact List.mem_map.mp inMap

/-! ## Resting the remainder -/

section Rest

variable (host : Host) (sweep : Sweep)

@[simp] theorem orderSink_restRemainder :
    (restRemainder host sweep).orderSink = sweep.engine.orderSink := by
  unfold restRemainder
  by_cases rests : sweep.taker.type = .limit ∧ 0 < sweep.taker.qty <;>
    by_cases traded : sweep.trades = [] <;> simp [rests, traded]

@[simp] theorem eventSeq_restRemainder :
    (restRemainder host sweep).eventSeq = sweep.engine.eventSeq := by
  unfold restRemainder
  by_cases rests : sweep.taker.type = .limit ∧ 0 < sweep.taker.qty <;>
    by_cases traded : sweep.trades = [] <;> simp [rests, traded]

@[simp] theorem batchSeq_restRemainder :
    (restRemainder host sweep).batchSeq = sweep.engine.batchSeq := by
  unfold restRemainder
  by_cases rests : sweep.taker.type = .limit ∧ 0 < sweep.taker.qty <;>
    by_cases traded : sweep.trades = [] <;> simp [rests, traded]

/-- The book after a sweep, once its change has been announced. -/
def announcedBook (sweep : Sweep) : OrderBook :=
  if sweep.trades = [] then sweep.engine.book else sweep.engine.book.notifyChange

theorem book_restRemainder :
    (restRemainder host sweep).book =
      if sweep.taker.type = .limit ∧ 0 < sweep.taker.qty then
        (announcedBook sweep).addRestingOrder sweep.taker
      else announcedBook sweep := by
  unfold restRemainder announcedBook
  by_cases rests : sweep.taker.type = .limit ∧ 0 < sweep.taker.qty <;>
    by_cases traded : sweep.trades = [] <;> simp [rests, traded]

theorem userManager_restRemainder :
    (restRemainder host sweep).userManager =
      if sweep.taker.type = .limit ∧ 0 < sweep.taker.qty then
        sweep.engine.userManager.map fun users =>
          users.onOrderResting host sweep.taker.id sweep.taker.side sweep.taker.price
            sweep.taker.qty
      else sweep.engine.userManager := by
  unfold restRemainder
  by_cases rests : sweep.taker.type = .limit ∧ 0 < sweep.taker.qty <;>
    by_cases traded : sweep.trades = [] <;> simp [rests, traded]

end Rest

/-! ## The whole call -/

/-- The status that `processOrder` reports for an accepted order. -/
def fillStatus (filled left : Int) : OrderStatus :=
  if filled = 0 then .new else if left = 0 then .filled else .partiallyFilled

theorem fillStatus_eq_new_iff (filled left : Int) : fillStatus filled left = .new ↔ filled = 0 := by
  unfold fillStatus
  split
  · simp [*]
  · split <;> simp [*]

theorem fillStatus_eq_filled_iff {filled left : Int} (positive : 0 < filled + left) :
    fillStatus filled left = .filled ↔ left = 0 := by
  unfold fillStatus
  split
  · simp
    omega
  · split <;> simp [*]

theorem fillStatus_eq_partiallyFilled_iff (filled left : Int) :
    fillStatus filled left = .partiallyFilled ↔ left ≠ 0 ∧ filled ≠ 0 := by
  unfold fillStatus
  split
  · simp [*]
  · split <;> simp [*]

/-- A report never says that the order was refused. -/
theorem fillStatus_not_final (filled left : Int) :
    ¬ (fillStatus filled left = .rejected ∨ fillStatus filled left = .canceled) := by
  unfold fillStatus
  split
  · decide
  · split <;> decide

/-- The sweep an accepted order starts with. -/
def startSweep (host : Host) (engine : MatchingEngine) (batchId : Int) (incoming : Order) :
    Sweep :=
  { engine := engine.emitOrderEvent host batchId incoming.id incoming.userId .new
      incoming.side incoming.price incoming.qty incoming.qty
    taker := incoming
    trades := [] }

section Call

variable (host : Host) (engine : MatchingEngine) (incoming : Order)

theorem sweepIncoming_settles (batchId : Int) :
    Settles (fillStep host incoming.side batchId) (startSweep host engine batchId incoming)
      (engine.sweepIncoming host batchId incoming) := by
  unfold sweepIncoming
  cases side : incoming.side with
  | buy =>
      have settles := matchBuy_settles host batchId
        (startSweep host engine batchId incoming)
      simpa [startSweep, side] using settles
  | sell =>
      have settles := matchSell_settles host batchId
        (startSweep host engine batchId incoming)
      simpa [startSweep, side] using settles

/-- The engine after an accepted order, from the sweep it caused. -/
def concluded (batchId : Int) (sweep : Sweep) : MatchingEngine :=
  let engine := ((restRemainder host sweep).emitTrades host sweep.trades).1
  let filled := incoming.qty - sweep.taker.qty
  if filled = 0 then engine
  else
    engine.emitOrderEvent host batchId incoming.id incoming.userId
      (fillStatus filled sweep.taker.qty) sweep.taker.side incoming.price filled sweep.taker.qty

/-- What an accepted order is answered, from the sweep it caused. -/
def report (sweep : Sweep) : OrderResult :=
  { id := incoming.id
    status := fillStatus (incoming.qty - sweep.taker.qty) sweep.taker.qty
    originalQty := incoming.qty
    filledQty := incoming.qty - sweep.taker.qty
    remainingQty := sweep.taker.qty
    trades := ((restRemainder host sweep).emitTrades host sweep.trades).2
    reason := "" }

theorem processAccepted_eq (batchId : Int) :
    engine.processAccepted host batchId incoming =
      (concluded host incoming batchId (engine.sweepIncoming host batchId incoming),
        report host incoming (engine.sweepIncoming host batchId incoming)) := by
  unfold processAccepted concluded report fillStatus
  by_cases none : incoming.qty - (engine.sweepIncoming host batchId incoming).taker.qty = 0
  · simp only [none, if_true]
  · by_cases all : (engine.sweepIncoming host batchId incoming).taker.qty = 0
    · simp only [if_neg none, if_pos all]
      rw [all]
    · simp only [if_neg none, if_neg all]

/-- A refused order leaves one event and nothing else. -/
theorem processOrder_of_refused (refused : (engine.preflightCheck host incoming).isOk = false) :
    ∃ status, (status = .rejected ∨ status = .canceled) ∧
      engine.processOrder host incoming =
        ((engine.opened incoming).emitOrderEvent host engine.batchSeq incoming.id
          incoming.userId status incoming.side incoming.price 0 0,
          { id := incoming.id, status, originalQty := incoming.qty, filledQty := 0
            remainingQty := 0, trades := []
            reason := (engine.preflightCheck host incoming).reason }) := by
  have same := preflightCheck_opened engine incoming host incoming
  unfold processOrder
  simp only [same]
  cases status : (engine.preflightCheck host incoming).status with
  | ok => simp [PreflightResult.isOk, status] at refused
  | rejected => exact ⟨.rejected, Or.inl rfl, rfl⟩
  | cancelled => exact ⟨.canceled, Or.inr rfl, rfl⟩

/-- The sweep of an order that passed preflight. -/
def callSweep : Sweep :=
  (engine.opened incoming).sweepIncoming host engine.batchSeq incoming

theorem processOrder_of_accepted (ok : (engine.preflightCheck host incoming).isOk = true) :
    engine.processOrder host incoming =
      (concluded host incoming engine.batchSeq (engine.callSweep host incoming),
        report host incoming (engine.callSweep host incoming)) := by
  have same := preflightCheck_opened engine incoming host incoming
  have status : (engine.preflightCheck host incoming).status = .ok := by
    simpa [PreflightResult.isOk] using ok
  unfold processOrder
  simp only [same, status]
  exact processAccepted_eq host (engine.opened incoming) incoming engine.batchSeq

end Call

section Concluded

variable (host : Host) (incoming : Order) (batchId : Int) (sweep : Sweep)

@[simp] theorem book_concluded :
    (concluded host incoming batchId sweep).book = (restRemainder host sweep).book := by
  unfold concluded
  by_cases none : incoming.qty - sweep.taker.qty = 0 <;> simp [none]

@[simp] theorem userManager_concluded :
    (concluded host incoming batchId sweep).userManager =
      (restRemainder host sweep).userManager := by
  unfold concluded
  by_cases none : incoming.qty - sweep.taker.qty = 0 <;> simp [none]

@[simp] theorem batchSeq_concluded :
    (concluded host incoming batchId sweep).batchSeq = sweep.engine.batchSeq := by
  unfold concluded
  by_cases none : incoming.qty - sweep.taker.qty = 0 <;> simp [none]

theorem unstamped_report :
    (report host incoming sweep).trades.map Trade.unstamped =
      sweep.trades.map Trade.unstamped :=
  unstamped_emitTrades _ _ _

end Concluded

end MatchingEngine

end OrderBookSimulator
