import OrderBookSimulator.Engine.Sweep
import OrderBookSimulator.Engine.TwoLoops

/-!
# Buying and selling are mirror images

Exchanging the two sides and reading every price `p` as `axis - p` turns one
matching function into the other.  Mirroring is defined record by record, with
one lemma for each operation the loops use; a fill on the mirrored state is
then the mirror of the fill, and the two loops end in mirrored states.
-/

namespace OrderBookSimulator

open Library

@[simp] theorem Side.opposite_opposite (side : Side) : side.opposite.opposite = side := by
  cases side <;> rfl

/-! ## Mirrored records -/

section Mirror

variable (axis : Int)

def Order.mirror (order : Order) : Order :=
  { order with side := order.side.opposite, price := axis - order.price }

def Node.mirror (node : Node) : Node := { node with order := node.order.mirror axis }

def Locator.mirror (loc : Locator) : Locator :=
  { loc with side := loc.side.opposite, price := axis - loc.price }

/-- A higher bid becomes a lower ask. -/
theorem Ahead.mirror (side : Side) (first second : Int) (ahead : Ahead side first second) :
    Ahead side.opposite (axis - first) (axis - second) := by
  cases side <;> simp only [Ahead, Side.opposite] at ahead ⊢ <;> omega

def Levels.mirror {side : Side} (levels : Levels side) : Levels side.opposite :=
  SortedMap.relabel (List.map (Node.mirror axis)) (Ahead.mirror axis side) levels

def Snapshot.mirror (snapshot : Snapshot) : Snapshot :=
  ⟨Levels.mirror axis snapshot.asks, Levels.mirror axis snapshot.bids⟩

/-- An order found by its id is found by the same id on the other side. -/
def OrderBook.mirror (book : OrderBook) : OrderBook where
  bids := Levels.mirror axis book.asks
  asks := Levels.mirror axis book.bids
  index := SortedMap.relabel (Locator.mirror axis) (fun _ _ before => before) book.index
  nextAddress := book.nextAddress
  onChange := book.onChange.map (List.map (Snapshot.mirror axis))

def Trade.mirror (trade : Trade) : Trade := { trade with price := axis - trade.price }

def OrderEvent.mirror (event : OrderEvent) : OrderEvent :=
  { event with side := event.side.opposite, price := axis - event.price }

/-- What both sinks have received is mirrored with the book. -/
def MatchingEngine.mirror (engine : MatchingEngine) : MatchingEngine :=
  { engine with
    book := engine.book.mirror axis
    tradeSink := engine.tradeSink.map (List.map (Trade.mirror axis))
    orderSink := engine.orderSink.map (List.map (OrderEvent.mirror axis)) }

def Sweep.mirror (sweep : Sweep) : Sweep :=
  ⟨sweep.engine.mirror axis, sweep.taker.mirror axis, sweep.trades.map (Trade.mirror axis)⟩

/-! ## Mirrored operations -/

section Book

variable (book : OrderBook) (side : Side)

theorem OrderBook.levels_mirror :
    (book.mirror axis).levels side.opposite = Levels.mirror axis (book.levels side) := by
  cases side <;> rfl

theorem OrderBook.first?_mirror :
    ((book.mirror axis).levels side.opposite).first? =
      (book.levels side).first?.map fun entry =>
        (axis - entry.1, entry.2.map (Node.mirror axis)) := by
  rw [OrderBook.levels_mirror]
  exact SortedMap.first?_relabel _ _

theorem OrderBook.mirror_setLevels (levels : Levels side) :
    (book.setLevels side levels).mirror axis =
      (book.mirror axis).setLevels side.opposite (Levels.mirror axis levels) := by
  cases side <;> rfl

theorem OrderBook.mirror_setLevel (price : Int) (queue : OrderList) :
    (book.setLevel side price queue).mirror axis =
      (book.mirror axis).setLevel side.opposite (axis - price) (queue.map (Node.mirror axis)) := by
  rw [OrderBook.setLevel, OrderBook.mirror_setLevels, OrderBook.setLevel, OrderBook.levels_mirror]
  refine congrArg _ (SortedMap.relabel_alter (Ahead.mirror axis side) _ price fun _ => ?_)
  cases queue <;> rfl

end Book

namespace MatchingEngine

section Engine

variable (engine : MatchingEngine)

theorem mirror_updateLevel (side : Side) (price : Int) (queue : OrderList) :
    (engine.updateBook (·.setLevel side price queue)).mirror axis =
      (engine.mirror axis).updateBook
        (·.setLevel side.opposite (axis - price) (queue.map (Node.mirror axis))) := by
  simp only [updateBook, mirror, OrderBook.mirror_setLevel]

theorem mirror_emitOrderEvent (host : Host) (batchId orderId userId : Int) (status : OrderStatus)
    (side : Side) (price qty remaining : Int) :
    (engine.emitOrderEvent host batchId orderId userId status side price qty remaining).mirror axis =
      (engine.mirror axis).emitOrderEvent host batchId orderId userId status side.opposite
        (axis - price) qty remaining := by
  unfold emitOrderEvent
  cases sink : engine.orderSink with
  | none => simp only [mirror, sink, Option.map]
  | some events => simp [mirror, sink, OrderEvent.mirror]

theorem updateUsers_of_none (update : UserManager → UserManager)
    (alone : engine.userManager = none) : engine.updateUsers update = engine := by
  rw [updateUsers, alone, Option.map, ← alone]

end Engine

/-- A limit that stops a sweep stops the mirrored sweep. -/
theorem beyondLimit_mirror (side : Side) (price limit : Int) :
    beyondLimit side.opposite (axis - price) (axis - limit) = beyondLimit side price limit := by
  cases side <;> simp only [beyondLimit, Side.opposite, decide_eq_decide] <;> omega

section Fill

variable {axis} {takerSide : Side} {sweep : Sweep} {price : Int} {maker : Node} {rest : OrderList}

theorem Fillable.mirror (fillable : Fillable takerSide sweep price maker rest) :
    Fillable takerSide.opposite (sweep.mirror axis) (axis - price) (maker.mirror axis)
      (rest.map (Node.mirror axis)) where
  wants := fillable.wants
  best := by
    have first := OrderBook.first?_mirror axis sweep.engine.book takerSide.opposite
    rw [fillable.best] at first
    exact first
  admits := by
    simp only [Sweep.mirror, Order.mirror, beyondLimit_mirror]
    exact fillable.admits

theorem queueAfterFill_mirror (qty : Int) :
    (queueAfterFill qty maker rest).map (Node.mirror axis) =
      queueAfterFill qty (maker.mirror axis) (rest.map (Node.mirror axis)) := by
  by_cases usedUp : maker.order.qty - qty = 0
  · rw [queueAfterFill, if_pos usedUp, queueAfterFill]
    exact (if_pos usedUp).symm
  · rw [queueAfterFill, if_neg usedUp, queueAfterFill]
    exact (if_neg usedUp).symm

/-- Filling commutes with mirroring. -/
theorem afterFill_mirror {host : Host} {batchId : Int} (alone : sweep.engine.userManager = none) :
    (afterFill host takerSide batchId sweep price maker rest).mirror axis =
      afterFill host takerSide.opposite batchId (sweep.mirror axis) (axis - price)
        (maker.mirror axis) (rest.map (Node.mirror axis)) := by
  have aloneMirror : (sweep.mirror axis).engine.userManager = none := alone
  have sameQty : fillQty (sweep.mirror axis).taker (maker.mirror axis).order =
      fillQty sweep.taker maker.order := rfl
  simp only [afterFill, sameQty, updateUsers_of_none _ _ alone, updateUsers_of_none _ _ aloneMirror]
  rw [Sweep.mirror, Sweep.mk.injEq]
  refine ⟨?_, rfl, ?_⟩
  · rw [mirror_updateLevel, mirror_emitOrderEvent, queueAfterFill_mirror]
    rfl
  · have trade : (fillTrade sweep price maker).mirror axis =
        fillTrade (sweep.mirror axis) (axis - price) (maker.mirror axis) := by
      simp only [fillTrade, makerUser, alone, aloneMirror]
      rfl
    rw [List.map_append, List.map_singleton, trade]
    rfl

end Fill

section Step

variable {host : Host} {takerSide : Side} {batchId : Int} {sweep : Sweep}

theorem Fillable.of_mirror {price : Int} {maker : Node} {rest : OrderList}
    (fillable : Fillable takerSide.opposite (sweep.mirror axis) price maker rest) :
    ∃ price maker rest, Fillable takerSide sweep price maker rest := by
  have first := OrderBook.first?_mirror axis sweep.engine.book takerSide.opposite
  rw [show ((sweep.engine.book.mirror axis).levels takerSide.opposite.opposite).first? = _
    from fillable.best] at first
  cases best : (sweep.engine.book.levels takerSide.opposite).first? with
  | none => rw [best] at first; cases first
  | some entry =>
      obtain ⟨atPrice, queue⟩ := entry
      rw [best] at first
      obtain ⟨rfl, queueEq⟩ := Prod.mk.inj (Option.some.inj first)
      cases queue with
      | nil => cases queueEq
      | cons front behind =>
          refine ⟨atPrice, front, behind, fillable.wants, best, ?_⟩
          have admits := fillable.admits
          simp only [Sweep.mirror, Order.mirror, beyondLimit_mirror] at admits
          exact admits

/-- On a mirrored state the step is the mirrored step, taken or declined. -/
theorem fillStep_mirror (alone : sweep.engine.userManager = none) :
    fillStep host takerSide.opposite batchId (sweep.mirror axis) =
      (fillStep host takerSide batchId sweep).map (Sweep.mirror axis) := by
  by_cases some : ∃ price maker rest, Fillable takerSide sweep price maker rest
  · obtain ⟨price, maker, rest, fillable⟩ := some
    rw [fillStep_of_fillable fillable, fillStep_of_fillable fillable.mirror, Option.map,
      afterFill_mirror alone]
  · rw [fillStep_of_not_fillable fun price maker rest fillable => some ⟨_, _, _, fillable⟩,
      fillStep_of_not_fillable fun price maker rest fillable => some (fillable.of_mirror axis)]
    rfl

/-- A sweep and the sweep of the mirrored state end mirrored. -/
theorem settles_mirror {sweep last lastMirror : Sweep} (alone : sweep.engine.userManager = none)
    (settles : Settles (fillStep host takerSide batchId) sweep last)
    (settlesMirror :
      Settles (fillStep host takerSide.opposite batchId) (sweep.mirror axis) lastMirror) :
    lastMirror = last.mirror axis := by
  refine (Settles.simulate
    (fun state other => other = state.mirror axis ∧ state.engine.userManager = none) ?_
    ⟨rfl, alone⟩ settles settlesMirror).1
  rintro state _ ⟨rfl, alone⟩
  have mirrored : fillStep host takerSide.opposite batchId (state.mirror axis) = _ :=
    fillStep_mirror axis alone
  cases moves : fillStep host takerSide batchId state with
  | none =>
      rw [moves] at mirrored
      exact Or.inl ⟨rfl, mirrored⟩
  | some next =>
      rw [moves] at mirrored
      refine Or.inr ⟨next, _, rfl, mirrored, rfl, ?_⟩
      obtain ⟨price, maker, rest, _, rfl⟩ := fillStep_cases moves
      simp only [afterFill, userManager_updateBook, userManager_emitOrderEvent,
        userManager_updateUsers, alone, Option.map]

end Step

/--
`match_sell` on the mirrored book and taker does the mirror image of what
`match_buy` does: book, taker, trades and announcements, for every axis.
-/
theorem matchSell_mirrors_matchBuy (host : Host) (axis batchId : Int) (sweep : Sweep)
    (alone : sweep.engine.userManager = none) :
    TwoLoops.matchSell host (sweep.mirror axis) batchId =
      (TwoLoops.matchBuy host sweep batchId).mirror axis := by
  rw [TwoLoops.matchSell_eq, TwoLoops.matchBuy_eq]
  exact settles_mirror axis alone (matchBuy_settles host batchId sweep)
    (matchSell_settles host batchId (sweep.mirror axis))

/-- Two asks of different sizes under an order that takes one and part of the other. -/
def twoAsks : Sweep :=
  let first : Order := { id := 1, side := .sell, price := 103, qty := 4, type := .limit }
  let second : Order := { id := 2, side := .sell, price := 101, qty := 2, type := .limit }
  { engine := { book := (OrderBook.addRestingOrder {} first).addRestingOrder second }
    taker := { id := 3, side := .buy, price := 103, qty := 5, type := .limit }
    trades := [] }

theorem matchSell_mirrors_twoAsks :
    TwoLoops.matchSell (Host.exact fun _ => 0) (twoAsks.mirror 200) 1 =
        (TwoLoops.matchBuy (Host.exact fun _ => 0) twoAsks 1).mirror 200 ∧
      (TwoLoops.matchSell (Host.exact fun _ => 0) (twoAsks.mirror 200) 1).trades.map
        (fun trade => (trade.makerId, trade.price, trade.qty)) = [(2, 99, 2), (1, 97, 3)] :=
  ⟨matchSell_mirrors_matchBuy _ 200 1 twoAsks rfl, by decide⟩

end MatchingEngine

end Mirror

end OrderBookSimulator
