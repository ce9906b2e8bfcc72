import OrderBookSimulator.Engine.Callbacks

/-!
# Engines that answer alike

What sinks and callback were told is written and never read, and users are
asked for owners and positions only.  Two engines that agree in everything else
give the same reply to every call, and agree in everything else afterwards.
-/

namespace OrderBookSimulator

open Library

/-! ## Users -/

/-- Users who give the same answers. -/
structure UserManager.Agrees (first second : UserManager) : Prop where
  owners : second.orderToUser = first.orderToUser
  positions : ∀ user, second.getPosition user = first.getPosition user

namespace UserManager.Agrees

variable {first second third : UserManager}

theorem refl (users : UserManager) : users.Agrees users := ⟨rfl, fun _ => rfl⟩

theorem trans (alike : first.Agrees second) (alike' : second.Agrees third) : first.Agrees third :=
  ⟨alike'.owners.trans alike.owners,
    fun user => (alike'.positions user).trans (alike.positions user)⟩

theorem symm (alike : first.Agrees second) : second.Agrees first :=
  ⟨alike.owners.symm, fun user => (alike.positions user).symm⟩

theorem getUserForOrder (alike : first.Agrees second) (orderId : Int) :
    second.getUserForOrder orderId = first.getUserForOrder orderId :=
  getUserForOrder_congr alike.owners orderId

theorem updatePosition (alike : first.Agrees second) (userId : Int)
    (update : Position → Position) :
    (first.updatePosition userId update).Agrees (second.updatePosition userId update) where
  owners := alike.owners
  positions := by
    intro user
    rw [getPosition_updatePosition, getPosition_updatePosition, alike.positions, alike.positions]

theorem registerOrder (alike : first.Agrees second) (orderId userId : Int) :
    (first.registerOrder orderId userId).Agrees (second.registerOrder orderId userId) where
  owners := by rw [UserManager.registerOrder, UserManager.registerOrder, alike.owners]
  positions := alike.positions

theorem onFill (host : Host) (alike : first.Agrees second) (makerId takerId price qty : Int)
    (takerSide : Side) : (first.onFill host makerId takerId price qty takerSide).Agrees
      (second.onFill host makerId takerId price qty takerSide) := by
  unfold UserManager.onFill
  rw [alike.getUserForOrder, alike.getUserForOrder]
  cases takerSide with
  | buy => exact (alike.updatePosition _ _).updatePosition _ _
  | sell => exact (alike.updatePosition _ _).updatePosition _ _

theorem onOrderResting (host : Host) (alike : first.Agrees second) (orderId : Int) (side : Side)
    (price qty : Int) : (first.onOrderResting host orderId side price qty).Agrees
      (second.onOrderResting host orderId side price qty) := by
  unfold UserManager.onOrderResting
  rw [alike.owners]
  split
  · exact alike
  · cases side with
    | buy => exact alike.updatePosition _ _
    | sell => exact alike.updatePosition _ _

theorem onCancel (host : Host) (alike : first.Agrees second) (orderId : Int) (side : Side)
    (price remainingQty : Int) : (first.onCancel host orderId side price remainingQty).Agrees
      (second.onCancel host orderId side price remainingQty) := by
  unfold UserManager.onCancel
  rw [alike.owners]
  split
  · exact alike
  · cases side with
    | buy => exact alike.updatePosition _ _
    | sell => exact alike.updatePosition _ _

theorem apply (host : Host) (alike : first.Agrees second) (call : UserCall) :
    (first.apply host call).Agrees (second.apply host call) := by
  cases call with
  | onFill => exact alike.onFill host _ _ _ _ _
  | onOrderResting => exact alike.onOrderResting host _ _ _ _
  | onCancel => exact alike.onCancel host _ _ _ _

/-- The same callbacks keep users alike. -/
theorem foldl (host : Host) (alike : first.Agrees second) (calls : List UserCall) :
    (calls.foldl (UserManager.apply host) first).Agrees
      (calls.foldl (UserManager.apply host) second) := by
  induction calls generalizing first second with
  | nil => exact alike
  | cons call rest ih => exact ih (alike.apply host call)

end UserManager.Agrees

/-! ## Books -/

namespace OrderBook

variable (book : OrderBook)

@[simp] theorem levels_setOnChange (side : Side) :
    book.setOnChange.levels side = book.levels side :=
  levels_withOnChange book side _

@[simp] theorem index_setOnChange : book.setOnChange.index = book.index := rfl

@[simp] theorem setOnChange_setOnChange : book.setOnChange.setOnChange = book.setOnChange := rfl

@[simp] theorem setOnChange_notifyChange : book.notifyChange.setOnChange = book.setOnChange := rfl

theorem setOnChange_setLevel (side : Side) (price : Int) (queue : OrderList) :
    (book.setLevel side price queue).setOnChange = book.setOnChange.setLevel side price queue := by
  cases side <;> rfl

theorem setOnChange_addRestingOrder (order : Order) :
    (book.addRestingOrder order).setOnChange =
      (book.setOnChange.addRestingOrder order).setOnChange := by
  unfold addRestingOrder
  rw [index_setOnChange]
  split
  · rfl
  · split
    · rfl
    · obtain ⟨id, userId, side, price, qty, type⟩ := order
      cases side <;> rfl

theorem setOnChange_withdrawn (order : Order) :
    (book.withdrawn order).setOnChange = (book.setOnChange.withdrawn order).setOnChange := by
  obtain ⟨id, userId, side, price, qty, type⟩ := order
  cases side <;> rfl

end OrderBook

/-! ## Engines -/

namespace MatchingEngine

/-- The engine as it is before anyone listens, without its users. -/
def quiet (engine : MatchingEngine) : MatchingEngine :=
  { engine with
    book := engine.book.setOnChange
    tradeSink := engine.tradeSink.map fun _ => []
    orderSink := engine.orderSink.map fun _ => []
    userManager := none }

/-- Engines with users that differ at most in what sinks and callback were told. -/
structure Agrees (first second : MatchingEngine) : Prop where
  quiet : second.quiet = first.quiet
  users : ∃ users other, first.userManager = some users ∧ second.userManager = some other ∧
    users.Agrees other

section Quiet

variable (engine : MatchingEngine)

@[simp] theorem quiet_updateUsers (update : UserManager → UserManager) :
    (engine.updateUsers update).quiet = engine.quiet := rfl

theorem quiet_updateBook {update : OrderBook → OrderBook}
    (blind : ∀ book, (update book).setOnChange = (update book.setOnChange).setOnChange) :
    (engine.updateBook update).quiet = (engine.quiet.updateBook update).quiet := by
  have same := blind engine.book
  unfold quiet updateBook
  simp only [same]
  cases engine.tradeSink <;> cases engine.orderSink <;> rfl

theorem quiet_emitOrderEvent (host : Host) (batchId orderId userId : Int) (status : OrderStatus)
    (side : Side) (price qty remaining : Int) :
    (engine.emitOrderEvent host batchId orderId userId status side price qty remaining).quiet =
      (engine.quiet.emitOrderEvent host batchId orderId userId status side price qty
        remaining).quiet := by
  unfold emitOrderEvent
  cases sink : engine.orderSink <;> cases trades : engine.tradeSink <;>
    simp [quiet, sink, trades]

/-- The counters and the sink after one trade has been handed over. -/
def handOver (stamped : Trade) : MatchingEngine :=
  { engine with
    globalSeq := engine.globalSeq + 1
    globalTradeId := engine.globalTradeId + 1
    tradeSink := engine.tradeSink.map (· ++ [stamped]) }

/-- What emission makes of a trade. -/
def stamped (timestamp : Int) (trade : Trade) : Trade :=
  { trade with seq := engine.globalSeq, tradeId := engine.globalTradeId, timestamp := timestamp }

theorem emitEach_cons (timestamp : Int) (trade : Trade) (rest : List Trade) :
    emitEach timestamp engine (trade :: rest) =
      ((emitEach timestamp (engine.handOver (engine.stamped timestamp trade)) rest).1,
        engine.stamped timestamp trade ::
          (emitEach timestamp (engine.handOver (engine.stamped timestamp trade)) rest).2) := rfl

theorem emitTrades_eq (host : Host) (trades : List Trade) :
    engine.emitTrades host trades =
      if engine.tradeSink.isSome then
        emitEach (host.now engine.clockReads)
          { engine with clockReads := engine.clockReads + 1 } trades
      else (engine, trades) := by
  unfold emitTrades
  cases sink : engine.tradeSink <;> simp

theorem quiet_handOver (stamped : Trade) :
    (engine.handOver stamped).quiet = (engine.quiet.handOver stamped).quiet := by
  simp [handOver, quiet, Function.comp_def]

end Quiet

section Emission

variable {first second : MatchingEngine}

/-- What is emitted depends on the counters, not on what was emitted before. -/
theorem emitEach_of_quiet (same : second.quiet = first.quiet) (timestamp : Int)
    (trades : List Trade) :
    (emitEach timestamp second trades).1.quiet = (emitEach timestamp first trades).1.quiet ∧
      (emitEach timestamp second trades).2 = (emitEach timestamp first trades).2 := by
  induction trades generalizing first second with
  | nil => exact ⟨same, rfl⟩
  | cons trade rest ih =>
      have stamp : second.stamped timestamp trade = first.stamped timestamp trade :=
        congrArg (·.stamped timestamp trade) same
      have advanced : (second.handOver (first.stamped timestamp trade)).quiet =
          (first.handOver (first.stamped timestamp trade)).quiet := by
        rw [quiet_handOver second, same, ← quiet_handOver]
      obtain ⟨later, laterTrades⟩ := ih advanced
      rw [emitEach_cons, emitEach_cons, stamp]
      exact ⟨later, congrArg (_ :: ·) laterTrades⟩

theorem emitTrades_of_quiet (host : Host) (same : second.quiet = first.quiet)
    (trades : List Trade) :
    (second.emitTrades host trades).1.quiet = (first.emitTrades host trades).1.quiet ∧
      (second.emitTrades host trades).2 = (first.emitTrades host trades).2 := by
  have clock : second.clockReads = first.clockReads := congrArg (·.clockReads) same
  have listening : second.tradeSink.isSome = first.tradeSink.isSome := by
    simpa [quiet] using congrArg (·.tradeSink.isSome) same
  rw [emitTrades_eq, emitTrades_eq, listening, clock]
  split
  · refine emitEach_of_quiet ?_ _ _
    exact congrArg (fun quieted : MatchingEngine =>
      { quieted with clockReads := first.clockReads + 1 }) same
  · exact ⟨same, rfl⟩

end Emission

namespace Agrees

variable {first second third : MatchingEngine} (alike : first.Agrees second)

include alike

theorem symm : second.Agrees first where
  quiet := alike.quiet.symm
  users := by
    obtain ⟨users, other, hasUsers, hasOther, same⟩ := alike.users
    exact ⟨other, users, hasOther, hasUsers, same.symm⟩

theorem trans (alike' : second.Agrees third) : first.Agrees third where
  quiet := alike'.quiet.trans alike.quiet
  users := by
    obtain ⟨users, other, hasUsers, hasOther, same⟩ := alike.users
    obtain ⟨other', last, hasOther', hasLast, same'⟩ := alike'.users
    obtain rfl : other = other' := Option.some.inj (hasOther.symm.trans hasOther')
    exact ⟨users, last, hasUsers, hasLast, same.trans same'⟩

theorem levels (side : Side) : second.book.levels side = first.book.levels side := by
  have same : second.quiet.book.levels side = first.quiet.book.levels side :=
    congrArg (·.book.levels side) alike.quiet
  simpa [MatchingEngine.quiet] using same

theorem index : second.book.index = first.book.index :=
  congrArg (·.book.index) alike.quiet

theorem batchSeq : second.batchSeq = first.batchSeq :=
  congrArg (·.batchSeq) alike.quiet

theorem preflightCheck (host : Host) (order : Order) :
    second.preflightCheck host order = first.preflightCheck host order := by
  obtain ⟨users, other, hasUsers, hasOther, same⟩ := alike.users
  unfold MatchingEngine.preflightCheck OrderBook.bestAsk OrderBook.bestBid OrderBook.bestPrice
  simp only [alike.levels, hasUsers, hasOther, same.positions]

theorem makerUser (maker : Order) : second.makerUser maker = first.makerUser maker := by
  obtain ⟨users, other, hasUsers, hasOther, same⟩ := alike.users
  simp only [MatchingEngine.makerUser, hasUsers, hasOther, same.getUserForOrder]

theorem updateUsers {update : UserManager → UserManager}
    (respects : ∀ users other : UserManager, users.Agrees other →
      (update users).Agrees (update other)) :
    (first.updateUsers update).Agrees (second.updateUsers update) where
  quiet := alike.quiet
  users := by
    obtain ⟨users, other, hasUsers, hasOther, same⟩ := alike.users
    exact ⟨_, _, by simp [hasUsers], by simp [hasOther], respects _ _ same⟩

theorem updateBook {update : OrderBook → OrderBook}
    (blind : ∀ book, (update book).setOnChange = (update book.setOnChange).setOnChange) :
    (first.updateBook update).Agrees (second.updateBook update) where
  quiet := by rw [quiet_updateBook second blind, alike.quiet, ← quiet_updateBook first blind]
  users := alike.users

theorem notifyChange :
    (first.updateBook (·.notifyChange)).Agrees (second.updateBook (·.notifyChange)) :=
  alike.updateBook fun _ => rfl

theorem emitOrderEvent (host : Host) (batchId orderId userId : Int) (status : OrderStatus)
    (side : Side) (price qty remaining : Int) :
    (first.emitOrderEvent host batchId orderId userId status side price qty remaining).Agrees
      (second.emitOrderEvent host batchId orderId userId status side price qty remaining) where
  quiet := by rw [quiet_emitOrderEvent second, alike.quiet, ← quiet_emitOrderEvent first]
  users := by simpa using alike.users

theorem opened (incoming : Order) : (first.opened incoming).Agrees (second.opened incoming) where
  quiet := congrArg (fun quieted : MatchingEngine =>
    { quieted with batchSeq := quieted.batchSeq + 1 }) alike.quiet
  users := by
    have registered : (first.updateUsers (·.registerOrder incoming.id incoming.userId)).Agrees
        (second.updateUsers (·.registerOrder incoming.id incoming.userId)) :=
      alike.updateUsers fun _ _ same => same.registerOrder _ _
    exact registered.users

theorem emitTrades (host : Host) (trades : List Trade) :
    (first.emitTrades host trades).1.Agrees (second.emitTrades host trades).1 ∧
      (second.emitTrades host trades).2 = (first.emitTrades host trades).2 := by
  obtain ⟨quiet, same⟩ := emitTrades_of_quiet host alike.quiet trades
  exact ⟨⟨quiet, by simpa using alike.users⟩, same⟩

end Agrees

/-! ## Sweeps -/

/-- Sweeps that have done the same on engines that are alike. -/
structure AgreeingSweeps (first second : Sweep) : Prop where
  engine : first.engine.Agrees second.engine
  taker : second.taker = first.taker
  trades : second.trades = first.trades

section Sweeping

variable (host : Host) {first second : MatchingEngine}

theorem AgreeingSweeps.afterFill {full other : Sweep} (alike : AgreeingSweeps full other)
    (takerSide : Side) (batchId price : Int) (maker : Node) (rest : OrderList) :
    AgreeingSweeps (afterFill host takerSide batchId full price maker rest)
      (afterFill host takerSide batchId other price maker rest) := by
  unfold MatchingEngine.afterFill fillTrade
  rw [alike.taker, alike.trades, alike.engine.makerUser]
  refine ⟨?_, rfl, rfl⟩
  dsimp only
  refine Agrees.updateBook (Agrees.emitOrderEvent (alike.engine.updateUsers fun _ _ same => ?_) host
    batchId _ _ _ _ _ _ _) fun book => ?_
  · exact same.onFill host _ _ _ _ _
  · rw [OrderBook.setOnChange_setLevel, OrderBook.setOnChange_setLevel,
      OrderBook.setOnChange_setOnChange]

/-- The sweeps of one order end alike. -/
theorem Agrees.callSweep (alike : first.Agrees second) (incoming : Order) :
    AgreeingSweeps (first.callSweep host incoming) (second.callSweep host incoming) := by
  refine Settles.simulate AgreeingSweeps (fun full other same => ?_) ?_
    (callSweep_settles host first incoming)
    (by simpa [alike.batchSeq] using callSweep_settles host second incoming)
  · exact fillStep_lockstep_of_levels (same.engine.levels _) same.taker
      fun price maker rest _ => same.afterFill host incoming.side first.batchSeq price maker rest
  · exact ⟨by
      exact (alike.opened incoming).emitOrderEvent host _ _ _ _ _ _ _ _, rfl, rfl⟩

theorem AgreeingSweeps.restRemainder {full other : Sweep} (alike : AgreeingSweeps full other) :
    (restRemainder host full).Agrees (restRemainder host other) := by
  have announced : (if full.trades = [] then full.engine
      else full.engine.updateBook (·.notifyChange)).Agrees
        (if full.trades = [] then other.engine else other.engine.updateBook (·.notifyChange)) := by
    split
    · exact alike.engine
    · exact alike.engine.notifyChange
  unfold MatchingEngine.restRemainder
  rw [alike.taker, alike.trades]
  dsimp only
  split
  · exact (announced.updateBook fun book => book.setOnChange_addRestingOrder _).updateUsers
      fun _ _ same => same.onOrderResting host _ _ _ _
  · exact announced

end Sweeping

/-! ## Calls -/

section Calls

variable {host : Host} {first second : MatchingEngine}

theorem Agrees.refused (alike : first.Agrees second) (order : Order) (status : OrderStatus) :
    (first.refused host order status).Agrees (second.refused host order status) := by
  unfold MatchingEngine.refused
  rw [alike.batchSeq]
  exact (alike.opened order).emitOrderEvent host _ _ _ _ _ _ _ _

theorem Agrees.concluded {full other : Sweep} (alike : AgreeingSweeps full other) (incoming : Order)
    (batchId : Int) : (concluded host incoming batchId full).Agrees
      (concluded host incoming batchId other) ∧
      report host incoming other = report host incoming full := by
  obtain ⟨emitted, trades⟩ := (alike.restRemainder host).emitTrades host full.trades
  constructor
  · unfold MatchingEngine.concluded
    rw [alike.taker, alike.trades]
    dsimp only
    split
    · exact emitted
    · exact emitted.emitOrderEvent host _ _ _ _ _ _ _ _
  · unfold report
    rw [alike.taker, alike.trades, trades]

theorem Agrees.cancelled (alike : first.Agrees second) (order : Order) :
    (first.cancelled host order).Agrees (second.cancelled host order) := by
  obtain ⟨users, other, hasUsers, hasOther, same⟩ := alike.users
  have canceller : second.canceller order.id = first.canceller order.id := by
    simp only [MatchingEngine.canceller, hasUsers, hasOther, same.getUserForOrder]
  have withdrawn : ({ first with
        book := first.book.withdrawn order, batchSeq := first.batchSeq + 1 } : MatchingEngine).Agrees
      { second with book := second.book.withdrawn order, batchSeq := first.batchSeq + 1 } := {
    quiet := by
      have books : (first.updateBook (·.withdrawn order)).Agrees
          (second.updateBook (·.withdrawn order)) :=
        alike.updateBook fun book => book.setOnChange_withdrawn order
      exact congrArg (fun quieted : MatchingEngine =>
        { quieted with batchSeq := first.batchSeq + 1 }) books.quiet
    users := alike.users }
  unfold MatchingEngine.cancelled
  rw [alike.batchSeq, canceller]
  exact ((withdrawn.emitOrderEvent host _ _ _ _ _ _ _ _).updateUsers
    fun _ _ same => same.onCancel host _ _ _ _).notifyChange

/-- Engines that are alike answer every request alike, and stay alike. -/
theorem Agrees.exec (alike : first.Agrees second) (sound : first.book.Sound)
    (soundOther : second.book.Sound) {call : Call} {reply : Reply} {next : MatchingEngine}
    (requested : call.Requested)
    (answer : OrderBookSimulator.exec host first call = .ok (next, reply)) :
    ∃ other, OrderBookSimulator.exec host second call = .ok (other, reply) ∧ next.Agrees other := by
  cases call with
  | nextOrderId =>
      cases answer
      have nextId : second.nextId = first.nextId := congrArg (·.nextId) alike.quiet
      refine ⟨second.nextOrderId.1, ?_, ?_, alike.users⟩
      · rw [OrderBookSimulator.exec, nextOrderId, nextId]
        rfl
      · exact congrArg (fun quieted : MatchingEngine =>
          { quieted with nextId := quieted.nextId + 1 }) alike.quiet
  | addRestingOrder order => exact requested.elim
  | processOrder order =>
      cases answer
      refine ⟨(second.processOrder host order).1, ?_⟩
      have verdict := alike.preflightCheck host order
      cases ok : (first.preflightCheck host order).isOk with
      | false =>
          have otherOk : (second.preflightCheck host order).isOk = false := verdict ▸ ok
          have result := result_of_refused host ok
          have otherResult := result_of_refused host otherOk
          rw [verdict, refusal, verdict, ← refusal, ← result] at otherResult
          obtain ⟨status, final, answered⟩ := processOrder_of_refused host first order ok
          obtain ⟨otherStatus, otherFinal, otherAnswered⟩ :=
            processOrder_of_refused host second order otherOk
          have sameStatus : otherStatus = status := by
            simpa [answered, otherAnswered] using congrArg (·.status) otherResult
          refine ⟨by rw [OrderBookSimulator.exec, otherResult], ?_⟩
          rw [answered, otherAnswered, sameStatus]
          exact alike.refused order status
      | true =>
          have otherOk : (second.preflightCheck host order).isOk = true := verdict ▸ ok
          rw [OrderBookSimulator.exec, processOrder_of_accepted host first order ok,
            processOrder_of_accepted host second order otherOk, alike.batchSeq]
          obtain ⟨after, reports⟩ :=
            Agrees.concluded (alike.callSweep host order) order first.batchSeq
          exact ⟨by rw [reports], after⟩
  | cancelOrder orderId =>
      obtain ⟨ok, cancels, rfl⟩ := cancelOrder_of_exec answer
      rcases cancelOrder_cases host sound cancels with
        ⟨notFound, rfl, rfl⟩ | ⟨node, queued, rfl, rfl, rfl⟩
      · have notFoundOther := alike.index ▸ notFound
        exact ⟨second, exec_cancelOrder (cancelOrder_of_unknown host notFoundOther), alike⟩
      · have queuedOther : node ∈ second.book.nodes := by
          rw [OrderBook.nodes_eq, OrderBook.queue, OrderBook.queue, alike.levels, alike.levels]
          exact queued
        exact ⟨_, exec_cancelOrder (cancelOrder_of_queued host soundOther queuedOther),
          alike.cancelled node.order⟩

end Calls

end MatchingEngine

end OrderBookSimulator
