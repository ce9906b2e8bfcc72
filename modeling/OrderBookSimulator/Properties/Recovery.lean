import OrderBookSimulator.Library.Numbering
import OrderBookSimulator.Properties.PriceTimePriority

/-!
# The book that a journal tells of

A reader of the order journal keeps the open orders in order of arrival: a new
order comes last, a fill leaves of its order what the event says, and whatever
is cancelled or rejected goes.  A market order, which is journalled without a
price, never becomes an open order.  Each run of the server numbers its events
from 1 and finds the book as it was seeded.  So read, the journal gives the
resting orders with their places in the queues.
-/

namespace OrderBookSimulator

open Library

/-- Leave so much of the order with an id, and take the order away where nothing is left. -/
def leave (orderId left : Int) (orders : List Order) : List Order :=
  orders.filterMap fun order =>
    if order.id = orderId then if left = 0 then none else some { order with qty := left }
    else some order

namespace OrderEvent

/-- What the event makes of the open orders. -/
def applyTo (event : OrderEvent) (orders : List Order) : List Order :=
  match event.status with
  | .new =>
      if 0 < event.price then
        orders ++ [{
          id := event.orderId, userId := event.userId, side := event.side, price := event.price
          qty := event.remainingQty, type := .limit }]
      else orders
  | .filled | .partiallyFilled => leave event.orderId event.remainingQty orders
  | .canceled | .rejected => orders.filter (·.id ≠ event.orderId)

end OrderEvent

/-- Read one event; an event with the number 1 is the first of a run. -/
def recoverStep (seed orders : List Order) (event : OrderEvent) : List Order :=
  event.applyTo (if event.seq = 1 then seed else orders)

/-- The open orders after the events of a journal. -/
def recover (seed : List Order) (events : List OrderEvent) : List Order :=
  events.foldl (recoverStep seed) seed

/-- What a run has journalled is read alike, whatever earlier runs have left in the file. -/
theorem recover_of_lastRun {events : List OrderEvent} (numbered : Numbered (·.seq) 1 events)
    (wrote : events ≠ []) (seed : List Order) (earlier : List OrderEvent) :
    recover seed (earlier ++ events) = recover seed events := by
  cases events with
  | nil => exact absurd rfl wrote
  | cons first rest =>
      have afresh : ∀ orders, recoverStep seed orders first = recoverStep seed seed first := by
        intro orders
        rw [recoverStep, recoverStep, if_pos numbered.1, if_pos numbered.1]
      rw [recover, List.foldl_append, List.foldl_cons, afresh]
      rfl

/-! ## Leaving something of an order -/

section Leave

variable {orderId left : Int} {orders : List Order}

theorem leave_append (orderId left : Int) (front back : List Order) :
    leave orderId left (front ++ back) = leave orderId left front ++ leave orderId left back :=
  List.filterMap_append

theorem leave_of_absent (absent : ∀ order ∈ orders, order.id ≠ orderId) :
    leave orderId left orders = orders := by
  unfold leave
  refine (List.filterMap_congr fun order member => ?_).trans List.filterMap_some
  exact if_neg (absent order member)

/-- To leave what a fill leaves is to take what it takes. -/
theorem leave_eq_reduce {maker : Order} (qty : Int)
    (alone : ∀ order ∈ orders, order.id = maker.id → order = maker) :
    leave maker.id (maker.qty - qty) orders = Reference.reduce maker.id qty orders := by
  unfold leave Reference.reduce
  refine List.filterMap_congr fun order member => ?_
  by_cases same : order.id = maker.id
  · rw [if_pos same, if_pos same, alone order member same]
  · rw [if_neg same, if_neg same]

/-- What is taken from belongs to those that were there. -/
theorem exists_of_mem_reduce {qty : Int} {order : Order}
    (member : order ∈ Reference.reduce orderId qty orders) : ∃ old ∈ orders, old.id = order.id := by
  obtain ⟨old, oldMember, kept⟩ := List.mem_filterMap.mp member
  refine ⟨old, oldMember, ?_⟩
  split at kept
  · split at kept
    · cases kept
    · cases kept
      rfl
  · cases kept
    rfl

end Leave

namespace OrderEvent

variable {event : OrderEvent} (orders : List Order)

theorem applyTo_of_fill (status : event.status = .filled ∨ event.status = .partiallyFilled) :
    event.applyTo orders = leave event.orderId event.remainingQty orders := by
  rcases status with status | status <;> simp only [applyTo, status]

theorem applyTo_of_final (status : event.status = .rejected ∨ event.status = .canceled) :
    event.applyTo orders = orders.filter (·.id ≠ event.orderId) := by
  rcases status with status | status <;> simp only [applyTo, status]

end OrderEvent

/-! ## One call of the engine -/

/-- A market order is journalled without a price. -/
def Order.Journalled (order : Order) : Prop := order.type = .market → order.price ≤ 0

/-- What a reader takes a new order for. -/
def entered (incoming : Order) : List Order :=
  if 0 < incoming.price then [{ incoming with type := .limit }] else []

theorem id_of_entered {incoming order : Order} (member : order ∈ entered incoming) :
    order.id = incoming.id := by
  unfold entered at member
  split at member
  · rw [List.mem_singleton.mp member]
  · cases member

namespace MatchingEngine

/-- What the engine has journalled tells of these open orders. -/
structure Recovered (seed : List Order) (engine : MatchingEngine) (events : List OrderEvent)
    (orders : List Order) : Prop where
  sink : engine.orderSink = some events
  recovers : recover seed events = orders
  numbered : Numbered (·.seq) 1 events
  next : engine.eventSeq = 1 + events.length

section Recovered

variable {host : Host} {seed orders : List Order} {engine other : MatchingEngine}
  {events : List OrderEvent}

/-- The book is what the journal tells of. -/
def RecoversBook (seed : List Order) (engine : MatchingEngine) : Prop :=
  ∃ events orders, Recovered seed engine events orders ∧ Mirrors orders engine.book

theorem Recovered.congr (recovered : Recovered seed engine events orders)
    (sink : other.orderSink = engine.orderSink) (seq : other.eventSeq = engine.eventSeq) :
    Recovered seed other events orders :=
  ⟨sink.trans recovered.sink, recovered.recovers, recovered.numbered, seq.trans recovered.next⟩

/-- One more event. -/
theorem Recovered.emit (recovered : Recovered seed engine events orders) (host : Host)
    (batchId orderId userId : Int) (status : OrderStatus) (side : Side)
    (price qty remaining : Int) :
    ∃ events', Recovered seed
      (engine.emitOrderEvent host batchId orderId userId status side price qty remaining) events'
      ((engine.orderEvent host batchId orderId userId status side price qty remaining).applyTo
        orders) := by
  have step : ∀ event : OrderEvent, event.seq = engine.eventSeq →
      recover seed (events ++ [event]) = event.applyTo orders := by
    intro event number
    rw [recover, List.foldl_append, List.foldl_cons, List.foldl_nil, recoverStep, number,
      recovered.next, ← recovered.recovers]
    cases events with
    | nil => exact congrArg event.applyTo (if_pos rfl)
    | cons first rest =>
        refine congrArg event.applyTo (if_neg ?_)
        rw [List.length_cons]
        omega
  refine ⟨_, ?_, step _ rfl, ?_, ?_⟩
  · rw [orderSink_emitOrderEvent, recovered.sink, Option.map_some]
  · exact Numbered.append_iff.mpr ⟨recovered.numbered, recovered.next, trivial⟩
  · rw [engine.eventSeq_emitOrderEvent host batchId orderId userId status side price qty remaining
      recovered.sink, recovered.next, List.length_append]
    simp only [List.length_singleton]
    omega

end Recovered

/-! ## A sweep -/

/-- In a sweep the taker is already journalled as open, and does not rest yet. -/
structure RecoveredSweep (seed : List Order) (incoming : Order) (sweep : Sweep) : Prop where
  told : ∃ events orders, Recovered seed sweep.engine events (orders ++ entered incoming) ∧
    Mirrors orders sweep.engine.book ∧ ∀ order ∈ orders, order.id ≠ incoming.id

section Sweeping

variable {host : Host} {seed orders : List Order} {engine : MatchingEngine} {incoming : Order}
  {events : List OrderEvent}

theorem Recovered.startSweep (recovered : Recovered seed engine events orders)
    (mirrors : Mirrors orders engine.book) (fresh : ∀ order ∈ orders, order.id ≠ incoming.id)
    (host : Host) (batchId : Int) :
    RecoveredSweep seed incoming
      (MatchingEngine.startSweep host (engine.opened incoming) batchId incoming) := by
  have opened : Recovered seed (engine.opened incoming) events orders := recovered.congr rfl rfl
  obtain ⟨events', emitted⟩ := opened.emit host batchId incoming.id incoming.userId .new
    incoming.side incoming.price incoming.qty incoming.qty
  refine ⟨events', orders, ?_, by simpa [MatchingEngine.startSweep] using mirrors, fresh⟩
  have reads : ((engine.opened incoming).orderEvent host batchId incoming.id incoming.userId .new
      incoming.side incoming.price incoming.qty incoming.qty).applyTo orders =
        orders ++ entered incoming := by
    by_cases priced : 0 < incoming.price <;>
      simp [OrderEvent.applyTo, orderEvent, entered, priced]
  rwa [reads] at emitted

/-- Each fill is read as what it does to its maker. -/
theorem RecoveredSweep.fillStep {takerSide : Side} {batchId : Int} {sweep next : Sweep}
    (recovered : RecoveredSweep seed incoming sweep)
    (moves : fillStep host takerSide batchId sweep = some next) :
    RecoveredSweep seed incoming next := by
  obtain ⟨price, maker, rest, fillable, rfl⟩ := fillStep_cases moves
  obtain ⟨events, orders, told, mirrors, fresh⟩ := recovered.told
  let qty := fillQty sweep.taker maker.order
  let users := sweep.engine.updateUsers fun users =>
    users.onFill host maker.order.id sweep.taker.id price qty takerSide
  have before : Recovered seed users events (orders ++ entered incoming) := told.congr rfl rfl
  obtain ⟨events', emitted⟩ := before.emit host batchId maker.order.id maker.order.userId
    (if maker.order.qty - qty = 0 then .filled else .partiallyFilled) maker.order.side price qty
    (maker.order.qty - qty)
  have listed : maker.order ∈ orders := mirrors.mem_iff.mpr fillable.mem_resting
  have alone : ∀ order ∈ orders, order.id = maker.order.id → order = maker.order := by
    intro order member same
    obtain ⟨node, queued, rfl⟩ := List.mem_map.mp (mirrors.mem_iff.mp member)
    rw [mirrors.sound.eq_of_id_eq queued fillable.queued same]
  have reads : (users.orderEvent host batchId maker.order.id maker.order.userId
      (if maker.order.qty - qty = 0 then .filled else .partiallyFilled) maker.order.side price qty
      (maker.order.qty - qty)).applyTo (orders ++ entered incoming) =
        Reference.reduce maker.order.id qty orders ++ entered incoming := by
    rw [OrderEvent.applyTo_of_fill _ (by simp only [orderEvent]; split <;> simp)]
    have absent : ∀ order ∈ entered incoming, order.id ≠ maker.order.id := by
      intro order member
      rw [id_of_entered member]
      exact (fresh _ listed).symm
    exact (leave_append _ _ _ _).trans
      (congrArg₂ _ (leave_eq_reduce qty alone) (leave_of_absent absent))
  rw [reads] at emitted
  refine ⟨events', _, emitted.congr rfl rfl, mirrors_afterFill mirrors fillable, ?_⟩
  intro order member
  obtain ⟨old, oldMember, same⟩ := exists_of_mem_reduce member
  exact same ▸ fresh old oldMember

/-- Read as filled so far, the taker is open for what it leaves. -/
theorem leave_entered {before : OrderBook} {sweep : Sweep} (swept : Swept before incoming sweep)
    (priced : incoming.Journalled) (pricePos : incoming.type = .limit → 0 < incoming.price) :
    leave incoming.id sweep.taker.qty (entered incoming) = remainder sweep := by
  have nonneg := swept.left_nonneg
  have taker := swept.taker
  unfold entered remainder
  rw [taker]
  cases type : incoming.type with
  | limit =>
      rw [if_pos (pricePos type)]
      by_cases none : sweep.taker.qty = 0
      · simp [leave, none]
      · have some : 0 < sweep.taker.qty := by omega
        simp [leave, none, some]
  | market =>
      have notPositive : ¬ 0 < incoming.price := by
        have atMost := priced type
        omega
      simp [leave, notPositive]

/-- What an order that passed preflight leaves is read as it rests. -/
theorem RecoveredSweep.conclude {sweep : Sweep} (recovered : RecoveredSweep seed incoming sweep)
    (swept : Swept engine.book incoming sweep) (positive : 0 < incoming.qty)
    (priced : incoming.Journalled) (pricePos : incoming.type = .limit → 0 < incoming.price)
    (new : engine.book.index.find? incoming.id = none) (host : Host) (batchId : Int) :
    RecoversBook seed (concluded host incoming batchId sweep) := by
  obtain ⟨events, orders, told, mirrors, fresh⟩ := recovered.told
  have left := leave_entered swept priced pricePos
  have announced : Mirrors orders (announcedBook sweep) := by
    unfold announcedBook
    split
    · exact mirrors
    · exact mirrors.notifyChange
  have rested : Mirrors (orders ++ remainder sweep) (concluded host incoming batchId sweep).book := by
    rw [book_concluded, book_restRemainder]
    unfold remainder
    split
    · rename_i rests
      refine announced.add rests.2 ?_
      rw [swept.announced.2, swept.taker]
      exact new
    · rw [List.append_nil]
      exact announced
  have traded : Recovered seed ((restRemainder host sweep).emitTrades host sweep.trades).1
      events (orders ++ entered incoming) := told.congr (by simp) (by simp)
  by_cases unfilled : incoming.qty - sweep.taker.qty = 0
  · -- Nothing more is journalled; the order is open for all it asked for.
    have same : remainder sweep = entered incoming := by
      rw [← left, show sweep.taker.qty = incoming.qty by omega]
      by_cases priced : 0 < incoming.price <;>
        simp [leave, entered, priced, Int.ne_of_gt positive]
    rw [same] at rested
    refine ⟨events, _, ?_, rested⟩
    rw [concluded, if_pos unfilled]
    exact traded
  · obtain ⟨events', emitted⟩ := traded.emit host batchId incoming.id incoming.userId
      (fillStatus (incoming.qty - sweep.taker.qty) sweep.taker.qty) sweep.taker.side incoming.price
      (incoming.qty - sweep.taker.qty) sweep.taker.qty
    rw [OrderEvent.applyTo_of_fill] at emitted
    · refine ⟨events', _, ?_, rested⟩
      rw [concluded, if_neg unfilled]
      have reads := leave_append incoming.id sweep.taker.qty orders (entered incoming)
      rw [leave_of_absent fresh, left] at reads
      rw [← reads]
      exact emitted
    · simp only [orderEvent, fillStatus, if_neg unfilled]
      by_cases none : sweep.taker.qty = 0
      · exact .inl (if_pos none)
      · exact .inr (if_neg none)

end Sweeping

/-! ## Every call -/

section Calls

variable {host : Host} {seed : List Order} {engine next : MatchingEngine} {call : Call}
  {reply : Reply}

/-- What the book knows or shows of an id it does not know. -/
theorem absent_of_unknown {orders : List Order} (mirrors : Mirrors orders engine.book)
    {orderId : Int} (new : engine.book.index.find? orderId = none) :
    ∀ order ∈ orders, order.id ≠ orderId := by
  rintro order member rfl
  exact mirrors.sound.not_resting_of_unknown new ⟨order, mirrors.mem_iff.mp member, rfl⟩

/-- With each call the journal goes on telling of the book. -/
theorem RecoversBook.answered (recovers : RecoversBook seed engine)
    (answered : Answered host engine call reply next) (seeds : ∀ order, call ≠ .addRestingOrder order)
    (submits : ∀ order, call = .processOrder order →
      order.Journalled ∧ engine.book.index.find? order.id = none) :
    RecoversBook seed next := by
  obtain ⟨events, orders, recovered, mirrors⟩ := recovers
  cases answered with
  | allotted => exact ⟨events, orders, recovered.congr rfl rfl, mirrors⟩
  | added order => exact absurd rfl (seeds order)
  | unknown => exact ⟨events, orders, recovered, mirrors⟩
  | refused order status notOk final =>
      obtain ⟨priced, new⟩ := submits order rfl
      have opened : Recovered seed (engine.opened order) events orders := recovered.congr rfl rfl
      obtain ⟨events', emitted⟩ := opened.emit host engine.batchSeq order.id order.userId status
        order.side order.price 0 0
      have absent := absent_of_unknown mirrors new
      rw [OrderEvent.applyTo_of_final _ final] at emitted
      have same : orders.filter (·.id ≠ order.id) = orders :=
        List.filter_eq_self.mpr fun other member => decide_eq_true (absent other member)
      have kept : Mirrors (orders.filter (·.id ≠ order.id))
          (engine.refused host order status).book := by
        rw [same, book_refused]
        exact mirrors
      exact ⟨events', _, emitted, kept⟩
  | accepted order ok swept =>
      obtain ⟨priced, new⟩ := submits order rfl
      have passed := passed_of_isOk ok
      have swept := swept_callSweep host mirrors.sound (Int.le_of_lt passed.qty_pos)
      have started := recovered.startSweep mirrors (absent_of_unknown mirrors new) host
        engine.batchSeq
      have sweeping := (callSweep_settles host engine order).invariant
        (RecoveredSweep seed order) (fun _ _ soFar moves => soFar.fillStep moves) started
      exact sweeping.conclude swept passed.qty_pos priced passed.price_pos new host _
  | withdrawn node queued =>
      let taken : MatchingEngine :=
        { engine with book := engine.book.withdrawn node.order, batchSeq := engine.batchSeq + 1 }
      have before : Recovered seed taken events orders := recovered.congr rfl rfl
      obtain ⟨events', emitted⟩ := before.emit host engine.batchSeq node.order.id
        (engine.canceller node.order.id) .canceled .buy 0 0 0
      rw [OrderEvent.applyTo_of_final _ (.inr rfl)] at emitted
      refine ⟨events', _, emitted.congr rfl rfl, ?_⟩
      rw [book_cancelled]
      exact (mirrors.withdraw queued).notifyChange

end Calls

end MatchingEngine

/-! ## The book as it was seeded -/

section Seeded

variable {book : OrderBook}

/-- The resting orders, side by side and level by level, are a flat list of the book. -/
theorem OrderBook.Sound.mirrors (sound : book.Sound) : Mirrors book.resting book where
  sound := sound
  level_eq := by
    intro side price
    let wanted : Node → Bool := fun node => node.order.side = side ∧ node.order.price = price
    have placed : ∀ other, ∀ entry ∈ (book.levels other).entries, ∀ node ∈ entry.2,
        node.order.side = other ∧ node.order.price = entry.1 := by
      intro other entry member node queued
      refine sound.placed other entry.1 node ?_
      rwa [OrderBook.level, SortedMap.findD, SortedMap.mem_entries_iff.mp member]
    have own : (book.queue side).filter wanted = book.level side price := by
      refine SortedMap.filter_flatMap_of_key (book.levels side).sorted
        fun entry member node queued => ?_
      obtain ⟨here, there⟩ := placed side entry member node queued
      simp [wanted, here, there]
    have others : ∀ other ≠ side, (book.queue other).filter wanted = [] := by
      intro other different
      refine List.filter_eq_nil_iff.mpr fun node queued => ?_
      obtain ⟨entry, member, queuedThere⟩ := List.mem_flatMap.mp queued
      obtain ⟨here, _⟩ := placed other entry member node queuedThere
      simp [wanted, here, different]
    have nodes : book.nodes.filter wanted = book.level side price := by
      rw [OrderBook.nodes_eq, List.filter_append]
      cases side with
      | buy => rw [own, others .sell (by simp), List.append_nil]
      | sell => rw [own, others .buy (by simp), List.nil_append]
    rw [← nodes, Reference.level, OrderBook.resting, List.filter_map]
    rfl

end Seeded

end OrderBookSimulator
