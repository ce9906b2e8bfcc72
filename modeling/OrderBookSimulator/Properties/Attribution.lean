import OrderBookSimulator.Engine.Tracked

/-!
# Whom and what events tell of

Every event but one is filled from the order it is about: the incoming order,
or a maker that is a remainder of an order submitted earlier.  The event of a
cancel is filled from constants.
-/

namespace OrderBookSimulator

open Library

/-- The event names the order and carries its side, its user and, of a limit order, its price. -/
structure OrderEvent.Tells (event : OrderEvent) (order : Order) : Prop where
  orderId : event.orderId = order.id
  side : event.side = order.side
  userId : event.userId = order.userId
  price : order.type = .limit → event.price = order.price

/-- Each event tells of the order it names, so any two events of one order agree. -/
structure Attributed (orders : List Order) (events : List OrderEvent) : Prop where
  known : ∀ event ∈ events, ∃ order ∈ orders, order.id = event.orderId
  tells : ∀ event ∈ events, ∀ order ∈ orders, order.id = event.orderId → event.Tells order
  agree : ∀ first ∈ events, ∀ second ∈ events, first.orderId = second.orderId →
    first.side = second.side ∧ first.userId = second.userId ∧
      ∀ order ∈ orders, order.id = first.orderId → order.type = .limit → first.price = second.price

/-- With distinct ids it is enough that each event tells of some order. -/
theorem attributed_of_tells {orders : List Order} {events : List OrderEvent}
    (distinct : (orders.map (·.id)).Nodup)
    (told : ∀ event ∈ events, ∃ order ∈ orders, event.Tells order) : Attributed orders events := by
  have tells : ∀ event ∈ events, ∀ order ∈ orders, order.id = event.orderId →
      event.Tells order := by
    intro event member order inOrders same
    obtain ⟨other, otherMember, tells⟩ := told event member
    have sameId : order.id = other.id := by rw [same, tells.orderId]
    rw [List.inj_on_of_nodup_map distinct inOrders otherMember sameId]
    exact tells
  refine ⟨fun event member => ?_, tells, fun first firstMember second secondMember same => ?_⟩
  · obtain ⟨order, inOrders, tells⟩ := told event member
    exact ⟨order, inOrders, tells.orderId.symm⟩
  · obtain ⟨order, inOrders, ofFirst⟩ := told first firstMember
    have ofSecond := tells second secondMember order inOrders (by rw [← same, ofFirst.orderId])
    refine ⟨by rw [ofFirst.side, ofSecond.side], by rw [ofFirst.userId, ofSecond.userId], ?_⟩
    intro named namedMember sameId limit
    have first' := tells first firstMember named namedMember sameId
    have second' := tells second secondMember named namedMember (by rw [sameId, same])
    rw [first'.price limit, second'.price limit]

/-- The id a call cancels. -/
def Call.cancels : Call → Option Int
  | .cancelOrder orderId => some orderId
  | _ => none

namespace MatchingEngine

/-- From `first` to `last` only events were emitted that tell of one of the orders. -/
def EmitsOf (orders : List Order) (first last : MatchingEngine) : Prop :=
  ∃ chunk, last.orderSink = first.orderSink.map (· ++ chunk) ∧
    ∀ event ∈ chunk, ∃ order ∈ orders, event.Tells order

section Stages

variable {orders : List Order} {first middle last : MatchingEngine}

theorem EmitsOf.idle (sink : last.orderSink = first.orderSink) : EmitsOf orders first last :=
  ⟨[], by rw [sink]; cases first.orderSink <;> simp, by simp⟩

theorem EmitsOf.one (event : OrderEvent) (sink : last.orderSink = first.orderSink.map (· ++ [event]))
    {order : Order} (member : order ∈ orders) (tells : event.Tells order) :
    EmitsOf orders first last :=
  ⟨[event], sink, by simpa using ⟨order, member, tells⟩⟩

theorem EmitsOf.trans (before : EmitsOf orders first middle) (after : EmitsOf orders middle last) :
    EmitsOf orders first last := by
  obtain ⟨chunk, sink, told⟩ := before
  obtain ⟨chunk', sink', told'⟩ := after
  refine ⟨chunk ++ chunk', ?_, List.forall_mem_append.mpr ⟨told, told'⟩⟩
  rw [sink', sink]
  cases first.orderSink <;> simp

variable {host : Host} {engine : MatchingEngine} {incoming : Order} {batchId : Int}

/-- The event of a fill tells of the order its maker is left of. -/
theorem emitsOf_fillStep {takerSide : Side} {sweep next : Sweep} (sound : sweep.engine.book.Sound)
    (shares : ∀ order ∈ sweep.engine.book.resting, ∃ own ∈ orders, order = { own with qty := order.qty })
    (moves : fillStep host takerSide batchId sweep = some next) :
    EmitsOf orders sweep.engine next.engine := by
  obtain ⟨price, maker, rest, fillable, rfl⟩ := fillStep_cases moves
  obtain ⟨own, member, same⟩ := shares maker.order fillable.mem_resting
  refine .one ((sweep.engine.updateUsers fun users => users.onFill host maker.order.id
    sweep.taker.id price (fillQty sweep.taker maker.order) takerSide).orderEvent host batchId
      maker.order.id maker.order.userId (if maker.order.qty - fillQty sweep.taker maker.order = 0
        then .filled else .partiallyFilled) maker.order.side price
      (fillQty sweep.taker maker.order) (maker.order.qty - fillQty sweep.taker maker.order))
    (by simp [afterFill]) member ?_
  rw [← fillable.maker_price sound, same]
  exact ⟨rfl, rfl, rfl, fun _ => rfl⟩

variable (host) in
/-- The events of an accepted order tell of it and of its makers. -/
theorem emitsOf_accepted (sound : engine.book.Sound) (nonneg : 0 ≤ incoming.qty)
    (shares : ∀ order ∈ engine.book.resting, ∃ own ∈ orders, order = { own with qty := order.qty })
    (member : incoming ∈ orders) :
    EmitsOf orders engine
      (concluded host incoming engine.batchSeq (engine.callSweep host incoming)) := by
  have opens : EmitsOf orders engine
      (startSweep host (engine.opened incoming) engine.batchSeq incoming).engine :=
    .one ((engine.opened incoming).orderEvent host engine.batchSeq incoming.id incoming.userId .new
      incoming.side incoming.price incoming.qty incoming.qty) (by simp [startSweep]) member
      ⟨rfl, rfl, rfl, fun _ => rfl⟩
  have bothKept : ∀ sweep next, Swept engine.book incoming sweep ∧ EmitsOf orders engine sweep.engine →
      fillStep host incoming.side engine.batchSeq sweep = some next →
      Swept engine.book incoming next ∧ EmitsOf orders engine next.engine := by
    rintro sweep next ⟨swept, soFar⟩ moves
    refine ⟨swept.step moves, soFar.trans (emitsOf_fillStep swept.sound ?_ moves)⟩
    intro order resting
    obtain ⟨old, oldMember, same⟩ := swept.kept order resting
    obtain ⟨own, ownMember, sameOld⟩ := shares old oldMember
    exact ⟨own, ownMember, by rw [same, sameOld]⟩
  obtain ⟨swept, sweeps⟩ := (callSweep_settles host engine incoming).invariant
    (fun sweep => Swept engine.book incoming sweep ∧ EmitsOf orders engine sweep.engine) bothKept
    ⟨.start (engine.opened incoming) sound nonneg, opens⟩
  refine sweeps.trans ?_
  unfold concluded
  have side : (engine.callSweep host incoming).taker.side = incoming.side := by rw [swept.taker]
  by_cases none : incoming.qty - (engine.callSweep host incoming).taker.qty = 0
  · rw [if_pos none]
    exact .idle (by simp)
  · rw [if_neg none, side]
    exact .one (((restRemainder host (engine.callSweep host incoming)).emitTrades host
        (engine.callSweep host incoming).trades).1.orderEvent host engine.batchSeq incoming.id
        incoming.userId (fillStatus (incoming.qty - (engine.callSweep host incoming).taker.qty)
          (engine.callSweep host incoming).taker.qty) incoming.side incoming.price
        (incoming.qty - (engine.callSweep host incoming).taker.qty)
        (engine.callSweep host incoming).taker.qty) (by simp) member ⟨rfl, rfl, rfl, fun _ => rfl⟩

end Stages

/-! ## Sessions -/

/-- The orders a session knows of: those it started with and those submitted since. -/
def knownOrders (start : MatchingEngine) (log : Log) : List Order :=
  start.book.resting ++ log.submitted

/-- No cancel so far has found its order resting. -/
def NoneCancelled (log : Log) : Prop :=
  ∀ entry ∈ log, ∀ orderId ∈ entry.call.cancels, ¬ entry.before.book.Resting orderId

instance (log : Log) : Decidable (NoneCancelled log) :=
  inferInstanceAs (Decidable (∀ entry ∈ log, ∀ orderId ∈ entry.call.cancels, _))

/-- Some event names a limit order but not its price. -/
def Mistold (orders : List Order) (events : List OrderEvent) : Prop :=
  ∃ event ∈ events, ∃ order ∈ orders, order.id = event.orderId ∧ order.type = .limit ∧
    event.price ≠ order.price

/-- What holds of the events after an ordinary session. -/
structure Told (start : MatchingEngine) (log : Log) (state : MatchingEngine) : Prop where
  distinct : ((knownOrders start log).map (·.id)).Nodup
  shares : ∀ order ∈ state.book.resting, (order.type = .limit ∧ 0 < order.price) ∧
    ∃ own ∈ knownOrders start log, order = { own with qty := order.qty }
  events : ∃ events, state.orderSink = some events ∧
    (NoneCancelled log → ∀ event ∈ events, ∃ order ∈ knownOrders start log, event.Tells order) ∧
    (¬ NoneCancelled log → Mistold (knownOrders start log) events)

section Sessions

variable {host : Host} {start state next : MatchingEngine} {log : Log} {entry : Entry}

theorem knownOrders_append (start : MatchingEngine) (log : Log) (entry : Entry) :
    knownOrders start (log ++ [entry]) = knownOrders start log ++ entry.call.submitted.toList := by
  rw [knownOrders, Log.submitted_append, ← List.append_assoc]
  rfl

theorem mem_knownOrders_submitted {order : Order} (submitted : entry.call.submitted = some order) :
    order ∈ knownOrders start (log ++ [entry]) := by
  rw [knownOrders_append, submitted]
  exact List.mem_append_right _ (.head _)

theorem noneCancelled_append (log : Log) (entry : Entry) :
    NoneCancelled (log ++ [entry]) ↔ NoneCancelled log ∧
      ∀ orderId ∈ entry.call.cancels, ¬ entry.before.book.Resting orderId := by
  simp only [NoneCancelled, List.forall_mem_append, List.forall_mem_singleton]

theorem Mistold.mono {orders more : List Order} {events later : List OrderEvent}
    (mistold : Mistold orders events) (subset : ∀ order ∈ orders, order ∈ more)
    (kept : ∀ event ∈ events, event ∈ later) : Mistold more later := by
  obtain ⟨event, eventMember, order, member, wrong⟩ := mistold
  exact ⟨event, kept event eventMember, order, subset order member, wrong⟩

theorem not_attributed_of_mistold {orders : List Order} {events : List OrderEvent}
    (mistold : Mistold orders events) : ¬ Attributed orders events := by
  obtain ⟨event, eventMember, order, member, same, limit, wrong⟩ := mistold
  exact fun attributed => wrong ((attributed.tells event eventMember order member same).price limit)

namespace Told

theorem initial (sound : start.book.Sound)
    (limits : ∀ order ∈ start.book.resting, order.type = .limit ∧ 0 < order.price)
    (sink : start.orderSink = some []) : Told start [] start where
  distinct := by simpa [knownOrders, Log.submitted] using sound.resting_nodup
  shares := fun order member =>
    ⟨limits order member, order, List.mem_append_left _ member, rfl⟩
  events := ⟨[], sink, by simp, fun cancelled => absurd (by simp [NoneCancelled]) cancelled⟩

/-- A call other than a successful cancel, all of whose events tell of known orders. -/
theorem continued (told : Told start log state)
    (fresh : ∀ order, entry.call.submitted = some order → ∀ known ∈ knownOrders start log,
      known.id ≠ order.id)
    (resting : ∀ order ∈ next.book.resting, (order.type = .limit ∧ 0 < order.price) ∧
      ∃ own ∈ knownOrders start (log ++ [entry]), order = { own with qty := order.qty })
    (emits : EmitsOf (knownOrders start (log ++ [entry])) state next)
    (noCancel : ∀ orderId ∈ entry.call.cancels, ¬ entry.before.book.Resting orderId) :
    Told start (log ++ [entry]) next where
  distinct := by
    rw [knownOrders_append, List.map_append, List.nodup_append]
    refine ⟨told.distinct, ?_, ?_⟩
    · cases entry.call.submitted <;> simp
    · rintro id member other otherMember rfl
      obtain ⟨known, knownMember, rfl⟩ := List.mem_map.mp member
      obtain ⟨order, submitted, same⟩ := List.mem_map.mp otherMember
      exact fresh order (Option.mem_toList.mp submitted) known knownMember same.symm
  shares := resting
  events := by
    obtain ⟨events, sink, clean, dirty⟩ := told.events
    obtain ⟨chunk, sink', chunkTold⟩ := emits
    have more : ∀ order ∈ knownOrders start log, order ∈ knownOrders start (log ++ [entry]) := by
      intro order member
      rw [knownOrders_append]
      exact List.mem_append_left _ member
    refine ⟨events ++ chunk, by rw [sink', sink, Option.map_some], ?_, ?_⟩
    · intro none event member
      rcases List.mem_append.mp member with earlier | now
      · obtain ⟨order, inOrders, tells⟩ :=
          clean ((noneCancelled_append log entry).mp none).1 event earlier
        exact ⟨order, more order inOrders, tells⟩
      · exact chunkTold event now
    · intro some
      refine (dirty fun none => some ?_).mono more fun _ member => List.mem_append_left _ member
      exact (noneCancelled_append log entry).mpr ⟨none, noCancel⟩

/-- A cancel that succeeds emits an event with a price no limit order has. -/
theorem withdrawn (told : Told start log state) (sound : state.book.Sound) {node : Node}
    (queued : node ∈ state.book.nodes) :
    Told start (log ++ [⟨state, .cancelOrder node.order.id, .cancelled true,
      state.cancelled host node.order⟩]) (state.cancelled host node.order) := by
  have member : node.order ∈ state.book.resting := List.mem_map_of_mem queued
  obtain ⟨⟨limit, priced⟩, own, ownMember, same⟩ := told.shares node.order member
  obtain ⟨events, sink, _, _⟩ := told.events
  have known : knownOrders start (log ++ [⟨state, .cancelOrder node.order.id, .cancelled true,
      state.cancelled host node.order⟩]) = knownOrders start log := by
    rw [knownOrders_append]
    exact List.append_nil _
  let taken : MatchingEngine :=
    { state with book := state.book.withdrawn node.order, batchSeq := state.batchSeq + 1 }
  let event := taken.orderEvent host state.batchSeq node.order.id (state.canceller node.order.id)
    .canceled .buy 0 0 0
  exact {
    distinct := by
      rw [known]
      exact told.distinct
    shares := by
      rw [known]
      intro order rests
      rw [book_cancelled] at rests
      exact told.shares order ((sound.resting_withdrawn queued).mem_iff.mpr (.tail _ rests))
    events := by
      rw [known]
      refine ⟨events ++ [event], by simp [cancelled, sink, event, taken], ?_, ?_⟩
      · intro none
        exact absurd ⟨node.order, member, rfl⟩
          (((noneCancelled_append _ _).mp none).2 node.order.id rfl)
      · intro _
        refine ⟨event, List.mem_append_right _ (.head _), own, ownMember, ?_, ?_, ?_⟩
        · exact (congrArg Order.id same).symm
        · exact (congrArg Order.type same).symm.trans limit
        · have ownPrice : node.order.price = own.price := by rw [same]
          change 0 ≠ own.price
          omega }

/-- One ordinary call. -/
theorem step {call : Call} {reply : Reply} (told : Told start log state)
    (tracked : Tracked start log state) (allowed : Ordinary start log call)
    (answered : Answered host state call reply next) :
    Told start (log ++ [⟨state, call, reply, next⟩]) next := by
  have unchanged : ∀ entry : Entry, ∀ order ∈ state.book.resting,
      (order.type = .limit ∧ 0 < order.price) ∧
        ∃ own ∈ knownOrders start (log ++ [entry]), order = { own with qty := order.qty } := by
    intro entry order member
    obtain ⟨good, own, ownMember, same⟩ := told.shares order member
    refine ⟨good, own, ?_, same⟩
    rw [knownOrders_append]
    exact List.mem_append_left _ ownMember
  have fresh : ∀ order, call = .processOrder order → ∀ known ∈ knownOrders start log,
      known.id ≠ order.id := by
    rintro order rfl known member same
    refine allowed ?_
    rw [← same]
    rcases List.mem_append.mp member with seeded | submitted
    · exact tracked.entered known (List.mem_append_left _ seeded)
    · exact Or.inr (List.mem_map_of_mem submitted)
  cases answered with
  | allotted =>
      exact told.continued (by simp [Call.submitted]) (unchanged _) (.idle rfl) (by simp [Call.cancels])
  | added order => exact allowed.elim
  | refused order status =>
      refine told.continued (fun other submitted => fresh other (by cases submitted; rfl)) ?_ ?_
        (by simp [Call.cancels])
      · simpa using unchanged _
      · exact .one ((state.opened order).orderEvent host state.batchSeq order.id order.userId
          status order.side order.price 0 0) (by simp [MatchingEngine.refused])
          (mem_knownOrders_submitted rfl) ⟨rfl, rfl, rfl, fun _ => rfl⟩
  | accepted order ok swept =>
      have positive := (passed_of_isOk ok).qty_pos
      refine told.continued (fun other submitted => fresh other (by cases submitted; rfl)) ?_
        (emitsOf_accepted host tracked.sound (Int.le_of_lt positive)
          (fun resting member => (unchanged _ resting member).2) (mem_knownOrders_submitted rfl))
        (by simp [Call.cancels])
      intro resting member
      rcases mem_resting_concluded member with rests | old
      · obtain ⟨rfl, limit, _⟩ := eq_of_mem_remainder rests
        have takerIs := swept.taker
        rw [takerIs] at limit
        refine ⟨?_, order, mem_knownOrders_submitted rfl, takerIs⟩
        rw [takerIs]
        exact ⟨limit, (passed_of_isOk ok).price_pos limit⟩
      · obtain ⟨before, beforeMember, same⟩ := swept.kept resting old
        obtain ⟨good, own, ownMember, sameBefore⟩ := unchanged _ before beforeMember
        rw [same]
        exact ⟨good, own, ownMember, by rw [sameBefore]⟩
  | unknown orderId notFound =>
      refine told.continued (by simp [Call.submitted]) (unchanged _) (.idle rfl) ?_
      rintro _ ⟨rfl⟩
      exact tracked.sound.not_resting_of_unknown notFound
  | withdrawn node queued => exact told.withdrawn tracked.sound queued

end Told

/--
Along every ordinary session from a sound book of limit orders with an order
sink, the events are attributed consistently if and only if no cancel so far
has found its order resting.
-/
theorem attribution_consistent_iff_none_cancelled (sound : start.book.Sound)
    (limits : ∀ order ∈ start.book.resting, order.type = .limit ∧ 0 < order.price)
    (sink : start.orderSink = some []) (session : Session host start log state) :
    ∃ events, state.orderSink = some events ∧
      (Attributed (knownOrders start log) events ↔ NoneCancelled log) := by
  have told : Told start log state := by
    refine session.invariant (Told start) (.initial sound limits sink) ?_
    intro log state call reply next earlier told allowed answer
    have tracked := tracked_of_session sound earlier
    exact told.step tracked allowed (answered_of_exec tracked.sound answer)
  obtain ⟨events, hasEvents, clean, dirty⟩ := told.events
  refine ⟨events, hasEvents, fun attributed => ?_, fun none => ?_⟩
  · by_contra some
    exact not_attributed_of_mistold (dirty some) attributed
  · exact attributed_of_tells told.distinct (clean none)

/-- Fills over two users' orders are attributed consistently. -/
theorem attribution_consistent_after_fills :
    ∃ log state events, Session (Host.exact (·)) { orderSink := some [], userManager := some {} }
        log state ∧
      log.length = 3 ∧ state.orderSink.map (·.length) = some 6 ∧ state.orderSink = some events ∧
      Attributed (knownOrders { orderSink := some [], userManager := some {} } log) events := by
  have run := Run.of_isSome (exec (Host.exact (·)))
    (Ordinary { orderSink := some [], userManager := some {} })
    { orderSink := some [], userManager := some {} }
    [.processOrder ⟨1, 7, .sell, 100, 5, .limit⟩, .processOrder ⟨2, 8, .sell, 101, 5, .limit⟩,
      .processOrder ⟨3, 9, .buy, 101, 8, .limit⟩] (by decide)
  obtain ⟨events, sink, attributed⟩ :=
    attribution_consistent_iff_none_cancelled (OrderBook.sound_empty none) (by decide) rfl run
  exact ⟨_, _, events, run, by decide, by decide, sink, attributed.mpr (by decide)⟩

/-- A cancelled sell order of user 7 is reported as a buy at price 0. -/
theorem not_attributed_after_cancel :
    ∃ log state events, Session (Host.exact (·)) { orderSink := some [], userManager := some {} }
        log state ∧
      log.length = 2 ∧ state.orderSink = some events ∧
      (events.map fun event => (event.orderId, event.side, event.price)) =
        [(1, .sell, 100), (1, .buy, 0)] ∧
      ¬ Attributed (knownOrders { orderSink := some [], userManager := some {} } log) events := by
  have run := Run.of_isSome (exec (Host.exact (·)))
    (Ordinary { orderSink := some [], userManager := some {} })
    { orderSink := some [], userManager := some {} }
    [.processOrder ⟨1, 7, .sell, 100, 5, .limit⟩, .cancelOrder 1] (by decide)
  refine ⟨_, _, _, run, rfl, rfl, by decide, fun attributed => ?_⟩
  have disagree := (attributed.agree _ (.head _) _ (.tail _ (.head _)) rfl).1
  cases disagree

end Sessions

end MatchingEngine

end OrderBookSimulator
