import OrderBookSimulator.Engine.Emission
import OrderBookSimulator.Engine.Tracked
import OrderBookSimulator.Journal.Lifecycle

/-!
# The journal of a session

What an attached order sink has received after a session of ordinary calls:
one story for each submitted order, open at the quantity that is resting or was
dropped, with fill events that add up to the returned trades.
-/

namespace OrderBookSimulator

open Library

namespace MatchingEngine

structure Journalled (log : Log) (state : MatchingEngine) (events : List OrderEvent) : Prop where
  sink : state.orderSink = some events
  stories : Lifecycles events log.submitted fun orderId =>
    state.book.restingQty orderId + log.droppedQty orderId
  silent : ∀ orderId, orderId ∉ log.submittedIds → history events orderId = []
  filled : ∀ orderId, filledQty events orderId =
    makerQty log.trades orderId + takerQty log.trades orderId

/-- The same in the middle of a sweep, when the taker's own fills have not been told yet. -/
structure JournalledSweep (log : Log) (incoming : Order) (sweep : Sweep)
    (events : List OrderEvent) : Prop where
  sink : sweep.engine.orderSink = some events
  stories : Lifecycles events (log.submitted ++ [incoming]) fun orderId =>
    if incoming.id = orderId then incoming.qty
    else sweep.engine.book.restingQty orderId + log.droppedQty orderId
  silent : ∀ orderId, orderId ∉ log.submittedIds → incoming.id ≠ orderId →
    history events orderId = []
  filled : ∀ orderId, filledQty events orderId =
    makerQty log.trades orderId + takerQty log.trades orderId + makerQty sweep.trades orderId

/-! ## The events of a call -/

section Events

variable (host : Host)

/-- The event of one fill tells of its maker. -/
theorem exists_fillEvent (takerSide : Side) (batchId : Int) (sweep : Sweep) (price : Int)
    (maker : Node) (rest : OrderList) :
    ∃ event : OrderEvent, event.orderId = maker.order.id ∧
      event.qty = fillQty sweep.taker maker.order ∧
      event.remainingQty = maker.order.qty - fillQty sweep.taker maker.order ∧
      event.status = (if event.remainingQty = 0 then .filled else .partiallyFilled) ∧
      (afterFill host takerSide batchId sweep price maker rest).engine.orderSink =
        sweep.engine.orderSink.map (· ++ [event]) := by
  refine ⟨(sweep.engine.updateUsers fun users => users.onFill host maker.order.id sweep.taker.id
    price (fillQty sweep.taker maker.order) takerSide).orderEvent host batchId maker.order.id
      maker.order.userId (if maker.order.qty - fillQty sweep.taker maker.order = 0 then .filled
        else .partiallyFilled) maker.order.side price (fillQty sweep.taker maker.order)
      (maker.order.qty - fillQty sweep.taker maker.order), rfl, rfl, rfl, rfl, ?_⟩
  simp [afterFill]

/-- The last event of an accepted order tells of the taker, if it was filled at all. -/
theorem orderSink_concluded (incoming : Order) (batchId : Int) (sweep : Sweep) :
    (incoming.qty - sweep.taker.qty = 0 ∧
      (concluded host incoming batchId sweep).orderSink = sweep.engine.orderSink) ∨
    (incoming.qty - sweep.taker.qty ≠ 0 ∧ ∃ event : OrderEvent, event.orderId = incoming.id ∧
      event.qty = incoming.qty - sweep.taker.qty ∧ event.remainingQty = sweep.taker.qty ∧
      event.status = (if event.remainingQty = 0 then .filled else .partiallyFilled) ∧
      (concluded host incoming batchId sweep).orderSink =
        sweep.engine.orderSink.map (· ++ [event])) := by
  by_cases none : incoming.qty - sweep.taker.qty = 0
  · exact Or.inl ⟨none, by simp [concluded, none]⟩
  · refine Or.inr ⟨none, ((restRemainder host sweep).emitTrades host sweep.trades).1.orderEvent host
      batchId incoming.id incoming.userId
      (fillStatus (incoming.qty - sweep.taker.qty) sweep.taker.qty) sweep.taker.side incoming.price
      (incoming.qty - sweep.taker.qty) sweep.taker.qty, rfl, rfl, rfl, ?_, ?_⟩
    · simp [orderEvent, fillStatus, none]
    · simp [concluded, none]

end Events

theorem isFill_of_status {event : OrderEvent}
    (status : event.status = if event.remainingQty = 0 then .filled else .partiallyFilled) :
    event.isFill := by
  unfold OrderEvent.isFill
  rw [status]
  split
  · exact Or.inr rfl
  · exact Or.inl rfl

/-! ## Sessions on an empty book -/

section OnEmptyBook

variable {engine state : MatchingEngine} {onChange : Option (List Snapshot)} {log : Log}

theorem used_onEmptyBook (orderId : Int) :
    Used (engine.onEmptyBook onChange) log orderId ↔ orderId ∈ log.submittedIds := by
  simp [Used, onEmptyBook]

theorem not_stale_onEmptyBook (orderId : Int) :
    ¬ (engine.onEmptyBook onChange).book.Stale orderId := by
  simp [OrderBook.Stale, onEmptyBook]

/-- A resting order was submitted, and nothing was dropped of it. -/
theorem Tracked.submitted_of_resting (tracked : Tracked (engine.onEmptyBook onChange) log state)
    {orderId : Int} (resting : state.book.Resting orderId) :
    orderId ∈ log.submittedIds ∧ log.droppedQty orderId = 0 := by
  obtain ⟨order, member, rfl⟩ := resting
  obtain ⟨node, _, _, found⟩ := tracked.sound.index_of_resting ⟨order, member, rfl⟩
  refine ⟨(used_onEmptyBook _).mp (tracked.used_of_resting member), ?_⟩
  rcases tracked.live order.id (by simp [found]) with stale | ⟨_, _, _, _, undropped⟩
  · exact absurd stale (not_stale_onEmptyBook order.id)
  · exact undropped

end OnEmptyBook

/-! ## A sweep -/

section Sweeping

variable {host : Host} {engine state : MatchingEngine} {onChange : Option (List Snapshot)}
  {log : Log} {events : List OrderEvent} {incoming : Order}

theorem different_of_fresh (fresh : incoming.id ∉ log.submittedIds) {old : Order}
    (member : old ∈ log.submitted) : incoming.id ≠ old.id := by
  intro same
  exact fresh (same ▸ List.mem_map_of_mem member)

variable (host) in
theorem Journalled.startSweep (journalled : Journalled log state events)
    (fresh : incoming.id ∉ log.submittedIds) (positive : 0 < incoming.qty) (batchId : Int) :
    ∃ events', JournalledSweep log incoming
      (startSweep host (state.opened incoming) batchId incoming) events' := by
  let event := (state.opened incoming).orderEvent host batchId incoming.id incoming.userId .new
    incoming.side incoming.price incoming.qty incoming.qty
  have own : event.orderId = incoming.id := rfl
  refine ⟨events ++ [event], ?_⟩
  exact {
    sink := by simp [MatchingEngine.startSweep, journalled.sink, event]
    stories := by
      refine journalled.stories.enter own (journalled.silent _ fresh)
        (fun old member => (different_of_fresh fresh member).symm) (.opened rfl rfl rfl)
        (if_pos rfl).symm (by rintro left ⟨rfl⟩; exact positive) fun old member => ?_
      rw [if_neg (different_of_fresh fresh member)]
      simp [MatchingEngine.startSweep]
    silent := by
      intro orderId unmentioned other
      rw [history_append_of_ne events event orderId other]
      exact journalled.silent orderId unmentioned
    filled := by
      intro orderId
      rw [filledQty_append, if_neg (by simp [OrderEvent.isFill, event, orderEvent]),
        journalled.filled orderId]
      simp [MatchingEngine.startSweep, makerQty] }

theorem JournalledSweep.fillStep {takerSide : Side} {batchId : Int} {sweep next : Sweep}
    (tracked : Tracked (engine.onEmptyBook onChange) log state)
    (fresh : incoming.id ∉ log.submittedIds) (swept : Swept state.book incoming sweep)
    (journalled : JournalledSweep log incoming sweep events)
    (moves : fillStep host takerSide batchId sweep = some next) :
    ∃ events', JournalledSweep log incoming next events' := by
  obtain ⟨price, maker, rest, fillable, rfl⟩ := fillStep_cases moves
  obtain ⟨event, eventId, eventQty, remaining, status, sink⟩ :=
    exists_fillEvent host takerSide batchId sweep price maker rest
  have moved := restingQty_afterFill host batchId fillable
  obtain ⟨old, oldMember, same⟩ := swept.kept maker.order fillable.mem_resting
  have makerId : old.id = maker.order.id := by rw [same]
  obtain ⟨submitted, undropped⟩ := tracked.submitted_of_resting ⟨old, oldMember, makerId⟩
  have other : incoming.id ≠ maker.order.id := by
    rintro same
    exact fresh (same ▸ submitted)
  have makerQtyEq := swept.sound.restingQty_of_mem fillable.mem_resting
  have makerPos := swept.sound.qty_pos fillable.mem_resting
  have le := fillQty_le_maker sweep.taker maker.order
  refine ⟨events ++ [event], ?_⟩
  exact {
    sink := by rw [sink, journalled.sink]; rfl
    stories := by
      refine journalled.stories.fill ?_ ?_ (by omega) status fun orderId => ?_
      · rw [eventId, if_neg other]
        omega
      · rw [eventId, if_neg other]
        omega
      · have movedHere := moved orderId
        rw [eventId]
        by_cases own : maker.order.id = orderId
        · rw [if_pos own] at movedHere
          subst own
          rw [if_neg other, if_pos rfl]
          omega
        · rw [if_neg own] at movedHere
          rw [if_neg own]
          by_cases taker : incoming.id = orderId
          · rw [if_pos taker, if_pos taker]
          · rw [if_neg taker, if_neg taker]
            omega
    silent := by
      intro orderId unmentioned notTaker
      have notMaker : event.orderId ≠ orderId := by
        rw [eventId]
        rintro rfl
        exact unmentioned submitted
      rw [history_append_of_ne events event orderId notMaker]
      exact journalled.silent orderId unmentioned notTaker
    filled := by
      intro orderId
      have soFar := journalled.filled orderId
      rw [filledQty_append, trades_afterFill, makerQty_append, eventId, eventQty, soFar]
      have now : makerQty [fillTrade sweep price maker] orderId =
          if maker.order.id = orderId then fillQty sweep.taker maker.order else 0 := by
        simp [makerQty, fillTrade]
      rw [now]
      simp only [isFill_of_status status, and_true]
      omega }

end Sweeping

/-! ## One call -/

section Calls

variable {host : Host} {engine state next : MatchingEngine} {onChange : Option (List Snapshot)}
  {log : Log} {events : List OrderEvent}

variable (host) in
/-- After an accepted order its own id is open at what is left of it. -/
theorem openQty_acceptance (tracked : Tracked (engine.onEmptyBook onChange) log state)
    {incoming : Order} (fresh : ¬ Used (engine.onEmptyBook onChange) log incoming.id)
    {sweep : Sweep} (swept : Swept state.book incoming sweep) (orderId : Int) :
    (concluded host incoming state.batchSeq sweep).book.restingQty orderId +
        Log.droppedQty (log ++ [acceptance host state incoming sweep]) orderId =
      if incoming.id = orderId then sweep.taker.qty
      else sweep.engine.book.restingQty orderId + log.droppedQty orderId := by
  have unknown := tracked.unknown_of_fresh fresh
  have left := swept.remainder_add_dropped orderId
  rw [swept.restingQty_concluded host unknown, Log.droppedQty_append, droppedQty_acceptance]
  by_cases own : incoming.id = orderId
  · subst own
    have undropped := (tracked.untouched incoming.id fresh).2
    have notResting : sweep.engine.book.restingQty incoming.id = 0 := by
      refine OrderBook.restingQty_of_not_resting ?_
      rintro ⟨order, member, same⟩
      obtain ⟨old, oldMember, eq⟩ := swept.kept order member
      exact tracked.not_resting_of_fresh fresh old oldMember (by rw [← same, eq])
    rw [if_pos rfl] at left ⊢
    omega
  · rw [if_neg own] at left ⊢
    omega

theorem JournalledSweep.conclude (tracked : Tracked (engine.onEmptyBook onChange) log state)
    {incoming : Order} (fresh : ¬ Used (engine.onEmptyBook onChange) log incoming.id)
    (positive : 0 < incoming.qty) {sweep : Sweep} (swept : Swept state.book incoming sweep)
    (journalled : JournalledSweep log incoming sweep events) :
    ∃ events', Journalled (log ++ [acceptance host state incoming sweep])
      (concluded host incoming state.batchSeq sweep) events' := by
  have leftNonneg := swept.left_nonneg
  have openQty := openQty_acceptance host tracked fresh swept
  have silent : ∀ orderId,
      orderId ∉ Log.submittedIds (log ++ [acceptance host state incoming sweep]) →
        history events orderId = [] ∧ incoming.id ≠ orderId := by
    intro orderId unmentioned
    simp only [Log.submittedIds_append, submitted_acceptance, Option.map_some, Option.toList_some,
      List.mem_append, List.mem_singleton, not_or] at unmentioned
    exact ⟨journalled.silent orderId unmentioned.1 (Ne.symm unmentioned.2),
      Ne.symm unmentioned.2⟩
  have traded : ∀ orderId,
      makerQty (Log.trades (log ++ [acceptance host state incoming sweep])) orderId +
        takerQty (Log.trades (log ++ [acceptance host state incoming sweep])) orderId =
      filledQty events orderId +
        if incoming.id = orderId then incoming.qty - sweep.taker.qty else 0 := by
    intro orderId
    have taken := swept.taker_qty orderId
    have soFar := journalled.filled orderId
    simp only [Log.trades_append, trades_acceptance, makerQty_append, takerQty_append,
      makerQty_report, takerQty_report]
    simp only [eq_comm (a := orderId)] at taken
    omega
  rcases orderSink_concluded host incoming state.batchSeq sweep with
    ⟨unfilled, sink⟩ | ⟨some, event, eventId, qty, remaining, status, sink⟩
  · exact ⟨events, {
      sink := by rw [sink, journalled.sink]
      stories := by
        rw [Log.submitted_append, submitted_acceptance]
        refine journalled.stories.congr fun order _ => ?_
        rw [openQty, show sweep.taker.qty = incoming.qty by omega]
      silent := fun orderId unmentioned => (silent orderId unmentioned).1
      filled := by
        intro orderId
        rw [traded, unfilled, ite_self, add_zero] }⟩
  · refine ⟨events ++ [event], ?_⟩
    exact {
      sink := by rw [sink, journalled.sink]; rfl
      stories := by
        rw [Log.submitted_append, submitted_acceptance]
        refine journalled.stories.fill ?_ ?_ (by omega) status fun orderId => ?_
        · rw [eventId, if_pos rfl]
          exact positive
        · rw [eventId, if_pos rfl]
          omega
        · rw [openQty, eventId, remaining]
          by_cases own : incoming.id = orderId
          · rw [if_pos own, if_pos own]
          · rw [if_neg own, if_neg own, if_neg own]
      silent := by
        intro orderId unmentioned
        obtain ⟨unheard, other⟩ := silent orderId unmentioned
        rw [history_append_of_ne events event orderId (by rw [eventId]; exact other)]
        exact unheard
      filled := by
        intro orderId
        rw [traded, filledQty_append, eventId, qty]
        simp only [isFill_of_status status, and_true] }

theorem Journalled.refuse (journalled : Journalled log state events) {order : Order}
    (fresh : order.id ∉ log.submittedIds)
    (tracked : Tracked (engine.onEmptyBook onChange) log state) {status : OrderStatus}
    (final : status = .rejected ∨ status = .canceled) :
    ∃ events', Journalled
      (log ++ [⟨state, .processOrder order, .result (refusal host state order status),
        refused host state order status⟩]) (refused host state order status) events' := by
  let event := (state.opened order).orderEvent host state.batchSeq order.id order.userId status
    order.side order.price 0 0
  have own : event.orderId = order.id := rfl
  have noFill : ¬ event.isFill := by
    rintro (partly | filled)
    · rcases final with rfl | rfl <;> cases partly
    · rcases final with rfl | rfl <;> cases filled
  have unused : ¬ Used (engine.onEmptyBook onChange) log order.id := by
    rwa [used_onEmptyBook]
  have nothing : state.book.restingQty order.id + log.droppedQty order.id = 0 := by
    rw [(tracked.untouched order.id unused).2, OrderBook.restingQty_of_not_resting
      (tracked.sound.not_resting_of_unknown (tracked.unknown_of_fresh unused))]
    rfl
  have dropped : ∀ orderId, Entry.droppedQty ⟨state, .processOrder order,
      .result (refusal host state order status), refused host state order status⟩ orderId = 0 := by
    intro orderId
    simp [Entry.droppedQty, refusal]
  refine ⟨events ++ [event], ?_⟩
  exact {
    sink := by simp [MatchingEngine.refused, journalled.sink, event]
    stories := by
      rw [Log.submitted_append]
      simp only [Log.droppedQty_append, dropped, add_zero, book_refused]
      exact journalled.stories.enter own (journalled.silent _ fresh)
        (fun old member => (different_of_fresh fresh member).symm) (.refused final rfl)
        nothing.symm (by simp) fun _ _ => rfl
    silent := by
      intro orderId unmentioned
      simp only [Log.submittedIds_append, Call.submitted, Option.map_some, Option.toList_some,
        List.mem_append, List.mem_singleton, not_or] at unmentioned
      rw [history_append_of_ne events event orderId (Ne.symm unmentioned.2)]
      exact journalled.silent orderId unmentioned.1
    filled := by
      intro orderId
      rw [filledQty_append, if_neg fun both => noFill both.2, journalled.filled orderId]
      simp [Entry.trades, refusal] }

theorem Journalled.withdraw (journalled : Journalled log state events)
    (tracked : Tracked (engine.onEmptyBook onChange) log state) {node : Node}
    (queued : node ∈ state.book.nodes) :
    ∃ events', Journalled (log ++ [⟨state, .cancelOrder node.order.id, .cancelled true,
      state.cancelled host node.order⟩]) (state.cancelled host node.order) events' := by
  have member : node.order ∈ state.book.resting := List.mem_map_of_mem queued
  obtain ⟨submitted, undropped⟩ := tracked.submitted_of_resting ⟨node.order, member, rfl⟩
  have qty := tracked.sound.restingQty_of_mem member
  have positive := tracked.sound.qty_pos member
  let taken : MatchingEngine :=
    { state with book := state.book.withdrawn node.order, batchSeq := state.batchSeq + 1 }
  let event := taken.orderEvent host state.batchSeq node.order.id (state.canceller node.order.id)
    .canceled .buy 0 0 0
  have own : event.orderId = node.order.id := rfl
  have resting : ∀ orderId, (state.cancelled host node.order).book.restingQty orderId =
      state.book.restingQty orderId -
        if node.order.id = orderId then state.book.restingQty orderId else 0 := by
    intro orderId
    rw [book_cancelled]
    exact tracked.sound.restingQty_withdrawn queued orderId
  have dropped : ∀ orderId, Entry.droppedQty ⟨state, .cancelOrder node.order.id,
      .cancelled true, state.cancelled host node.order⟩ orderId = 0 := fun _ => rfl
  refine ⟨events ++ [event], ?_⟩
  exact {
    sink := by simp [cancelled, journalled.sink, event, taken]
    stories := by
      rw [Log.submitted_append]
      simp only [Log.droppedQty_append, dropped, add_zero, Call.submitted, Option.toList_none,
        List.append_nil, resting]
      refine journalled.stories.cancel (by rw [own]; omega) rfl rfl fun orderId => ?_
      rw [own]
      by_cases same : node.order.id = orderId
      · subst same
        rw [if_pos rfl, if_pos rfl]
        omega
      · rw [if_neg same, if_neg same]
        omega
    silent := by
      intro orderId unmentioned
      simp only [Log.submittedIds_append, Call.submitted, Option.map_none, Option.toList_none,
        List.append_nil] at unmentioned
      have other : event.orderId ≠ orderId := by
        rintro rfl
        exact unmentioned submitted
      rw [history_append_of_ne events event orderId other]
      exact journalled.silent orderId unmentioned
    filled := by
      intro orderId
      rw [filledQty_append, if_neg fun both => by cases both.2 <;> contradiction,
        journalled.filled orderId]
      simp [Entry.trades] }

/-- A call that emits nothing and moves nothing. -/
theorem Journalled.idle (journalled : Journalled log state events) (entry : Entry)
    (sink : next.orderSink = state.orderSink) (sameBook : next.book = state.book)
    (noOrder : entry.call.submitted = none) (noTrade : entry.trades = [])
    (noDrop : ∀ orderId, entry.droppedQty orderId = 0) :
    Journalled (log ++ [entry]) next events where
  sink := by rw [sink, journalled.sink]
  stories := by
    rw [Log.submitted_append, noOrder, sameBook]
    simpa [noDrop] using journalled.stories
  silent := by
    intro orderId unmentioned
    rw [Log.submittedIds_append, noOrder] at unmentioned
    exact journalled.silent orderId (by simpa using unmentioned)
  filled := by
    intro orderId
    rw [Log.trades_append, noTrade, List.append_nil, journalled.filled]

/-- An ordinary call continues the journal. -/
theorem Journalled.step (journalled : Journalled log state events)
    (tracked : Tracked (engine.onEmptyBook onChange) log state) {call : Call} {reply : Reply}
    (allowed : Ordinary (engine.onEmptyBook onChange) log call)
    (answered : Answered host state call reply next) :
    ∃ events', Journalled (log ++ [⟨state, call, reply, next⟩]) next events' := by
  cases answered with
  | allotted => exact ⟨events, journalled.idle _ rfl rfl rfl rfl fun _ => rfl⟩
  | added order => exact allowed.elim
  | refused order status notOk final =>
      exact journalled.refuse (fun used => allowed (Or.inr used)) tracked final
  | accepted order ok swept =>
      have positive := (passed_of_isOk ok).qty_pos
      have fresh : order.id ∉ log.submittedIds := fun used => allowed (Or.inr used)
      obtain ⟨_, started⟩ := journalled.startSweep host fresh positive state.batchSeq
      have sweeping := (callSweep_settles host state order).invariant
        (fun sweep => Swept state.book order sweep ∧
          ∃ events', JournalledSweep log order sweep events')
        (fun _ _ ⟨soFar, _, journalled⟩ moves =>
          ⟨soFar.step moves, journalled.fillStep tracked fresh soFar moves⟩)
        ⟨.start (state.opened order) tracked.sound (Int.le_of_lt positive), _, started⟩
      obtain ⟨_, _, told⟩ := sweeping
      exact told.conclude tracked allowed positive swept
  | unknown orderId notFound => exact ⟨events, journalled.idle _ rfl rfl rfl rfl fun _ => rfl⟩
  | withdrawn node queued => exact journalled.withdraw tracked queued

end Calls

/-- Every ordinary session from an empty book keeps its journal. -/
theorem journalled_of_session {host : Host} {engine state : MatchingEngine}
    {onChange : Option (List Snapshot)} {log : Log} (sink : engine.orderSink = some [])
    (session : Session host (engine.onEmptyBook onChange) log state) :
    ∃ events, Journalled log state events := by
  have sound : (engine.onEmptyBook onChange).book.Sound := OrderBook.sound_empty onChange
  refine session.invariant (fun log state => ∃ events, Journalled log state events) ⟨[], ?_⟩ ?_
  · exact {
      sink := sink
      stories := by simp [Lifecycles, Log.submitted]
      silent := fun _ _ => rfl
      filled := fun _ => rfl }
  · intro log state call reply next earlier journalled allowed answer
    obtain ⟨events, journalled⟩ := journalled
    have tracked := tracked_of_session sound earlier
    exact journalled.step tracked allowed (answered_of_exec tracked.sound answer)

end MatchingEngine

end OrderBookSimulator
