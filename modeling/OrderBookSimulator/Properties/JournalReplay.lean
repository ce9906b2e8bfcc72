import OrderBookSimulator.Engine.Depth
import OrderBookSimulator.Journal.Journalled

/-!
# Replaying the journal

A reader of the journal takes the last event of each order as its state: still
resting while that event leaves something open.  This agrees with the book
exactly as long as no market order was larger than the side it swept, because
the remainder such an order drops is the one departure no event reports.
-/

namespace OrderBookSimulator

open Library

/-- What the last event of an id says is still open. -/
def lastRemaining (events : List OrderEvent) (orderId : Int) : Option Int :=
  (history events orderId).getLast?.map (·.remainingQty)

/-- The book is what the last events say. -/
def Reconstructs (events : List OrderEvent) (book : OrderBook) : Prop :=
  ∀ orderId,
    (book.Resting orderId ↔ ∃ left, lastRemaining events orderId = some left ∧ 0 < left) ∧
    ∀ order ∈ book.resting, order.id = orderId → lastRemaining events orderId = some order.qty

/-- A market order that passes preflight and asks for more than the other side holds. -/
def outgrowsBook (host : Host) (engine : MatchingEngine) (incoming : Order) : Bool :=
  incoming.type = .market ∧ (engine.preflightCheck host incoming).isOk ∧
    engine.book.depth incoming.side.opposite < incoming.qty

namespace MatchingEngine

/-! ## What a market order drops -/

/-- A market order is left with what exceeds the depth it swept. -/
theorem left_of_market (host : Host) {engine : MatchingEngine} {order : Order} (sound : engine.book.Sound)
    (market : order.type = .market) (nonneg : 0 ≤ order.qty) :
    (engine.callSweep host order).taker.qty ≠ 0 ↔
      engine.book.depth order.side.opposite < order.qty := by
  have settles := callSweep_settles host engine order
  have swept := swept_callSweep host sound nonneg
  have leftNonneg := swept.left_nonneg
  have depthNonneg := swept.sound.depth_nonneg order.side.opposite
  have balance := depth_callSweep host engine order
  rcases swept.ended settles.stopped with filled | swept | ⟨_, _, _, limit, _⟩
  · omega
  · have empty := OrderBook.depth_of_first? swept
    omega
  · rw [market] at limit
    cases limit

/-- What an accepted order drops is the part of a market order beyond the depth. -/
theorem dropsNothing_acceptance (host : Host) {engine : MatchingEngine} {order : Order}
    (sound : engine.book.Sound) (ok : (engine.preflightCheck host order).isOk = true) :
    (∀ orderId,
      (acceptance host engine order (engine.callSweep host order)).droppedQty orderId = 0) ↔
        outgrowsBook host engine order = false := by
  simp only [droppedQty_acceptance, outgrowsBook, ok, decide_eq_false_iff_not, true_and]
  by_cases market : order.type = .market
  · have left := left_of_market host sound market (Int.le_of_lt (passed_of_isOk ok).qty_pos)
    rw [← left]
    constructor
    · intro none both
      have own := none order.id
      rw [if_pos ⟨rfl, market⟩] at own
      exact both.2 own
    · intro fits orderId
      have none : (engine.callSweep host order).taker.qty = 0 := by
        by_contra some
        exact fits ⟨market, some⟩
      rw [none, ite_self]
  · exact iff_of_true (fun orderId => if_neg fun both => market both.2) fun both => market both.1

section Dropping

variable {host : Host} {engine next : MatchingEngine} {call : Call} {reply : Reply}

theorem Answered.dropped_nonneg (answered : Answered host engine call reply next)
    (orderId : Int) : 0 ≤ Entry.droppedQty ⟨engine, call, reply, next⟩ orderId := by
  cases answered with
  | allotted => exact Int.le_refl 0
  | added order => exact Int.le_refl 0
  | refused order status notOk final => simp [Entry.droppedQty, refusal]
  | accepted order ok swept =>
      have nonneg := swept.left_nonneg
      have dropped := droppedQty_acceptance host engine order (engine.callSweep host order) orderId
      refine Int.le_trans ?_ (Int.le_of_eq dropped.symm)
      split <;> omega
  | unknown => exact Int.le_refl 0
  | withdrawn => exact Int.le_refl 0

theorem Answered.dropsNothing_iff (answered : Answered host engine call reply next)
    (sound : engine.book.Sound) :
    (∀ orderId, Entry.droppedQty ⟨engine, call, reply, next⟩ orderId = 0) ↔
      ∀ order ∈ call.submitted, outgrowsBook host engine order = false := by
  cases answered with
  | allotted => exact iff_of_true (fun _ => rfl) (by simp [Call.submitted])
  | added order => exact iff_of_true (fun _ => rfl) (by simp [Call.submitted])
  | refused order status notOk final =>
      exact iff_of_true (fun orderId => by simp [Entry.droppedQty, refusal])
        (by simp [Call.submitted, outgrowsBook, notOk])
  | accepted order ok swept =>
      refine (dropsNothing_acceptance host sound ok).trans ?_
      simp [Call.submitted]
  | unknown => exact iff_of_true (fun _ => rfl) (by simp [Call.submitted])
  | withdrawn => exact iff_of_true (fun _ => rfl) (by simp [Call.submitted])

end Dropping

/-- A session has dropped nothing while no market order outgrew the book. -/
theorem dropsNothing_iff {host : Host} {start state : MatchingEngine} {log : Log}
    (sound : start.book.Sound) (session : Session host start log state) :
    (∀ orderId, 0 ≤ log.droppedQty orderId) ∧
    ((∀ orderId, log.droppedQty orderId = 0) ↔ ∀ entry ∈ log, ∀ order ∈ entry.call.submitted,
      outgrowsBook host entry.before order = false) := by
  refine session.invariant (fun (log : Log) _ => (∀ orderId, 0 ≤ log.droppedQty orderId) ∧
    ((∀ orderId, log.droppedQty orderId = 0) ↔ ∀ entry ∈ log, ∀ order ∈ entry.call.submitted,
      outgrowsBook host entry.before order = false)) ?_ ?_
  · exact ⟨fun _ => Int.le_refl 0, iff_of_true (fun _ => rfl) (by simp)⟩
  · rintro log state call reply next earlier ⟨nonneg, soFar⟩ allowed answer
    have tracked := tracked_of_session sound earlier
    have answered := answered_of_exec tracked.sound answer
    have last := answered.dropsNothing_iff tracked.sound
    have lastNonneg := answered.dropped_nonneg
    refine ⟨fun orderId => ?_, ?_⟩
    · rw [Log.droppedQty_append]
      exact Int.add_nonneg (nonneg orderId) (lastNonneg orderId)
    · rw [List.forall_mem_append, List.forall_mem_singleton, ← soFar, ← last, ← forall_and]
      refine forall_congr' fun orderId => ?_
      have earlierNonneg := nonneg orderId
      have nowNonneg := lastNonneg orderId
      rw [Log.droppedQty_append]
      omega

/-! ## The journal and the book -/

/-- The last event of an order tells what is resting of it or was dropped. -/
theorem Journalled.lastRemaining {log : Log} {state : MatchingEngine} {events : List OrderEvent}
    (journalled : Journalled log state events) (orderId : Int) :
    lastRemaining events orderId =
      if orderId ∈ log.submittedIds then
        some (state.book.restingQty orderId + log.droppedQty orderId)
      else none := by
  unfold OrderBookSimulator.lastRemaining
  split
  · rename_i submitted
    obtain ⟨order, member, rfl⟩ := List.mem_map.mp submitted
    obtain ⟨stage, story, left, _⟩ := journalled.stories order member
    obtain ⟨earlier, last, events, remaining⟩ := story.last
    rw [events, List.getLast?_concat, Option.map_some, remaining, left]
  · rename_i unmentioned
    rw [journalled.silent orderId unmentioned]
    rfl

/-- The journal reconstructs the book exactly when nothing was dropped. -/
theorem Journalled.reconstructs_iff {engine state : MatchingEngine}
    {onChange : Option (List Snapshot)} {log : Log} {events : List OrderEvent}
    (tracked : Tracked (engine.onEmptyBook onChange) log state)
    (journalled : Journalled log state events) (nonneg : ∀ orderId, 0 ≤ log.droppedQty orderId) :
    Reconstructs events state.book ↔ ∀ orderId, log.droppedQty orderId = 0 := by
  have told := journalled.lastRemaining
  constructor
  · intro reconstructs orderId
    by_cases resting : state.book.Resting orderId
    · exact (tracked.submitted_of_resting resting).2
    by_cases submitted : orderId ∈ log.submittedIds
    · have noneOpen := mt (reconstructs orderId).1.mpr resting
      rw [told, if_pos submitted, OrderBook.restingQty_of_not_resting resting, zero_add] at noneOpen
      have notPos : ¬ 0 < log.droppedQty orderId := fun positive => noneOpen ⟨_, rfl, positive⟩
      have droppedNonneg := nonneg orderId
      omega
    · exact (tracked.untouched orderId fun used =>
        submitted ((used_onEmptyBook orderId).mp used)).2
  · intro undropped orderId
    constructor
    · constructor
      · intro resting
        have positive := tracked.sound.restingQty_pos resting
        rw [told, if_pos (tracked.submitted_of_resting resting).1, undropped, add_zero]
        exact ⟨_, rfl, positive⟩
      · rintro ⟨left, last, positive⟩
        rw [told] at last
        split at last
        · cases last
          by_contra notResting
          rw [OrderBook.restingQty_of_not_resting notResting, undropped] at positive
          exact absurd positive (by decide)
        · cases last
    · rintro order member rfl
      rw [told, if_pos (tracked.submitted_of_resting ⟨order, member, rfl⟩).1, undropped,
        tracked.sound.restingQty_of_mem member, add_zero]

/--
Along every ordinary session from an empty book with an order sink, the journal
reconstructs the book if and only if no market order has outgrown it so far.
-/
theorem journal_reconstructs_iff_no_market_outgrew {host : Host} {engine state : MatchingEngine}
    {onChange : Option (List Snapshot)} {log : Log} (sink : engine.orderSink = some [])
    (session : Session host (engine.onEmptyBook onChange) log state) :
    ∃ events, state.orderSink = some events ∧
      (Reconstructs events state.book ↔ ∀ entry ∈ log, ∀ order ∈ entry.call.submitted,
        outgrowsBook host entry.before order = false) := by
  have sound : (engine.onEmptyBook onChange).book.Sound := OrderBook.sound_empty onChange
  obtain ⟨events, journalled⟩ := journalled_of_session sink session
  obtain ⟨nonneg, dropped⟩ := dropsNothing_iff sound session
  exact ⟨events, journalled.sink,
    (journalled.reconstructs_iff (tracked_of_session sound session) nonneg).trans dropped⟩

/-- A market order that fits is journalled as filled, and its maker as partly filled. -/
theorem journal_reconstructs_after_fitting_market :
    ∃ log state events, Session (Host.exact (·)) (onEmptyBook { orderSink := some [] } none)
        log state ∧
      log.length = 2 ∧ state.orderSink = some events ∧ Reconstructs events state.book := by
  have run := Run.of_isSome (exec (Host.exact (·)))
    (Ordinary (onEmptyBook { orderSink := some [] } none))
    (onEmptyBook { orderSink := some [] } none)
    [.processOrder ⟨1, 0, .sell, 100, 5, .limit⟩, .processOrder ⟨2, 0, .buy, 0, 3, .market⟩]
    (by decide)
  obtain ⟨events, sink, reconstructs⟩ := journal_reconstructs_iff_no_market_outgrew rfl run
  exact ⟨_, _, events, run, by decide, sink, reconstructs.mpr (by decide)⟩

/-- The last event of a market order that swept its side leaves three open, but nothing rests. -/
theorem not_reconstructs_after_outgrown :
    ∃ log state events, Session (Host.exact (·)) (onEmptyBook { orderSink := some [] } none)
        log state ∧
      state.orderSink = some events ∧ lastRemaining events 2 = some 3 ∧ ¬ state.book.Resting 2 ∧
      ¬ Reconstructs events state.book := by
  have run := Run.of_isSome (exec (Host.exact (·)))
    (Ordinary (onEmptyBook { orderSink := some [] } none))
    (onEmptyBook { orderSink := some [] } none)
    [.processOrder ⟨1, 0, .sell, 100, 5, .limit⟩, .processOrder ⟨2, 0, .buy, 0, 8, .market⟩]
    (by decide)
  refine ⟨_, _, _, run, rfl, by decide, by decide, fun reconstructs => ?_⟩
  have resting := (reconstructs 2).1.mpr ⟨3, by decide, by decide⟩
  revert resting
  decide

end MatchingEngine

end OrderBookSimulator
