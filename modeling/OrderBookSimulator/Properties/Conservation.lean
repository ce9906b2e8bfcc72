import OrderBookSimulator.Engine.Tracked

/-!
# Conservation of quantity

The original quantity of every accepted order is accounted for by what it
traded on either side, what rests, what its cancel removed and what a market
order dropped.  The report of each call agrees with the trades it lists.
-/

namespace OrderBookSimulator

open Library

namespace MatchingEngine

/-- The report of an accepted order is consistent with itself. -/
structure Consistent (order : Order) (result : OrderResult) : Prop where
  original : result.originalQty = order.qty
  filled : result.filledQty = (result.trades.map (·.qty)).sum
  remaining : result.remainingQty = result.originalQty - result.filledQty
  positive : ∀ trade ∈ result.trades, 0 < trade.qty
  filled_iff : result.status = .filled ↔ result.remainingQty = 0
  new_iff : result.status = .new ↔ result.filledQty = 0
  partially_iff : result.status = .partiallyFilled ↔
    result.remainingQty ≠ 0 ∧ result.filledQty ≠ 0
  market : order.type = .market → 0 < result.filledQty

section Report

variable (host : Host) {engine : MatchingEngine} {order : Order}

/-- A market order that passed preflight finds a first order to fill against. -/
theorem trades_of_market (sound : engine.book.Sound)
    (ok : (engine.preflightCheck host order).isOk = true) (market : order.type = .market) :
    (engine.callSweep host order).trades ≠ [] := by
  have passed := passed_of_isOk ok
  obtain ⟨price, maker, rest, best⟩ := sound.exists_front (passed.liquidity market)
  have fillable : Fillable order.side
      (startSweep host (engine.opened order) engine.batchSeq order) price maker rest :=
    ⟨passed.qty_pos, by simpa [startSweep] using best, fun limit => by
      have isLimit : order.type = .limit := limit.1
      rw [market] at isLimit
      cases isLimit⟩
  apply ((callSweep_settles host engine order).tail (fillStep_of_fillable fillable)).invariant
    (fun sweep => sweep.trades ≠ [])
  · intro sweep next _ moves
    obtain ⟨_, _, _, _, rfl⟩ := fillStep_cases moves
    simp [afterFill]
  · simp [afterFill]

theorem sum_qty_report (order : Order) (sweep : Sweep) :
    ((report host order sweep).trades.map (·.qty)).sum =
      tally (fun _ : Trade => True) (·.qty) sweep.trades := by
  have stamped : tally (fun _ : Trade => True) (·.qty) (report host order sweep).trades =
      tally (fun _ : Trade => True) (·.qty) sweep.trades :=
    tally_of_unstamped (fun _ => ⟨.rfl, rfl⟩) (unstamped_report host order sweep)
  rw [← stamped]
  simp [tally]

theorem consistent_report (sound : engine.book.Sound)
    (ok : (engine.preflightCheck host order).isOk = true)
    (swept : Swept engine.book order (engine.callSweep host order)) :
    Consistent order (report host order (engine.callSweep host order)) := by
  have qtyPos := (passed_of_isOk ok).qty_pos
  have leftNonneg := swept.left_nonneg
  exact {
    original := rfl
    filled := by
      rw [sum_qty_report, swept.filled]
      rfl
    remaining := by
      simp only [report]
      omega
    positive := by
      intro trade member
      obtain ⟨plain, plainMember, same⟩ :=
        exists_of_unstamped (unstamped_report host order (engine.callSweep host order)) member
      have sameQty : plain.qty = trade.qty :=
        show plain.unstamped.qty = trade.unstamped.qty by rw [same]
      rw [← sameQty]
      exact (swept.trades plain plainMember).1
    filled_iff := fillStatus_eq_filled_iff (by omega)
    new_iff := fillStatus_eq_new_iff _ _
    partially_iff := fillStatus_eq_partiallyFilled_iff _ _
    market := fun market => swept.filled_pos_iff.mpr (trades_of_market host sound ok market) }

end Report

/--
Along every ordinary session from an empty book the quantity of each accepted
order is accounted for, the accepted orders are those that passed preflight, and
the report of each of them is consistent.
-/
theorem quantity_conserved {host : Host} {engine state : MatchingEngine}
    {onChange : Option (List Snapshot)} {log : Log}
    (session : Session host (engine.onEmptyBook onChange) log state) :
    (∀ order ∈ log.acceptedOrders,
      order.qty = takerQty log.trades order.id + makerQty log.trades order.id +
        state.book.restingQty order.id + log.cancelledQty order.id +
        log.droppedQty order.id) ∧
    ∀ entry ∈ log, ∀ order result, entry.call = .processOrder order →
      entry.reply = .result result →
        (entry.accepted = some order ↔ (entry.before.preflightCheck host order).isOk = true) ∧
        (entry.accepted = some order → Consistent order result) := by
  have sound : (engine.onEmptyBook onChange).book.Sound := OrderBook.sound_empty onChange
  constructor
  · intro order member
    have ledger := (tracked_of_session sound session).ledger order (by simp [member])
    omega
  · intro entry member order result submits replies
    obtain ⟨past, earlier, allowed, answer, _⟩ := session.of_mem member
    have tracked := tracked_of_session sound earlier
    have answered := answered_of_exec tracked.sound answer
    obtain ⟨before, call, reply, after⟩ := entry
    dsimp only at submits replies answered tracked
    subst submits replies
    refine ⟨answered.accepted_iff, fun accepted => ?_⟩
    have ok := answered.accepted_iff.mp accepted
    cases answered with
    | refused order status notOk => exact absurd ok (by simp [notOk])
    | accepted order ok swept => exact consistent_report host tracked.sound ok swept

/-- An order that takes, rests, is taken from and is then cancelled. -/
theorem quantity_conserved_sample :
    ∃ log state, Session (Host.exact (·)) (onEmptyBook {} none) log state ∧
      log.trades.length = 2 ∧
      (∀ order ∈ log.acceptedOrders,
        order.qty = takerQty log.trades order.id + makerQty log.trades order.id +
          state.book.restingQty order.id + log.cancelledQty order.id +
          log.droppedQty order.id) := by
  have run := Run.of_isSome (exec (Host.exact (·))) (Ordinary (onEmptyBook {} none))
    (onEmptyBook {} none)
    [.processOrder ⟨1, 0, .sell, 100, 5, .limit⟩, .processOrder ⟨2, 0, .buy, 101, 9, .limit⟩,
      .processOrder ⟨3, 0, .sell, 0, 1, .market⟩, .cancelOrder 2] (by decide)
  exact ⟨_, _, run, by decide, (quantity_conserved run).1⟩

end MatchingEngine

end OrderBookSimulator
