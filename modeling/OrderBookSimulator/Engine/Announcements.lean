import OrderBookSimulator.Engine.Answer

/-!
# Every change is announced

The change callback runs after the last change of a call, so what it saw last
is the book the call leaves.  Between the first change and the last, the price
levels it can see never hold more than they held before or hold after.
-/

namespace OrderBookSimulator

open Library

namespace OrderBook

/-- What the callback saw last, and `base` before it has run. -/
def lastSeen (base : Snapshot) (book : OrderBook) : Snapshot :=
  (book.onChange.getD []).getLast?.getD base

/-- The total quantity of a price level. -/
def levelQty (book : OrderBook) (side : Side) (price : Int) : Int :=
  ((book.level side price).map (·.order.qty)).sum

section LastSeen

variable {base : Snapshot} {book : OrderBook}

@[simp] theorem isSome_onChange_notifyChange :
    book.notifyChange.onChange.isSome = book.onChange.isSome := Option.isSome_map

theorem lastSeen_notifyChange (watched : book.onChange.isSome) :
    book.notifyChange.lastSeen base = book.snapshot := by
  obtain ⟨seen, isSeen⟩ := Option.isSome_iff_exists.mp watched
  simp [lastSeen, notifyChange, isSeen]

theorem lastSeen_addRestingOrder (watched : book.onChange.isSome)
    (current : book.lastSeen base = book.snapshot) (order : Order) :
    (book.addRestingOrder order).lastSeen base = (book.addRestingOrder order).snapshot := by
  unfold addRestingOrder
  split
  · exact current
  · split
    · exact current
    · rw [snapshot_notifyChange]
      exact lastSeen_notifyChange (by simpa using watched)

end LastSeen

/-- The level totals of the book when one level is put in place of another. -/
theorem levelQty_setLevel (book : OrderBook) (side other : Side) (price otherPrice : Int)
    (queue : OrderList) :
    (book.setLevel side price queue).levelQty other otherPrice =
      if other = side ∧ otherPrice = price then (queue.map (·.order.qty)).sum
      else book.levelQty other otherPrice := by
  unfold levelQty
  rw [level_setLevel]
  split <;> rfl

end OrderBook

namespace MatchingEngine

variable {host : Host} {engine : MatchingEngine}

/-- A sweep without a trade leaves the book as it was. -/
theorem snapshot_callSweep_of_no_trades {order : Order}
    (none : (engine.callSweep host order).trades = []) :
    (engine.callSweep host order).engine.book.snapshot = engine.book.snapshot := by
  refine (callSweep_settles host engine order).invariant (fun sweep =>
    sweep.trades = [] → sweep.engine.book.snapshot = engine.book.snapshot) ?_
    (fun _ => by simp [startSweep]) none
  intro sweep next _ moves noTrades
  obtain ⟨price, maker, rest, _, rfl⟩ := fillStep_cases moves
  simp at noTrades

theorem levelQty_afterFill_le {takerSide : Side} {batchId : Int} {sweep : Sweep} {price : Int}
    {maker : Node} {rest : OrderList} (sound : sweep.engine.book.Sound)
    (fillable : Fillable takerSide sweep price maker rest) (side : Side) (levelPrice : Int) :
    (afterFill host takerSide batchId sweep price maker rest).engine.book.levelQty side levelPrice
      ≤ sweep.engine.book.levelQty side levelPrice := by
  rw [book_afterFill, OrderBook.levelQty_setLevel]
  split
  · rename_i same
    obtain ⟨rfl, rfl⟩ := same
    have positive := fillable.fillQty_pos sound
    unfold OrderBook.levelQty
    rw [fillable.levelEq]
    unfold queueAfterFill
    split <;> simp only [List.map_cons, List.sum_cons] <;> omega
  · exact Int.le_refl _

/-- A sweep adds to no price level. -/
theorem levelQty_callSweep_le (sound : engine.book.Sound) (order : Order) (side : Side)
    (price : Int) : (engine.callSweep host order).engine.book.levelQty side price ≤
      engine.book.levelQty side price := by
  refine ((callSweep_settles host engine order).invariant
    (fun sweep => sweep.engine.book.Sound ∧
      sweep.engine.book.levelQty side price ≤ engine.book.levelQty side price) ?_
    ⟨by simpa [startSweep] using sound, by simp [startSweep]⟩).2
  rintro sweep next ⟨sound, le⟩ moves
  obtain ⟨bestPrice, maker, rest, fillable, rfl⟩ := fillStep_cases moves
  exact ⟨sound_afterFill sound fillable,
    Int.le_trans (levelQty_afterFill_le sound fillable side price) le⟩

/-- After a call, what the callback saw last is the book as the call left it. -/
theorem Answered.lastSeen {next : MatchingEngine} {call : Call} {reply : Reply}
    (answered : Answered host engine call reply next) (watched : engine.book.onChange = some []) :
    next.book.lastSeen engine.book.snapshot = next.book.snapshot := by
  have unchanged : engine.book.lastSeen engine.book.snapshot = engine.book.snapshot := by
    simp [OrderBook.lastSeen, watched]
  cases answered with
  | allotted => exact unchanged
  | added order =>
      exact OrderBook.lastSeen_addRestingOrder (by rw [watched]; rfl) unchanged order
  | refused order status => simpa using unchanged
  | accepted order ok swept =>
      have stillWatched : (engine.callSweep host order).engine.book.onChange = some [] := by
        rw [swept.onChange, watched]
      have announced : (announcedBook (engine.callSweep host order)).onChange.isSome ∧
          (announcedBook (engine.callSweep host order)).lastSeen engine.book.snapshot =
            (announcedBook (engine.callSweep host order)).snapshot := by
        unfold announcedBook
        split
        · rename_i noTrades
          refine ⟨by rw [stillWatched]; rfl, ?_⟩
          rw [snapshot_callSweep_of_no_trades noTrades]
          simp [OrderBook.lastSeen, stillWatched]
        · exact ⟨by simp [stillWatched],
            OrderBook.lastSeen_notifyChange (by rw [stillWatched]; rfl)⟩
      rw [book_concluded, book_restRemainder]
      split
      · exact OrderBook.lastSeen_addRestingOrder announced.1 announced.2 _
      · exact announced.2
  | unknown => exact unchanged
  | withdrawn node queued =>
      rw [book_cancelled]
      exact OrderBook.lastSeen_notifyChange (by
        simp [OrderBook.withdrawn, OrderBook.forget, watched])

end MatchingEngine

end OrderBookSimulator
