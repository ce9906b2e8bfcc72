import OrderBookSimulator.Engine.Answer

/-!
# Depths

The depth of a side is what its resting orders add up to.  A fill takes the
same from the taker and from the side it sweeps, a remainder adds to the other.
-/

namespace OrderBookSimulator

open Library

namespace OrderBook

theorem depth_eq_queue (book : OrderBook) (side : Side) :
    book.depth side = ((book.queue side).map (·.order.qty)).sum := by
  rw [depth, queue, List.map_flatMap, List.flatMap_def, List.sum_flatten, List.map_map]
  rfl

theorem Sound.depth_nonneg {book : OrderBook} (sound : book.Sound) (side : Side) :
    0 ≤ book.depth side := by
  rw [depth_eq_queue]
  refine List.sum_nonneg fun qty member => ?_
  obtain ⟨node, queued, rfl⟩ := List.mem_map.mp member
  obtain ⟨price, atLevel⟩ := mem_queue_iff.mp queued
  exact Int.le_of_lt (sound.positive node (mem_nodes_iff.mpr ⟨side, price, atLevel⟩))

theorem depth_of_first? {book : OrderBook} {side : Side}
    (none : (book.levels side).first? = none) : book.depth side = 0 := by
  have empty : (book.levels side).entries = [] := List.head?_eq_none_iff.mp none
  rw [depth, empty]
  rfl

/-- The depth of a side, from the resting orders alone. -/
theorem Sound.depth_eq_tally {book : OrderBook} (sound : book.Sound) (side : Side) :
    book.depth side = tally (fun order : Order => order.side = side) (·.qty) book.resting := by
  have placed : ∀ other, ∀ order ∈ (book.queue other).map (·.order), order.side = other := by
    intro other order member
    obtain ⟨node, queued, rfl⟩ := List.mem_map.mp member
    obtain ⟨price, atLevel⟩ := mem_queue_iff.mp queued
    exact (sound.placed other price node atLevel).1
  have own : ∀ other, tally (fun order : Order => order.side = side) (·.qty)
      ((book.queue other).map (·.order)) =
        if other = side then ((book.queue other).map (·.order.qty)).sum else 0 := by
    intro other
    split
    · rename_i same
      have all : ((book.queue other).map (·.order)).filter (fun order => order.side = side) =
          (book.queue other).map (·.order) := by
        refine List.filter_eq_self.mpr fun order member => ?_
        simpa using (placed other order member).trans same
      rw [tally, all, List.map_map]
      rfl
    · rename_i different
      exact tally_eq_zero fun order member same =>
        different ((placed other order member).symm.trans same)
  rw [resting, nodes_eq, List.map_append, tally_append, own, own, depth_eq_queue]
  cases side <;> simp

theorem Sound.depth_addRestingOrder {book : OrderBook} (sound : book.Sound) {order : Order}
    (positive : 0 < order.qty) (new : book.index.find? order.id = none) (side : Side) :
    (book.addRestingOrder order).depth side =
      book.depth side + if order.side = side then order.qty else 0 := by
  rw [(sound.afterAdd order).depth_eq_tally, sound.depth_eq_tally,
    tally_perm (resting_addRestingOrder positive new), tally_cons, Int.add_comm]

/-- Whatever its id, an order that is added leaves the depth of the other side alone. -/
theorem Sound.depth_addRestingOrder_opposite {book : OrderBook} (sound : book.Sound)
    (order : Order) :
    (book.addRestingOrder order).depth order.side.opposite = book.depth order.side.opposite := by
  by_cases positive : 0 < order.qty
  · cases found : book.index.find? order.id with
    | none =>
        rw [sound.depth_addRestingOrder positive found, if_neg order.side.ne_opposite, add_zero]
    | some loc => rw [addRestingOrder_of_known found]
  · rw [addRestingOrder_of_nonpos (by omega)]

@[simp] theorem depth_notifyChange (book : OrderBook) (side : Side) :
    book.notifyChange.depth side = book.depth side := by
  cases side <;> rfl

end OrderBook

namespace MatchingEngine

section Fill

variable {host : Host} {takerSide : Side} {batchId : Int} {sweep next : Sweep}

/-- A fill takes the same from the taker and from the side it sweeps. -/
theorem depth_fillStep (moves : fillStep host takerSide batchId sweep = some next) :
    next.taker.qty - next.engine.book.depth takerSide.opposite =
      sweep.taker.qty - sweep.engine.book.depth takerSide.opposite := by
  obtain ⟨price, maker, rest, fillable, rfl⟩ := fillStep_cases moves
  obtain ⟨lead, tail, was, becomes⟩ := sweep.engine.book.queue_setLevel takerSide.opposite price
    (queueAfterFill (fillQty sweep.taker maker.order) maker rest)
  have level : ((queueAfterFill (fillQty sweep.taker maker.order) maker rest).map
      (·.order.qty)).sum =
        maker.order.qty - fillQty sweep.taker maker.order + (rest.map (·.order.qty)).sum := by
    unfold queueAfterFill
    split
    · omega
    · simp
  rw [book_afterFill, OrderBook.depth_eq_queue, OrderBook.depth_eq_queue, becomes, was,
    fillable.levelEq]
  simp only [List.map_append, List.sum_append, List.map_cons, List.sum_cons, level, afterFill]
  omega

end Fill

section Call

variable (host : Host) {engine : MatchingEngine} {order : Order}

variable (engine order) in
/-- What a sweep fills is gone from the side it sweeps. -/
theorem depth_callSweep :
    (engine.callSweep host order).taker.qty -
        (engine.callSweep host order).engine.book.depth order.side.opposite =
      order.qty - engine.book.depth order.side.opposite :=
  (callSweep_settles host engine order).invariant
    (fun sweep => sweep.taker.qty - sweep.engine.book.depth order.side.opposite =
      order.qty - engine.book.depth order.side.opposite)
    (fun _ _ soFar moves => (depth_fillStep moves).trans soFar) (by simp [startSweep])

variable (engine order) in
/-- A sweep leaves the side of its own order as it was. -/
theorem depth_callSweep_own : (engine.callSweep host order).engine.book.depth order.side =
    engine.book.depth order.side := by
  rw [OrderBook.depth, OrderBook.depth, ownLevels_callSweep]

/-- A sweep makes neither side deeper. -/
theorem depth_callSweep_le (swept : Swept engine.book order (engine.callSweep host order))
    (side : Side) :
    (engine.callSweep host order).engine.book.depth side ≤ engine.book.depth side := by
  have filled : 0 ≤ tally (fun _ : Trade => True) (·.qty) (engine.callSweep host order).trades :=
    tally_nonneg fun trade member _ => Int.le_of_lt (swept.trades trade member).1
  have opposite := depth_callSweep host engine order
  rw [swept.filled] at filled
  rcases order.side.eq_or_eq_opposite side with rfl | rfl
  · exact Int.le_of_eq (depth_callSweep_own host engine order)
  · omega

theorem depth_concluded_opposite {sweep : Sweep} {before : OrderBook}
    (swept : Swept before order sweep) (batchId : Int) :
    (concluded host order batchId sweep).book.depth order.side.opposite =
      sweep.engine.book.depth order.side.opposite := by
  have side : sweep.taker.side = order.side := by rw [swept.taker]
  have announced : (announcedBook sweep).depth order.side.opposite =
      sweep.engine.book.depth order.side.opposite := by
    unfold announcedBook
    split
    · rfl
    · exact OrderBook.depth_notifyChange _ _
  rw [book_concluded, book_restRemainder]
  split
  · rw [← side, (sound_announcedBook swept.sound).depth_addRestingOrder_opposite, side, announced]
  · exact announced

/-- An order that trades makes the other side smaller. -/
theorem depth_lt_of_trades (sound : engine.book.Sound)
    (traded : (engine.processOrder host order).2.trades ≠ []) :
    (engine.processOrder host order).1.book.depth order.side.opposite <
      engine.book.depth order.side.opposite := by
  cases ok : (engine.preflightCheck host order).isOk with
  | false =>
      obtain ⟨status, _, answered⟩ := processOrder_of_refused host engine order ok
      rw [answered] at traded
      exact absurd rfl traded
  | true =>
      have swept := swept_callSweep host sound (Int.le_of_lt (passed_of_isOk ok).qty_pos)
      rw [processOrder_of_accepted host engine order ok] at traded ⊢
      have reported := unstamped_report host order (engine.callSweep host order)
      have someTrade : (engine.callSweep host order).trades ≠ [] := by
        intro none
        rw [none, List.map_nil, List.map_eq_nil_iff] at reported
        exact traded reported
      obtain ⟨trade, member⟩ := List.exists_mem_of_ne_nil _ someTrade
      have filled : 0 < tally (fun _ : Trade => True) (·.qty) (engine.callSweep host order).trades :=
        tally_pos (fun trade member _ => (swept.trades trade member).1) member trivial
      rw [swept.filled] at filled
      have moved := depth_callSweep host engine order
      rw [depth_concluded_opposite host swept]
      omega

end Call

end MatchingEngine

end OrderBookSimulator
