import OrderBookSimulator.Engine.Announcements
import OrderBookSimulator.Engine.Walk

/-!
# What a call leaves

Seen from outside, an order on an engine without users does three things: it
trades along the opposing queue, leaves the rest of that queue, and adds its
remainder to its own level.  Each is a function of the queue, the quantity and
the limit, and a refused order is the case where all three are trivial.
-/

namespace OrderBookSimulator

open Library

namespace OrderBook

/-! ## A side is its queue -/

section Queue

variable {book other : OrderBook} {side : Side}

theorem lookup_eq_filter {Before : Int → Int → Prop} [IsStrictTotalOrder Int Before] (price : Int)
    {entries : List (Int × OrderList)}
    (sorted : entries.Pairwise (fun first second => Before first.1 second.1))
    (priced : ∀ entry ∈ entries, ∀ node ∈ entry.2, node.order.price = entry.1) :
    (SortedMap.lookup price entries).getD [] =
      (entries.flatMap (·.2)).filter (·.order.price = price) := by
  induction entries with
  | nil => rfl
  | cons entry rest ih =>
      obtain ⟨atPrice, queue⟩ := entry
      obtain ⟨ahead, restSorted⟩ := List.pairwise_cons.mp sorted
      have tail := ih restSorted fun entry member => priced entry (.tail _ member)
      have here : ∀ node ∈ queue, node.order.price = atPrice := priced _ (.head _)
      rw [List.flatMap_cons, List.filter_append, ← tail]
      by_cases same : price = atPrice
      · subst same
        have gone : SortedMap.lookup price rest = none := by
          apply SortedMap.lookup_eq_none_of_forall_ne
          rintro entry member rfl
          exact irrefl_of Before _ (ahead entry member)
        have all : queue.filter (·.order.price = price) = queue :=
          List.filter_eq_self.mpr fun node member => decide_eq_true (here node member)
        rw [SortedMap.lookup, if_pos rfl, gone, all]
        exact (List.append_nil _).symm
      · have none : queue.filter (·.order.price = price) = [] :=
          List.filter_eq_nil_iff.mpr fun node member => by
            simpa [here node member] using Ne.symm same
        rw [SortedMap.lookup, if_neg same, none, List.nil_append]

theorem Sound.level_eq_filter (sound : book.Sound) (price : Int) :
    book.level side price = (book.queue side).filter (·.order.price = price) := by
  refine lookup_eq_filter price (book.levels side).sorted fun entry member node queued => ?_
  have found : (book.levels side).find? entry.1 = some entry.2 :=
    SortedMap.mem_entries_iff.mp member
  refine (sound.placed side entry.1 node ?_).2
  rw [level, SortedMap.findD, found]
  exact queued

theorem Sound.find?_eq (sound : book.Sound) (price : Int) :
    (book.levels side).find? price =
      if book.level side price = [] then none else some (book.level side price) := by
  have noEmpty := sound.noEmptyLevel side price
  rw [level, SortedMap.findD]
  cases found : (book.levels side).find? price with
  | none => rfl
  | some queue =>
      rw [found] at noEmpty
      exact (if_neg fun empty => noEmpty (congrArg some empty)).symm

/-- Two sound books with the same queue on a side have the same levels there. -/
theorem Sound.levels_eq_of_queue_eq (sound : book.Sound) (otherSound : other.Sound)
    (same : book.queue side = other.queue side) : book.levels side = other.levels side := by
  apply SortedMap.ext_find?
  intro price
  rw [sound.find?_eq, otherSound.find?_eq, sound.level_eq_filter, otherSound.level_eq_filter, same]

end Queue

end OrderBook

namespace MatchingEngine

/-! ## What a sweep leaves of the queue -/

/-- What is left of a queue once an order for `qty` has gone along it as far as it is admitted. -/
def leaves (admits : Order → Bool) (qty : Int) : OrderList → OrderList
  | [] => []
  | maker :: rest =>
      if 0 < qty ∧ admits maker.order then
        queueAfterFill (min qty maker.order.qty) maker
          (leaves admits (qty - min qty maker.order.qty) rest)
      else maker :: rest

theorem leaves_of_sated {admits : Order → Bool} {qty : Int} (sated : ¬ 0 < qty)
    (queue : OrderList) : leaves admits qty queue = queue := by
  cases queue with
  | nil => rfl
  | cons maker rest => rw [leaves, if_neg fun both => sated both.1]

section Sweep

variable {host : Host} {batchId : Int} {engine : MatchingEngine} {incoming : Order}

/-- Part of the way along: what is left now would leave the same in the end. -/
structure Leaving (engine : MatchingEngine) (incoming : Order) (sweep : Sweep) : Prop where
  swept : Swept engine.book incoming sweep
  leaves : leaves (admitsMaker incoming) sweep.taker.qty
      (sweep.engine.book.queue incoming.side.opposite) =
    leaves (admitsMaker incoming) incoming.qty (engine.book.queue incoming.side.opposite)

theorem Fillable.admitsMaker {sweep : Sweep} {price : Int} {maker : Node} {rest : OrderList}
    (swept : Swept engine.book incoming sweep)
    (fillable : Fillable incoming.side sweep price maker rest) :
    admitsMaker incoming maker.order = true := by
  have admits := fillable.admits
  rw [swept.taker] at admits
  rw [← fillable.maker_price swept.sound] at admits
  exact decide_eq_true admits

theorem Leaving.step {sweep next : Sweep} (leaving : Leaving engine incoming sweep)
    (moves : fillStep host incoming.side batchId sweep = some next) :
    Leaving engine incoming next := by
  have sweptNext := leaving.swept.step moves
  obtain ⟨price, maker, rest, fillable, rfl⟩ := fillStep_cases moves
  obtain ⟨behind, was, becomes⟩ := OrderBook.queue_of_first? fillable.best
  refine ⟨sweptNext, ?_⟩
  rw [← leaving.leaves, book_afterFill, becomes, was, List.cons_append, MatchingEngine.leaves,
    if_pos ⟨fillable.wants, fillable.admitsMaker leaving.swept⟩, ← fillQty_eq_min]
  simp only [afterFill]
  by_cases usedUp : maker.order.qty - fillQty sweep.taker maker.order = 0
  · rw [queueAfterFill, if_pos usedUp, queueAfterFill, if_pos usedUp]
  · -- a maker that is not used up has filled the taker
    have sated : ¬ 0 < sweep.taker.qty - fillQty sweep.taker maker.order :=
      fun wants => usedUp (usedUp_of_wants wants)
    rw [leaves_of_sated sated, leaves_of_sated sated, queueAfterFill, if_neg usedUp,
      queueAfterFill, if_neg usedUp, List.cons_append]

theorem leaves_of_stopped {sweep : Sweep} (swept : Swept engine.book incoming sweep)
    (stopped : fillStep host incoming.side batchId sweep = none) :
    leaves (admitsMaker incoming) sweep.taker.qty
        (sweep.engine.book.queue incoming.side.opposite) =
      sweep.engine.book.queue incoming.side.opposite := by
  rcases swept.ended stopped with filled | none | ⟨price, queue, best, beyond⟩
  · exact leaves_of_sated (by omega) _
  · have empty : (sweep.engine.book.levels incoming.side.opposite).entries = [] :=
      List.head?_eq_none_iff.mp none
    rw [OrderBook.queue, empty]
    rfl
  · obtain ⟨_, maker, rest, front⟩ := swept.sound.exists_front (by rw [best]; simp)
    rw [best] at front
    cases front
    obtain ⟨behind, queueEq, _⟩ := OrderBook.queue_of_first? best
    have atPrice := (swept.sound.placed _ _ maker (OrderBook.Sound.mem_level_of_first? best)).2
    rw [← atPrice] at beyond
    rw [queueEq, List.cons_append, leaves, if_neg (by simp [OrderBookSimulator.admitsMaker, beyond])]

variable (host) in
/-- The opposing queue after a sweep. -/
theorem queue_callSweep (sound : engine.book.Sound) (nonneg : 0 ≤ incoming.qty) :
    (engine.callSweep host incoming).engine.book.queue incoming.side.opposite =
      leaves (admitsMaker incoming) incoming.qty
        (engine.book.queue incoming.side.opposite) := by
  have settles := callSweep_settles host engine incoming
  have leaving := settles.invariant (Leaving (engine.opened incoming) incoming)
    (fun _ _ soFar moves => soFar.step moves)
    ⟨.start (engine.opened incoming) sound nonneg, by simp [startSweep]⟩
  rw [← leaves_of_stopped leaving.swept settles.stopped, leaving.leaves, book_opened]

end Sweep

/-! ## What a call does, refused or not -/

section Outcome

variable {host : Host} {engine after : MatchingEngine} {order : Order} {result : OrderResult}

/-- Without users, a well-formed order is refused only for want of a counterparty. -/
theorem illiquid_of_refused (alone : engine.userManager = none) (qtyPos : 0 < order.qty)
    (pricePos : order.type = .limit → 0 < order.price)
    (refused : (engine.preflightCheck host order).isOk = false) :
    order.type = .market ∧ (engine.book.levels order.side.opposite).first? = none := by
  have pass : ¬ (order.type = .limit ∧ order.price ≤ 0) := by
    rintro ⟨limit, nonpos⟩
    have positive := pricePos limit
    omega
  rw [preflightCheck, if_neg (by omega), if_neg pass] at refused
  split at refused
  · rename_i noAsks
    obtain ⟨market, buys, none⟩ := noAsks
    rw [buys]
    exact ⟨market, Option.map_eq_none_iff.mp none⟩
  · split at refused
    · rename_i noBids
      obtain ⟨market, sells, none⟩ := noBids
      rw [sells]
      exact ⟨market, Option.map_eq_none_iff.mp none⟩
    · rw [alone] at refused
      cases refused

/-- Everything an order does that can be seen in the book and in its answer. -/
structure Outcome (engine : MatchingEngine) (order : Order) (after : MatchingEngine)
    (result : OrderResult) : Prop where
  sound : after.book.Sound
  alone : after.userManager = none
  trades : result.trades.map Trade.unstamped =
    (takes order.qty (engine.book.opposing order)).map (engine.tradeWith order)
  queue : after.book.queue order.side.opposite =
    leaves (admitsMaker order) order.qty (engine.book.queue order.side.opposite)
  filled : result.filledQty = tally (fun _ : Trade => True) (·.qty) result.trades
  own : engine.book.index.find? order.id = none → ∀ price,
    after.book.levelQty order.side price = engine.book.levelQty order.side price +
      if order.type = .limit ∧ order.price = price then order.qty - result.filledQty else 0
  index : ∀ other, other ≠ order.id →
    after.book.index.find? other = engine.book.index.find? other

/-- Resting an order adds it to its own side and to the index, under its own id. -/
theorem levels_addRestingOrder_opposite (book : OrderBook) (order : Order) :
    (book.addRestingOrder order).levels order.side.opposite =
      book.levels order.side.opposite := by
  unfold OrderBook.addRestingOrder
  split
  · rfl
  · split
    · rfl
    · rw [OrderBook.levels_notifyChange, OrderBook.levels_withIndex,
        OrderBook.levels_setLevels_opposite]

theorem find?_addRestingOrder (book : OrderBook) (order : Order) {other : Int}
    (different : other ≠ order.id) :
    (book.addRestingOrder order).index.find? other = book.index.find? other := by
  unfold OrderBook.addRestingOrder
  split
  · rfl
  · split
    · rfl
    · exact (SortedMap.find?_insert _ _ _ _).trans (if_neg different)

/-- The order's own side once its remainder, if any, has been rested. -/
theorem levelQty_addRestingOrder {book : OrderBook} {order : Order} (nonneg : 0 ≤ order.qty)
    (new : book.index.find? order.id = none) (price : Int) :
    (book.addRestingOrder order).levelQty order.side price =
      book.levelQty order.side price + if order.price = price then order.qty else 0 := by
  by_cases positive : 0 < order.qty
  · rw [OrderBook.levelQty, OrderBook.level_addRestingOrder positive new, OrderBook.levelQty]
    by_cases here : price = order.price
    · rw [if_pos ⟨rfl, here⟩, if_pos here.symm, List.map_append, List.sum_append]
      simp
    · rw [if_neg fun both => here both.2, if_neg (Ne.symm here), Int.add_zero]
  · have none : order.qty = 0 := by omega
    rw [OrderBook.addRestingOrder_of_nonpos (by omega), none]
    simp

theorem levels_announcedBook (sweep : Sweep) (side : Side) :
    (announcedBook sweep).levels side = sweep.engine.book.levels side := by
  unfold announcedBook
  split
  · rfl
  · exact OrderBook.levels_notifyChange _ _

/-- Only a limit order's remainder is rested. -/
theorem book_restRemainder_eq (sweep : Sweep) :
    (restRemainder host sweep).book =
      if sweep.taker.type = .limit then (announcedBook sweep).addRestingOrder sweep.taker
      else announcedBook sweep := by
  rw [book_restRemainder]
  by_cases limit : sweep.taker.type = .limit
  · by_cases positive : 0 < sweep.taker.qty
    · rw [if_pos ⟨limit, positive⟩, if_pos limit]
    · rw [if_neg fun both => positive both.2, if_pos limit,
        OrderBook.addRestingOrder_of_nonpos (by omega)]
  · rw [if_neg fun both => limit both.1, if_neg limit]

variable (host) in
theorem outcome_of_refused (sound : engine.book.Sound) (alone : engine.userManager = none)
    (qtyPos : 0 < order.qty) (pricePos : order.type = .limit → 0 < order.price)
    (refused : (engine.preflightCheck host order).isOk = false) :
    Outcome engine order (engine.processOrder host order).1
      (engine.processOrder host order).2 := by
  obtain ⟨market, none⟩ := illiquid_of_refused alone qtyPos pricePos refused
  have empty : engine.book.queue order.side.opposite = [] := by
    rw [OrderBook.queue, List.head?_eq_none_iff.mp none]
    rfl
  obtain ⟨status, _, answered⟩ := processOrder_of_refused host engine order refused
  rw [answered]
  refine ⟨by simpa using sound, by simp [alone], ?_, ?_, rfl, ?_, by simp⟩
  · rw [OrderBook.opposing, empty]
    rfl
  · simp only [book_emitOrderEvent, book_opened, empty]
    rfl
  · intro _ price
    rw [if_neg (by simp [market]), Int.add_zero]
    simp

variable (host) in
theorem outcome_of_accepted (sound : engine.book.Sound) (alone : engine.userManager = none)
    (qtyPos : 0 < order.qty) (ok : (engine.preflightCheck host order).isOk = true) :
    Outcome engine order (engine.processOrder host order).1
      (engine.processOrder host order).2 := by
  have nonneg := Int.le_of_lt qtyPos
  have swept := swept_callSweep host sound nonneg
  have answer : exec host engine (.processOrder order) = .ok _ := rfl
  have aloneAfter := (answered_of_exec sound answer).noUsers alone
  have soundAfter := sound_processOrder host sound order
  have leftNonneg := swept.left_nonneg
  have side : (engine.callSweep host order).taker.side = order.side := by rw [swept.taker]
  have id : (engine.callSweep host order).taker.id = order.id := by rw [swept.taker]
  have price : (engine.callSweep host order).taker.price = order.price := by rw [swept.taker]
  have type : (engine.callSweep host order).taker.type = order.type := by rw [swept.taker]
  rw [processOrder_of_accepted host engine order ok] at aloneAfter soundAfter ⊢
  refine ⟨soundAfter, aloneAfter, ?_, ?_, ?_, ?_, ?_⟩
  · rw [unstamped_report, trades_callSweep host sound nonneg, List.map_map]
    exact List.map_congr_left fun taken _ => by
      simp [Trade.unstamped, tradeWith, makerUser, alone]
  · rw [← queue_callSweep host sound nonneg, book_concluded, book_restRemainder_eq,
      OrderBook.queue, OrderBook.queue]
    split
    · rw [← side, levels_addRestingOrder_opposite, levels_announcedBook]
    · rw [levels_announcedBook]
  · have sum := swept.filled
    rw [← tally_of_unstamped (fun _ => ⟨.rfl, rfl⟩) (unstamped_report host order _)] at sum
    exact sum.symm
  · intro new levelPrice
    have own := ownLevels_callSweep host engine order
    have newAfter : (announcedBook (engine.callSweep host order)).index.find?
        (engine.callSweep host order).taker.id = none := by
      rw [swept.announced.2, id, new]
    have ownQty : (announcedBook (engine.callSweep host order)).levelQty order.side levelPrice =
        engine.book.levelQty order.side levelPrice := by
      rw [OrderBook.levelQty, OrderBook.levelQty, OrderBook.level, OrderBook.level,
        levels_announcedBook, own]
    rw [book_concluded, book_restRemainder_eq, type]
    by_cases limit : order.type = .limit
    · have rested := levelQty_addRestingOrder leftNonneg newAfter levelPrice
      rw [side, price, ownQty] at rested
      rw [if_pos limit, rested]
      simp [limit, report]
    · rw [if_neg limit, if_neg fun both => limit both.1, ownQty, Int.add_zero]
  · intro other different
    rw [book_concluded, book_restRemainder_eq]
    split
    · rw [find?_addRestingOrder _ _ (by rwa [id]), swept.announced.2]
    · rw [swept.announced.2]

variable (host) in
/-- An order on an engine without users does what its quantity takes along the queue. -/
theorem outcome_of_processOrder (sound : engine.book.Sound) (alone : engine.userManager = none)
    (qtyPos : 0 < order.qty) (pricePos : order.type = .limit → 0 < order.price) :
    Outcome engine order (engine.processOrder host order).1
      (engine.processOrder host order).2 := by
  cases ok : (engine.preflightCheck host order).isOk with
  | true => exact outcome_of_accepted host sound alone qtyPos ok
  | false => exact outcome_of_refused host sound alone qtyPos pricePos ok

end Outcome

end MatchingEngine

end OrderBookSimulator
