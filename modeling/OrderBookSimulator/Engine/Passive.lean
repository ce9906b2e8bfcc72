import OrderBookSimulator.Engine.Answer

/-!
# Orders that meet nobody

A limit order whose price admits no resting order of the other side trades
nothing.  If preflight lets it through, it joins the book, and that is all.
-/

namespace OrderBookSimulator

open Library

namespace OrderBook

/-- The order's limit admits no resting order of the other side. -/
def Behind (book : OrderBook) (order : Order) : Prop :=
  ∀ other ∈ book.resting, other.side = order.side.opposite →
    MatchingEngine.beyondLimit order.side other.price order.price = true

/-- Every queue starts with what it held before. -/
def Extends (before after : OrderBook) : Prop :=
  ∀ side price, before.level side price <+: after.level side price

theorem Extends.refl (book : OrderBook) : book.Extends book := fun _ _ => List.prefix_rfl

theorem Extends.trans {first middle last : OrderBook} (before : first.Extends middle)
    (after : middle.Extends last) : first.Extends last :=
  fun side price => (before side price).trans (after side price)

theorem Extends.mem_resting {before after : OrderBook} (kept : before.Extends after)
    {order : Order} (member : order ∈ before.resting) : order ∈ after.resting := by
  obtain ⟨node, queued, rfl⟩ := List.mem_map.mp member
  obtain ⟨side, price, atLevel⟩ := mem_nodes_iff.mp queued
  exact List.mem_map_of_mem (mem_nodes_iff.mpr ⟨side, price, (kept side price).subset atLevel⟩)

theorem extends_addRestingOrder (book : OrderBook) (order : Order) :
    book.Extends (book.addRestingOrder order) := by
  by_cases positive : 0 < order.qty
  · cases found : book.index.find? order.id with
    | none =>
        intro side price
        rw [level_addRestingOrder positive found]
        split
        · exact List.prefix_append _ _
        · exact List.prefix_rfl
    | some loc =>
        rw [addRestingOrder_of_known found]
        exact .refl book
  · rw [addRestingOrder_of_nonpos (by omega)]
    exact .refl book

/-- Whatever its id and its quantity, adding an order adds at most that order. -/
theorem mem_resting_addRestingOrder {book : OrderBook} {order other : Order}
    (member : other ∈ (book.addRestingOrder order).resting) :
    other = order ∨ other ∈ book.resting := by
  by_cases positive : 0 < order.qty
  · cases found : book.index.find? order.id with
    | none =>
        rw [(resting_addRestingOrder positive found).mem_iff] at member
        exact List.mem_cons.mp member
    | some loc =>
        rw [addRestingOrder_of_known found] at member
        exact Or.inr member
  · rw [addRestingOrder_of_nonpos (by omega)] at member
    exact Or.inr member

end OrderBook

namespace MatchingEngine

variable {host : Host} {engine : MatchingEngine} {order : Order}

/-- The sweep of an order that meets nobody stops before its first fill. -/
theorem callSweep_of_behind (sound : engine.book.Sound) (limit : order.type = .limit)
    (behind : engine.book.Behind order) :
    engine.callSweep host order =
      startSweep host (engine.opened order) engine.batchSeq order := by
  refine (callSweep_settles host engine order).eq_of_none ?_
  refine fillStep_of_not_fillable fun price maker rest fillable => fillable.admits ⟨limit, ?_⟩
  have book : (startSweep host (engine.opened order) engine.batchSeq order).engine.book =
      engine.book := by
    simp [startSweep]
  have startSound := book ▸ sound
  have member := fillable.mem_resting
  rw [book] at member
  rw [← fillable.maker_price startSound]
  exact behind maker.order member (fillable.maker_side startSound)

/-- An order that meets nobody trades nothing and, if it is accepted, joins the book. -/
theorem processOrder_of_behind (sound : engine.book.Sound) (limit : order.type = .limit)
    (behind : (engine.preflightCheck host order).isOk = true → engine.book.Behind order) :
    (engine.processOrder host order).2.trades = [] ∧
      (engine.processOrder host order).1.book =
        if (engine.preflightCheck host order).isOk = true then engine.book.addRestingOrder order
        else engine.book := by
  cases ok : (engine.preflightCheck host order).isOk with
  | false =>
      obtain ⟨status, _, answered⟩ := processOrder_of_refused host engine order ok
      rw [answered]
      simp
  | true =>
      have wants := (passed_of_isOk ok).qty_pos
      rw [processOrder_of_accepted host engine order ok,
        callSweep_of_behind sound limit (behind ok)]
      constructor
      · unfold report emitTrades
        simp only [startSweep]
        split
        · rfl
        · rfl
      · rw [book_concluded, book_restRemainder]
        simp [startSweep, announcedBook, limit, wants]

end MatchingEngine

end OrderBookSimulator
