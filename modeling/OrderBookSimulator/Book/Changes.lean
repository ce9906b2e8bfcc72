import OrderBookSimulator.Book.Sound
import OrderBookSimulator.Library.Tally

/-!
# Changes of the resting orders

Seen as a bag, the resting orders change in three ways only: a fill shrinks or
removes its maker, a remainder is added, a cancel removes an order.  For sound
books this module says what adding and cancelling do, and how the resting
quantity of an id is read off the bag.
-/

namespace OrderBookSimulator

open Library

/-- The resting quantity of an id. -/
def OrderBook.restingQty (book : OrderBook) (orderId : Int) : Int :=
  tally (fun order : Order => order.id = orderId) (·.qty) book.resting

/-- What remains resting of an order filled for `qty`. -/
def leftOver (qty : Int) (maker : Order) : List Order :=
  if maker.qty - qty = 0 then [] else [{ maker with qty := maker.qty - qty }]

theorem eq_of_mem_leftOver {qty : Int} {maker order : Order} (member : order ∈ leftOver qty maker) :
    order = { maker with qty := maker.qty - qty } := by
  unfold leftOver at member
  split at member
  · cases member
  · exact List.mem_singleton.mp member

/-- A tally over what is left of a partly filled order. -/
theorem tally_leftOver {select : Order → Prop} [DecidablePred select] {weight : Order → Int}
    {maker : Order} {qty : Int} (blind : ∀ left, select { maker with qty := left } ↔ select maker)
    (zero : weight { maker with qty := 0 } = 0) :
    tally select weight (leftOver qty maker) =
      if select maker then weight { maker with qty := maker.qty - qty } else 0 := by
  unfold leftOver
  by_cases usedUp : maker.qty - qty = 0
  · rw [if_pos usedUp, tally_nil, usedUp, zero, ite_self]
  · rw [if_neg usedUp, tally_cons, tally_nil, add_zero]
    simp only [blind]

namespace OrderBook

theorem restingQty_of_not_resting {book : OrderBook} {orderId : Int}
    (notResting : ¬ book.Resting orderId) : book.restingQty orderId = 0 :=
  tally_eq_zero fun order member same => notResting ⟨order, member, same⟩

theorem Sound.restingQty_pos {book : OrderBook} (sound : book.Sound) {orderId : Int}
    (resting : book.Resting orderId) : 0 < book.restingQty orderId := by
  obtain ⟨order, member, same⟩ := resting
  apply tally_pos _ member same
  intro other otherMember _
  obtain ⟨node, queued, rfl⟩ := List.mem_map.mp otherMember
  exact sound.positive node queued

/-- With distinct ids, the resting quantity of an id is that of the one order that has it. -/
theorem Sound.restingQty_of_mem {book : OrderBook} (sound : book.Sound) {order : Order}
    (member : order ∈ book.resting) : book.restingQty order.id = order.qty := by
  obtain ⟨lead, tail, restingEq⟩ := List.append_of_mem member
  have nodup := sound.resting_nodup
  rw [restingEq, List.map_append, List.map_cons, List.nodup_append] at nodup
  obtain ⟨_, tailNodup, apart⟩ := nodup
  have notLead : tally (fun other : Order => other.id = order.id) (·.qty) lead = 0 :=
    tally_eq_zero fun other inLead same =>
      apart other.id (List.mem_map_of_mem inLead) order.id (.head _) same
  have notTail : tally (fun other : Order => other.id = order.id) (·.qty) tail = 0 :=
    tally_eq_zero fun other inTail same =>
      (List.nodup_cons.mp tailNodup).1 (same ▸ List.mem_map_of_mem inTail)
  rw [restingQty, restingEq, tally_append, tally_cons, notLead, notTail, if_pos rfl]
  omega

theorem Sound.mem_level_of_first? {book : OrderBook} {side : Side} {price : Int}
    {maker : Node} {rest : OrderList}
    (best : (book.levels side).first? = some (price, maker :: rest)) :
    maker ∈ book.level side price := by
  rw [(level_of_first? best).1]
  exact .head _

/-! ## Adding -/

section Added

variable {book : OrderBook} {order : Order}

/-- A new order goes to the back of the queue at its price. -/
theorem level_addRestingOrder (positive : 0 < order.qty)
    (new : book.index.find? order.id = none) (side : Side) (price : Int) :
    (book.addRestingOrder order).level side price =
      if side = order.side ∧ price = order.price then
        book.level side price ++ [⟨book.nextAddress, order⟩]
      else book.level side price := by
  rw [addRestingOrder_of_new positive new, level_notifyChange, level_withIndex, level_setLevel]
  split
  · obtain ⟨rfl, rfl⟩ := ‹_ ∧ _›
    rfl
  · rfl

theorem resting_addRestingOrder (positive : 0 < order.qty)
    (new : book.index.find? order.id = none) :
    (book.addRestingOrder order).resting.Perm (order :: book.resting) := by
  obtain ⟨others, before, after⟩ := book.nodes_setLevel_perm order.side order.price
    (book.level order.side order.price ++ [⟨book.nextAddress, order⟩])
  rw [List.append_assoc] at after
  rw [addRestingOrder_of_new positive new, resting, resting, nodes_notifyChange, nodes_withIndex]
  exact (after.trans (List.perm_middle.trans (before.symm.cons _))).map _

theorem index_addRestingOrder (positive : 0 < order.qty)
    (new : book.index.find? order.id = none) :
    (book.addRestingOrder order).index =
      book.index.insert order.id ⟨order.side, order.price, book.nextAddress⟩ := by
  rw [addRestingOrder_of_new positive new]
  rfl

/-- Adding keeps a book sound whatever the order's id and quantity. -/
theorem Sound.afterAdd (sound : book.Sound) (order : Order) :
    (book.addRestingOrder order).Sound := by
  by_cases positive : 0 < order.qty
  · cases found : book.index.find? order.id with
    | none => exact sound.addRestingOrder positive found
    | some loc =>
        rw [addRestingOrder_of_known found]
        exact sound
  · rw [addRestingOrder_of_nonpos (by omega)]
    exact sound

end Added

/-! ## Cancelling -/

/-- The book after the queued order `order` has been cancelled. -/
def withdrawn (book : OrderBook) (order : Order) : OrderBook :=
  ((book.setLevel order.side order.price
    ((book.level order.side order.price).filter (·.order.id ≠ order.id))).forget
      order.id).notifyChange

section Withdrawn

@[simp] theorem index_withdrawn (book : OrderBook) (order : Order) :
    (book.withdrawn order).index = book.index.erase order.id := by
  simp [withdrawn]

variable {book : OrderBook} (sound : book.Sound) {node : Node} (queued : node ∈ book.nodes)

include sound queued

/-- Cancelling takes one node out of its level, and nothing else there has its id. -/
theorem Sound.split_filter :
    ∃ lead tail,
      book.level node.order.side node.order.price = lead ++ node :: tail ∧
      (book.level node.order.side node.order.price).filter (·.order.id ≠ node.order.id) =
        lead ++ tail ∧
      ∀ other ∈ lead ++ tail, other ∈ book.nodes ∧ other ≠ node := by
  obtain ⟨lead, tail, levelEq, others⟩ := sound.split_level queued
  refine ⟨lead, tail, levelEq, ?_, others⟩
  have kept : (lead ++ tail).filter (·.order.id ≠ node.order.id) = lead ++ tail := by
    refine List.filter_eq_self.mpr fun other member => ?_
    obtain ⟨otherQueued, different⟩ := others other member
    simpa using fun same => different (sound.eq_of_id_eq otherQueued queued same)
  rw [levelEq]
  simpa [List.filter_append] using kept

theorem Sound.cancelOrder_of_mem :
    book.cancelOrder node.order.id = .ok (book.withdrawn node.order, true) := by
  obtain ⟨lead, tail, levelEq, filterEq, others⟩ := sound.split_filter queued
  have notLead : ∀ earlier ∈ lead, earlier.address ≠ node.address := by
    intro earlier member same
    obtain ⟨earlierQueued, different⟩ := others earlier (List.mem_append_left _ member)
    exact different (sound.eq_of_address_eq earlierQueued queued same)
  rw [cancelOrder_of_located (sound.located_of_mem queued).1 levelEq notLead, withdrawn, filterEq]

theorem Sound.resting_withdrawn :
    book.resting.Perm (node.order :: (book.withdrawn node.order).resting) := by
  obtain ⟨lead, tail, levelEq, filterEq, _⟩ := sound.split_filter queued
  obtain ⟨others, before, after⟩ :=
    book.nodes_setLevel_perm node.order.side node.order.price (lead ++ tail)
  rw [levelEq] at before
  have around : (lead ++ node :: tail).Perm (node :: (lead ++ tail)) := List.perm_middle
  rw [withdrawn, filterEq, resting, resting, nodes_notifyChange, nodes_forget]
  exact (before.trans ((around.append_right others).trans (after.symm.cons node))).map _

theorem Sound.withdrawn : (book.withdrawn node.order).Sound := by
  obtain ⟨lead, tail, levelEq, filterEq, others⟩ := sound.split_filter queued
  rw [OrderBook.withdrawn, filterEq]
  refine Sound.notifyChange (Sound.forget (sound.remove levelEq) ?_)
  rintro ⟨order, member, same⟩
  have perm := sound.resting_withdrawn queued
  rw [OrderBook.withdrawn, filterEq] at perm
  have nodup := ((perm.map (·.id)).nodup_iff.mp sound.resting_nodup)
  exact (List.nodup_cons.mp nodup).1 (List.mem_map.mpr ⟨order, member, same⟩)

/-- Only the cancelled order leaves its level; the others keep their places. -/
theorem Sound.level_withdrawn (side : Side) (price : Int) :
    (book.withdrawn node.order).level side price =
      (book.level side price).filter (·.order.id ≠ node.order.id) := by
  rw [OrderBook.withdrawn, level_notifyChange, level_forget, level_setLevel]
  split
  · obtain ⟨rfl, rfl⟩ := ‹_ ∧ _›
    rfl
  · rename_i elsewhere
    symm
    refine List.filter_eq_self.mpr fun other atLevel => ?_
    have different : other.order.id ≠ node.order.id := by
      intro same
      have otherQueued := mem_nodes_iff.mpr ⟨side, price, atLevel⟩
      obtain rfl := sound.eq_of_id_eq otherQueued queued same
      obtain ⟨rfl, rfl⟩ := sound.placed side price other atLevel
      exact elsewhere ⟨rfl, rfl⟩
    simpa using different

/-- A cancel takes exactly the resting quantity of its own id. -/
theorem Sound.restingQty_withdrawn (orderId : Int) :
    (book.withdrawn node.order).restingQty orderId =
      book.restingQty orderId -
        if node.order.id = orderId then book.restingQty orderId else 0 := by
  have total : book.restingQty orderId =
      (if node.order.id = orderId then node.order.qty else 0) +
        (book.withdrawn node.order).restingQty orderId := by
    rw [restingQty, tally_perm (sound.resting_withdrawn queued), tally_cons]
    rfl
  have own := sound.restingQty_of_mem (List.mem_map_of_mem queued)
  split
  · rename_i same
    rw [if_pos same] at total
    rw [same] at own
    omega
  · rename_i different
    rw [if_neg different] at total
    omega

theorem Sound.resting_withdrawn_iff (orderId : Int) :
    (book.withdrawn node.order).Resting orderId ↔
      book.Resting orderId ∧ orderId ≠ node.order.id := by
  have perm := sound.resting_withdrawn queued
  have nodup := (perm.map (·.id)).nodup_iff.mp sound.resting_nodup
  have apart := (List.nodup_cons.mp nodup).1
  constructor
  · rintro ⟨order, member, rfl⟩
    refine ⟨⟨order, perm.mem_iff.mpr (.tail _ member), rfl⟩, fun same => apart ?_⟩
    exact List.mem_map.mpr ⟨order, member, same⟩
  · rintro ⟨⟨order, member, rfl⟩, different⟩
    rcases List.mem_cons.mp (perm.mem_iff.mp member) with rfl | other
    · exact absurd rfl different
    · exact ⟨order, other, rfl⟩

end Withdrawn

/-! ## Stale entries -/

@[simp] theorem stale_notifyChange (book : OrderBook) (orderId : Int) :
    book.notifyChange.Stale orderId ↔ book.Stale orderId := Iff.rfl

/-- Adding an order neither makes an entry stale nor repairs one. -/
theorem stale_addRestingOrder (book : OrderBook) (order : Order) (orderId : Int) :
    (book.addRestingOrder order).Stale orderId ↔ book.Stale orderId := by
  by_cases positive : 0 < order.qty
  · cases found : book.index.find? order.id with
    | some loc => rw [addRestingOrder_of_known found]
    | none =>
        have perm := resting_addRestingOrder positive found
        have restingIff : (book.addRestingOrder order).Resting orderId ↔
            order.id = orderId ∨ book.Resting orderId := by
          simp only [Resting, perm.mem_iff, List.mem_cons, exists_eq_or_imp]
        rw [Stale, Stale, restingIff, index_addRestingOrder positive found, SortedMap.find?_insert]
        by_cases same : orderId = order.id
        · simp [same, found]
        · simp [same, Ne.symm same]
  · rw [addRestingOrder_of_nonpos (by omega)]

/-- Cancelling a resting order takes its entry along. -/
theorem Sound.stale_withdrawn {book : OrderBook} (sound : book.Sound) {node : Node}
    (queued : node ∈ book.nodes) (orderId : Int) :
    (book.withdrawn node.order).Stale orderId ↔ book.Stale orderId := by
  rw [Stale, Stale, sound.resting_withdrawn_iff queued, index_withdrawn, SortedMap.find?_erase]
  by_cases same : orderId = node.order.id
  · have resting : book.Resting orderId := ⟨node.order, List.mem_map_of_mem queued, same.symm⟩
    simp [same, same ▸ resting]
  · simp [same]

end OrderBook

end OrderBookSimulator
