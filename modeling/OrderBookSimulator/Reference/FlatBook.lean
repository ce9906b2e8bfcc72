import Mathlib.Data.List.Dedup
import Mathlib.Data.List.Sort
import OrderBookSimulator.Library.Settle
import OrderBookSimulator.Types

/-!
# Price-time priority on a flat list

What an order book is for, stated without one.  The resting orders are one list
in order of arrival.  An incoming order trades with the best-priced opposing
order it admits, the earliest among equals, until it is filled or none is left.
-/

namespace OrderBookSimulator.Reference

open Library

/-- On one side the first price is at least as good as the second. -/
def NotWorse : Side → Int → Int → Prop
  | .buy, first, second => second ≤ first
  | .sell, first, second => first ≤ second

instance (side : Side) : DecidableRel (NotWorse side) := by
  intro first second
  cases side
  · exact inferInstanceAs (Decidable (second ≤ first))
  · exact inferInstanceAs (Decidable (first ≤ second))

instance (side : Side) : Std.Total (NotWorse side) where
  total first second := by cases side <;> simp only [NotWorse] <;> omega

instance (side : Side) : IsTrans Int (NotWorse side) where
  trans first second third := by cases side <;> simp only [NotWorse] <;> omega

/-- A market order admits every price, a limit order those its limit allows. -/
def Admits (incoming : Order) (price : Int) : Prop :=
  incoming.type = .market ∨ NotWorse incoming.side.opposite price incoming.price

instance (incoming : Order) (price : Int) : Decidable (Admits incoming price) :=
  inferInstanceAs (Decidable (_ ∨ _))

/-- The resting order is on the other side at a price the incoming order admits. -/
def Opposes (incoming order : Order) : Prop :=
  order.side = incoming.side.opposite ∧ Admits incoming order.price

instance (incoming order : Order) : Decidable (Opposes incoming order) :=
  inferInstanceAs (Decidable (_ ∧ _))

/-- The earliest opposing order that no opposing order beats in price. -/
def best? (incoming : Order) (orders : List Order) : Option Order :=
  orders.find? fun order => Opposes incoming order ∧
    ∀ other ∈ orders, Opposes incoming other → NotWorse order.side order.price other.price

/-- Take a quantity from the order with an id, and the order away once nothing is left. -/
def reduce (orderId qty : Int) (orders : List Order) : List Order :=
  orders.filterMap fun order =>
    if order.id = orderId then
      if order.qty - qty = 0 then none else some { order with qty := order.qty - qty }
    else some order

structure Fill where
  makerId : Int
  takerId : Int
  price : Int
  qty : Int
  deriving DecidableEq, Repr

/-- An incoming order on its way through the book. -/
structure Matching where
  orders : List Order
  taker : Order
  fills : List Fill
  deriving DecidableEq, Repr

/-- One trade of the incoming order, or `none` where it trades no more. -/
def trade (matching : Matching) : Option Matching :=
  if 0 < matching.taker.qty then
    (best? matching.taker matching.orders).map fun maker =>
      let qty := min matching.taker.qty maker.qty
      { orders := reduce maker.id qty matching.orders
        taker := { matching.taker with qty := matching.taker.qty - qty }
        fills := matching.fills ++ [⟨maker.id, matching.taker.id, maker.price, qty⟩] }
  else none

/-- What a caller is told. -/
inductive Outcome where
  | processed (status : OrderStatus) (filledQty remainingQty : Int) (fills : List Fill)
  | cancelled (ok : Bool)
  deriving DecidableEq, Repr

inductive Request where
  | process (order : Order)
  | cancel (orderId : Int)
  deriving DecidableEq, Repr

/-- All trades of an order that has been accepted. -/
def matchAll (orders : List Order) (incoming : Order) : Matching :=
  iterate trade (orders.length + 1) ⟨orders, incoming, []⟩

/-- A limit order's remainder arrives last; a market order's is dropped. -/
def settled (matching : Matching) : List Order :=
  if matching.taker.type = .limit ∧ 0 < matching.taker.qty then
    matching.orders ++ [matching.taker]
  else matching.orders

def outcome (incoming : Order) (matching : Matching) : Outcome :=
  let left := matching.taker.qty
  let filled := incoming.qty - left
  .processed (if filled = 0 then .new else if left = 0 then .filled else .partiallyFilled)
    filled left matching.fills

/-- Why an order is not accepted. -/
def refusal? (orders : List Order) (incoming : Order) : Option OrderStatus :=
  if incoming.qty ≤ 0 then some .rejected
  else if incoming.type = .limit ∧ incoming.price ≤ 0 then some .rejected
  else if incoming.type = .market ∧ ∀ order ∈ orders, order.side ≠ incoming.side.opposite then
    some .canceled
  else none

/-- Answer one request. -/
def answer (orders : List Order) : Request → List Order × Outcome
  | .process incoming =>
      match refusal? orders incoming with
      | some status => (orders, .processed status 0 0 [])
      | none =>
          (settled (matchAll orders incoming), outcome incoming (matchAll orders incoming))
  | .cancel orderId =>
      if ∃ order ∈ orders, order.id = orderId then
        (orders.filter (·.id ≠ orderId), .cancelled true)
      else (orders, .cancelled false)

/-- The reference as a called machine, which never fails. -/
def exec (orders : List Order) (request : Request) : Except Empty (List Order × Outcome) :=
  .ok (answer orders request)

/-- The orders of one side at one price, in order of arrival. -/
def level (orders : List Order) (side : Side) (price : Int) : List Order :=
  orders.filter fun order => order.side = side ∧ order.price = price

/-- The prices of one side, best first. -/
def prices (orders : List Order) (side : Side) : List Int :=
  ((orders.filter (·.side = side)).map (·.price)).dedup.insertionSort (NotWorse side)

/-- The orders of one side grouped by price. -/
def levels (orders : List Order) (side : Side) : List (Int × List Order) :=
  (prices orders side).map fun price => (price, level orders side price)

/-! ## Matching comes to rest -/

theorem length_reduce_of_mem {orders : List Order} {maker : Order} (member : maker ∈ orders)
    (qty : Int) (usedUp : maker.qty - qty = 0) :
    (reduce maker.id qty orders).length < orders.length := by
  refine List.length_filterMap_lt_length_iff_exists.mpr ⟨maker, member, ?_⟩
  simp [usedUp]

/-- Each trade removes its maker or fills the taker. -/
theorem matchAll_settles (orders : List Order) (incoming : Order) :
    Settles trade ⟨orders, incoming, []⟩ (matchAll orders incoming) := by
  refine Settles.of_measure
    (fun matching => matching.orders.length + if 0 < matching.taker.qty then 1 else 0) ?_ ?_
  · intro matching next moves
    unfold trade at moves
    split at moves
    · rename_i wants
      obtain ⟨maker, best, rfl⟩ := Option.map_eq_some_iff.mp moves
      have member := List.mem_of_find?_eq_some best
      simp only [if_pos wants]
      rcases le_total matching.taker.qty maker.qty with less | more
      · have length : (reduce maker.id (min matching.taker.qty maker.qty) matching.orders).length ≤
            matching.orders.length := List.length_filterMap_le _ _
        rw [min_eq_left less] at length ⊢
        simp
        omega
      · rw [min_eq_right more]
        have shorter := length_reduce_of_mem member maker.qty (by omega)
        split <;> omega
    · cases moves
  · dsimp only
    split <;> omega

/-! ## What the level queues see -/

section Levels

variable (orders : List Order) (side : Side) (price : Int)

theorem mem_level {order : Order} :
    order ∈ level orders side price ↔
      order ∈ orders ∧ order.side = side ∧ order.price = price := by
  simp [level]

/-- Taking from one order happens within its level. -/
theorem level_reduce (orderId qty : Int) :
    level (reduce orderId qty orders) side price = reduce orderId qty (level orders side price) := by
  unfold level reduce
  rw [List.filter_filterMap, List.filterMap_filter]
  congr 1
  funext order
  by_cases own : order.id = orderId <;> by_cases usedUp : order.qty - qty = 0 <;>
    by_cases here : order.side = side ∧ order.price = price <;>
      simp [own, usedUp, here, Option.filter]

theorem level_cancel (orderId : Int) :
    level (orders.filter (·.id ≠ orderId)) side price =
      (level orders side price).filter (·.id ≠ orderId) := by
  unfold level
  rw [List.filter_filter, List.filter_filter]
  congr 1
  funext order
  exact Bool.and_comm _ _

theorem level_append (order : Order) :
    level (orders ++ [order]) side price =
      level orders side price ++
        if order.side = side ∧ order.price = price then [order] else [] := by
  unfold level
  rw [List.filter_append]
  by_cases here : order.side = side ∧ order.price = price <;> simp [here]

/-- An order elsewhere is not touched. -/
theorem reduce_of_absent {orders : List Order} {orderId : Int}
    (absent : ∀ order ∈ orders, order.id ≠ orderId) (qty : Int) :
    reduce orderId qty orders = orders := by
  unfold reduce
  refine (List.filterMap_congr fun order member => ?_).trans List.filterMap_some
  exact if_neg (absent order member)

theorem mem_prices {price : Int} :
    price ∈ prices orders side ↔ level orders side price ≠ [] := by
  rw [prices, List.mem_insertionSort, List.mem_dedup]
  simp only [List.mem_map, List.mem_filter, decide_eq_true_eq]
  constructor
  · rintro ⟨order, ⟨member, here⟩, rfl⟩
    exact List.ne_nil_of_mem ((mem_level orders side order.price).mpr ⟨member, here, rfl⟩)
  · intro nonempty
    obtain ⟨order, atLevel⟩ := List.exists_mem_of_ne_nil _ nonempty
    obtain ⟨member, here, rfl⟩ := (mem_level orders side price).mp atLevel
    exact ⟨order, ⟨member, here⟩, rfl⟩

end Levels

end OrderBookSimulator.Reference
