import OrderBookSimulator.Types

/-!
# The order book

`book/order_book.hpp` and `book/order_book.cpp`.  A list iterator is the
address of a list node; addresses are never reused, so following an iterator
whose node was erased is visible as a fault instead of reaching another order.
-/

namespace OrderBookSimulator

open Library

/-- The undefined behaviour the book can run into. -/
inductive Fault where
  /-- A list iterator was followed after its node had been erased. -/
  | erasedNode
  deriving DecidableEq, Repr

/-- An element of a `std::list<Order>`. -/
structure Node where
  address : Nat
  order : Order
  deriving DecidableEq, Repr

abbrev OrderList := List Node

/-- Where a resting order lives, as `index_` records it. -/
structure Locator where
  side : Side
  price : Int
  it : Nat
  deriving DecidableEq, Repr

/-- The key order of `bids_` (`std::greater`) and of `asks_`. -/
def Ahead : Side → Int → Int → Prop
  | .buy, first, second => first > second
  | .sell, first, second => first < second

instance (side : Side) : DecidableRel (Ahead side) := by
  intro first second
  cases side
  · exact inferInstanceAs (Decidable (first > second))
  · exact inferInstanceAs (Decidable (first < second))

instance (side : Side) : IsStrictTotalOrder Int (Ahead side) where
  irrefl price := by cases side <;> simp [Ahead]
  trans first second third := by cases side <;> simp only [Ahead] <;> omega
  trichotomous first second := by cases side <;> simp only [Ahead] <;> omega

/-- The price levels of one side, best price first. -/
abbrev Levels (side : Side) := SortedMap (Ahead side) OrderList

/-- The book as a change callback can read it. -/
structure Snapshot where
  bids : Levels .buy
  asks : Levels .sell
  deriving DecidableEq

structure OrderBook where
  bids : Levels .buy := .empty
  asks : Levels .sell := .empty
  index : IntMap Locator := .empty
  /-- The address the next list node will have. -/
  nextAddress : Nat := 0
  /-- The book each time the callback ran, or `none` while no callback is set. -/
  onChange : Option (List Snapshot) := none
  deriving DecidableEq

namespace OrderBook

def levels (book : OrderBook) : (side : Side) → Levels side
  | .buy => book.bids
  | .sell => book.asks

def setLevels (book : OrderBook) : (side : Side) → Levels side → OrderBook
  | .buy, bids => { book with bids }
  | .sell, asks => { book with asks }

def snapshot (book : OrderBook) : Snapshot := ⟨book.bids, book.asks⟩

/-- Set a callback, which has not run yet. -/
def setOnChange (book : OrderBook) : OrderBook := { book with onChange := some [] }

def notifyChange (book : OrderBook) : OrderBook :=
  { book with onChange := book.onChange.map (· ++ [book.snapshot]) }

/-- Both branches of the source differ only in the map they push to. -/
def addRestingOrder (book : OrderBook) (order : Order) : OrderBook :=
  if order.qty ≤ 0 then book
  else if (book.index.find? order.id).isSome then book
  else
    let node : Node := ⟨book.nextAddress, order⟩
    let pushed := book.setLevels order.side
      ((book.levels order.side).upsert order.price [] (· ++ [node]))
    notifyChange { pushed with
      nextAddress := book.nextAddress + 1
      index := book.index.insert order.id ⟨order.side, order.price, node.address⟩ }

/-- `list::erase` through an iterator. -/
def eraseNode (it : Nat) : OrderList → Except Fault OrderList
  | [] => .error .erasedNode
  | node :: rest =>
      if node.address = it then .ok rest
      else do
        let rest ← eraseNode it rest
        pure (node :: rest)

def cancelOrder (book : OrderBook) (orderId : Int) : Except Fault (OrderBook × Bool) :=
  match book.index.find? orderId with
  | none => .ok (book, false)
  | some loc => do
      let levels := book.levels loc.side
      let levels ←
        match levels.find? loc.price with
        | none => pure levels
        | some level => do
            let level ← eraseNode loc.it level
            pure (if level = [] then levels.erase loc.price else levels.insert loc.price level)
      let erased := book.setLevels loc.side levels
      pure (notifyChange { erased with index := book.index.erase orderId }, true)

/-- Every queued node, bids before asks, in iteration order. -/
def nodes (book : OrderBook) : OrderList :=
  book.bids.entries.flatMap (·.2) ++ book.asks.entries.flatMap (·.2)

def findOrder (book : OrderBook) (orderId : Int) : Except Fault (Option Order) :=
  match book.index.find? orderId with
  | none => .ok none
  | some loc =>
      -- `*(it->second.it)`
      match book.nodes.find? (·.address = loc.it) with
      | none => .error .erasedNode
      | some node => .ok (some node.order)

def bestPrice (book : OrderBook) (side : Side) : Option Int :=
  (book.levels side).first?.map (·.1)

def bestBid (book : OrderBook) : Option Int := book.bestPrice .buy

def bestAsk (book : OrderBook) : Option Int := book.bestPrice .sell

/-- `best_bid_queue` and `best_ask_queue`. -/
def bestQueue (book : OrderBook) (side : Side) : Option OrderList :=
  (book.levels side).first?.map (·.2)

/-- Write through the pointer that `bestQueue` returned. -/
def setBestQueue (book : OrderBook) (side : Side) (queue : OrderList) : OrderBook :=
  match book.bestPrice side with
  | none => book
  | some price => book.setLevels side ((book.levels side).insert price queue)

/-- `cleanup_best_bid_level_if_empty` and `cleanup_best_ask_level_if_empty`. -/
def cleanupBestLevelIfEmpty (book : OrderBook) (side : Side) : OrderBook :=
  match (book.levels side).first? with
  | none => book
  | some (price, queue) =>
      if queue = [] then book.setLevels side ((book.levels side).erase price) else book

/-- `bid_depth` and `ask_depth`. -/
def depth (book : OrderBook) (side : Side) : Int :=
  ((book.levels side).entries.map fun level => (level.2.map (·.order.qty)).sum).sum

end OrderBook

end OrderBookSimulator
