import OrderBookSimulator.Book.OrderBook
import OrderBookSimulator.Library.Shares

/-!
# Seeding the book

`sim/seed_book.hpp` and `sim/seed_book.cpp`.  What the generators draw for a
level is a record whose fields keep to the declared ranges; the real skew is
any rational of its range.  Every division is checked.
-/

namespace OrderBookSimulator

open Library

inductive SeedFault where
  | divisionByZero
  deriving DecidableEq, Repr

/-- What is drawn for one level of one side. -/
structure LevelDraws where
  /-- The first draw from `fat_tail_dist`. -/
  fatTail : Int
  /-- The second one, which decides about a chunky level. -/
  chunky : Int
  priceJitter : Int
  orderCount : Nat
  /-- `skew_dist`, by how many orders of the level are left. -/
  skew : Nat → ℚ
  fatTail_range : 1 ≤ fatTail ∧ fatTail ≤ 100
  chunky_range : 1 ≤ chunky ∧ chunky ≤ 100
  priceJitter_range : 0 ≤ priceJitter ∧ priceJitter ≤ 1
  orderCount_range : 1 ≤ orderCount ∧ orderCount ≤ 6
  skew_range : ∀ left, 7 / 10 ≤ skew left ∧ skew left ≤ 13 / 10

abbrev Draws := Side → Nat → LevelDraws

def LevelDraws.weight (draws : LevelDraws) : Int :=
  if 85 < draws.chunky then draws.fatTail * 3 else draws.fatTail

/-- The variables that `seed_book` works on. -/
structure Seeding where
  book : OrderBook
  nextId : Int := 1
  /-- What has been passed to `add_resting_order`, in order. -/
  added : List Order := []

namespace Seeding

def add (seeding : Seeding) (side : Side) (price qty : Int) : Seeding :=
  let order : Order := { id := seeding.nextId, side, price, qty, type := .limit }
  { book := seeding.book.addRestingOrder order
    nextId := seeding.nextId + 1
    added := seeding.added ++ [order] }

end Seeding

namespace SeedBook

def quotient (dividend divisor : Int) : Except SeedFault Int :=
  if divisor = 0 then .error .divisionByZero else .ok (dividend.tdiv divisor)

def ratio (dividend : ℚ) (divisor : Nat) : Except SeedFault ℚ :=
  if divisor = 0 then .error .divisionByZero else .ok (dividend / divisor)

/-- The last order takes what remains, the others an uneven share of it. -/
def slice (skew : ℚ) (remaining : Int) (left : Nat) : Except SeedFault Int :=
  if left = 1 then .ok remaining
  else do
    let part ← ratio (remaining * skew) left
    pure (max 1 (truncate part))

/-- The loop over the orders of a level, of which `left` are still to come. -/
def seedOrders (side : Side) (price : Int) (skew : Nat → ℚ) :
    Nat → Int → Seeding → Except SeedFault Seeding
  | 0, _, seeding => .ok seeding
  | left + 1, remaining, seeding =>
      if remaining ≤ 0 then .ok seeding
      else do
        let slice ← slice (skew (left + 1)) remaining (left + 1)
        seedOrders side price skew left (remaining - slice) (seeding.add side price slice)

def weights (levels : Nat) (draws : Nat → LevelDraws) : List Int :=
  (List.range levels).map fun level => (draws level).weight

/-- `dir`, the way the levels of a side go. -/
def direction : Side → Int
  | .buy => -1
  | .sell => 1

def seedLevel (side : Side) (startPrice targetDepth weightSum : Int) (draws : Nat → LevelDraws)
    (seeding : Seeding) (level : Nat) : Except SeedFault Seeding := do
  let basePrice := castInt (startPrice + castInt (direction side * level))
  let price := castInt (basePrice + (draws level).priceJitter)
  let levelQty ← quotient (targetDepth * (draws level).weight) weightSum
  if levelQty ≤ 0 then pure seeding
  else seedOrders side price (draws level).skew (draws level).orderCount levelQty seeding

def seedSide (side : Side) (startPrice : Int) (levels : Nat) (targetDepth : Int)
    (draws : Nat → LevelDraws) (seeding : Seeding) : Except SeedFault Seeding :=
  (List.range levels).foldlM
    (seedLevel side startPrice targetDepth (weights levels draws).sum draws) seeding

end SeedBook

/-- Bids downwards from below the mid, asks upwards from above it. -/
def seedBook (book : OrderBook) (midPrice spread : Int) (levels : Nat) (targetDepth : Int)
    (draws : Draws) : Except SeedFault Seeding := do
  let bestBid := castInt (midPrice - spread.tdiv 2)
  let bestAsk := castInt (midPrice + spread.tdiv 2)
  let bids ← SeedBook.seedSide .buy bestBid levels targetDepth (draws .buy) { book }
  SeedBook.seedSide .sell bestAsk levels targetDepth (draws .sell) bids

/-! ## What a loop has added -/

namespace Seeding

/-- The orders that were added one by one, under the next ids. -/
structure Adds (before : Seeding) (chunk : List Order) (after : Seeding) : Prop where
  book : after.book = chunk.foldl OrderBook.addRestingOrder before.book
  added : after.added = before.added ++ chunk
  nextId : after.nextId = before.nextId + chunk.length
  ids : chunk.map (·.id) = (List.range chunk.length).map fun index : Nat => before.nextId + index

theorem Adds.refl (seeding : Seeding) : seeding.Adds [] seeding where
  book := rfl
  added := by simp
  nextId := by simp
  ids := rfl

theorem adds_add (seeding : Seeding) (side : Side) (price qty : Int) :
    seeding.Adds [{ id := seeding.nextId, side, price, qty, type := .limit }]
      (seeding.add side price qty) where
  book := rfl
  added := rfl
  nextId := rfl
  ids := by simp

theorem Adds.trans {first middle last : Seeding} {chunk chunk' : List Order}
    (before : first.Adds chunk middle) (after : middle.Adds chunk' last) :
    first.Adds (chunk ++ chunk') last where
  book := by rw [after.book, before.book, List.foldl_append]
  added := by rw [after.added, before.added, List.append_assoc]
  nextId := by
    rw [after.nextId, before.nextId, List.length_append]
    push_cast
    omega
  ids := by
    have shifted : ((List.range chunk'.length).map fun index : Nat => middle.nextId + index) =
        (List.range chunk'.length).map fun index : Nat =>
          first.nextId + ((chunk.length + index : Nat) : Int) := by
      refine List.map_congr_left fun index _ => ?_
      rw [before.nextId]
      push_cast
      omega
    rw [List.map_append, before.ids, after.ids, shifted, List.length_append, List.range_add,
      List.map_append, List.map_map]
    rfl

end Seeding

end OrderBookSimulator
