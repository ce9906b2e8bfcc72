import Mathlib.Algebra.Order.Group.Int
import OrderBookSimulator.Engine.Announcements
import OrderBookSimulator.Properties.WellFormedBook
import OrderBookSimulator.Server.Messages

/-!
# What a snapshot shows

A client sees the book through two documents.  Of a well-formed book they show
non-empty levels, positive quantities and sides that do not cross, as long as
each level total is a `long long`.
-/

namespace OrderBookSimulator

open Library

/-! ## Books that can be shown -/

namespace Snapshot

/-- The quantity of each level adds up to a `long long`. -/
structure TotalsFit (snapshot : Snapshot) : Prop where
  bids : ∀ level ∈ snapshot.bids.entries, (level.2.map (·.order.qty)).sum ≤ longLongMax
  asks : ∀ level ∈ snapshot.asks.entries, (level.2.map (·.order.qty)).sum ≤ longLongMax

instance (snapshot : Snapshot) : Decidable snapshot.TotalsFit :=
  decidable_of_iff
    ((∀ level ∈ snapshot.bids.entries, (level.2.map (·.order.qty)).sum ≤ longLongMax) ∧
      ∀ level ∈ snapshot.asks.entries, (level.2.map (·.order.qty)).sum ≤ longLongMax)
    ⟨fun ⟨bids, asks⟩ => ⟨bids, asks⟩, fun ⟨bids, asks⟩ => ⟨bids, asks⟩⟩

theorem TotalsFit.side {snapshot : Snapshot} (fits : snapshot.TotalsFit) (side : Side) :
    ∀ level ∈ (snapshot.levels side).entries, (level.2.map (·.order.qty)).sum ≤ longLongMax := by
  cases side with
  | buy => exact fits.bids
  | sell => exact fits.asks

structure Showable (snapshot : Snapshot) : Prop where
  wellFormed : snapshot.WellFormed
  totalsFit : snapshot.TotalsFit
  apart : ∀ bid ∈ snapshot.orders, ∀ ask ∈ snapshot.orders, bid.side = .buy → ask.side = .sell →
    bid.price < ask.price

end Snapshot

namespace OrderBook

variable {book : OrderBook}

theorem totalsFit_iff :
    book.snapshot.TotalsFit ↔ ∀ side price, book.levelQty side price ≤ longLongMax := by
  constructor
  · intro fits side price
    cases found : (book.levels side).find? price with
    | none =>
        rw [levelQty, level, SortedMap.findD, found]
        decide
    | some queue =>
        rw [levelQty, level, SortedMap.findD, found]
        exact fits.side side (price, queue) (by
          rw [snapshot_levels]
          exact SortedMap.mem_entries_iff.mpr found)
  · intro fits
    have ofSide : ∀ side, ∀ level ∈ (book.levels side).entries,
        (level.2.map (·.order.qty)).sum ≤ longLongMax := by
      rintro side ⟨price, queue⟩ member
      rw [← level_of_mem_entries member]
      exact fits side price
    exact ⟨ofSide .buy, ofSide .sell⟩

theorem showable (sound : book.Sound) (uncrossed : book.Uncrossed)
    (fits : book.snapshot.TotalsFit) : book.snapshot.Showable :=
  ⟨wellFormed_snapshot sound uncrossed, fits, uncrossed⟩

end OrderBook

/-! ## Documents -/

/-- A level that shows orders, and what they add up to. -/
structure LevelLine.Proper (line : LevelLine) : Prop where
  nonempty : line.orders ≠ []
  positive : ∀ qty ∈ line.orders, 0 < qty
  total : line.qty = line.orders.sum
  qty_pos : 0 < line.qty

structure BookDocument.Proper (document : BookDocument) : Prop where
  bids : ∀ line ∈ document.bids, line.Proper
  asks : ∀ line ∈ document.asks, line.Proper
  uncrossed : ∀ bid ∈ document.bids.head?, ∀ ask ∈ document.asks.head?, bid.price < ask.price

structure OrdersProper (lines : List OrderLine) : Prop where
  positive : ∀ line ∈ lines, 0 < line.qty
  uncrossed : ∀ bid ∈ lines, ∀ ask ∈ lines, bid.side = .buy → ask.side = .sell →
    bid.price < ask.price

def Message.Proper : Message → Prop
  | .bookSnapshot document => document.Proper
  | .ordersUpdate lines => OrdersProper lines
  | .session _ _ | .trade _ | .answer _ _ => True

section Documents

variable {now : Nat → Int}

/-- Adding up positive quantities in a `long long` is exact up to its limit. -/
theorem foldl_qty {queue : OrderList} {soFar : Int} (positive : ∀ node ∈ queue, 0 < node.order.qty)
    (nonneg : 0 ≤ soFar) (fits : soFar + (queue.map (·.order.qty)).sum ≤ longLongMax) :
    queue.foldl (fun qty node => (Host.twosComplement now).longLong (qty + node.order.qty)) soFar =
      soFar + (queue.map (·.order.qty)).sum := by
  induction queue generalizing soFar with
  | nil => simp
  | cons node rest ih =>
      have nodePos := positive node (.head _)
      have restPos : ∀ other ∈ rest, 0 < other.order.qty := fun other member =>
        positive other (.tail _ member)
      have restNonneg : 0 ≤ (rest.map (·.order.qty)).sum := by
        refine List.sum_nonneg fun qty member => ?_
        obtain ⟨other, inRest, rfl⟩ := List.mem_map.mp member
        exact Int.le_of_lt (restPos other inRest)
      rw [List.map_cons, List.sum_cons] at fits ⊢
      have exact : (Host.twosComplement now).longLong (soFar + node.order.qty) =
          soFar + node.order.qty := bmod_of_fits ⟨by omega, by omega⟩
      rw [List.foldl_cons, exact, ih restPos (by omega) (by omega)]
      omega

variable {snapshot : Snapshot} (showable : snapshot.Showable)

include showable

theorem levelLine_proper (side : Side) {level : Int × OrderList}
    (member : level ∈ (snapshot.levels side).entries) :
    (levelLine (Host.twosComplement now) level).Proper := by
  have nonempty := showable.wellFormed.nonempty side level member
  have positive : ∀ node ∈ level.2, 0 < node.order.qty := by
    intro node inLevel
    refine showable.wellFormed.positive node.order (List.mem_map_of_mem ?_)
    cases side with
    | buy => exact List.mem_append_left _ (List.mem_flatMap.mpr ⟨level, member, inLevel⟩)
    | sell => exact List.mem_append_right _ (List.mem_flatMap.mpr ⟨level, member, inLevel⟩)
  have total : (levelLine (Host.twosComplement now) level).qty =
      (level.2.map (·.order.qty)).sum := by
    have fits := showable.totalsFit.side side level member
    rw [levelLine, foldl_qty positive (Int.le_refl 0) (by omega), Int.zero_add]
  refine ⟨?_, ?_, total, ?_⟩
  · simpa [levelLine] using nonempty
  · intro qty inOrders
    obtain ⟨node, inLevel, rfl⟩ := List.mem_map.mp inOrders
    exact positive node inLevel
  · rw [total]
    refine List.sum_pos _ (fun qty inOrders => ?_) (by simpa using nonempty)
    obtain ⟨node, inLevel, rfl⟩ := List.mem_map.mp inOrders
    exact positive node inLevel

theorem bookDocument_proper (depth : Nat) :
    (bookDocument (Host.twosComplement now) snapshot depth).Proper where
  bids := by
    intro line member
    obtain ⟨level, inLevels, rfl⟩ := List.mem_map.mp member
    exact levelLine_proper showable .buy (List.mem_of_mem_take inLevels)
  asks := by
    intro line member
    obtain ⟨level, inLevels, rfl⟩ := List.mem_map.mp member
    exact levelLine_proper showable .sell (List.mem_of_mem_take inLevels)
  uncrossed := by
    have first : ∀ {levels : List (Int × OrderList)} {line : LevelLine},
        line ∈ ((levels.take depth).map (levelLine (Host.twosComplement now))).head? →
          line.price ∈ levels.head?.map (·.1) := by
      intro levels line isHead
      cases levels with
      | nil => simp at isHead
      | cons level rest =>
          cases depth with
          | zero => simp at isHead
          | succ more =>
              simp only [List.take_succ_cons, List.map_cons, List.head?_cons,
                Option.mem_some] at isHead
              rw [← isHead]
              rfl
    intro bid isBid ask isAsk
    exact showable.wellFormed.uncrossed _ (first isBid) _ (first isAsk)

/-- Each line of the list of orders speaks of a resting order. -/
theorem order_of_mem_ordersDocument {line : OrderLine} (member : line ∈ ordersDocument snapshot) :
    ∃ order ∈ snapshot.orders, line =
      { id := order.id, userId := order.userId, side := order.side, price := order.price
        qty := order.qty } := by
  have spoken : ∀ side, ∀ level ∈ (snapshot.levels side).entries, line ∈ orderLines side level →
      ∃ node ∈ level.2, line = { id := node.order.id, userId := node.order.userId
                                 side := node.order.side, price := node.order.price
                                 qty := node.order.qty } := by
    intro side level inLevels inLines
    obtain ⟨node, inLevel, rfl⟩ := List.mem_map.mp inLines
    obtain ⟨sameSide, samePrice⟩ := showable.wellFormed.placed side level inLevels node inLevel
    exact ⟨node, inLevel, by rw [sameSide, samePrice]⟩
  rcases List.mem_append.mp member with bid | ask
  · obtain ⟨level, inLevels, inLines⟩ := List.mem_flatMap.mp bid
    obtain ⟨node, inLevel, same⟩ := spoken .buy level inLevels inLines
    exact ⟨node.order, List.mem_map_of_mem
      (List.mem_append_left _ (List.mem_flatMap.mpr ⟨level, inLevels, inLevel⟩)), same⟩
  · obtain ⟨level, inLevels, inLines⟩ := List.mem_flatMap.mp ask
    obtain ⟨node, inLevel, same⟩ := spoken .sell level inLevels inLines
    exact ⟨node.order, List.mem_map_of_mem
      (List.mem_append_right _ (List.mem_flatMap.mpr ⟨level, inLevels, inLevel⟩)), same⟩

theorem ordersDocument_proper : OrdersProper (ordersDocument snapshot) where
  positive := by
    intro line member
    obtain ⟨order, inOrders, rfl⟩ := order_of_mem_ordersDocument showable member
    exact showable.wellFormed.positive order inOrders
  uncrossed := by
    intro bid bidMember ask askMember
    obtain ⟨bidOrder, inOrders, rfl⟩ := order_of_mem_ordersDocument showable bidMember
    obtain ⟨askOrder, askInOrders, rfl⟩ := order_of_mem_ordersDocument showable askMember
    exact showable.apart bidOrder inOrders askOrder askInOrders

/-- Both messages about a showable book are proper. -/
theorem proper_of_mem_ofChange {message : Message}
    (member : message ∈ Message.ofChange (Host.twosComplement now) snapshot) : message.Proper := by
  rcases List.mem_cons.mp member with rfl | member
  · exact bookDocument_proper showable 20
  · cases List.mem_singleton.mp member
    exact ordersDocument_proper showable

end Documents

end OrderBookSimulator
