import OrderBookSimulator.Engine.Arrival
import OrderBookSimulator.Library.Grouping
import OrderBookSimulator.Server.Documents
import OrderBookSimulator.Server.Records
import OrderBookSimulator.Server.Serializers

/-!
# The two documents of a book

A client draws the ladder from the book snapshot and the list of orders from
the orders update.  Both texts decode to the book, and the ladder is the list
of orders grouped by side and price.
-/

namespace OrderBookSimulator

open Library Json

/-- What the list of orders says of an order. -/
def OrderLine.ofOrder (order : Order) : OrderLine :=
  { id := order.id, userId := order.userId, side := order.side, price := order.price
    qty := order.qty }

/-- What the ladder says of a level, its quantities added up exactly. -/
def LevelLine.ofLevel (level : Int × OrderList) : LevelLine :=
  { price := level.1
    qty := (level.2.map (·.order.qty)).sum
    orders := level.2.map (·.order.qty) }

/-- Bids before asks, better prices before worse ones, earlier orders before later ones. -/
def Node.Precedes (first second : Node) : Prop :=
  first.order.side = .buy ∧ second.order.side = .sell ∨
    first.order.side = second.order.side ∧
      (Ahead first.order.side first.order.price second.order.price ∨
        first.order.price = second.order.price ∧ first.address < second.address)

/-- The ladder of one side, put together from a list of orders. -/
def ladder (side : Side) (lines : List OrderLine) : List LevelLine :=
  (grouped (·.price) (lines.filter (·.side = side))).map fun group =>
    { price := group.1, qty := (group.2.map (·.qty)).sum, orders := group.2.map (·.qty) }

namespace OrderBook

/-- The quantities of each level that is shown add up to a `long long`. -/
def ShownTotalsFit (book : OrderBook) (depth : Nat) : Prop :=
  ∀ side, ∀ level ∈ (book.levels side).entries.take depth,
    (level.2.map (·.order.qty)).sum ≤ longLongMax

/--
Both documents decode to the book, and they agree with each other: the ladder,
where the totals it shows are `long long`s.
-/
structure Documented (host : Host) (book : OrderBook) (depth : Nat) : Prop where
  orders : Decodes readOrders (SerializerLoops.serializeOrdersJson book)
    (book.nodes.map fun node => OrderLine.ofOrder node.order)
  once : (book.nodes.map (·.order.id)).Nodup
  inOrder : book.nodes.Pairwise Node.Precedes
  levels : book.ShownTotalsFit depth →
    Decodes BookDocument.read (SerializerLoops.serializeBookJson host book depth)
      { bids := (book.bids.entries.take depth).map LevelLine.ofLevel
        asks := (book.asks.entries.take depth).map LevelLine.ofLevel }
  bestFirst : ∀ side, (book.levels side).entries.Pairwise fun first second =>
    Ahead side first.1 second.1
  agree : book.ShownTotalsFit depth → ∀ lines document,
    Decodes readOrders (SerializerLoops.serializeOrdersJson book) lines →
    Decodes BookDocument.read (SerializerLoops.serializeBookJson host book depth) document →
      document = { bids := (ladder .buy lines).take depth, asks := (ladder .sell lines).take depth }

variable {book : OrderBook} (sound : book.Sound)

include sound

theorem placed_of_mem_entries {side : Side} {level : Int × OrderList}
    (member : level ∈ (book.levels side).entries) :
    ∀ node ∈ level.2, node.order.side = side ∧ node.order.price = level.1 := by
  intro node inLevel
  refine sound.placed side level.1 node ?_
  rw [level_of_mem_entries member]
  exact inLevel

theorem side_of_mem_queue {side : Side} {node : Node} (queued : node ∈ book.queue side) :
    node.order.side = side := by
  obtain ⟨level, member, inLevel⟩ := List.mem_flatMap.mp queued
  exact (placed_of_mem_entries sound member node inLevel).1

theorem ordersDocument_eq : ordersDocument book.snapshot =
    book.nodes.map fun node => OrderLine.ofOrder node.order := by
  have ofSide : ∀ side, (book.levels side).entries.flatMap (orderLines side) =
      ((book.levels side).entries.flatMap (·.2)).map fun node => OrderLine.ofOrder node.order := by
    intro side
    rw [List.map_flatMap]
    refine List.flatMap_congr fun level member => List.map_congr_left fun node inLevel => ?_
    obtain ⟨sameSide, samePrice⟩ := placed_of_mem_entries sound member node inLevel
    rw [OrderLine.ofOrder, sameSide, samePrice]
  rw [ordersDocument, nodes, List.map_append]
  exact congrArg₂ (· ++ ·) (ofSide .buy) (ofSide .sell)

theorem bookDocument_eq (now : Nat → Int) {depth : Nat} (fits : book.ShownTotalsFit depth) :
    bookDocument (Host.twosComplement now) book.snapshot depth =
      { bids := (book.bids.entries.take depth).map LevelLine.ofLevel
        asks := (book.asks.entries.take depth).map LevelLine.ofLevel } := by
  have ofSide : ∀ side, ((book.levels side).entries.take depth).map
      (levelLine (Host.twosComplement now)) =
        ((book.levels side).entries.take depth).map LevelLine.ofLevel := by
    intro side
    refine List.map_congr_left fun level inTake => ?_
    have member := List.mem_of_mem_take inTake
    have positive : ∀ node ∈ level.2, 0 < node.order.qty := by
      intro node inLevel
      refine sound.positive node (mem_nodes_iff.mpr ⟨side, level.1, ?_⟩)
      rw [level_of_mem_entries member]
      exact inLevel
    have total := fits side level inTake
    rw [levelLine, foldl_qty positive (Int.le_refl 0) (by omega), Int.zero_add, LevelLine.ofLevel]
  exact congrArg₂ BookDocument.mk (ofSide .buy) (ofSide .sell)

theorem precedes_nodes (arrived : book.InArrivalOrder) : book.nodes.Pairwise Node.Precedes := by
  have ofSide : ∀ side, ((book.levels side).entries.flatMap (·.2)).Pairwise Node.Precedes := by
    intro side
    refine List.pairwise_flatMap.mpr ⟨?_, ?_⟩
    · intro level member
      have ordered := arrived side level.1
      rw [level_of_mem_entries member] at ordered
      refine ordered.imp_of_mem fun inLevel inLevel' earlier => ?_
      obtain ⟨sameSide, samePrice⟩ := placed_of_mem_entries sound member _ inLevel
      obtain ⟨sameSide', samePrice'⟩ := placed_of_mem_entries sound member _ inLevel'
      exact Or.inr ⟨sameSide.trans sameSide'.symm,
        Or.inr ⟨samePrice.trans samePrice'.symm, earlier⟩⟩
    · refine (book.levels side).sorted.imp_of_mem fun member member' ahead => ?_
      intro first inFirst second inSecond
      obtain ⟨sameSide, samePrice⟩ := placed_of_mem_entries sound member first inFirst
      obtain ⟨sameSide', samePrice'⟩ := placed_of_mem_entries sound member' second inSecond
      refine Or.inr ⟨sameSide.trans sameSide'.symm, Or.inl ?_⟩
      rw [sameSide, samePrice, samePrice']
      exact ahead
  refine List.pairwise_append.mpr ⟨ofSide .buy, ofSide .sell, ?_⟩
  intro bid isBid ask isAsk
  have bidQueued : bid ∈ book.queue .buy := isBid
  have askQueued : ask ∈ book.queue .sell := isAsk
  exact Or.inl ⟨side_of_mem_queue sound bidQueued, side_of_mem_queue sound askQueued⟩

/-- The lines of one side are those of its own queue. -/
theorem lines_filter_side (side : Side) :
    (book.nodes.map fun node => OrderLine.ofOrder node.order).filter (·.side = side) =
      (book.queue side).map fun node => OrderLine.ofOrder node.order := by
  have kept : (book.queue side).filter (·.order.side = side) = book.queue side :=
    List.filter_eq_self.mpr fun node queued => by
      simpa using side_of_mem_queue sound queued
  have dropped : ∀ other, other ≠ side →
      (book.queue other).filter (·.order.side = side) = [] := by
    intro other different
    refine List.filter_eq_nil_iff.mpr fun node queued same => different ?_
    exact (side_of_mem_queue sound queued).symm.trans (of_decide_eq_true same)
  rw [List.filter_map, nodes_eq, List.filter_append]
  have picked : (fun line : OrderLine => decide (line.side = side)) ∘
      (fun node : Node => OrderLine.ofOrder node.order) =
      fun node => decide (node.order.side = side) := rfl
  rw [picked]
  cases side with
  | buy => rw [kept, dropped .sell (by decide), List.append_nil]
  | sell => rw [kept, dropped .buy (by decide), List.nil_append]

/-- Grouping the list of orders gives the levels back. -/
theorem ladder_nodes (side : Side) :
    ladder side (book.nodes.map fun node => OrderLine.ofOrder node.order) =
      (book.levels side).entries.map LevelLine.ofLevel := by
  have joined : (book.queue side).map (fun node => OrderLine.ofOrder node.order) =
      (((book.levels side).entries.map fun level =>
        (level.1, level.2.map fun node => OrderLine.ofOrder node.order)).flatMap (·.2)) := by
    rw [queue, List.map_flatMap, List.flatMap_map]
  have groups : grouped (·.price)
      ((book.queue side).map fun node => OrderLine.ofOrder node.order) =
        (book.levels side).entries.map fun level =>
          (level.1, level.2.map fun node => OrderLine.ofOrder node.order) := by
    rw [joined]
    refine grouped_flatMap ?_ ?_ ?_
    · intro group member empty
      obtain ⟨⟨price, level⟩, inEntries, rfl⟩ := List.mem_map.mp member
      obtain rfl := List.map_eq_nil_iff.mp empty
      exact sound.noEmptyLevel side price (SortedMap.mem_entries_iff.mp inEntries)
    · intro group member line inGroup
      obtain ⟨level, inEntries, rfl⟩ := List.mem_map.mp member
      obtain ⟨node, inLevel, rfl⟩ := List.mem_map.mp inGroup
      exact (placed_of_mem_entries sound inEntries node inLevel).2
    · rw [List.map_map]
      exact List.pairwise_map.mpr ((book.levels side).sorted.imp
        fun ahead => ne_of_irrefl (r := Ahead side) ahead)
  rw [ladder, lines_filter_side sound, groups, List.map_map]
  refine List.map_congr_left fun level _ => ?_
  simp only [Function.comp, LevelLine.ofLevel, List.map_map]
  rfl

theorem documented {now : Nat → Int} (arrived : book.InArrivalOrder) (depth : Nat) :
    book.Documented (Host.twosComplement now) depth := by
  have orders : Decodes readOrders (SerializerLoops.serializeOrdersJson book)
      (book.nodes.map fun node => OrderLine.ofOrder node.order) := by
    rw [serializeOrdersJson_eq, serializeOrdersJson, ← ordersDocument_eq sound]
    exact decodes_ordersJson _
  have levels : book.ShownTotalsFit depth → Decodes BookDocument.read
      (SerializerLoops.serializeBookJson (Host.twosComplement now) book depth)
      { bids := (book.bids.entries.take depth).map LevelLine.ofLevel
        asks := (book.asks.entries.take depth).map LevelLine.ofLevel } := by
    intro fits
    rw [serializeBookJson_eq, serializeBookJson, ← bookDocument_eq sound now fits]
    exact decodes_bookJson _
  refine ⟨orders, sound.ids_nodup, precedes_nodes sound arrived, levels,
    fun side => (book.levels side).sorted, ?_⟩
  intro fits lines document decodesLines decodesDocument
  obtain rfl := orders.unique decodesLines
  obtain rfl := (levels fits).unique decodesDocument
  rw [ladder_nodes sound .buy, ladder_nodes sound .sell, ← List.map_take, ← List.map_take]
  rfl

end OrderBook

namespace MatchingEngine

/--
From every reachable book, at every depth: the list of orders decodes to the
book; and where the totals of the levels that are shown are `long long`s, the
ladder decodes to the book as well, and is the list of orders grouped by side
and price and cut off.
-/
theorem documents_show_the_book {now : Nat → Int} {start engine : MatchingEngine} {log : Log}
    (sound : start.book.Sound) (arrived : start.book.InArrivalOrder)
    (run : AnySession (Host.twosComplement now) start log engine) (depth : Nat) :
    engine.book.Documented (Host.twosComplement now) depth :=
  OrderBook.documented (sound_of_anySession sound run)
    (inArrivalOrder_of_anySession sound arrived run) depth

/-- Two orders at one price and one behind them, cut off after the best level. -/
theorem documents_show_three_bids :
    ∃ log engine, AnySession (Host.twosComplement (·)) {} log engine ∧
      engine.book.resting.map (·.id) = [1, 3, 2] ∧ engine.book.ShownTotalsFit 1 ∧
      engine.book.Documented (Host.twosComplement (·)) 1 := by
  have run := Run.of_isSome (exec (Host.twosComplement (·))) (fun _ _ => True) {}
    [.processOrder ⟨1, 7, .buy, 100, 5, .limit⟩, .processOrder ⟨2, 7, .buy, 99, 4, .limit⟩,
      .processOrder ⟨3, 8, .buy, 100, 6, .limit⟩]
    (by decide)
  exact ⟨_, _, run, by decide, fun side => by cases side <;> decide, documents_show_the_book (OrderBook.sound_empty none)
    (OrderBook.inArrivalOrder_empty none) run 1⟩

end MatchingEngine

end OrderBookSimulator
