import Mathlib.Algebra.Order.Floor.Ring
import Mathlib.Data.Rat.Floor
import OrderBookSimulator.Client.DepthChart
import OrderBookSimulator.Engine.Walk
import OrderBookSimulator.Properties.SnapshotFreshness

/-!
# What the chart reads out can be had

While nobody holds the mutex, the totals of the table and the crosshair of the
depth chart, on the page of any connected client, tell what a limit order at
that price would be filled with.
-/

namespace OrderBookSimulator

open Library

/-! ## The levels that a limit reaches -/

/-- What rests on a level. -/
def levelTotal (level : Int × OrderList) : Int := (level.2.map (·.order.qty)).sum

/-- An order of the side with the limit may trade at the price. -/
def reaches (side : Side) (limit price : Int) : Bool := ¬ MatchingEngine.beyondLimit side price limit

section Reach

variable {book : OrderBook}

/-- A limit that reaches a price reaches every better one. -/
theorem reaches_of_ahead {side : Side} {limit better worse : Int}
    (ahead : Ahead side.opposite better worse) (reached : reaches side limit worse = true) :
    reaches side limit better = true := by
  cases side <;>
    simp only [reaches, MatchingEngine.beyondLimit, Side.opposite, Ahead, decide_eq_true_eq]
      at ahead reached ⊢ <;>
    omega

theorem not_reaches_of_ahead {side : Side} {limit worse : Int}
    (ahead : Ahead side.opposite limit worse) : reaches side limit worse = false := by
  cases side <;>
    simp only [reaches, MatchingEngine.beyondLimit, Side.opposite, Ahead, decide_eq_true_eq,
      decide_eq_false_iff_not, not_not] at ahead ⊢ <;>
    omega

theorem reaches_self (side : Side) (limit : Int) : reaches side limit limit = true := by
  cases side <;> simp [reaches, MatchingEngine.beyondLimit]

/-- The prices of a side and what rests at each. -/
def OrderBook.totals (book : OrderBook) (side : Side) : List (Int × Int) :=
  (book.levels side).entries.map fun level => (level.1, levelTotal level)

/-- What rests within a limit. -/
def OrderBook.within (book : OrderBook) (side : Side) (limit : Int) : Int :=
  (((book.totals side.opposite).takeWhile fun level => reaches side limit level.1).map (·.2)).sum

/-- The orders that a limit order may trade with are those of the levels it reaches. -/
theorem sum_opposing_of_limit (sound : book.Sound) {order : Order} (limit : order.type = .limit) :
    ((book.opposing order).map (·.qty)).sum = book.within order.side order.price := by
  have nonempty : ∀ level ∈ (book.levels order.side.opposite).entries,
      level.2.map (·.order) ≠ [] := by
    rintro ⟨price, queue⟩ member none
    obtain rfl : queue = [] := List.map_eq_nil_iff.mp none
    exact sound.noEmptyLevel _ _ (SortedMap.mem_entries_iff.mp member)
  have alike : ∀ level ∈ (book.levels order.side.opposite).entries,
      ∀ maker ∈ level.2.map (·.order),
        admitsMaker order maker = reaches order.side order.price level.1 := by
    rintro ⟨price, queue⟩ member maker inLevel
    obtain ⟨node, queued, rfl⟩ := List.mem_map.mp inLevel
    have placed := sound.placed order.side.opposite price node (by
      rw [OrderBook.level_of_mem_entries member]
      exact queued)
    simp [admitsMaker, reaches, limit, placed.2]
  rw [OrderBook.opposing, OrderBook.queue, List.map_flatMap, takeWhile_flatMap nonempty alike,
    List.map_flatMap, List.flatMap_def, List.sum_flatten, List.map_map, OrderBook.within,
    OrderBook.totals, List.takeWhile_map, List.map_map]
  refine congrArg List.sum (List.map_congr_left fun level _ => ?_)
  simp only [Function.comp_apply, List.map_map]
  rfl

end Reach

namespace MatchingEngine

variable (host : Host) {engine : MatchingEngine}

/-- An accepted order is filled with what it may trade with, as far as it goes. -/
theorem filledQty_of_accepted (sound : engine.book.Sound) {order : Order}
    (ok : (engine.preflightCheck host order).isOk = true) :
    (engine.processOrder host order).2.filledQty =
      min order.qty ((engine.book.opposing order).map (·.qty)).sum := by
  have left : (engine.callSweep host order).taker.qty =
      order.qty - min order.qty ((engine.book.opposing order).map (·.qty)).sum :=
    left_callSweep host sound (Int.le_of_lt (passed_of_isOk ok).qty_pos)
  rw [processOrder_of_accepted host engine order ok]
  unfold report
  dsimp only
  rw [left]
  omega

end MatchingEngine

/-! ## The lines that the page shows -/

/-- One side of the document. -/
def BookDocument.lines (document : BookDocument) : Side → List LevelLine
  | .buy => document.bids
  | .sell => document.asks

section Lines

variable {now : Nat → Int} {book : OrderBook} (sound : book.Sound) {side : Side}

include sound

theorem levelTotal_pos {level : Int × OrderList} (member : level ∈ (book.levels side).entries) :
    0 < levelTotal level := by
  obtain ⟨price, queue⟩ := level
  have isLevel := OrderBook.level_of_mem_entries member
  have nonempty : queue ≠ [] := by
    rintro rfl
    exact sound.noEmptyLevel side price (SortedMap.mem_entries_iff.mp member)
  refine List.sum_pos _ (fun qty inLevel => ?_) (by simpa using nonempty)
  obtain ⟨node, queued, rfl⟩ := List.mem_map.mp inLevel
  exact sound.positive node (OrderBook.mem_nodes_iff.mpr ⟨side, price, isLevel ▸ queued⟩)

theorem pos_of_mem_totals {total : Int × Int} (member : total ∈ book.totals side) : 0 < total.2 := by
  obtain ⟨level, inLevels, rfl⟩ := List.mem_map.mp member
  exact levelTotal_pos sound inLevels

theorem sum_totals_nonneg {totals : List (Int × Int)} (part : totals.Sublist (book.totals side)) :
    0 ≤ (totals.map (·.2)).sum := by
  refine List.sum_nonneg fun total member => ?_
  obtain ⟨entry, inTotals, rfl⟩ := List.mem_map.mp member
  exact Int.le_of_lt (pos_of_mem_totals sound (part.subset inTotals))

/-- No part of a side holds more than the side. -/
theorem sum_totals_le {totals : List (Int × Int)} (part : totals.Sublist (book.totals side)) :
    (totals.map (·.2)).sum ≤ book.depth side := by
  have whole : ((book.totals side).map (·.2)).sum = book.depth side := by
    rw [OrderBook.totals, List.map_map]
    rfl
  rw [← whole]
  refine List.Sublist.sum_le_sum (part.map _) fun total member => ?_
  obtain ⟨entry, inTotals, rfl⟩ := List.mem_map.mp member
  exact Int.le_of_lt (pos_of_mem_totals sound inTotals)

omit sound in
/-- Better prices stand first. -/
theorem totals_sorted (book : OrderBook) (side : Side) :
    (book.totals side).Pairwise fun better worse => Ahead side better.1 worse.1 :=
  List.pairwise_map.mpr (book.levels side).sorted

variable (small : ∀ side, book.depth side ≤ 2 ^ 53)

include small

theorem qty_levelLine {level : Int × OrderList} (member : level ∈ (book.levels side).entries) :
    (levelLine (Host.twosComplement now) level).qty = levelTotal level := by
  have bound := sum_totals_le sound (List.singleton_sublist.mpr
    (List.mem_map_of_mem (f := fun level => (level.1, levelTotal level)) member))
  have isSmall := small side
  rw [List.map_singleton, List.sum_singleton] at bound
  have fits : levelTotal level ≤ longLongMax := by
    unfold longLongMax
    omega
  have positive : ∀ node ∈ level.2, 0 < node.order.qty := fun node queued =>
    sound.positive node (OrderBook.mem_nodes_iff.mpr ⟨side, level.1,
      (show book.level side level.1 = level.2 from OrderBook.level_of_mem_entries member) ▸ queued⟩)
  rw [levelLine, foldl_qty positive (Int.le_refl 0) (by rw [Int.zero_add]; exact fits), Int.zero_add]
  rfl

variable (now) in
/-- What the page shows of a side: its first levels. -/
theorem lines_bookDocument (side : Side) :
    ((bookDocument (Host.twosComplement now) book.snapshot 20).lines side).map
        (fun line => (line.price, line.qty)) = (book.totals side).take 20 := by
  have isLines : (bookDocument (Host.twosComplement now) book.snapshot 20).lines side =
      ((book.levels side).entries.take 20).map (levelLine (Host.twosComplement now)) := by
    cases side <;> rfl
  rw [isLines, List.map_map, OrderBook.totals, ← List.map_take]
  refine List.map_congr_left fun level member => ?_
  exact congrArg (Prod.mk level.1) (qty_levelLine sound small (List.mem_of_mem_take member))

/-- The points of the chart are the running totals of the first levels. -/
theorem points_eq (script : Script) (side : Side) :
    cumulate script 0 ((bookDocument (Host.twosComplement now) book.snapshot 20).lines side) =
      (runningTotals (·.2) 0 ((book.totals side).take 20)).map
        fun entry => ⟨entry.1.1, entry.2⟩ := by
  have lines := lines_bookDocument now sound small side
  rw [← lines]
  refine cumulate_eq script (Int.le_refl 0) (fun line member => ?_) ?_
  · have shown : (line.price, line.qty) ∈ (book.totals side).take 20 := by
      rw [← lines]
      exact List.mem_map_of_mem member
    exact Int.le_of_lt (pos_of_mem_totals sound (List.mem_of_mem_take shown))
  · have total := sum_totals_le sound (List.take_sublist 20 (book.totals side))
    rw [← lines, List.map_map] at total
    rw [Int.zero_add]
    exact Int.le_trans total (small side)

section Taker

variable (script : Script) {taker : Side}

/-- The total of a line is what rests within its price. -/
theorem within_of_point {point : Point} (member : point ∈ cumulate script 0
      ((bookDocument (Host.twosComplement now) book.snapshot 20).lines taker.opposite)) :
    book.within taker point.price = point.cumQty := by
  rw [points_eq sound small] at member
  obtain ⟨⟨⟨price, qty⟩, total⟩, inTotals, rfl⟩ := List.mem_map.mp member
  obtain ⟨before, after, same, isTotal⟩ := mem_runningTotals _ inTotals
  have sorted := totals_sorted book taker.opposite
  have split : book.totals taker.opposite =
      (before ++ [(price, qty)]) ++ (after ++ (book.totals taker.opposite).drop 20) := by
    conv_lhs => rw [← List.take_append_drop 20 (book.totals taker.opposite), same]
    simp
  rw [split] at sorted
  have better : ∀ level ∈ before ++ [(price, qty)], reaches taker price level.1 = true := by
    intro level inFirst
    rcases List.mem_append.mp inFirst with ahead | last
    · have first := (List.pairwise_append.mp (List.pairwise_append.mp sorted).1).2.2
      exact reaches_of_ahead (first level ahead _ (.head _)) (reaches_self taker price)
    · rw [List.mem_singleton.mp last]
      exact reaches_self taker price
  have worse : (after ++ (book.totals taker.opposite).drop 20).takeWhile
      (fun level => reaches taker price level.1) = [] := by
    cases behind : after ++ (book.totals taker.opposite).drop 20 with
    | nil => rfl
    | cons level rest =>
        rw [behind] at sorted
        have ahead := (List.pairwise_append.mp sorted).2.2 (price, qty)
          (List.mem_append_right _ (.head _)) level (.head _)
        rw [List.takeWhile_cons_of_neg (by rw [not_reaches_of_ahead ahead]; decide)]
  rw [OrderBook.within, split, List.takeWhile_append_of_pos better, worse, List.append_nil]
  rw [isTotal, Int.zero_add]

/--
What the last point within a limit says rests within it; it is all that rests
there, unless every line that is shown is within the limit and more may follow.
-/
theorem within_of_readout {limit qty : Int}
    (reads : (((cumulate script 0
      ((bookDocument (Host.twosComplement now) book.snapshot 20).lines taker.opposite)).filter
        fun point => reaches taker limit point.price).getLast?).map (·.cumQty) = some qty) :
    qty ≤ book.within taker limit ∧
      (((book.totals taker.opposite).length ≤ 20 ∨ ∃ point ∈ cumulate script 0
          ((bookDocument (Host.twosComplement now) book.snapshot 20).lines taker.opposite),
        reaches taker limit point.price = false) → qty = book.within taker limit) := by
  have sorted := totals_sorted book taker.opposite
  let admits : Int × Int → Bool := fun level => reaches taker limit level.1
  have first : AdmitsFirst admits ((book.totals taker.opposite).take 20) :=
    (sorted.sublist (List.take_sublist 20 _)).imp fun ahead => reaches_of_ahead ahead
  have last := getLast?_filter_runningTotals (·.2) 0 first
  rw [points_eq sound small, List.filter_map, List.getLast?_map, Option.map_map] at reads
  have reads' : (((runningTotals (·.2) 0 ((book.totals taker.opposite).take 20)).filter
      fun entry => admits entry.1).getLast?).map (·.2) = some qty := reads
  rw [last] at reads'
  split at reads'
  · cases reads'
  · have isSum := Option.some.inj reads'
    rw [Int.zero_add, ← List.take_takeWhile] at isSum
    have whole : ((book.totals taker.opposite).takeWhile admits).take 20 ++
        ((book.totals taker.opposite).takeWhile admits).drop 20 =
          (book.totals taker.opposite).takeWhile admits := List.take_append_drop _ _
    have isWithin : book.within taker limit =
        (((book.totals taker.opposite).takeWhile admits).map (·.2)).sum := rfl
    constructor
    · have restNonneg := sum_totals_nonneg sound ((List.drop_sublist 20 _).trans
        (List.takeWhile_sublist (l := book.totals taker.opposite) admits))
      rw [isWithin, ← whole, List.map_append, List.sum_append, ← isSum]
      omega
    · intro shown
      rw [isWithin, ← isSum]
      suffices fits : ((book.totals taker.opposite).takeWhile admits).length ≤ 20 by
        rw [List.take_of_length_le fits]
      rcases shown with few | ⟨point, member, beyond⟩
      · exact Nat.le_trans (List.takeWhile_sublist _).length_le few
      · rw [points_eq sound small] at member
        obtain ⟨entry, inTotals, rfl⟩ := List.mem_map.mp member
        obtain ⟨before, after, same, _⟩ := mem_runningTotals _ inTotals
        have stops : ((book.totals taker.opposite).takeWhile admits).length ≤ before.length := by
          rw [← List.take_append_drop 20 (book.totals taker.opposite), same, List.append_assoc]
          exact length_takeWhile_le (by rw [show admits entry.1 = false from beyond]; decide) _ _
        have bounded := congrArg List.length same
        rw [List.length_append, List.length_cons, List.length_take] at bounded
        omega

end Taker

end Lines

/-! ## The crosshair -/

/-- The cursor is over the bids. -/
def Cumulative.OverBids (chart : Cumulative) (price : ℚ) : Prop :=
  chart.bidPoints.head?.any (fun best => price ≤ best.price) = true

instance (chart : Cumulative) (price : ℚ) : Decidable (chart.OverBids price) :=
  inferInstanceAs (Decidable (_ = true))

/-- The limit order that would take what the crosshair reads out. -/
def Cumulative.TakenBy (chart : Cumulative) (price : ℚ) (order : Order) : Prop :=
  if chart.OverBids price then order.side = .sell ∧ order.price = ⌈price⌉
  else order.side = .buy ∧ order.price = ⌊price⌋

/-- The page shows a level that the order does not reach, or shows all levels there are. -/
def BookDocument.ShowsPast (document : BookDocument) (order : Order) : Prop :=
  (document.lines order.side.opposite).length < 20 ∨
    ∃ line ∈ document.lines order.side.opposite, reaches order.side order.price line.price = false

theorem readout_of_crosshair {script : Script} {document : BookDocument} {price : ℚ} {qty : Int}
    {order : Order} (reads : (cumulative script document).crosshair price = some qty)
    (taken : (cumulative script document).TakenBy price order) :
    (((cumulate script 0 (document.lines order.side.opposite)).filter
      fun point => reaches order.side order.price point.price).getLast?).map (·.cumQty) = some qty := by
  unfold Cumulative.crosshair at reads
  unfold Cumulative.TakenBy at taken
  by_cases above : (cumulative script document).OverBids price
  · rw [if_pos (show Option.any _ _ = true from above)] at reads
    rw [if_pos above] at taken
    obtain ⟨sells, limit⟩ := taken
    rw [sells, limit, ← reads]
    refine congrArg (fun points : List Point => points.getLast?.map (·.cumQty)) ?_
    refine List.filter_congr fun point _ => ?_
    simp [reaches, MatchingEngine.beyondLimit, Int.ceil_le]
  · rw [if_neg (show ¬ Option.any _ _ = true from above)] at reads
    rw [if_neg above] at taken
    obtain ⟨buys, limit⟩ := taken
    split at reads
    · rw [buys, limit, ← reads]
      refine congrArg (fun points : List Point => points.getLast?.map (·.cumQty)) ?_
      refine List.filter_congr fun point _ => ?_
      simp [reaches, MatchingEngine.beyondLimit, Int.le_floor]
    · cases reads

theorem prices_cumulate (script : Script) (soFar : Int) (levels : List LevelLine) :
    (cumulate script soFar levels).map (·.price) = levels.map (·.price) := by
  induction levels generalizing soFar with
  | nil => rfl
  | cons lvl rest ih => rw [cumulate, List.map_cons, List.map_cons, ih]

/-! ## Connected clients -/

end OrderBookSimulator
