import Mathlib.Algebra.Order.BigOperators.Group.List
import Mathlib.Algebra.Order.Ring.Rat
import OrderBookSimulator.Library.RunningTotals
import OrderBookSimulator.Server.Messages

/-!
# The book on the page

The computations of `components/DepthChart.tsx` and of
`components/OrderBookTable.tsx` on the last book that came.  Quantities are
`number`s; the crosshair may stand between two prices.
-/

namespace OrderBookSimulator

open Library

/-- What the page keeps of an integer: a double holds the integers of 53 bits. -/
structure Script where
  number : Int → Int
  exact : ∀ value, 0 ≤ value → value ≤ 2 ^ 53 → number value = value

structure Point where
  price : Int
  cumQty : Int
  deriving DecidableEq

/-- One side of `cumulative`. -/
def cumulate (script : Script) (cum : Int) : List LevelLine → List Point
  | [] => []
  | lvl :: rest =>
      let cum := script.number (cum + script.number lvl.qty)
      { price := lvl.price, cumQty := cum } :: cumulate script cum rest

structure Cumulative where
  bidPoints : List Point
  askPoints : List Point
  deriving DecidableEq

def cumulative (script : Script) (book : BookDocument) : Cumulative :=
  { bidPoints := cumulate script 0 book.bids, askPoints := cumulate script 0 book.asks }

/-- The quantity that the crosshair reads out at a price. -/
def Cumulative.crosshair (chart : Cumulative) (price : ℚ) : Option Int :=
  -- a side without points has its best price at infinity
  if chart.bidPoints.head?.any fun best => price ≤ best.price then
    ((chart.bidPoints.filter fun p => price ≤ p.price).getLast?).map (·.cumQty)
  else if chart.askPoints.head?.any fun best => best.price ≤ price then
    ((chart.askPoints.filter fun p => p.price ≤ price).getLast?).map (·.cumQty)
  else none

/-- A line of the table. -/
structure Row extends LevelLine where
  total : Int
  deriving DecidableEq

/-- `withTotals` -/
def withTotals (script : Script) (total : Int) : List LevelLine → List Row
  | [] => []
  | l :: rest =>
      let total := script.number (total + script.number l.qty)
      { l with total } :: withTotals script total rest

/-- The volume of a side that the table shows below it. -/
def volume (rows : List Row) : Int := (rows.getLast?.map (·.total)).getD 0

/-! ## Sums that a double holds -/

section Sums

variable (script : Script) {levels : List LevelLine} {soFar : Int}

/-- The sums of the chart are exact as long as they are small. -/
theorem cumulate_eq (nonneg : 0 ≤ soFar) (positive : ∀ lvl ∈ levels, 0 ≤ lvl.qty)
    (small : soFar + (levels.map (·.qty)).sum ≤ 2 ^ 53) :
    cumulate script soFar levels =
      (runningTotals (·.2) soFar (levels.map fun lvl => (lvl.price, lvl.qty))).map
        fun entry => ⟨entry.1.1, entry.2⟩ := by
  induction levels generalizing soFar with
  | nil => rfl
  | cons lvl rest ih =>
      have lvlNonneg := positive lvl (.head _)
      have restPositive : ∀ other ∈ rest, 0 ≤ other.qty := fun other member =>
        positive other (.tail _ member)
      have restNonneg : 0 ≤ (rest.map (·.qty)).sum := by
        refine List.sum_nonneg fun qty member => ?_
        obtain ⟨other, inRest, rfl⟩ := List.mem_map.mp member
        exact restPositive other inRest
      rw [List.map_cons, List.sum_cons] at small
      rw [cumulate, List.map_cons, runningTotals, List.map_cons, script.exact lvl.qty lvlNonneg (by omega),
        script.exact (soFar + lvl.qty) (by omega) (by omega),
        ih (by omega) restPositive (by omega)]

/-- The table adds up what the chart adds up. -/
theorem totals_withTotals (soFar : Int) (levels : List LevelLine) :
    (withTotals script soFar levels).map (fun row => ⟨row.price, row.total⟩) =
      cumulate script soFar levels := by
  induction levels generalizing soFar with
  | nil => rfl
  | cons lvl rest ih => rw [withTotals, cumulate, List.map_cons, ih]

end Sums

end OrderBookSimulator
