import Mathlib.Algebra.BigOperators.Group.List.Lemmas
import Mathlib.Algebra.Order.Field.Rat
import Mathlib.Data.Rat.Floor
import Mathlib.Tactic.Linarith
import Mathlib.Tactic.Positivity

/-!
# Shares of an amount

An amount is shared out in proportion to weights, each share rounded down, or
cut into slices, each rounded towards zero and at least one.  Rounding down
loses less than one for each weight; a slice of the rest that is below half of
it never takes too much.
-/

namespace OrderBookSimulator.Library

/-- The share of `pool` that belongs to `weight` out of `whole`. -/
def share (pool whole weight : Int) : Int := pool * weight / whole

theorem share_nonneg {pool whole weight : Int} (poolNonneg : 0 ≤ pool) (wholeNonneg : 0 ≤ whole)
    (weightNonneg : 0 ≤ weight) : 0 ≤ share pool whole weight :=
  Int.ediv_nonneg (Int.mul_nonneg poolNonneg weightNonneg) wholeNonneg

section Whole

variable (pool : Int) {whole : Int} (positive : 0 < whole)

include positive

theorem sum_shares_mul_le (weights : List Int) :
    (weights.map (share pool whole)).sum * whole ≤ pool * weights.sum := by
  induction weights with
  | nil => simp
  | cons weight rest ih =>
      have here : share pool whole weight * whole ≤ pool * weight :=
        Int.ediv_mul_le _ positive.ne'
      rw [List.map_cons, List.sum_cons, List.sum_cons, Int.add_mul, Int.mul_add]
      exact Int.add_le_add here ih

theorem le_sum_shares_mul (weights : List Int) :
    pool * weights.sum ≤ ((weights.map (share pool whole)).sum + weights.length) * whole := by
  induction weights with
  | nil => simp
  | cons weight rest ih =>
      have here : pool * weight ≤ (share pool whole weight + 1) * whole :=
        Int.le_of_lt (Int.lt_ediv_add_one_mul_self _ positive)
      have split : ((rest.map (share pool whole)).sum + rest.length) * whole +
          (share pool whole weight + 1) * whole =
            (((weight :: rest).map (share pool whole)).sum + (weight :: rest).length) * whole := by
        rw [← Int.add_mul, List.map_cons, List.sum_cons, List.length_cons]
        push_cast
        ring
      rw [← split, List.sum_cons, Int.mul_add, Int.add_comm]
      exact Int.add_le_add ih here

end Whole

section Pool

variable (pool : Int) {weights : List Int} (positive : 0 < weights.sum)

include positive

/-- Rounded down, the shares do not exceed the amount. -/
theorem sum_shares_le : (weights.map (share pool weights.sum)).sum ≤ pool :=
  le_of_mul_le_mul_right (sum_shares_mul_le pool positive weights) positive

/-- Rounding down loses at most one for each weight. -/
theorem le_sum_shares : pool ≤ (weights.map (share pool weights.sum)).sum + weights.length :=
  le_of_mul_le_mul_right (le_sum_shares_mul pool positive weights) positive

end Pool

/-! ## Slices -/

/-- Round towards zero. -/
def truncate (value : ℚ) : Int := value.num.tdiv value.den

theorem truncate_eq_floor {value : ℚ} (nonneg : 0 ≤ value) : truncate value = ⌊value⌋ := by
  rw [truncate, Int.tdiv_eq_ediv_of_nonneg (Rat.num_nonneg.mpr nonneg)]
  exact Rat.floor_def'.symm

/-- One of `left` slices, skewed by less than two, leaves no negative rest. -/
theorem slice_range {rest : Int} {skew : ℚ} {left : Nat} (some : 1 ≤ rest) (nonneg : 0 ≤ skew)
    (small : skew ≤ 2) (more : 2 ≤ left) :
    1 ≤ max 1 (truncate (rest * skew / left)) ∧ max 1 (truncate (rest * skew / left)) ≤ rest := by
  refine ⟨le_max_left _ _, max_le some ?_⟩
  have restPos : (0 : ℚ) ≤ rest := by exact_mod_cast (by omega : (0 : Int) ≤ rest)
  have manyLeft : (2 : ℚ) ≤ left := by exact_mod_cast more
  have leftPos : (0 : ℚ) < left := by linarith
  rw [truncate_eq_floor (by positivity)]
  have atMost : (rest : ℚ) * skew / left ≤ rest := by
    rw [div_le_iff₀ leftPos]
    exact mul_le_mul_of_nonneg_left (small.trans manyLeft) restPos
  exact_mod_cast (Int.floor_le _).trans atMost

end OrderBookSimulator.Library
