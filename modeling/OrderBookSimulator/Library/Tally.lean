import Mathlib.Algebra.Order.BigOperators.Group.List

/-!
# Tallies

The sum of a weight over the selected items of a list.  A tally depends only on
which items are listed and how often, and it splits over appended lists, which
is how a running total and the log it summarizes are kept together.
-/

namespace OrderBookSimulator.Library

universe u v w

/-- The total weight of the selected items. -/
def tally {Item : Type u} {Total : Type v} [AddCommMonoid Total] (select : Item → Prop)
    [DecidablePred select] (weight : Item → Total) (items : List Item) : Total :=
  ((items.filter select).map weight).sum

section Basic

variable {Item : Type u} {Total : Type v} [AddCommMonoid Total] {select : Item → Prop}
  [DecidablePred select] {weight : Item → Total}

@[simp] theorem tally_nil : tally select weight [] = 0 := rfl

@[simp] theorem tally_cons (item : Item) (items : List Item) :
    tally select weight (item :: items) =
      (if select item then weight item else 0) + tally select weight items := by
  unfold tally
  by_cases selected : select item <;> simp [selected]

@[simp] theorem tally_append (first second : List Item) :
    tally select weight (first ++ second) =
      tally select weight first + tally select weight second := by
  unfold tally
  rw [List.filter_append, List.map_append, List.sum_append]

theorem tally_perm {first second : List Item} (perm : first.Perm second) :
    tally select weight first = tally select weight second :=
  ((perm.filter _).map weight).sum_eq

theorem tally_eq_zero {items : List Item} (none : ∀ item ∈ items, ¬ select item) :
    tally select weight items = 0 := by
  induction items with
  | nil => rfl
  | cons item rest ih =>
      rw [tally_cons, if_neg (none item (.head _)), zero_add]
      exact ih fun other member => none other (.tail _ member)

theorem tally_congr {select' : Item → Prop} [DecidablePred select'] {weight' : Item → Total}
    {items : List Item} (same : ∀ item ∈ items, select item ↔ select' item)
    (sameWeight : ∀ item ∈ items, select item → weight item = weight' item) :
    tally select weight items = tally select' weight' items := by
  induction items with
  | nil => rfl
  | cons item rest ih =>
      have tail := ih (fun other member => same other (.tail _ member))
        (fun other member => sameWeight other (.tail _ member))
      have here := same item (.head _)
      have hereWeight := sameWeight item (.head _)
      rw [tally_cons, tally_cons, tail]
      by_cases selected : select item
      · rw [if_pos selected, if_pos (here.mp selected), hereWeight selected]
      · rw [if_neg selected, if_neg fun other => selected (here.mpr other)]

theorem tally_map {Source : Type w} (read : Source → Item) (sources : List Source) :
    tally select weight (sources.map read) =
      tally (fun source => select (read source)) (fun source => weight (read source)) sources := by
  induction sources with
  | nil => rfl
  | cons source rest ih => rw [List.map_cons, tally_cons, tally_cons, ih]

end Basic

section Signed

variable {Item : Type u} {select : Item → Prop} [DecidablePred select] {weight : Item → Int}

theorem tally_nonneg {items : List Item} (nonneg : ∀ item ∈ items, select item → 0 ≤ weight item) :
    0 ≤ tally select weight items := by
  induction items with
  | nil => exact Int.le_refl 0
  | cons item rest ih =>
      have tail := ih fun other member => nonneg other (.tail _ member)
      rw [tally_cons]
      by_cases selected : select item
      · rw [if_pos selected]
        exact Int.add_nonneg (nonneg item (.head _) selected) tail
      · rw [if_neg selected]
        omega

/-- No selected item weighs more than all of them. -/
theorem le_tally {items : List Item} (nonneg : ∀ item ∈ items, select item → 0 ≤ weight item)
    {item : Item} (member : item ∈ items) (selected : select item) :
    weight item ≤ tally select weight items := by
  obtain ⟨lead, tail, rfl⟩ := List.append_of_mem member
  have leadNonneg : 0 ≤ tally select weight lead :=
    tally_nonneg fun other inLead => nonneg other (List.mem_append_left _ inLead)
  have tailNonneg : 0 ≤ tally select weight tail :=
    tally_nonneg fun other inTail => nonneg other (List.mem_append_right _ (.tail _ inTail))
  rw [tally_append, tally_cons, if_pos selected]
  omega

/-- Weights within a multiple of others add up within that multiple. -/
theorem tally_le_mul {weight' : Item → Int} {factor : Int} {items : List Item}
    (le : ∀ item ∈ items, select item → weight item ≤ factor * weight' item) :
    tally select weight items ≤ factor * tally select weight' items := by
  induction items with
  | nil => simp
  | cons item rest ih =>
      have tail := ih fun other member => le other (.tail _ member)
      rw [tally_cons, tally_cons, Int.mul_add]
      by_cases selected : select item
      · have here := le item (.head _) selected
        rw [if_pos selected, if_pos selected]
        omega
      · rw [if_neg selected, if_neg selected, Int.mul_zero]
        omega

/-- With positive weights, a zero tally selects nothing. -/
theorem tally_pos {items : List Item} (positive : ∀ item ∈ items, select item → 0 < weight item)
    {item : Item} (member : item ∈ items) (selected : select item) :
    0 < tally select weight items :=
  Int.lt_of_lt_of_le (positive item member selected)
    (le_tally (fun other inItems chosen => Int.le_of_lt (positive other inItems chosen)) member
      selected)

end Signed

end OrderBookSimulator.Library
