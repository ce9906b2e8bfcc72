import Mathlib.Algebra.BigOperators.Group.List.Basic
import Mathlib.Data.List.TakeWhile

/-!
# Running totals

Each item of a list with the weight of all items up to it.  Where the items a
test admits stand first, the last admitted total is the weight of all admitted
items.
-/

namespace OrderBookSimulator.Library

universe u v

variable {Item : Type u}

/-! ## Tests that admit the first items -/

/-- No admitted item stands behind one that is not. -/
def AdmitsFirst (admits : Item → Bool) (items : List Item) : Prop :=
  items.Pairwise fun first second => admits second = true → admits first = true

theorem filter_eq_takeWhile {admits : Item → Bool} {items : List Item}
    (first : AdmitsFirst admits items) : items.filter admits = items.takeWhile admits := by
  induction items with
  | nil => rfl
  | cons item rest ih =>
      obtain ⟨before, restFirst⟩ := List.pairwise_cons.mp first
      by_cases admitted : admits item = true
      · rw [List.filter_cons_of_pos admitted, List.takeWhile_cons_of_pos admitted, ih restFirst]
      · rw [List.filter_cons_of_neg admitted, List.takeWhile_cons_of_neg admitted]
        exact List.filter_eq_nil_iff.mpr fun other member isAdmitted =>
          admitted (before other member isAdmitted)

/-- An item that is not admitted ends what is admitted first. -/
theorem length_takeWhile_le {admits : Item → Bool} {item : Item} (stops : ¬ admits item = true)
    (before after : List Item) :
    ((before ++ item :: after).takeWhile admits).length ≤ before.length := by
  induction before with
  | nil => rw [List.nil_append, List.takeWhile_cons_of_neg stops]
  | cons first rest ih =>
      rw [List.cons_append]
      by_cases admitted : admits first = true
      · rw [List.takeWhile_cons_of_pos admitted]
        exact Nat.succ_le_succ ih
      · rw [List.takeWhile_cons_of_neg admitted]
        exact Nat.zero_le _

/-- A test that treats the items of a chunk alike admits whole chunks. -/
theorem takeWhile_flatMap {Chunk : Type v} {admits : Item → Bool} {admitsChunk : Chunk → Bool}
    {items : Chunk → List Item} {chunks : List Chunk} (nonempty : ∀ chunk ∈ chunks, items chunk ≠ [])
    (alike : ∀ chunk ∈ chunks, ∀ item ∈ items chunk, admits item = admitsChunk chunk) :
    (chunks.flatMap items).takeWhile admits = (chunks.takeWhile admitsChunk).flatMap items := by
  induction chunks with
  | nil => rfl
  | cons chunk rest ih =>
      have restIh := ih (fun other member => nonempty other (.tail _ member))
        fun other member => alike other (.tail _ member)
      have here := alike chunk (.head _)
      rw [List.flatMap_cons]
      by_cases admitted : admitsChunk chunk = true
      · rw [List.takeWhile_cons_of_pos admitted, List.flatMap_cons, ← restIh]
        exact List.takeWhile_append_of_pos fun item member => (here item member).trans admitted
      · rw [List.takeWhile_cons_of_neg admitted, List.flatMap_nil]
        cases first : items chunk with
        | nil => exact absurd first (nonempty chunk (.head _))
        | cons item more =>
            rw [List.cons_append, List.takeWhile_cons_of_neg]
            rw [here item (by rw [first]; exact .head _)]
            exact admitted

/-! ## Totals -/

section Totals

variable {Weight : Type v} [AddMonoid Weight] (weight : Item → Weight)

/-- Each item with the total so far. -/
def runningTotals (soFar : Weight) : List Item → List (Item × Weight)
  | [] => []
  | item :: rest => (item, soFar + weight item) :: runningTotals (soFar + weight item) rest

theorem takeWhile_runningTotals (admits : Item → Bool) (soFar : Weight) (items : List Item) :
    (runningTotals weight soFar items).takeWhile (fun entry => admits entry.1) =
      runningTotals weight soFar (items.takeWhile admits) := by
  induction items generalizing soFar with
  | nil => rfl
  | cons item rest ih =>
      rw [runningTotals]
      by_cases admitted : admits item = true
      · rw [List.takeWhile_cons_of_pos (by exact admitted), List.takeWhile_cons_of_pos admitted,
          runningTotals, ih]
      · rw [List.takeWhile_cons_of_neg (by exact admitted), List.takeWhile_cons_of_neg admitted,
          runningTotals]

theorem map_fst_runningTotals (soFar : Weight) (items : List Item) :
    (runningTotals weight soFar items).map (·.1) = items := by
  induction items generalizing soFar with
  | nil => rfl
  | cons item rest ih => rw [runningTotals, List.map_cons, ih]

/-- Each total is the weight of the items up to its own. -/
theorem mem_runningTotals {soFar : Weight} {items : List Item} {entry : Item × Weight}
    (member : entry ∈ runningTotals weight soFar items) :
    ∃ before after, items = before ++ entry.1 :: after ∧
      entry.2 = soFar + ((before ++ [entry.1]).map weight).sum := by
  induction items generalizing soFar with
  | nil => cases member
  | cons item rest ih =>
      rw [runningTotals] at member
      rcases List.mem_cons.mp member with rfl | later
      · exact ⟨[], rest, rfl, by simp⟩
      · obtain ⟨before, after, same, total⟩ := ih later
        refine ⟨item :: before, after, by rw [same, List.cons_append], ?_⟩
        rw [total, List.cons_append, List.map_cons, List.sum_cons, add_assoc]

/-- The last total is the weight of all. -/
theorem getLast?_runningTotals (soFar : Weight) (items : List Item) :
    ((runningTotals weight soFar items).getLast?).map (·.2) =
      if items = [] then none else some (soFar + (items.map weight).sum) := by
  induction items generalizing soFar with
  | nil => rfl
  | cons item rest ih =>
      rw [runningTotals, if_neg (List.cons_ne_nil _ _), List.map_cons, List.sum_cons, ← add_assoc]
      cases rest with
      | nil => simp [runningTotals]
      | cons other more =>
          have last := ih (soFar + weight item)
          rw [if_neg (List.cons_ne_nil _ _)] at last
          rw [← last, runningTotals, List.getLast?_cons_cons]

/-- The last total of the admitted items is their weight. -/
theorem getLast?_filter_runningTotals {admits : Item → Bool} {items : List Item} (soFar : Weight)
    (first : AdmitsFirst admits items) :
    (((runningTotals weight soFar items).filter fun entry => admits entry.1).getLast?).map (·.2) =
      if items.takeWhile admits = [] then none
      else some (soFar + ((items.takeWhile admits).map weight).sum) := by
  have firstTotals : AdmitsFirst (fun entry : Item × Weight => admits entry.1)
      (runningTotals weight soFar items) := by
    have byItem : ((runningTotals weight soFar items).map (·.1)).Pairwise fun first second =>
        admits second = true → admits first = true := by
      rw [map_fst_runningTotals]
      exact first
    exact List.pairwise_map.mp byItem
  rw [filter_eq_takeWhile firstTotals, takeWhile_runningTotals, getLast?_runningTotals]

end Totals

end OrderBookSimulator.Library
