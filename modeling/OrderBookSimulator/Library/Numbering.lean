import Mathlib.Data.List.Basic
import Mathlib.Data.Int.Order.Basic

/-!
# Lists numbered without gaps

Each item carries a number, and the numbers count up by one from a first one, so
an item's number tells its place.
-/

namespace OrderBookSimulator.Library

variable {Item : Type*} (number : Item → Int)

/-- The items carry `first`, `first + 1` and so on. -/
def Numbered (first : Int) : List Item → Prop
  | [] => True
  | item :: rest => number item = first ∧ Numbered (first + 1) rest

instance (first : Int) (items : List Item) : Decidable (Numbered number first items) := by
  induction items generalizing first with
  | nil => exact .isTrue trivial
  | cons item rest ih => exact @instDecidableAnd _ _ _ (ih (first + 1))

namespace Numbered

variable {number} {first : Int} {items : List Item}

@[simp] theorem nil : Numbered number first [] := trivial

theorem append_iff {front back : List Item} :
    Numbered number first (front ++ back) ↔
      Numbered number first front ∧ Numbered number (first + front.length) back := by
  induction front generalizing first with
  | nil => simp [Numbered]
  | cons item rest ih =>
      have shift : first + 1 + (rest.length : Int) = first + ((item :: rest).length : Int) := by
        rw [List.length_cons]
        omega
      rw [List.cons_append, Numbered, Numbered, ih, shift, and_assoc]

theorem number_getElem (numbered : Numbered number first items) {index : Nat} {item : Item}
    (found : items[index]? = some item) : number item = first + index := by
  induction items generalizing first index with
  | nil => simp at found
  | cons head rest ih =>
      cases index with
      | zero =>
          cases found
          simpa using numbered.1
      | succ index =>
          have later := ih numbered.2 found
          rw [later]
          push_cast
          omega

/-- No two items carry one number. -/
theorem nodup (numbered : Numbered number first items) : (items.map number).Nodup := by
  induction items generalizing first with
  | nil => exact .nil
  | cons head rest ih =>
      rw [List.map_cons, List.nodup_cons]
      refine ⟨fun member => ?_, ih numbered.2⟩
      obtain ⟨item, inRest, same⟩ := List.mem_map.mp member
      obtain ⟨index, found⟩ := List.mem_iff_getElem?.mp inRest
      have later := numbered.2.number_getElem found
      have now := numbered.1
      omega

end Numbered

end OrderBookSimulator.Library
