import Mathlib.Data.List.Induction

/-!
# The last lines of a file

A file of lines is read line by line through a buffer that keeps no more than a
given number of them.
-/

namespace OrderBookSimulator.Library

/-- The lines a reader gets while `line` is what it has read of the current one. -/
def linesFrom (line : List Char) : List Char → List (List Char)
  | [] => if line = [] then [] else [line]
  | c :: rest => if c = '\n' then line :: linesFrom [] rest else linesFrom (line ++ [c]) rest

/-- Everything a loop over `getline` reads; a line need not be ended at the end of the file. -/
def getLines (file : List Char) : List (List Char) := linesFrom [] file

theorem linesFrom_line {line more : List Char} (rest : List Char) (oneLine : '\n' ∉ more) :
    linesFrom line (more ++ '\n' :: rest) = (line ++ more) :: getLines rest := by
  induction more generalizing line with
  | nil => rw [List.nil_append, linesFrom, if_pos rfl, List.append_nil, getLines]
  | cons c more ih =>
      obtain ⟨notHere, notLater⟩ := not_or.mp (fun found => oneLine (List.mem_cons.mpr found))
      rw [List.cons_append, linesFrom, if_neg (Ne.symm notHere), ih notLater, List.append_assoc]
      rfl

/-- Lines that were written with a line end are read back. -/
theorem getLines_written {lines : List (List Char)} (oneLine : ∀ line ∈ lines, '\n' ∉ line) :
    getLines (lines.flatMap (· ++ ['\n'])) = lines := by
  induction lines with
  | nil => rfl
  | cons line lines ih =>
      have later := ih fun other member => oneLine other (.tail _ member)
      rw [List.flatMap_cons, List.append_assoc, List.singleton_append, getLines,
        linesFrom_line _ (oneLine line (.head _)), later, List.nil_append]

section Window

variable {Item : Type} (limit : Nat)

/-- Add at the back, and drop at the front what is one too many. -/
def pushBounded (buffer : List Item) (item : Item) : List Item :=
  if limit < (buffer ++ [item]).length then (buffer ++ [item]).tail else buffer ++ [item]

/-- The last items, as many as the limit allows. -/
def lastItems (items : List Item) : List Item := items.drop (items.length - limit)

theorem reverse_lastItems (items : List Item) :
    (lastItems limit items).reverse = items.reverse.take limit := by
  rw [lastItems, List.reverse_drop]
  by_cases long : limit ≤ items.length
  · rw [Nat.sub_sub_self long]
  · rw [show items.length - limit = 0 by omega, Nat.sub_zero,
      List.take_of_length_le (by simp), List.take_of_length_le (by simp; omega)]

theorem pushBounded_lastItems (items : List Item) (item : Item) :
    pushBounded limit (lastItems limit items) item = lastItems limit (items ++ [item]) := by
  have length : (lastItems limit items).length = items.length - (items.length - limit) :=
    List.length_drop
  rw [pushBounded, List.length_append, length, List.length_singleton]
  unfold lastItems
  rw [List.length_append, List.length_singleton]
  have back : items.drop (items.length - limit) ++ [item] =
      (items ++ [item]).drop (items.length - limit) :=
    (List.drop_append_of_le_length (Nat.sub_le _ _)).symm
  rw [back]
  split
  · rw [List.tail_drop]
    congr 1
    omega
  · congr 1
    omega

/-- The buffer holds the last items whenever it has taken in all items. -/
theorem foldl_pushBounded (items : List Item) :
    items.foldl (pushBounded limit) [] = lastItems limit items := by
  induction items using List.reverseRecOn with
  | nil => exact List.drop_nil.symm
  | append_singleton items item ih =>
      rw [List.foldl_append, ih, List.foldl_cons, List.foldl_nil, pushBounded_lastItems]

end Window

section Filters

variable {Item : Type} {wide narrow : Item → Bool}
  (within : ∀ item, narrow item = true → wide item = true)

include within

/-- The first items of two filters agree where each surplus item comes too late to count. -/
theorem take_filter_eq_iff (limit : Nat) (items : List Item) :
    (items.filter wide).take limit = (items.filter narrow).take limit ↔
      ∀ front item back, items = front ++ item :: back → wide item = true →
        narrow item = false → limit ≤ front.countP wide := by
  induction items generalizing limit with
  | nil =>
      refine ⟨fun _ front item back split => ?_, fun _ => rfl⟩
      exact absurd split.symm (by simp)
  | cons first rest ih =>
      -- the condition on `first :: rest` is one on `first` and one on `rest`
      have condition_iff : (∀ front item back, first :: rest = front ++ item :: back →
          wide item = true → narrow item = false → limit ≤ front.countP wide) ↔
            (wide first = true → narrow first = false → limit = 0) ∧
              ∀ front item back, rest = front ++ item :: back → wide item = true →
                narrow item = false → limit ≤ (first :: front).countP wide := by
        constructor
        · intro late
          refine ⟨fun isWide notNarrow => ?_, fun front item back split => ?_⟩
          · exact Nat.le_zero.mp (late [] first rest rfl isWide notNarrow)
          · exact late (first :: front) item back (by rw [split]; rfl)
        · rintro ⟨here, later⟩ front item back split isWide notNarrow
          cases front with
          | nil =>
              obtain ⟨rfl, rfl⟩ := List.cons.inj split
              have none := here isWide notNarrow
              omega
          | cons other front =>
              obtain ⟨rfl, rfl⟩ := List.cons.inj split
              exact later front item back rfl isWide notNarrow
      rw [condition_iff]
      cases limit with
      | zero => simp
      | succ limit =>
          cases isWide : wide first with
          | false =>
              have notNarrow : narrow first = false := by
                by_contra isNarrow
                exact absurd (within first (by simpa using isNarrow)) (by simp [isWide])
              simp [isWide, notNarrow, ih]
          | true =>
              cases isNarrow : narrow first with
              | true => simp [isWide, isNarrow, ih]
              | false =>
                  have differ : ((first :: rest).filter wide).take (limit + 1) ≠
                      ((first :: rest).filter narrow).take (limit + 1) := by
                    intro same
                    have member : first ∈ ((first :: rest).filter narrow).take (limit + 1) := by
                      rw [← same, List.filter_cons_of_pos isWide]
                      exact .head _
                    have both := (List.mem_filter.mp (List.mem_of_mem_take member)).2
                    rw [isNarrow] at both
                    cases both
                  exact iff_of_false differ fun late => absurd (late.1 rfl rfl) (by simp)

/-- The same from the back. -/
theorem reverse_take_filter_eq_iff (limit : Nat) (items : List Item) :
    (items.filter wide).reverse.take limit = (items.filter narrow).reverse.take limit ↔
      ∀ earlier item later, items = earlier ++ item :: later → wide item = true →
        narrow item = false → limit ≤ later.countP wide := by
  rw [← List.filter_reverse, ← List.filter_reverse, take_filter_eq_iff within]
  constructor
  · intro late earlier item later split isWide notNarrow
    rw [← List.countP_reverse]
    exact late later.reverse item earlier.reverse (by rw [split]; simp) isWide notNarrow
  · intro late front item back split isWide notNarrow
    rw [← List.countP_reverse]
    refine late back.reverse item front.reverse ?_ isWide notNarrow
    rw [← List.reverse_reverse items, split]
    simp

end Filters

end OrderBookSimulator.Library
