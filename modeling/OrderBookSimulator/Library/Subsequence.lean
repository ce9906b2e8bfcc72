import Mathlib.Data.List.Nodup

/-!
# Lists that keep an order

A list without repetitions orders its items.  Another list of these items is a
sublist if and only if it lists them in that order.
-/

namespace OrderBookSimulator.Library

universe u

variable {Item : Type u} {items : List Item}

/-- One item comes somewhere before another. -/
def Before (items : List Item) (first second : Item) : Prop := [first, second].Sublist items

theorem pairwise_before_of_sublist {kept : List Item} (sub : kept.Sublist items) :
    kept.Pairwise (Before items) :=
  List.pairwise_iff_forall_sublist.mpr fun pair => pair.trans sub

theorem Before.mem {first second : Item} (before : Before items first second) :
    first ∈ items ∧ second ∈ items :=
  ⟨before.subset (.head _), before.subset (.tail _ (.head _))⟩

theorem Before.mono {more : List Item} {first second : Item} (sub : items.Sublist more)
    (before : Before items first second) : Before more first second :=
  List.Sublist.trans before sub

/-- Behind the first item, the order is that of the rest. -/
theorem before_rest {item first second : Item} {rest : List Item} (different : first ≠ item)
    (before : Before (item :: rest) first second) : Before rest first second := by
  cases before with
  | cons _ sub => exact sub
  | cons_cons _ _ => exact absurd rfl different

section Distinct

variable (distinct : items.Nodup)

include distinct

theorem Before.irrefl (item : Item) : ¬ Before items item item := fun before =>
  (List.pairwise_iff_forall_sublist.mp distinct) before rfl

/-- What lists items in their order is a sublist. -/
theorem sublist_of_pairwise_before {kept : List Item} (member : ∀ item ∈ kept, item ∈ items)
    (ordered : kept.Pairwise (Before items)) : kept.Sublist items := by
  induction items generalizing kept with
  | nil =>
      rw [List.eq_nil_iff_forall_not_mem.mpr fun item inKept => List.not_mem_nil (member item inKept)]
  | cons first rest ih =>
      obtain ⟨notLater, distinctRest⟩ := List.nodup_cons.mp distinct
      have inRest : ∀ {item : Item}, item ≠ first → item ∈ first :: rest → item ∈ rest :=
        fun different inItems => (List.mem_cons.mp inItems).resolve_left different
      cases kept with
      | nil => exact List.nil_sublist _
      | cons item others =>
          obtain ⟨ahead, orderedOthers⟩ := List.pairwise_cons.mp ordered
          -- whatever follows an item is not the first
          have later : ∀ other ∈ others, other ≠ first := by
            rintro other inOthers rfl
            have before := ahead other inOthers
            by_cases same : item = other
            · exact Before.irrefl distinct _ (same ▸ before)
            · exact notLater (before_rest same before).mem.2
          have orderedRest : others.Pairwise (Before rest) :=
            orderedOthers.imp_of_mem fun inOthers _ before =>
              before_rest (later _ inOthers) before
          have othersIn : ∀ other ∈ others, other ∈ rest := fun other inOthers =>
            inRest (later other inOthers) (member other (.tail _ inOthers))
          by_cases same : item = first
          · rw [same]
            exact (ih distinctRest othersIn orderedRest).cons_cons first
          · refine (ih distinctRest (List.forall_mem_cons.mpr
              ⟨inRest same (member item (.head _)), othersIn⟩) ?_).cons first
            exact List.pairwise_cons.mpr
              ⟨fun other inOthers => before_rest same (ahead other inOthers), orderedRest⟩

theorem Before.trans {first second third : Item} (before : Before items first second)
    (after : Before items second third) : Before items first third := by
  induction items with
  | nil => cases before
  | cons item rest ih =>
      obtain ⟨notLater, distinctRest⟩ := List.nodup_cons.mp distinct
      have secondLater : second ∈ rest := by
        cases before with
        | cons _ sub => exact sub.subset (.tail _ (.head _))
        | cons_cons _ sub => exact sub.subset (.head _)
      have different : second ≠ item := by
        rintro rfl
        exact notLater secondLater
      have afterRest := before_rest different after
      by_cases same : first = item
      · rw [same]
        exact (List.singleton_sublist.mpr afterRest.mem.2).cons_cons item
      · exact (ih distinctRest (before_rest same before) afterRest).mono (List.sublist_cons_self _ _)

/-- Two sublists, the one before the other, join to a sublist. -/
theorem append_sublist_iff {front back : List Item} :
    (front ++ back).Sublist items ↔ front.Sublist items ∧ back.Sublist items ∧
      ∀ first ∈ front, ∀ second ∈ back, Before items first second := by
  constructor
  · intro sub
    refine ⟨(List.sublist_append_left _ _).trans sub, (List.sublist_append_right _ _).trans sub, ?_⟩
    exact (List.pairwise_append.mp (pairwise_before_of_sublist sub)).2.2
  · rintro ⟨frontSub, backSub, before⟩
    refine sublist_of_pairwise_before distinct (List.forall_mem_append.mpr
      ⟨fun item inFront => frontSub.subset inFront, fun item inBack => backSub.subset inBack⟩) ?_
    exact List.pairwise_append.mpr
      ⟨pairwise_before_of_sublist frontSub, pairwise_before_of_sublist backSub, before⟩

end Distinct

end OrderBookSimulator.Library
