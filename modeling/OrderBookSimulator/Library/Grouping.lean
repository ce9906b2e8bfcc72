import Mathlib.Data.List.Nodup

/-!
# Grouping a list by a key

The groups stand in the order in which their keys first appear, the items of a
group in the order of the list.
-/

namespace OrderBookSimulator.Library

variable {Key Item : Type} [DecidableEq Key] (key : Item → Key)

def grouped (items : List Item) : List (Key × List Item) :=
  (items.map key).eraseDups.map fun group => (group, items.filter (key · = group))

section Groups

variable {key} {groups : List (Key × List Item)}

/-- A run of one key followed by other keys. -/
theorem eraseDups_run {first : Key} {run rest : List Key} (same : ∀ other ∈ run, other = first)
    (apart : first ∉ rest) : (first :: (run ++ rest)).eraseDups = first :: rest.eraseDups := by
  have dropped : run.filter (fun other => !other == first) = [] := by
    refine List.filter_eq_nil_iff.mpr fun other member => ?_
    simp [same other member]
  have kept : rest.filter (fun other => !other == first) = rest := by
    refine List.filter_eq_self.mpr fun other member => ?_
    have different : other ≠ first := fun equal => apart (equal ▸ member)
    simpa using different
  rw [List.eraseDups_cons, List.filter_append, dropped, kept, List.nil_append]

theorem eraseDups_keys (nonempty : ∀ group ∈ groups, group.2 ≠ [])
    (keyed : ∀ group ∈ groups, ∀ item ∈ group.2, key item = group.1)
    (distinct : (groups.map (·.1)).Nodup) :
    ((groups.flatMap (·.2)).map key).eraseDups = groups.map (·.1) := by
  induction groups with
  | nil => rfl
  | cons group rest ih =>
      obtain ⟨group, items⟩ := group
      obtain ⟨item, more, rfl⟩ := List.exists_cons_of_ne_nil (nonempty _ (.head _))
      have later := ih (fun other member => nonempty other (.tail _ member))
        (fun other member => keyed other (.tail _ member)) (List.nodup_cons.mp distinct).2
      have here := keyed _ (.head _)
      have itemKey : key item = group := here item (.head _)
      have moreKeys : ∀ other ∈ more.map key, other = group := by
        intro other member
        obtain ⟨next, inMore, rfl⟩ := List.mem_map.mp member
        exact here next (.tail _ inMore)
      have apart : group ∉ (rest.flatMap (·.2)).map key := by
        intro member
        obtain ⟨next, inRest, nextKey⟩ := List.mem_map.mp member
        obtain ⟨other, inGroups, inOther⟩ := List.mem_flatMap.mp inRest
        refine (List.nodup_cons.mp distinct).1 (List.mem_map.mpr ⟨other, inGroups, ?_⟩)
        rw [← keyed other (.tail _ inGroups) next inOther, nextKey]
      rw [List.flatMap_cons, List.map_append, List.map_cons, itemKey, List.cons_append,
        eraseDups_run moreKeys apart, later, List.map_cons]

/-- The items of one key are those of its group. -/
theorem filter_flatMap_of_mem (keyed : ∀ group ∈ groups, ∀ item ∈ group.2, key item = group.1)
    (distinct : (groups.map (·.1)).Nodup) {group : Key × List Item} (member : group ∈ groups) :
    (groups.flatMap (·.2)).filter (key · = group.1) = group.2 := by
  induction groups with
  | nil => cases member
  | cons first rest ih =>
      obtain ⟨notLater, distinctRest⟩ := List.nodup_cons.mp distinct
      have keyedRest : ∀ other ∈ rest, ∀ item ∈ other.2, key item = other.1 :=
        fun other inRest => keyed other (.tail _ inRest)
      rw [List.flatMap_cons, List.filter_append]
      rcases List.mem_cons.mp member with rfl | inRest
      · have kept : group.2.filter (key · = group.1) = group.2 :=
          List.filter_eq_self.mpr fun item inGroup => by
            simpa using keyed group (.head _) item inGroup
        have dropped : (rest.flatMap (·.2)).filter (key · = group.1) = [] := by
          refine List.filter_eq_nil_iff.mpr fun item inItems same => notLater ?_
          obtain ⟨other, inRest, inOther⟩ := List.mem_flatMap.mp inItems
          have otherKey := keyedRest other inRest item inOther
          exact List.mem_map.mpr ⟨other, inRest, otherKey.symm.trans (of_decide_eq_true same)⟩
        rw [kept, dropped, List.append_nil]
      · have dropped : first.2.filter (key · = group.1) = [] := by
          refine List.filter_eq_nil_iff.mpr fun item inFirst same => notLater ?_
          have firstKey := keyed first (.head _) item inFirst
          exact List.mem_map.mpr ⟨group, inRest, (of_decide_eq_true same).symm.trans firstKey⟩
        rw [dropped, List.nil_append]
        exact ih keyedRest distinctRest inRest

/-- Grouping takes apart what a list of groups with distinct keys was joined from. -/
theorem grouped_flatMap (nonempty : ∀ group ∈ groups, group.2 ≠ [])
    (keyed : ∀ group ∈ groups, ∀ item ∈ group.2, key item = group.1)
    (distinct : (groups.map (·.1)).Nodup) :
    grouped key (groups.flatMap (·.2)) = groups := by
  rw [grouped, eraseDups_keys nonempty keyed distinct, List.map_map]
  calc groups.map ((fun group => (group, (groups.flatMap (·.2)).filter (key · = group))) ∘ (·.1))
      = groups.map id := List.map_congr_left fun group member =>
        Prod.ext rfl (filter_flatMap_of_mem keyed distinct member)
    _ = groups := List.map_id groups

end Groups

end OrderBookSimulator.Library
