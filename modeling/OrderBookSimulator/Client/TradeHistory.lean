import Mathlib.Data.List.Sort
import OrderBookSimulator.Library.AdjacentGroups
import OrderBookSimulator.Types

/-!
# The activity feed

`components/TradeHistory.tsx` of the client, which shows the order events of one
engine call as one group.
-/

namespace OrderBookSimulator

open Library

/-- The comparison by `seq` that a group is sorted with. -/
def SeqLe (a b : OrderEvent) : Prop := a.seq ≤ b.seq

instance : DecidableRel SeqLe := fun a b => inferInstanceAs (Decidable (a.seq ≤ b.seq))

instance : Std.Total SeqLe where
  total a b := Int.le_total a.seq b.seq

instance : IsTrans OrderEvent SeqLe where
  trans _ _ _ := Int.le_trans

/-- The server sends events newest first; each group is put back in the order of its events. -/
def groupBatches (events : List OrderEvent) : List (List OrderEvent) :=
  (events.foldl (pushAdjacent OrderEvent.batchId) []).map (·.insertionSort SeqLe)

/-- Events of one call, in the order in which they were emitted. -/
abbrev InSequence (events : List OrderEvent) : Prop :=
  events.Pairwise fun earlier later => earlier.seq < later.seq

/-- Sorting puts events back in order that come latest first. -/
theorem insertionSort_reverse {events : List OrderEvent} (increasing : InSequence events) :
    events.reverse.insertionSort SeqLe = events := by
  have distinct : (events.map (·.seq)).Nodup :=
    List.pairwise_map.mpr (increasing.imp Int.ne_of_lt)
  refine ((List.perm_insertionSort SeqLe _).trans events.reverse_perm).eq_of_pairwise ?_
    (List.pairwise_insertionSort SeqLe _) (increasing.imp Int.le_of_lt)
  intro first second inSorted inEvents before after
  have inFirst : first ∈ events := by simpa using inSorted
  exact List.inj_on_of_nodup_map distinct inFirst inEvents (Int.le_antisymm before after)

/-- The feed shows given groups if and only if they are the groups of adjacent events. -/
theorem groupBatches_eq_iff {events : List OrderEvent} {groups : List (List OrderEvent)}
    (increasing : ∀ group ∈ groups, InSequence group)
    (joined : (groups.map List.reverse).flatten = events) :
    groupBatches events = groups ↔
      AdjacentGroups OrderEvent.batchId events (groups.map List.reverse) := by
  have sorted : (groups.map List.reverse).map (·.insertionSort SeqLe) = groups := by
    rw [List.map_map]
    refine (List.map_congr_left fun group member => ?_).trans (List.map_id groups)
    exact insertionSort_reverse (increasing group member)
  have found : AdjacentGroups OrderEvent.batchId events _ := adjacentGroups_foldl events
  constructor
  · intro shows
    -- sorting keeps the length of each group, and both join to the same events
    have lengths : (events.foldl (pushAdjacent OrderEvent.batchId) []).map List.length =
        (groups.map List.reverse).map List.length := by
      have counted := congrArg (List.map List.length) shows
      simpa [groupBatches, Function.comp_def] using counted
    have same := List.eq_iff_flatten_eq.mpr ⟨found.flatten.trans joined.symm, lengths⟩
    rw [← same]
    exact found
  · intro adjacent
    rw [groupBatches, found.unique adjacent, sorted]

end OrderBookSimulator
