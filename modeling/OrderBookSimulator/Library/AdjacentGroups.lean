import Mathlib.Data.List.Induction
import Mathlib.Data.List.SplitBy

/-!
# Grouping what stands together

Adjacent items of one key form a group.  Where the items come in chunks that
count down to one and then start again, the groups are the chunks, except where
a new count begins with the number the old one stopped at.
-/

namespace OrderBookSimulator.Library

universe u v

variable {Item : Type u} {Key : Type v}

/-- The key of a group, if it has any item. -/
def groupKey (key : Item → Key) (group : List Item) : Option Key := group.head?.map key

/-! ## Groups -/

section Groups

variable [DecidableEq Key] (key : Item → Key)

/-- Add to the last group, if its first item has the same key, or start a new one. -/
def pushAdjacent (groups : List (List Item)) (item : Item) : List (List Item) :=
  match groups.getLast? with
  | some (first :: more) =>
      if key first = key item then groups.dropLast ++ [first :: more ++ [item]]
      else groups ++ [[item]]
  | _ => groups ++ [[item]]

/-- The groups of adjacent items. -/
structure AdjacentGroups (items : List Item) (groups : List (List Item)) : Prop where
  flatten : groups.flatten = items
  nonempty : ∀ group ∈ groups, group ≠ []
  uniform : ∀ group ∈ groups, ∀ item ∈ group, groupKey key group = some (key item)
  apart : groups.IsChain fun group next => groupKey key group ≠ groupKey key next

variable {key}

theorem AdjacentGroups.eq_splitBy {items : List Item} {groups : List (List Item)}
    (adjacent : AdjacentGroups key items groups) :
    items.splitBy (fun first second => key first = key second) = groups := by
  refine List.splitBy_eq_iff.mpr ⟨adjacent.flatten.symm,
    fun empty => adjacent.nonempty [] empty rfl, fun group member => ?_, ?_⟩
  · refine (List.pairwise_of_forall_mem_list fun first inFirst second inSecond => ?_).isChain
    have same := (adjacent.uniform group member first inFirst).symm.trans
      (adjacent.uniform group member second inSecond)
    simpa using same
  · refine adjacent.apart.imp_of_mem_imp fun group next member nextMember differ => ?_
    have some := adjacent.nonempty group member
    have someNext := adjacent.nonempty next nextMember
    refine ⟨some, someNext, decide_eq_false fun same => differ ?_⟩
    rw [adjacent.uniform group member _ (List.getLast_mem some),
      adjacent.uniform next nextMember _ (List.head_mem someNext), same]

/-- There is one way to group a list. -/
theorem AdjacentGroups.unique {items : List Item} {groups others : List (List Item)}
    (adjacent : AdjacentGroups key items groups) (also : AdjacentGroups key items others) :
    groups = others :=
  adjacent.eq_splitBy.symm.trans also.eq_splitBy

theorem AdjacentGroups.push {items : List Item} {groups : List (List Item)}
    (adjacent : AdjacentGroups key items groups) (item : Item) :
    AdjacentGroups key (items ++ [item]) (pushAdjacent key groups item) := by
  have opens : (∀ group ∈ groups.getLast?, groupKey key group ≠ some (key item)) →
      AdjacentGroups key (items ++ [item]) (groups ++ [[item]]) := by
    intro differ
    exact {
      flatten := by rw [List.flatten_append, adjacent.flatten]; rfl
      nonempty := List.forall_mem_append.mpr ⟨adjacent.nonempty, by simp⟩
      uniform := List.forall_mem_append.mpr ⟨adjacent.uniform, by simp [groupKey]⟩
      apart := adjacent.apart.append (.singleton _) fun group last next isNext => by
        obtain rfl := Option.some.inj isNext
        exact differ group last }
  rcases List.eq_nil_or_concat groups with rfl | ⟨lead, last, rfl⟩
  · exact opens (by simp)
  · rw [List.concat_eq_append] at *
    obtain ⟨first, more, rfl⟩ := List.exists_cons_of_ne_nil (adjacent.nonempty last (by simp))
    rw [pushAdjacent, List.getLast?_concat]
    by_cases same : key first = key item
    · simp only [if_pos same, List.dropLast_concat]
      exact {
        flatten := by
          rw [← adjacent.flatten]
          simp
        nonempty := by
          have before := adjacent.nonempty
          simp only [List.mem_append, List.mem_singleton, or_imp, forall_and, forall_eq]
            at before ⊢
          exact ⟨before.1, by simp⟩
        uniform := by
          intro group member other inGroup
          rcases List.mem_append.mp member with before | isLast
          · exact adjacent.uniform group (List.mem_append_left _ before) other inGroup
          · obtain rfl := List.mem_singleton.mp isLast
            rcases List.mem_append.mp inGroup with old | new
            · exact adjacent.uniform (first :: more) (by simp) other old
            · obtain rfl := List.mem_singleton.mp new
              exact congrArg some same
        apart := by
          obtain ⟨leadApart, _, lastApart⟩ := List.isChain_append.mp adjacent.apart
          refine leadApart.append (.singleton _) fun group isLast next isNext => ?_
          obtain rfl := Option.some.inj isNext
          exact lastApart group isLast (first :: more) rfl }
    · simp only [if_neg same]
      exact opens (by simpa [groupKey] using same)

/-- The loop finds the groups. -/
theorem adjacentGroups_foldl (items : List Item) :
    AdjacentGroups key items (items.foldl (pushAdjacent key) []) := by
  induction items using List.reverseRecOn with
  | nil => exact ⟨rfl, by simp, by simp, .nil⟩
  | append_singleton items item ih =>
      rw [List.foldl_append]
      exact ih.push item

end Groups

/-! ## The first chunks -/

/-- What of each chunk is among the first items of all. -/
def cutChunks : Nat → List (List Item) → List (List Item)
  | _, [] => []
  | 0, _ :: _ => []
  | limit + 1, chunk :: rest =>
      chunk.take (limit + 1) :: cutChunks (limit + 1 - chunk.length) rest

theorem flatten_cutChunks (limit : Nat) (chunks : List (List Item)) :
    (cutChunks limit chunks).flatten = chunks.flatten.take limit := by
  induction chunks generalizing limit with
  | nil => cases limit <;> rfl
  | cons chunk rest ih =>
      cases limit with
      | zero => rfl
      | succ limit =>
          rw [cutChunks, List.flatten_cons, List.flatten_cons, ih, List.take_append]

section Cut

variable {key : Item → Key} {chunks : List (List Item)}

theorem exists_of_mem_cutChunks {limit : Nat} {group : List Item}
    (member : group ∈ cutChunks limit chunks) :
    ∃ chunk ∈ chunks, ∃ count, group = chunk.take (count + 1) := by
  induction chunks generalizing limit with
  | nil => cases limit <;> cases member
  | cons chunk rest ih =>
      cases limit with
      | zero => cases member
      | succ limit =>
          rcases List.mem_cons.mp member with rfl | later
          · exact ⟨chunk, .head _, limit, rfl⟩
          · obtain ⟨other, inRest, cut⟩ := ih later
            exact ⟨other, .tail _ inRest, cut⟩

theorem groupKey_take (group : List Item) (count : Nat) :
    groupKey key (group.take (count + 1)) = groupKey key group := by
  cases group <;> rfl

/-- The first of the cut chunks has the key of the first chunk, if that is reached. -/
theorem apart_head_cutChunks_iff (left : Nat) (group : Option Key) :
    (∀ cut ∈ (cutChunks left chunks).head?, group ≠ groupKey key cut) ↔
      ∀ next ∈ chunks.head?, 0 < left → group ≠ groupKey key next := by
  cases chunks with
  | nil => cases left <;> simp [cutChunks]
  | cons next back =>
      cases left with
      | zero => simp [cutChunks]
      | succ left => simp [cutChunks, groupKey_take]

/-- Cut chunks stand apart where the chunks do that the first items reach. -/
theorem isChain_cutChunks_iff (limit : Nat) :
    ((cutChunks limit chunks).IsChain fun group next => groupKey key group ≠ groupKey key next) ↔
      ∀ front chunk next back, chunks = front ++ chunk :: next :: back →
        (front ++ [chunk]).flatten.length < limit → groupKey key chunk ≠ groupKey key next := by
  induction chunks generalizing limit with
  | nil =>
      refine iff_of_true ?_ fun front chunk next back split => ?_
      · cases limit <;> exact .nil
      · exact absurd split.symm (by simp)
  | cons chunk rest ih =>
      cases limit with
      | zero => exact iff_of_true .nil fun _ _ _ _ _ reached => absurd reached (Nat.not_lt_zero _)
      | succ limit =>
          rw [cutChunks, List.isChain_cons, ih, apart_head_cutChunks_iff, groupKey_take]
          constructor
          · rintro ⟨here, later⟩ front group next back split reached
            cases front with
            | nil =>
                obtain ⟨rfl, rfl⟩ := List.cons.inj split
                refine here next rfl ?_
                rw [List.nil_append, List.flatten_singleton] at reached
                omega
            | cons first front =>
                obtain ⟨rfl, rfl⟩ := List.cons.inj split
                refine later front group next back rfl ?_
                rw [List.cons_append, List.flatten_cons, List.length_append] at reached
                omega
          · intro differ
            constructor
            · intro next isNext reached
              obtain ⟨back, rfl⟩ := List.head?_eq_some_iff.mp isNext
              refine differ [] chunk next back rfl ?_
              rw [List.nil_append, List.flatten_singleton]
              omega
            · intro front group next back split reached
              refine differ (chunk :: front) group next back (by rw [split]; rfl) ?_
              rw [List.cons_append, List.flatten_cons, List.length_append]
              omega

/-- The first items fall into their chunks where neighbouring chunks have different keys. -/
theorem adjacentGroups_cutChunks_iff
    (each : ∀ chunk ∈ chunks, chunk ≠ [] ∧ ∀ item ∈ chunk, groupKey key chunk = some (key item))
    (limit : Nat) :
    AdjacentGroups key (chunks.flatten.take limit) (cutChunks limit chunks) ↔
      ∀ front chunk next back, chunks = front ++ chunk :: next :: back →
        (front ++ [chunk]).flatten.length < limit → groupKey key chunk ≠ groupKey key next := by
  rw [← isChain_cutChunks_iff]
  refine ⟨AdjacentGroups.apart, fun apart => ⟨flatten_cutChunks limit chunks, ?_, ?_, apart⟩⟩
  · intro group member
    obtain ⟨chunk, isChunk, count, rfl⟩ := exists_of_mem_cutChunks member
    obtain ⟨first, more, rfl⟩ := List.exists_cons_of_ne_nil (each chunk isChunk).1
    exact List.cons_ne_nil _ _
  · intro group member item inGroup
    obtain ⟨chunk, isChunk, count, rfl⟩ := exists_of_mem_cutChunks member
    rw [groupKey_take]
    exact (each chunk isChunk).2 item (List.mem_of_mem_take inGroup)

end Cut

/-! ## Counts that start again -/

section Counts

variable {key : Item → Int}

/-- Chunks that are numbered down to one. -/
def CountsDown (key : Item → Int) : List (List Item) → Prop
  | [] => True
  | chunk :: rest =>
      chunk ≠ [] ∧ (∀ item ∈ chunk, key item = rest.length + 1) ∧ CountsDown key rest

theorem CountsDown.of_append {front back : List (List Item)}
    (counts : CountsDown key (front ++ back)) : CountsDown key back := by
  induction front with
  | nil => exact counts
  | cons chunk front ih => exact ih counts.2.2

theorem CountsDown.chunk {chunks : List (List Item)} (counts : CountsDown key chunks) :
    ∀ chunk ∈ chunks, chunk ≠ [] ∧ ∀ item ∈ chunk, groupKey key chunk = some (key item) := by
  induction chunks with
  | nil => simp
  | cons first rest ih =>
      obtain ⟨nonempty, number, later⟩ := counts
      refine List.forall_mem_cons.mpr ⟨⟨nonempty, fun item member => ?_⟩, ih later⟩
      obtain ⟨head, tail, rfl⟩ := List.exists_cons_of_ne_nil nonempty
      rw [number item member]
      exact congrArg some (number head (.head _))

theorem CountsDown.groupKey_head {chunk : List Item} {rest : List (List Item)}
    (counts : CountsDown key (chunk :: rest)) :
    groupKey key chunk = some ((rest.length : Int) + 1) := by
  obtain ⟨head, tail, rfl⟩ := List.exists_cons_of_ne_nil counts.1
  exact congrArg some (counts.2.1 head (.head _))

theorem CountsDown.groupKey_last {chunk : List Item} {front : List (List Item)}
    (counts : CountsDown key (front ++ [chunk])) : groupKey key chunk = some 1 :=
  counts.of_append.groupKey_head

/-- Within one count, neighbours have different numbers. -/
theorem CountsDown.apart {front back : List (List Item)} {chunk next : List Item}
    (counts : CountsDown key (front ++ chunk :: next :: back)) :
    groupKey key chunk ≠ groupKey key next := by
  have here := counts.of_append.groupKey_head
  rw [List.append_cons] at counts
  have there := counts.of_append.groupKey_head
  rw [here, there, List.length_cons]
  intro same
  have := Option.some.inj same
  omega

/-- The last chunk of several counts is the last of one of them. -/
theorem groupKey_last_of_counts {counts : List (List (List Item))}
    (all : ∀ count ∈ counts, CountsDown key count) {front : List (List Item)} {chunk : List Item}
    (split : counts.flatten = front ++ [chunk]) : groupKey key chunk = some 1 := by
  induction counts using List.reverseRecOn generalizing front with
  | nil => simp at split
  | append_singleton counts count ih =>
      rcases List.eq_nil_or_concat count with rfl | ⟨lead, last, rfl⟩
      · have same : counts.flatten = front ++ [chunk] := by simpa using split
        exact ih (fun other member => all other (List.mem_append_left _ member)) same
      · rw [List.concat_eq_append] at *
        have isLast : last = chunk := by
          rw [List.flatten_append, List.flatten_singleton, ← List.append_assoc] at split
          exact List.singleton_inj.mp (List.append_inj' split rfl).2
        rw [← isLast]
        exact (all (lead ++ [last]) (by simp)).groupKey_last

/-- Where an item of a joined list stands. -/
theorem exists_split_of_flatten {lists : List (List Item)} {front back : List Item} {item : Item}
    (split : lists.flatten = front ++ item :: back) :
    ∃ before lead tail after, lists = before ++ (lead ++ item :: tail) :: after ∧
      front = before.flatten ++ lead := by
  induction lists generalizing front with
  | nil => simp at split
  | cons list rest ih =>
      rw [List.flatten_cons] at split
      rcases List.append_eq_append_iff.mp split with ⟨more, rfl, later⟩ | ⟨more, rfl, here⟩
      · obtain ⟨before, lead, tail, after, rfl, rfl⟩ := ih later
        exact ⟨list :: before, lead, tail, after, rfl, by simp⟩
      · cases more with
        | nil =>
            have later : rest.flatten = [] ++ item :: back := by simpa using here.symm
            obtain ⟨before, lead, tail, after, rfl, empty⟩ := ih later
            exact ⟨(front ++ []) :: before, lead, tail, after, rfl, by simp [← empty]⟩
        | cons first tail =>
            obtain ⟨rfl, _⟩ := List.cons.inj here
            exact ⟨[], front, tail, rest, rfl, rfl⟩

/-- Neighbours have the same number only where a count of one chunk follows another count. -/
theorem apart_iff_of_counts {counts : List (List (List Item))}
    (all : ∀ count ∈ counts, CountsDown key count) (limit : Nat) :
    (∀ front chunk next back, counts.flatten = front ++ chunk :: next :: back →
        (front ++ [chunk]).flatten.length < limit → groupKey key chunk ≠ groupKey key next) ↔
      ∀ newer count older, counts = newer ++ count :: older → count.length = 1 →
        newer.flatten ≠ [] → limit ≤ newer.flatten.flatten.length := by
  constructor
  · rintro apart newer count older rfl isOne someNewer
    obtain ⟨next, rfl⟩ := List.length_eq_one_iff.mp isOne
    obtain ⟨front, chunk, isLast⟩ := (List.eq_nil_or_concat newer.flatten).resolve_left someNewer
    rw [List.concat_eq_append] at isLast
    by_contra reached
    refine apart front chunk next older.flatten ?_ ?_ ?_
    · rw [List.flatten_append, isLast]
      simp
    · rw [← isLast]
      omega
    · rw [groupKey_last_of_counts (fun count member => all count (by simp [member])) isLast,
        (all [next] (by simp)).groupKey_head]
      rfl
  · intro late front chunk next back split reached same
    rw [List.append_cons] at split
    obtain ⟨newer, lead, tail, older, rfl, before⟩ := exists_split_of_flatten split
    have counts := all (lead ++ next :: tail) (by simp)
    rcases List.eq_nil_or_concat lead with rfl | ⟨lead, last, rfl⟩
    · rw [List.append_nil] at before
      have isOne : groupKey key chunk = some 1 :=
        groupKey_last_of_counts (fun count member => all count (by simp [member])) before.symm
      have number := counts.groupKey_head.symm.trans (same.symm.trans isOne)
      have none : tail.length = 0 := by
        have := Option.some.inj number
        omega
      have some : newer.flatten ≠ [] := by
        rw [← before]
        simp
      have long := late newer _ older rfl (by simp [none]) some
      rw [← before] at long
      omega
    · rw [List.concat_eq_append, ← List.append_assoc] at before
      obtain rfl : chunk = last := List.singleton_inj.mp (List.append_inj' before rfl).2
      rw [List.concat_eq_append, List.append_assoc] at counts
      exact counts.apart same

end Counts

end OrderBookSimulator.Library
