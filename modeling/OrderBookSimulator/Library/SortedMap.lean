import Mathlib.Algebra.BigOperators.Group.List.Basic
import Mathlib.Order.Defs.Unbundled
import Mathlib.Tactic.Abel

/-!
# Maps kept in key order

A finite map is a list of entries whose keys strictly increase along a given
strict total order; the order is a parameter, so one development serves a map
iterated upwards and a map iterated downwards.  Every update is an instance of
`alter`.  Two facts about `alter` carry the rest: what a lookup sees afterwards
(`find?_alter`), and that the entry list is changed in one place only
(`entries_alter`).
-/

namespace OrderBookSimulator.Library

universe u v w

/-- Entries sorted by key; a list with a repeated or misplaced key is not a map. -/
structure SortedMap {Key : Type u} (Before : Key → Key → Prop) (Value : Type v) where
  entries : List (Key × Value)
  sorted : entries.Pairwise (fun first second => Before first.1 second.1)
  deriving DecidableEq

namespace SortedMap

variable {Key : Type u} {Before : Key → Key → Prop} {Value : Type v}

section Entries

variable [DecidableEq Key] [DecidableRel Before]

/-- The value of the first entry with the given key. -/
def lookup (key : Key) : List (Key × Value) → Option Value
  | [] => none
  | (other, value) :: rest => if key = other then some value else lookup key rest

/-- Rewrite what the list holds at one key, keeping the entries in order. -/
def alterEntries (Before : Key → Key → Prop) [DecidableRel Before] (key : Key)
    (change : Option Value → Option Value) : List (Key × Value) → List (Key × Value)
  | [] => ((change none).map fun value => (key, value)).toList
  | (other, value) :: rest =>
      if key = other then
        ((change (some value)).map fun value => (key, value)).toList ++ rest
      else if Before key other then
        ((change none).map fun value => (key, value)).toList ++ (other, value) :: rest
      else
        (other, value) :: alterEntries Before key change rest

theorem lookup_eq_none_of_forall_ne {key : Key} {entries : List (Key × Value)}
    (absent : ∀ entry ∈ entries, key ≠ entry.1) : lookup key entries = none := by
  induction entries with
  | nil => rfl
  | cons entry rest ih =>
      obtain ⟨other, value⟩ := entry
      rw [lookup, if_neg (absent _ (.head _))]
      exact ih fun entry member => absent entry (.tail _ member)

theorem mem_of_lookup {key : Key} {value : Value} {entries : List (Key × Value)}
    (found : lookup key entries = some value) : (key, value) ∈ entries := by
  induction entries with
  | nil => cases found
  | cons entry rest ih =>
      obtain ⟨other, present⟩ := entry
      by_cases same : key = other
      · rw [lookup, if_pos same] at found
        cases found
        rw [same]
        exact .head _
      · rw [lookup, if_neg same] at found
        exact .tail _ (ih found)

variable [IsStrictTotalOrder Key Before]

omit [DecidableRel Before] in
theorem lookup_of_mem {key : Key} {value : Value} {entries : List (Key × Value)}
    (sorted : entries.Pairwise (fun first second => Before first.1 second.1))
    (member : (key, value) ∈ entries) : lookup key entries = some value := by
  induction entries with
  | nil => cases member
  | cons entry rest ih =>
      obtain ⟨other, present⟩ := entry
      obtain ⟨ahead, tailSorted⟩ := List.pairwise_cons.mp sorted
      rcases List.mem_cons.mp member with here | later
      · cases here
        rw [lookup, if_pos rfl]
      · have different : key ≠ other := by
          rintro rfl
          exact irrefl_of Before key (ahead _ later)
        rw [lookup, if_neg different]
        exact ih tailSorted later

omit [DecidableRel Before] in
/-- What belongs to one key, taken out of what belongs to all. -/
theorem filter_flatMap_of_key {Item : Type*} {key : Key} {entries : List (Key × List Item)}
    (sorted : entries.Pairwise (fun first second => Before first.1 second.1))
    {wanted : Item → Bool}
    (own : ∀ entry ∈ entries, ∀ item ∈ entry.2, wanted item = decide (entry.1 = key)) :
    (entries.flatMap (·.2)).filter wanted = (lookup key entries).getD [] := by
  induction entries with
  | nil => rfl
  | cons entry rest ih =>
      obtain ⟨other, items⟩ := entry
      obtain ⟨ahead, tailSorted⟩ := List.pairwise_cons.mp sorted
      have later := ih tailSorted fun entry member => own entry (.tail _ member)
      have here := own (other, items) (.head _)
      rw [List.flatMap_cons, List.filter_append, later, lookup]
      by_cases same : key = other
      · subst same
        have all : items.filter wanted = items :=
          List.filter_eq_self.mpr fun item member => by simpa using here item member
        have none : lookup key rest = none := by
          refine lookup_eq_none_of_forall_ne fun entry member equal => ?_
          have before := ahead entry member
          rw [← equal] at before
          exact irrefl_of Before key before
        rw [if_pos rfl, all, none, Option.getD_none, Option.getD_some, List.append_nil]
      · have none : items.filter wanted = [] :=
          List.filter_eq_nil_iff.mpr fun item member => by
            simpa [Ne.symm same] using here item member
        rw [if_neg same, none, List.nil_append]

variable (Before) in
/-- The altered list is the old one with the entry at `key` exchanged in place. -/
theorem alterEntries_splice (key : Key) (change : Option Value → Option Value)
    {entries : List (Key × Value)}
    (sorted : entries.Pairwise (fun first second => Before first.1 second.1)) :
    ∃ lead tail,
      entries = lead ++ ((lookup key entries).map fun value => (key, value)).toList ++ tail ∧
      alterEntries Before key change entries =
        lead ++ ((change (lookup key entries)).map fun value => (key, value)).toList ++ tail ∧
      (∀ entry ∈ lead, Before entry.1 key) ∧ ∀ entry ∈ tail, Before key entry.1 := by
  induction entries with
  | nil => exact ⟨[], [], by simp [lookup], by simp [lookup, alterEntries], by simp, by simp⟩
  | cons entry rest ih =>
      obtain ⟨other, value⟩ := entry
      obtain ⟨ahead, tailSorted⟩ := List.pairwise_cons.mp sorted
      by_cases same : key = other
      · subst same
        exact ⟨[], rest, by simp [lookup], by simp [lookup, alterEntries], by simp, ahead⟩
      · by_cases before : Before key other
        · -- the key belongs before every entry, so it is absent
          have absent : ∀ entry ∈ (other, value) :: rest, Before key entry.1 := by
            intro entry member
            rcases List.mem_cons.mp member with rfl | later
            · exact before
            · exact trans_of Before before (ahead _ later)
          have missing : lookup key ((other, value) :: rest) = none := by
            apply lookup_eq_none_of_forall_ne
            rintro entry member rfl
            exact irrefl_of Before _ (absent entry member)
          refine ⟨[], (other, value) :: rest, ?_, ?_, by simp, absent⟩
          · rw [missing]
            rfl
          · rw [missing, alterEntries, if_neg same, if_pos before]
            rfl
        · obtain ⟨lead, tail, entriesEq, alteredEq, leadBefore, tailAfter⟩ := ih tailSorted
          have after : Before other key := by
            rcases trichotomous_of Before key other with h | h | h
            · exact absurd h before
            · exact absurd h same
            · exact h
          refine ⟨(other, value) :: lead, tail, ?_, ?_, ?_, tailAfter⟩
          · rw [lookup, if_neg same]
            simpa using entriesEq
          · rw [lookup, if_neg same, alterEntries, if_neg same, if_neg before]
            simpa using alteredEq
          · intro entry member
            rcases List.mem_cons.mp member with rfl | later
            · exact after
            · exact leadBefore entry later

theorem alterEntries_sorted (key : Key) (change : Option Value → Option Value)
    {entries : List (Key × Value)}
    (sorted : entries.Pairwise (fun first second => Before first.1 second.1)) :
    (alterEntries Before key change entries).Pairwise
      (fun first second => Before first.1 second.1) := by
  obtain ⟨lead, tail, entriesEq, alteredEq, leadBefore, tailAfter⟩ :=
    alterEntries_splice Before key change sorted
  rw [entriesEq] at sorted
  rw [alteredEq]
  obtain ⟨frontSorted, tailSorted, frontTail⟩ := List.pairwise_append.mp sorted
  obtain ⟨leadSorted, _, _⟩ := List.pairwise_append.mp frontSorted
  have leadTail : ∀ first ∈ lead, ∀ second ∈ tail, Before first.1 second.1 :=
    fun first hfirst second hsecond =>
      frontTail first (List.mem_append_left _ hfirst) second hsecond
  refine List.pairwise_append.mpr ⟨List.pairwise_append.mpr ⟨leadSorted, ?_, ?_⟩, tailSorted, ?_⟩
  · cases change (lookup key entries) <;> simp
  · intro first hfirst second hsecond
    cases hchange : change (lookup key entries) with
    | none => simp [hchange] at hsecond
    | some value =>
        rw [hchange] at hsecond
        obtain rfl : second = (key, value) := by simpa using hsecond
        exact leadBefore first hfirst
  · intro first hfirst second hsecond
    rcases List.mem_append.mp hfirst with inLead | inMiddle
    · exact leadTail first inLead second hsecond
    · cases hchange : change (lookup key entries) with
      | none => simp [hchange] at inMiddle
      | some value =>
          rw [hchange] at inMiddle
          obtain rfl : first = (key, value) := by simpa using inMiddle
          exact tailAfter second hsecond

end Entries

/-- The map with no entry. -/
def empty : SortedMap Before Value := ⟨[], .nil⟩

instance : Inhabited (SortedMap Before Value) := ⟨empty⟩

@[simp] theorem entries_empty : (empty : SortedMap Before Value).entries = [] := rfl

/-- The entry whose key comes first. -/
def first? (map : SortedMap Before Value) : Option (Key × Value) := map.entries.head?

section Lookup

variable [DecidableEq Key]

def find? (map : SortedMap Before Value) (key : Key) : Option Value := lookup key map.entries

/-- The value at a key, or `fallback` where the map has none. -/
def findD (map : SortedMap Before Value) (key : Key) (fallback : Value) : Value :=
  (map.find? key).getD fallback

@[simp] theorem find?_empty (key : Key) : (empty : SortedMap Before Value).find? key = none := rfl

variable [IsStrictTotalOrder Key Before]

theorem mem_entries_iff {map : SortedMap Before Value} {key : Key} {value : Value} :
    (key, value) ∈ map.entries ↔ map.find? key = some value :=
  ⟨lookup_of_mem map.sorted, mem_of_lookup⟩

/-- Two maps that answer every lookup alike are the same map. -/
theorem ext_find? {first second : SortedMap Before Value}
    (same : ∀ key, first.find? key = second.find? key) : first = second := by
  have members : ∀ entry, entry ∈ first.entries ↔ entry ∈ second.entries := by
    rintro ⟨key, value⟩
    rw [mem_entries_iff, mem_entries_iff, same]
  have distinct : ∀ {entries : List (Key × Value)},
      entries.Pairwise (fun first second => Before first.1 second.1) → entries.Nodup := by
    intro entries sorted
    refine List.Pairwise.imp ?_ sorted
    rintro first _ before rfl
    exact irrefl_of Before _ before
  have perm : first.entries.Perm second.entries :=
    (List.perm_ext_iff_of_nodup (distinct first.sorted) (distinct second.sorted)).mpr members
  have entriesEq : first.entries = second.entries := by
    apply perm.eq_of_pairwise _ first.sorted second.sorted
    intro a b _ _ ab ba
    exact absurd (trans_of Before ab ba) (irrefl_of Before _)
  cases first
  cases second
  cases entriesEq
  rfl

/-- The first entry is the one whose key is before every other key. -/
theorem first?_eq_some_iff {map : SortedMap Before Value} {key : Key} {value : Value} :
    map.first? = some (key, value) ↔
      map.find? key = some value ∧
        ∀ other present, map.find? other = some present → other = key ∨ Before key other := by
  constructor
  · intro first
    obtain ⟨rest, entriesEq⟩ : ∃ rest, map.entries = (key, value) :: rest := by
      cases hentries : map.entries with
      | nil => simp [first?, hentries] at first
      | cons entry rest =>
          obtain rfl : entry = (key, value) := by simpa [first?, hentries] using first
          exact ⟨rest, rfl⟩
    refine ⟨mem_entries_iff.mp (by simp [entriesEq]), ?_⟩
    intro other present found
    have member := mem_entries_iff.mpr found
    rw [entriesEq] at member
    rcases List.mem_cons.mp member with here | later
    · cases here
      exact Or.inl rfl
    · have sorted := map.sorted
      rw [entriesEq] at sorted
      exact Or.inr ((List.pairwise_cons.mp sorted).1 _ later)
  · rintro ⟨found, ahead⟩
    have member := mem_entries_iff.mpr found
    cases hentries : map.entries with
    | nil => simp [hentries] at member
    | cons entry rest =>
        obtain ⟨firstKey, firstValue⟩ := entry
        have foundFirst : map.find? firstKey = some firstValue :=
          mem_entries_iff.mp (by simp [hentries])
        have sameKey : firstKey = key := by
          rcases ahead firstKey firstValue foundFirst with same | before
          · exact same
          · have sorted := map.sorted
            rw [hentries] at sorted member
            rcases List.mem_cons.mp member with here | later
            · cases here
              rfl
            · exact absurd (trans_of Before before ((List.pairwise_cons.mp sorted).1 _ later))
                (irrefl_of Before _)
        subst sameKey
        rw [found] at foundFirst
        cases foundFirst
        simp [first?, hentries]

theorem first?_eq_none_iff {map : SortedMap Before Value} :
    map.first? = none ↔ ∀ key, map.find? key = none := by
  constructor
  · intro first key
    have entriesEq : map.entries = [] := List.head?_eq_none_iff.mp first
    rw [find?, entriesEq]
    rfl
  · intro absent
    cases hfirst : map.first? with
    | none => rfl
    | some entry =>
        have found := (first?_eq_some_iff.mp hfirst).1
        rw [absent] at found
        cases found

end Lookup

section Update

variable [DecidableEq Key] [DecidableRel Before] [IsStrictTotalOrder Key Before]

/-- Replace the value at one key; `change` sees the old value and may drop the entry. -/
def alter (map : SortedMap Before Value) (key : Key)
    (change : Option Value → Option Value) : SortedMap Before Value :=
  ⟨alterEntries Before key change map.entries, alterEntries_sorted key change map.sorted⟩

def insert (map : SortedMap Before Value) (key : Key) (value : Value) : SortedMap Before Value :=
  map.alter key fun _ => some value

def erase (map : SortedMap Before Value) (key : Key) : SortedMap Before Value :=
  map.alter key fun _ => none

/-- Update the value at a key, starting from `fallback` where the key is new. -/
def upsert (map : SortedMap Before Value) (key : Key) (fallback : Value)
    (update : Value → Value) : SortedMap Before Value :=
  map.alter key fun value => some (update (value.getD fallback))

/-- Altering exchanges one stretch of the entry list and leaves the rest as it was. -/
theorem entries_alter (map : SortedMap Before Value) (key : Key)
    (change : Option Value → Option Value) :
    ∃ lead tail,
      map.entries = lead ++ ((map.find? key).map fun value => (key, value)).toList ++ tail ∧
      (map.alter key change).entries =
        lead ++ ((change (map.find? key)).map fun value => (key, value)).toList ++ tail := by
  obtain ⟨lead, tail, entriesEq, alteredEq, _, _⟩ :=
    alterEntries_splice Before key change map.sorted
  exact ⟨lead, tail, entriesEq, alteredEq⟩

/-- A lookup after `alter` sees the change at that key and nothing else. -/
theorem find?_alter (map : SortedMap Before Value) (key other : Key)
    (change : Option Value → Option Value) :
    (map.alter key change).find? other =
      if other = key then change (map.find? key) else map.find? other := by
  obtain ⟨lead, tail, entriesEq, alteredEq, leadBefore, tailAfter⟩ :=
    alterEntries_splice Before key change map.sorted
  have sameEntry : ∀ value, (other, value) ∈ (map.alter key change).entries ↔
      (other, value) ∈
        lead ++ ((change (map.find? key)).map fun value => (key, value)).toList ++ tail := by
    intro value
    rw [show (map.alter key change).entries = _ from alteredEq, find?]
  by_cases same : other = key
  · subst same
    rw [if_pos rfl]
    have notLead : ∀ value, (other, value) ∉ lead :=
      fun value member => irrefl_of Before other (leadBefore _ member)
    have notTail : ∀ value, (other, value) ∉ tail :=
      fun value member => irrefl_of Before other (tailAfter _ member)
    apply Option.ext
    intro value
    rw [← mem_entries_iff, sameEntry]
    simp [notLead, notTail]
  · rw [if_neg same]
    apply Option.ext
    intro value
    rw [← mem_entries_iff, sameEntry, ← mem_entries_iff, entriesEq]
    simp [Ne.symm same]

@[simp] theorem find?_insert (map : SortedMap Before Value) (key other : Key) (value : Value) :
    (map.insert key value).find? other = if other = key then some value else map.find? other :=
  find?_alter map key other _

@[simp] theorem find?_erase (map : SortedMap Before Value) (key other : Key) :
    (map.erase key).find? other = if other = key then none else map.find? other :=
  find?_alter map key other _

@[simp] theorem findD_upsert (map : SortedMap Before Value) (key other : Key) (fallback : Value)
    (update : Value → Value) :
    (map.upsert key fallback update).findD other fallback =
      if other = key then update (map.findD key fallback) else map.findD other fallback := by
  unfold findD upsert
  rw [find?_alter]
  split <;> rfl

/-- A sum over the entries moves by what the altered key contributed before and after. -/
theorem sum_alter {Total : Type w} [AddCommGroup Total] (map : SortedMap Before Value) (key : Key)
    (change : Option Value → Option Value) (weight : Key × Value → Total) :
    ((map.alter key change).entries.map weight).sum =
      (map.entries.map weight).sum -
        ((map.find? key).elim 0 fun value => weight (key, value)) +
        ((change (map.find? key)).elim 0 fun value => weight (key, value)) := by
  obtain ⟨lead, tail, entriesEq, alteredEq⟩ := map.entries_alter key change
  have single : ∀ value : Option Value,
      (((value.map fun value => (key, value)).toList).map weight).sum =
        value.elim 0 fun value => weight (key, value) := by
    intro value
    cases value <;> simp
  rw [alteredEq]
  conv_rhs => rw [entriesEq]
  simp only [List.map_append, List.sum_append, single]
  abel

end Update

section Relabel

universe x

variable {OtherKey : Type w} {OtherBefore : OtherKey → OtherKey → Prop} {OtherValue : Type x}
  {rename : Key → OtherKey} {revalue : Value → OtherValue}
  (ordered : ∀ first second, Before first second → OtherBefore (rename first) (rename second))

variable (revalue) in
/-- The same map under other keys, which must stand in the same order, and other values. -/
def relabel (map : SortedMap Before Value) : SortedMap OtherBefore OtherValue :=
  ⟨map.entries.map fun entry => (rename entry.1, revalue entry.2),
    List.pairwise_map.mpr (map.sorted.imp fun before => ordered _ _ before)⟩

@[simp] theorem first?_relabel (map : SortedMap Before Value) :
    (map.relabel revalue ordered).first? =
      map.first?.map fun entry => (rename entry.1, revalue entry.2) :=
  List.head?_map

variable [DecidableEq Key] [DecidableRel Before] [IsStrictTotalOrder Key Before]
  [DecidableEq OtherKey] [DecidableRel OtherBefore] [IsStrictTotalOrder OtherKey OtherBefore]

include ordered

omit [DecidableEq Key] [DecidableRel Before] [DecidableEq OtherKey] [DecidableRel OtherBefore] in
/-- Keys kept in order are kept apart. -/
theorem rename_inj {first second : Key} : rename first = rename second ↔ first = second := by
  constructor
  · intro same
    rcases trichotomous_of Before first second with before | equal | after
    · have kept := ordered _ _ before
      rw [same] at kept
      exact absurd kept (irrefl_of OtherBefore _)
    · exact equal
    · have kept := ordered _ _ after
      rw [same] at kept
      exact absurd kept (irrefl_of OtherBefore _)
  · rintro rfl
    rfl

omit [DecidableEq Key] [DecidableRel Before] [DecidableEq OtherKey] [DecidableRel OtherBefore] in
theorem rename_before {first second : Key} :
    OtherBefore (rename first) (rename second) ↔ Before first second := by
  constructor
  · intro kept
    rcases trichotomous_of Before first second with before | rfl | after
    · exact before
    · exact absurd kept (irrefl_of OtherBefore _)
    · exact absurd (trans_of OtherBefore kept (ordered _ _ after)) (irrefl_of OtherBefore _)
  · exact ordered _ _

/-- A change that treats old and new values alike may be made before or after relabelling. -/
theorem relabel_alter (map : SortedMap Before Value) (key : Key)
    {change : Option Value → Option Value} {otherChange : Option OtherValue → Option OtherValue}
    (alike : ∀ value, otherChange (value.map revalue) = (change value).map revalue) :
    (map.alter key change).relabel revalue ordered =
      (map.relabel revalue ordered).alter (rename key) otherChange := by
  obtain ⟨entries, sorted⟩ := map
  simp only [alter, relabel, mk.injEq]
  clear sorted
  have made : ∀ value, (((change value).map fun value => (key, value)).toList.map
      fun entry => (rename entry.1, revalue entry.2)) =
        ((otherChange (value.map revalue)).map fun value => (rename key, value)).toList := by
    intro value
    rw [alike]
    cases change value <;> rfl
  induction entries with
  | nil => exact made none
  | cons entry rest ih =>
      obtain ⟨other, value⟩ := entry
      simp only [alterEntries, List.map_cons, rename_inj ordered, rename_before ordered]
      split
      · rw [List.map_append, made]
        rfl
      · split
        · rw [List.map_append, made]
          rfl
        · rw [List.map_cons, ih]

end Relabel

end SortedMap

end OrderBookSimulator.Library
