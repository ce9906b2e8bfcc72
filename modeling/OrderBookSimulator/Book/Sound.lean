import Mathlib.Data.List.Nodup
import OrderBookSimulator.Book.Level

/-!
# Sound books

What holds of a book as long as no erased node has been followed: levels are
non-empty and hold orders of their own side and price, and the index names
every queued node.  The converse, that every index entry names a queued node,
is not part of it; an entry without a queued node is stale.
-/

namespace OrderBookSimulator

open Library

namespace OrderBook

/-- Some queued order has this id. -/
def Resting (book : OrderBook) (orderId : Int) : Prop :=
  ∃ order ∈ book.resting, order.id = orderId

instance (book : OrderBook) (orderId : Int) : Decidable (book.Resting orderId) :=
  inferInstanceAs (Decidable (∃ order ∈ book.resting, order.id = orderId))

/-- The id is a key of the index although nothing queued has it. -/
def Stale (book : OrderBook) (orderId : Int) : Prop :=
  (book.index.find? orderId).isSome ∧ ¬ book.Resting orderId

instance (book : OrderBook) (orderId : Int) : Decidable (book.Stale orderId) :=
  inferInstanceAs (Decidable (_ ∧ _))

/-- Every id is unknown, resting or stale. -/
theorem unknown_or_resting_or_stale (book : OrderBook) (orderId : Int) :
    book.index.find? orderId = none ∧ ¬ book.Resting orderId ∨
      book.Resting orderId ∨ book.Stale orderId := by
  by_cases resting : book.Resting orderId
  · exact Or.inr (Or.inl resting)
  · cases found : book.index.find? orderId with
    | none => exact Or.inl ⟨rfl, resting⟩
    | some loc => exact Or.inr (Or.inr ⟨by simp [found], resting⟩)

structure Sound (book : OrderBook) : Prop where
  noEmptyLevel : book.NoEmptyLevel
  positive : ∀ node ∈ book.nodes, 0 < node.order.qty
  placed : ∀ side price, ∀ node ∈ book.level side price,
    node.order.side = side ∧ node.order.price = price
  located : ∀ side price, ∀ node ∈ book.level side price,
    book.index.find? node.order.id = some ⟨side, price, node.address⟩
  addresses : (book.nodes.map (·.address)).Nodup
  allocated : ∀ orderId loc, book.index.find? orderId = some loc → loc.it < book.nextAddress
  separate : ∀ orderId other loc otherLoc, book.index.find? orderId = some loc →
    book.index.find? other = some otherLoc → loc.it = otherLoc.it → orderId = other

theorem sound_empty (onChange : Option (List Snapshot)) : ({ onChange } : OrderBook).Sound where
  noEmptyLevel := by intro side price; cases side <;> simp [levels]
  positive := by simp [nodes]
  placed := by intro side price node; cases side <;> simp [level, levels, SortedMap.findD]
  located := by intro side price node; cases side <;> simp [level, levels, SortedMap.findD]
  addresses := by simp [nodes]
  allocated := by simp
  separate := by simp

namespace Sound

variable {book : OrderBook} (sound : book.Sound)

include sound

theorem located_of_mem {node : Node} (queued : node ∈ book.nodes) :
    book.index.find? node.order.id = some ⟨node.order.side, node.order.price, node.address⟩ ∧
      node ∈ book.level node.order.side node.order.price := by
  obtain ⟨side, price, atLevel⟩ := mem_nodes_iff.mp queued
  obtain ⟨rfl, rfl⟩ := sound.placed side price node atLevel
  exact ⟨sound.located _ _ node atLevel, atLevel⟩

/-- No id is queued twice, across both sides. -/
theorem ids_nodup : (book.nodes.map (·.order.id)).Nodup := by
  have through : book.nodes.map (·.address) =
      (book.nodes.map (·.order.id)).map fun orderId =>
        ((book.index.find? orderId).map (·.it)).getD 0 := by
    rw [List.map_map]
    apply List.map_congr_left
    intro node queued
    simp [(sound.located_of_mem queued).1]
  have nodup := sound.addresses
  rw [through] at nodup
  exact nodup.of_map _

theorem eq_of_id_eq {first second : Node} (hfirst : first ∈ book.nodes)
    (hsecond : second ∈ book.nodes) (same : first.order.id = second.order.id) :
    first = second :=
  List.inj_on_of_nodup_map sound.ids_nodup hfirst hsecond same

theorem resting_nodup : (book.resting.map (·.id)).Nodup := by
  rw [resting, List.map_map]
  exact sound.ids_nodup

theorem qty_pos {order : Order} (member : order ∈ book.resting) : 0 < order.qty := by
  obtain ⟨node, queued, rfl⟩ := List.mem_map.mp member
  exact sound.positive node queued

theorem index_of_resting {orderId : Int} (resting : book.Resting orderId) :
    ∃ node ∈ book.nodes, node.order.id = orderId ∧
      book.index.find? orderId = some ⟨node.order.side, node.order.price, node.address⟩ := by
  obtain ⟨order, member, rfl⟩ := resting
  obtain ⟨node, queued, rfl⟩ := List.mem_map.mp member
  exact ⟨node, queued, rfl, (sound.located_of_mem queued).1⟩

theorem eq_of_address_eq {first second : Node} (hfirst : first ∈ book.nodes)
    (hsecond : second ∈ book.nodes) (same : first.address = second.address) : first = second :=
  List.inj_on_of_nodup_map sound.addresses hfirst hsecond same

/-- Splitting a level around one of its nodes. -/
theorem split_level {node : Node} (queued : node ∈ book.nodes) :
    ∃ lead tail, book.level node.order.side node.order.price = lead ++ node :: tail ∧
      ∀ other ∈ lead ++ tail, other ∈ book.nodes ∧ other ≠ node := by
  obtain ⟨lead, tail, levelEq⟩ := List.append_of_mem (sound.located_of_mem queued).2
  refine ⟨lead, tail, levelEq, ?_⟩
  intro other member
  have inNodes : other ∈ book.nodes := by
    refine mem_nodes_iff.mpr ⟨node.order.side, node.order.price, ?_⟩
    rw [levelEq]
    exact List.perm_middle.mem_iff.mpr (.tail _ member)
  refine ⟨inNodes, ?_⟩
  rintro rfl
  have levelNodup := sound.addresses.of_map.sublist
    (book.level_sublist other.order.side other.order.price)
  rw [levelEq] at levelNodup
  exact (List.nodup_cons.mp (List.nodup_middle.mp levelNodup)).1 member

/-- The best level of a side has a first order. -/
theorem exists_front {side : Side} (nonempty : (book.levels side).first? ≠ none) :
    ∃ price front rest, (book.levels side).first? = some (price, front :: rest) := by
  obtain ⟨⟨price, queue⟩, first⟩ := Option.ne_none_iff_exists'.mp nonempty
  cases queue with
  | nil => exact absurd (SortedMap.first?_eq_some_iff.mp first).1 (sound.noEmptyLevel side price)
  | cons front rest => exact ⟨price, front, rest, first⟩

/-! ## What a lookup finds -/

theorem findOrder_of_mem {node : Node} (queued : node ∈ book.nodes) :
    book.findOrder node.order.id = .ok (some node.order) := by
  have found : book.nodes.find? (·.address = node.address) = some node := by
    cases search : book.nodes.find? (·.address = node.address) with
    | none =>
        have absent := List.find?_eq_none.mp search node queued
        simp at absent
    | some other =>
        have same : other.address = node.address := by simpa using List.find?_some search
        rw [sound.eq_of_address_eq (List.mem_of_find?_eq_some search) queued same]
  simp only [findOrder, (sound.located_of_mem queued).1, found]

/-- A stale entry holds the address of a node that is in no list any more. -/
theorem findOrder_of_stale {orderId : Int} (stale : book.Stale orderId) :
    book.findOrder orderId = .error .erasedNode := by
  obtain ⟨known, notResting⟩ := stale
  obtain ⟨loc, found⟩ := Option.isSome_iff_exists.mp known
  have search : book.nodes.find? (·.address = loc.it) = none := by
    rw [List.find?_eq_none]
    intro node queued same
    apply notResting
    have foundNode := (sound.located_of_mem queued).1
    have ids := sound.separate _ _ _ _ foundNode found (by simpa using same)
    exact ⟨node.order, List.mem_map_of_mem queued, ids⟩
  simp only [findOrder, found, search]

theorem not_resting_of_unknown {orderId : Int}
    (unknown : book.index.find? orderId = none) : ¬ book.Resting orderId := by
  intro resting
  obtain ⟨node, _, _, found⟩ := sound.index_of_resting resting
  rw [unknown] at found
  cases found

/-! ## What each change of the book preserves -/

/-- Soundness does not depend on the change callback. -/
theorem withOnChange (onChange : Option (List Snapshot)) :
    ({ book with onChange } : OrderBook).Sound where
  noEmptyLevel := fun side => by rw [levels_withOnChange]; exact sound.noEmptyLevel side
  positive := sound.positive
  placed := fun side => by unfold level; rw [levels_withOnChange]; exact sound.placed side
  located := fun side => by unfold level; rw [levels_withOnChange]; exact sound.located side
  addresses := sound.addresses
  allocated := sound.allocated
  separate := sound.separate

theorem notifyChange : book.notifyChange.Sound := sound.withOnChange _

theorem setOnChange : book.setOnChange.Sound := sound.withOnChange _

/-- Taking a node out of its level; the index keeps its entry. -/
theorem remove {side : Side} {price : Int} {lead tail : OrderList} {node : Node}
    (levelEq : book.level side price = lead ++ node :: tail) :
    (book.setLevel side price (lead ++ tail)).Sound := by
  obtain ⟨before, after, nodesEq, nodesEq'⟩ :=
    book.nodes_setLevel side price (lead ++ tail)
  rw [levelEq] at nodesEq
  have sublist : (book.setLevel side price (lead ++ tail)).nodes.Sublist book.nodes := by
    rw [nodesEq, nodesEq']
    have inner : (lead ++ tail).Sublist (lead ++ node :: tail) :=
      (List.Sublist.refl lead).append (List.sublist_cons_self node tail)
    exact ((List.Sublist.refl before).append inner).append (List.Sublist.refl after)
  have atLevel : ∀ other otherPrice, ∀ queued ∈
      (book.setLevel side price (lead ++ tail)).level other otherPrice,
      queued ∈ book.level other otherPrice := by
    intro other otherPrice queued member
    rw [level_setLevel] at member
    split at member
    · obtain ⟨rfl, rfl⟩ := ‹_ ∧ _›
      rw [levelEq]
      simp only [List.mem_append, List.mem_cons] at member ⊢
      tauto
    · exact member
  exact {
    noEmptyLevel := sound.noEmptyLevel.setLevel side price _
    positive := fun queued member => sound.positive queued (sublist.subset member)
    placed := fun other otherPrice queued member =>
      sound.placed other otherPrice queued (atLevel _ _ queued member)
    located := fun other otherPrice queued member => by
      rw [index_setLevel]
      exact sound.located other otherPrice queued (atLevel _ _ queued member)
    addresses := sound.addresses.sublist (sublist.map _)
    allocated := by simpa using sound.allocated
    separate := by simpa using sound.separate }

/-- Shrinking the first order of a level to a positive quantity. -/
theorem shrink {side : Side} {price qty : Int} {rest : OrderList} {node : Node}
    (levelEq : book.level side price = node :: rest) (positive : 0 < qty) :
    (book.setLevel side price
      ({ node with order := { node.order with qty := qty } } :: rest)).Sound := by
  obtain ⟨others, before, after⟩ := book.nodes_setLevel_perm side price
    ({ node with order := { node.order with qty := qty } } :: rest)
  rw [levelEq] at before
  have atLevel : ∀ other otherPrice, ∀ queued ∈ (book.setLevel side price
      ({ node with order := { node.order with qty := qty } } :: rest)).level other otherPrice,
      ∃ old ∈ book.level other otherPrice, queued.address = old.address ∧
        queued.order.id = old.order.id ∧ queued.order.side = old.order.side ∧
        queued.order.price = old.order.price := by
    intro other otherPrice queued member
    rw [level_setLevel] at member
    split at member
    · obtain ⟨rfl, rfl⟩ := ‹_ ∧ _›
      rcases List.mem_cons.mp member with rfl | later
      · exact ⟨node, by simp [levelEq], rfl, rfl, rfl, rfl⟩
      · exact ⟨queued, by simp [levelEq, later], rfl, rfl, rfl, rfl⟩
    · exact ⟨queued, member, rfl, rfl, rfl, rfl⟩
  exact {
    noEmptyLevel := sound.noEmptyLevel.setLevel side price _
    positive := by
      intro queued member
      rcases List.mem_cons.mp (after.mem_iff.mp member) with rfl | unchanged
      · exact positive
      · exact sound.positive queued (before.mem_iff.mpr (.tail _ unchanged))
    placed := by
      intro other otherPrice queued member
      obtain ⟨old, atOld, _, _, sameSide, samePrice⟩ := atLevel _ _ queued member
      rw [sameSide, samePrice]
      exact sound.placed other otherPrice old atOld
    located := by
      intro other otherPrice queued member
      obtain ⟨old, atOld, sameAddress, sameId, _, _⟩ := atLevel _ _ queued member
      rw [index_setLevel, sameAddress, sameId]
      exact sound.located other otherPrice old atOld
    addresses := by
      rw [(after.map _).nodup_iff]
      exact (before.map _).nodup_iff.mp sound.addresses
    allocated := by simpa using sound.allocated
    separate := by simpa using sound.separate }

/-- Forgetting an id that nothing queued has. -/
theorem forget {orderId : Int} (notResting : ¬ book.Resting orderId) :
    (book.forget orderId).Sound where
  noEmptyLevel := fun side => by rw [levels_forget]; exact sound.noEmptyLevel side
  positive := sound.positive
  placed := fun side price => by rw [level_forget]; exact sound.placed side price
  located := fun side price node member => by
    rw [level_forget] at member
    have different : node.order.id ≠ orderId := by
      rintro rfl
      exact notResting
        ⟨node.order, List.mem_map_of_mem (mem_nodes_iff.mpr ⟨_, _, member⟩), rfl⟩
    simpa [different] using sound.located side price node member
  addresses := sound.addresses
  allocated := by
    intro other loc found
    rw [index_forget, SortedMap.find?_erase] at found
    split at found
    · cases found
    · exact sound.allocated other loc found
  separate := by
    intro first second loc loc' foundFirst foundSecond same
    rw [index_forget, SortedMap.find?_erase] at foundFirst foundSecond
    split at foundFirst
    · cases foundFirst
    · split at foundSecond
      · cases foundSecond
      · exact sound.separate _ _ _ _ foundFirst foundSecond same

/-- Pushing a new id to the back of its level. -/
theorem addRestingOrder {order : Order} (positive : 0 < order.qty)
    (new : book.index.find? order.id = none) : (book.addRestingOrder order).Sound := by
  rw [addRestingOrder_of_new positive new]
  apply notifyChange
  have atLevel : ∀ side price, ∀ node ∈ (book.setLevel order.side order.price
      (book.level order.side order.price ++ [⟨book.nextAddress, order⟩])).level side price,
      node = ⟨book.nextAddress, order⟩ ∧ order.side = side ∧ order.price = price ∨
        node ∈ book.level side price := by
    intro side price node member
    rw [level_setLevel] at member
    split at member
    · obtain ⟨rfl, rfl⟩ := ‹_ ∧ _›
      rcases List.mem_append.mp member with old | added
      · exact Or.inr old
      · exact Or.inl ⟨List.mem_singleton.mp added, rfl, rfl⟩
    · exact Or.inr member
  have sameLevel : ∀ side price, ({ book.setLevel order.side order.price
        (book.level order.side order.price ++ [⟨book.nextAddress, order⟩]) with
        nextAddress := book.nextAddress + 1
        index := book.index.insert order.id
          ⟨order.side, order.price, book.nextAddress⟩ } : OrderBook).level side price =
      (book.setLevel order.side order.price
        (book.level order.side order.price ++ [⟨book.nextAddress, order⟩])).level side price := by
    intro side price
    cases side <;> rfl
  have bound : ∀ node ∈ book.nodes, node.address < book.nextAddress :=
    fun node queued => sound.allocated _ _ (sound.located_of_mem queued).1
  exact {
    noEmptyLevel := by
      intro side
      have kept := sound.noEmptyLevel.setLevel order.side order.price
        (book.level order.side order.price ++ [⟨book.nextAddress, order⟩]) side
      cases side <;> exact kept
    positive := by
      intro node member
      change node ∈ (book.setLevel _ _ _).nodes at member
      obtain ⟨side, price, queued⟩ := mem_nodes_iff.mp member
      rcases atLevel side price node queued with ⟨rfl, _⟩ | old
      · exact positive
      · exact sound.positive node (mem_nodes_iff.mpr ⟨side, price, old⟩)
    placed := by
      intro side price node member
      rw [sameLevel] at member
      rcases atLevel side price node member with ⟨rfl, sameSide, samePrice⟩ | old
      · exact ⟨sameSide, samePrice⟩
      · exact sound.placed side price node old
    located := by
      intro side price node member
      rw [sameLevel] at member
      rcases atLevel side price node member with ⟨rfl, sameSide, samePrice⟩ | old
      · simp [sameSide, samePrice]
      · have found := sound.located side price node old
        have different : node.order.id ≠ order.id := by
          intro same
          rw [same, new] at found
          cases found
        simpa [different] using found
    addresses := by
      change ((book.setLevel _ _ _).nodes.map (·.address)).Nodup
      have perm : (book.setLevel order.side order.price (book.level order.side order.price ++
          [⟨book.nextAddress, order⟩])).nodes.Perm (⟨book.nextAddress, order⟩ :: book.nodes) := by
        obtain ⟨others, before, after⟩ := book.nodes_setLevel_perm order.side order.price
          (book.level order.side order.price ++ [⟨book.nextAddress, order⟩])
        rw [List.append_assoc] at after
        exact after.trans (List.perm_middle.trans (before.symm.cons _))
      rw [(perm.map _).nodup_iff, List.map_cons, List.nodup_cons]
      refine ⟨?_, sound.addresses⟩
      intro member
      obtain ⟨node, queued, same⟩ := List.mem_map.mp member
      exact absurd (bound node queued) (by simp [same])
    allocated := by
      intro orderId loc found
      rw [SortedMap.find?_insert] at found
      split at found
      · cases found
        simp
      · exact Nat.lt_succ_of_lt (sound.allocated orderId loc found)
    separate := by
      intro first second loc loc' foundFirst foundSecond same
      rw [SortedMap.find?_insert] at foundFirst foundSecond
      split at foundFirst <;> split at foundSecond
      · simp_all
      · cases foundFirst
        exact absurd same (Nat.ne_of_gt (sound.allocated second loc' foundSecond))
      · cases foundSecond
        exact absurd same (Nat.ne_of_lt (sound.allocated first loc foundFirst))
      · exact sound.separate _ _ _ _ foundFirst foundSecond same }

end Sound

end OrderBook

end OrderBookSimulator
