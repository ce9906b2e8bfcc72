import OrderBookSimulator.Book.OrderBook

/-!
# One level at a time

Everything the program does to the two maps is a change of the queue at one
price, with an emptied queue dropped.  `setLevel` is that change on its own.
The mutators of the book are instances of it, and what it does to the queues
and to the list of all nodes is stated once.
-/

namespace OrderBookSimulator

open Library

namespace OrderBook

/-- The queue at one price, empty where the side has no such level. -/
def level (book : OrderBook) (side : Side) (price : Int) : OrderList :=
  (book.levels side).findD price []

/-- The queued nodes of one side, best price first, earliest first within a level. -/
def queue (book : OrderBook) (side : Side) : OrderList :=
  (book.levels side).entries.flatMap (·.2)

/-- The resting orders. -/
def resting (book : OrderBook) : List Order := book.nodes.map (·.order)

/-- Make `queue` the queue at one price; an empty queue leaves no level behind. -/
def setLevel (book : OrderBook) (side : Side) (price : Int) (queue : OrderList) : OrderBook :=
  book.setLevels side
    ((book.levels side).alter price fun _ => if queue = [] then none else some queue)

/-- Drop an id from the index. -/
def forget (book : OrderBook) (orderId : Int) : OrderBook :=
  { book with index := book.index.erase orderId }

/-- No price level is empty. -/
def NoEmptyLevel (book : OrderBook) : Prop :=
  ∀ side price, (book.levels side).find? price ≠ some []

section Fields

variable (book : OrderBook) (side : Side)

@[simp] theorem levels_setLevels (levels : Levels side) :
    (book.setLevels side levels).levels side = levels := by
  cases side <;> rfl

@[simp] theorem levels_setLevels_opposite (levels : Levels side) :
    (book.setLevels side levels).levels side.opposite = book.levels side.opposite := by
  cases side <;> rfl

@[simp] theorem index_setLevels (levels : Levels side) :
    (book.setLevels side levels).index = book.index := by
  cases side <;> rfl

@[simp] theorem nextAddress_setLevels (levels : Levels side) :
    (book.setLevels side levels).nextAddress = book.nextAddress := by
  cases side <;> rfl

@[simp] theorem onChange_setLevels (levels : Levels side) :
    (book.setLevels side levels).onChange = book.onChange := by
  cases side <;> rfl

variable (price : Int) (queue : OrderList)

@[simp] theorem index_setLevel : (book.setLevel side price queue).index = book.index :=
  index_setLevels _ _ _

@[simp] theorem nextAddress_setLevel :
    (book.setLevel side price queue).nextAddress = book.nextAddress :=
  nextAddress_setLevels _ _ _

@[simp] theorem onChange_setLevel :
    (book.setLevel side price queue).onChange = book.onChange :=
  onChange_setLevels _ _ _

@[simp] theorem index_notifyChange : book.notifyChange.index = book.index := rfl

@[simp] theorem nextAddress_notifyChange : book.notifyChange.nextAddress = book.nextAddress := rfl

/-- The callback is not read to walk the queues. -/
theorem levels_withOnChange (onChange : Option (List Snapshot)) :
    ({ book with onChange } : OrderBook).levels side = book.levels side := by
  cases side <;> rfl

@[simp] theorem levels_notifyChange : book.notifyChange.levels side = book.levels side :=
  levels_withOnChange book side _

@[simp] theorem nodes_notifyChange : book.notifyChange.nodes = book.nodes := rfl

@[simp] theorem snapshot_notifyChange : book.notifyChange.snapshot = book.snapshot := rfl

@[simp] theorem index_forget (orderId : Int) :
    (book.forget orderId).index = book.index.erase orderId := rfl

@[simp] theorem nodes_forget (orderId : Int) : (book.forget orderId).nodes = book.nodes := rfl

@[simp] theorem levels_forget (orderId : Int) :
    (book.forget orderId).levels side = book.levels side := by
  cases side <;> rfl

variable (index : IntMap Locator) (nextAddress : Nat)

@[simp] theorem levels_withIndex :
    ({ book with index, nextAddress } : OrderBook).levels side = book.levels side := by
  cases side <;> rfl

@[simp] theorem nodes_withIndex :
    ({ book with index, nextAddress } : OrderBook).nodes = book.nodes := rfl

end Fields

theorem nodes_eq (book : OrderBook) : book.nodes = book.queue .buy ++ book.queue .sell := rfl

theorem mem_queue_iff {book : OrderBook} {side : Side} {node : Node} :
    node ∈ book.queue side ↔ ∃ price, node ∈ book.level side price := by
  unfold queue level SortedMap.findD
  constructor
  · intro member
    obtain ⟨⟨price, queued⟩, entry, inQueue⟩ := List.mem_flatMap.mp member
    refine ⟨price, ?_⟩
    rw [SortedMap.mem_entries_iff.mp entry]
    exact inQueue
  · rintro ⟨price, inQueue⟩
    cases found : (book.levels side).find? price with
    | none =>
        rw [found] at inQueue
        cases inQueue
    | some queued =>
        rw [found] at inQueue
        exact List.mem_flatMap.mpr ⟨_, SortedMap.mem_entries_iff.mpr found, inQueue⟩

theorem mem_nodes_iff {book : OrderBook} {node : Node} :
    node ∈ book.nodes ↔ ∃ side price, node ∈ book.level side price := by
  rw [nodes_eq, List.mem_append, mem_queue_iff, mem_queue_iff]
  constructor
  · rintro (bid | ask)
    · exact ⟨.buy, bid⟩
    · exact ⟨.sell, ask⟩
  · rintro ⟨side, queued⟩
    cases side with
    | buy => exact Or.inl queued
    | sell => exact Or.inr queued

/-- Only the level that was set has changed. -/
theorem level_setLevel (book : OrderBook) (side other : Side) (price otherPrice : Int)
    (queue : OrderList) :
    (book.setLevel side price queue).level other otherPrice =
      if other = side ∧ otherPrice = price then queue else book.level other otherPrice := by
  unfold level setLevel SortedMap.findD
  rcases Side.eq_or_eq_opposite side other with rfl | rfl
  · rw [levels_setLevels, SortedMap.find?_alter]
    by_cases same : otherPrice = price
    · by_cases empty : queue = [] <;> simp [same, empty]
    · simp [same]
  · rw [levels_setLevels_opposite, if_neg (by simp)]

@[simp] theorem level_notifyChange (book : OrderBook) (side : Side) (price : Int) :
    book.notifyChange.level side price = book.level side price := by
  rw [level, levels_notifyChange]
  rfl

@[simp] theorem level_forget (book : OrderBook) (orderId : Int) (side : Side) (price : Int) :
    (book.forget orderId).level side price = book.level side price := by
  rw [level, levels_forget]
  rfl

@[simp] theorem level_withIndex (book : OrderBook) (index : IntMap Locator) (nextAddress : Nat)
    (side : Side) (price : Int) :
    ({ book with index, nextAddress } : OrderBook).level side price = book.level side price := by
  rw [level, levels_withIndex]
  rfl

/-- Setting a level exchanges one stretch of its side. -/
theorem queue_setLevel (book : OrderBook) (side : Side) (price : Int) (queue : OrderList) :
    ∃ lead tail,
      book.queue side = lead ++ book.level side price ++ tail ∧
      (book.setLevel side price queue).queue side = lead ++ queue ++ tail := by
  obtain ⟨lead, tail, entriesEq, alteredEq⟩ :=
    (book.levels side).entries_alter price fun _ => if queue = [] then none else some queue
  have flatten : ∀ value : Option OrderList,
      ((value.map fun value => (price, value)).toList).flatMap (·.2) = value.getD [] := by
    intro value
    cases value <;> simp
  have level : (if queue = [] then none else some queue : Option OrderList).getD [] = queue := by
    split
    · exact Eq.symm ‹_›
    · rfl
  refine ⟨lead.flatMap (·.2), tail.flatMap (·.2), ?_, ?_⟩
  · rw [OrderBook.queue, entriesEq]
    simp only [List.flatMap_append, flatten]
    rfl
  · rw [OrderBook.queue, setLevel, levels_setLevels, alteredEq]
    simp only [List.flatMap_append, flatten, level]

/-- Setting a level of one side leaves the other side alone. -/
theorem levels_setLevel_of_opposite (book : OrderBook) (side : Side) (price : Int)
    (queue : OrderList) :
    (book.setLevel side.opposite price queue).levels side = book.levels side := by
  cases side <;> rfl

@[simp] theorem queue_setLevel_opposite (book : OrderBook) (side : Side) (price : Int)
    (queue : OrderList) :
    (book.setLevel side price queue).queue side.opposite = book.queue side.opposite := by
  rw [OrderBook.queue, setLevel, levels_setLevels_opposite]
  rfl

/-- Setting a level exchanges one stretch of the list of all nodes. -/
theorem nodes_setLevel (book : OrderBook) (side : Side) (price : Int) (queue : OrderList) :
    ∃ lead tail,
      book.nodes = lead ++ book.level side price ++ tail ∧
      (book.setLevel side price queue).nodes = lead ++ queue ++ tail := by
  obtain ⟨lead, tail, before, after⟩ := book.queue_setLevel side price queue
  have other := book.queue_setLevel_opposite side price queue
  cases side with
  | buy =>
      refine ⟨lead, tail ++ book.queue .sell, ?_, ?_⟩
      · rw [nodes_eq, before]
        simp only [List.append_assoc]
      · rw [nodes_eq, after, show (book.setLevel .buy price queue).queue .sell = _ from other]
        simp only [List.append_assoc, Side.opposite]
  | sell =>
      refine ⟨book.queue .buy ++ lead, tail, ?_, ?_⟩
      · rw [nodes_eq, before]
        simp only [List.append_assoc]
      · rw [nodes_eq, after, show (book.setLevel .sell price queue).queue .buy = _ from other]
        simp only [List.append_assoc, Side.opposite]

/-- Seen as a bag, setting a level exchanges its nodes and leaves the others. -/
theorem nodes_setLevel_perm (book : OrderBook) (side : Side) (price : Int) (queue : OrderList) :
    ∃ others, book.nodes.Perm (book.level side price ++ others) ∧
      (book.setLevel side price queue).nodes.Perm (queue ++ others) := by
  obtain ⟨lead, tail, before, after⟩ := book.nodes_setLevel side price queue
  have shift : ∀ stretch : OrderList,
      (lead ++ stretch ++ tail).Perm (stretch ++ (lead ++ tail)) := by
    intro stretch
    rw [← List.append_assoc]
    exact List.perm_append_comm.append_right tail
  refine ⟨lead ++ tail, ?_, ?_⟩
  · rw [before]
    exact shift _
  · rw [after]
    exact shift _

/-- A level is one stretch of the list of all nodes. -/
theorem level_sublist (book : OrderBook) (side : Side) (price : Int) :
    (book.level side price).Sublist book.nodes := by
  obtain ⟨lead, tail, before, _⟩ := book.nodes_setLevel side price []
  rw [before]
  exact (List.sublist_append_right lead _).trans (List.sublist_append_left _ tail)

theorem NoEmptyLevel.setLevel {book : OrderBook} (noEmpty : book.NoEmptyLevel) (side : Side)
    (price : Int) (queue : OrderList) : (book.setLevel side price queue).NoEmptyLevel := by
  intro other otherPrice found
  rcases Side.eq_or_eq_opposite side other with rfl | rfl
  · rw [OrderBook.setLevel, levels_setLevels, SortedMap.find?_alter] at found
    by_cases same : otherPrice = price
    · by_cases empty : queue = []
      · simp [same, empty] at found
      · simp [same, empty] at found
    · rw [if_neg same] at found
      exact noEmpty _ _ found
  · rw [OrderBook.setLevel, levels_setLevels_opposite] at found
    exact noEmpty _ _ found

/-- The best level is a level, and no level of its side is ahead of it. -/
theorem level_of_first? {book : OrderBook} {side : Side} {price : Int} {queue : OrderList}
    (first : (book.levels side).first? = some (price, queue)) :
    book.level side price = queue ∧
      ∀ other, book.level side other ≠ [] → other = price ∨ Ahead side price other := by
  obtain ⟨found, ahead⟩ := SortedMap.first?_eq_some_iff.mp first
  refine ⟨?_, ?_⟩
  · rw [level, SortedMap.findD, found]
    rfl
  · intro other nonempty
    cases foundOther : (book.levels side).find? other with
    | none => simp [level, SortedMap.findD, foundOther] at nonempty
    | some queued => exact ahead other queued foundOther

theorem level_eq_nil_of_first? {book : OrderBook} {side : Side}
    (first : (book.levels side).first? = none) (price : Int) : book.level side price = [] := by
  rw [level, SortedMap.findD, SortedMap.first?_eq_none_iff.mp first]
  rfl

theorem setBestQueue_eq {book : OrderBook} {side : Side} {price : Int} {queue : OrderList}
    (first : (book.levels side).first? = some (price, queue)) (left : OrderList) :
    book.setBestQueue side left =
      book.setLevels side ((book.levels side).insert price left) := by
  rw [setBestQueue, bestPrice, first]
  rfl

/-- Writing through the best-queue pointer leaves the level where it was. -/
theorem first?_setBestQueue {book : OrderBook} {side : Side} {price : Int} {queue : OrderList}
    (first : (book.levels side).first? = some (price, queue)) (left : OrderList) :
    ((book.setBestQueue side left).levels side).first? = some (price, left) := by
  obtain ⟨_, ahead⟩ := SortedMap.first?_eq_some_iff.mp first
  rw [setBestQueue_eq first, levels_setLevels, SortedMap.first?_eq_some_iff]
  refine ⟨by simp, ?_⟩
  intro other present found
  by_cases same : other = price
  · exact Or.inl same
  · rw [SortedMap.find?_insert, if_neg same] at found
    exact ahead other present found

/-- Writing through the best-queue pointer and then cleaning up sets the best level. -/
theorem cleanup_setBestQueue {book : OrderBook} {side : Side} {price : Int} {queue : OrderList}
    (first : (book.levels side).first? = some (price, queue)) (left : OrderList) :
    (book.setBestQueue side left).cleanupBestLevelIfEmpty side = book.setLevel side price left := by
  rw [cleanupBestLevelIfEmpty, first?_setBestQueue first, setBestQueue_eq first, levels_setLevels]
  by_cases empty : left = []
  · have dropped : ((book.levels side).insert price left).erase price =
        (book.levels side).alter price fun _ => if left = [] then none else some left := by
      apply SortedMap.ext_find?
      intro other
      rw [SortedMap.find?_erase, SortedMap.find?_insert, SortedMap.find?_alter]
      by_cases same : other = price <;> simp [same, empty]
    simp only [empty, if_true] at dropped ⊢
    rw [setLevel, if_pos rfl]
    cases side <;> simp only [setLevels, levels] at * <;> rw [dropped]
  · simp only [if_neg empty]
    rw [setLevel, if_neg empty]
    rfl

theorem cleanup_of_ne_nil {book : OrderBook} {side : Side} {price : Int} {queue : OrderList}
    (first : (book.levels side).first? = some (price, queue)) (nonempty : queue ≠ []) :
    book.cleanupBestLevelIfEmpty side = book := by
  rw [cleanupBestLevelIfEmpty, first]
  exact if_neg nonempty

/-- The number of levels drops exactly when the best level is emptied. -/
theorem length_setLevel_of_first? {book : OrderBook} {side : Side} {price : Int}
    {queue : OrderList} (first : (book.levels side).first? = some (price, queue))
    (left : OrderList) :
    ((book.setLevel side price left).levels side).entries.length + (if left = [] then 1 else 0) =
      (book.levels side).entries.length := by
  obtain ⟨found, _⟩ := SortedMap.first?_eq_some_iff.mp first
  obtain ⟨lead, tail, entriesEq, alteredEq⟩ :=
    (book.levels side).entries_alter price fun _ => if left = [] then none else some left
  rw [setLevel, levels_setLevels, alteredEq, entriesEq, found]
  split
  · simp
    omega
  · simp

/-- The best level is the head of its side's queue, and setting it exchanges just that head. -/
theorem queue_of_first? {book : OrderBook} {side : Side} {price : Int} {queue : OrderList}
    (first : (book.levels side).first? = some (price, queue)) :
    ∃ tail, book.queue side = queue ++ tail ∧
      ∀ left, (book.setLevel side price left).queue side = left ++ tail := by
  obtain ⟨rest, entriesEq⟩ := List.head?_eq_some_iff.mp first
  refine ⟨rest.flatMap (·.2), ?_, ?_⟩
  · rw [OrderBook.queue, entriesEq, List.flatMap_cons]
  · intro left
    rw [OrderBook.queue, setLevel, levels_setLevels, SortedMap.alter]
    simp only [entriesEq, SortedMap.alterEntries, if_true]
    split
    · rename_i empty
      rw [empty]
      rfl
    · rfl

/-- Pushing an order onto its level and indexing it. -/
theorem addRestingOrder_of_new {book : OrderBook} {order : Order} (positive : 0 < order.qty)
    (new : book.index.find? order.id = none) :
    book.addRestingOrder order = notifyChange
      { book.setLevel order.side order.price
          (book.level order.side order.price ++ [⟨book.nextAddress, order⟩]) with
        nextAddress := book.nextAddress + 1
        index := book.index.insert order.id ⟨order.side, order.price, book.nextAddress⟩ } := by
  rw [addRestingOrder, if_neg (by omega), new]
  have pushed : (book.levels order.side).upsert order.price []
      (· ++ [(⟨book.nextAddress, order⟩ : Node)]) =
      (book.levels order.side).alter order.price fun _ =>
        if book.level order.side order.price ++ [(⟨book.nextAddress, order⟩ : Node)] = [] then none
        else some (book.level order.side order.price ++ [⟨book.nextAddress, order⟩]) := by
    apply SortedMap.ext_find?
    intro other
    rw [SortedMap.upsert, SortedMap.find?_alter, SortedMap.find?_alter]
    simp [level, SortedMap.findD]
  simp only [setLevel, pushed, Option.isSome_none]
  rfl

theorem addRestingOrder_of_known {book : OrderBook} {order : Order} {loc : Locator}
    (known : book.index.find? order.id = some loc) : book.addRestingOrder order = book := by
  rw [addRestingOrder, known]
  simp

theorem addRestingOrder_of_nonpos {book : OrderBook} {order : Order} (nonpos : order.qty ≤ 0) :
    book.addRestingOrder order = book := by
  rw [addRestingOrder, if_pos nonpos]

theorem eraseNode_append {lead tail : OrderList} {node : Node}
    (notLead : ∀ earlier ∈ lead, earlier.address ≠ node.address) :
    eraseNode node.address (lead ++ node :: tail) = .ok (lead ++ tail) := by
  induction lead with
  | nil => simp [eraseNode]
  | cons first rest ih =>
      have notRest := ih fun earlier member => notLead earlier (.tail _ member)
      simp only [List.cons_append, eraseNode, if_neg (notLead first (.head _)), notRest]
      rfl

/-- Erasing a queued node through its locator takes it out of its level. -/
theorem cancelOrder_of_located {book : OrderBook} {orderId : Int} {side : Side} {price : Int}
    {lead tail : OrderList} {node : Node}
    (found : book.index.find? orderId = some ⟨side, price, node.address⟩)
    (queued : book.level side price = lead ++ node :: tail)
    (notLead : ∀ earlier ∈ lead, earlier.address ≠ node.address) :
    book.cancelOrder orderId =
      .ok (((book.setLevel side price (lead ++ tail)).forget orderId).notifyChange, true) := by
  have foundLevel : (book.levels side).find? price = some (lead ++ node :: tail) := by
    cases foundLevel : (book.levels side).find? price with
    | none => simp [level, SortedMap.findD, foundLevel] at queued
    | some queue =>
        rw [level, SortedMap.findD, foundLevel] at queued
        rw [← queued]
        rfl
  have altered : (if lead ++ tail = [] then (book.levels side).erase price
      else (book.levels side).insert price (lead ++ tail)) =
      (book.levels side).alter price fun _ =>
        if lead ++ tail = [] then none else some (lead ++ tail) := by
    split <;> rfl
  simp only [cancelOrder, found, foundLevel, eraseNode_append notLead, bind, Except.bind, pure,
    Except.pure, altered, forget, index_setLevel]
  rfl

end OrderBook

end OrderBookSimulator
