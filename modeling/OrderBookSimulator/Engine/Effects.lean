import OrderBookSimulator.Book.Changes
import OrderBookSimulator.Engine.ProcessOrder
import OrderBookSimulator.Engine.Session

/-!
# What a sweep does to the resting orders

A fill exchanges its maker for what it leaves over.  `Swept` is what that adds
up to over a sweep, measured against the book the sweep started from.
-/

namespace OrderBookSimulator

open Library

namespace MatchingEngine

section Fill

variable {host : Host} {takerSide : Side} {batchId : Int} {sweep : Sweep} {price : Int}
  {maker : Node} {rest : OrderList}

namespace Fillable

variable (fillable : Fillable takerSide sweep price maker rest)

include fillable

theorem levelEq : sweep.engine.book.level takerSide.opposite price = maker :: rest :=
  (OrderBook.level_of_first? fillable.best).1

theorem queued : maker ∈ sweep.engine.book.nodes :=
  OrderBook.mem_nodes_iff.mpr
    ⟨_, _, OrderBook.Sound.mem_level_of_first? fillable.best⟩

theorem mem_resting : maker.order ∈ sweep.engine.book.resting :=
  List.mem_map_of_mem fillable.queued

variable (sound : sweep.engine.book.Sound)

include sound

theorem maker_side : maker.order.side = takerSide.opposite :=
  (sound.placed _ _ maker (OrderBook.Sound.mem_level_of_first? fillable.best)).1

theorem maker_price : maker.order.price = price :=
  (sound.placed _ _ maker (OrderBook.Sound.mem_level_of_first? fillable.best)).2

theorem fillQty_pos : 0 < fillQty sweep.taker maker.order := by
  have makerPos := sound.positive maker fillable.queued
  have takerPos := fillable.wants
  unfold fillQty
  split <;> omega

end Fillable

theorem fillQty_eq_min (taker maker : Order) : fillQty taker maker = min taker.qty maker.qty := by
  unfold fillQty
  split <;> omega

theorem fillQty_le_taker (taker maker : Order) : fillQty taker maker ≤ taker.qty := by
  unfold fillQty
  split <;> omega

theorem fillQty_le_maker (taker maker : Order) : fillQty taker maker ≤ maker.qty := by
  unfold fillQty
  split <;> omega

/-- A fill uses up the smaller of the two orders. -/
theorem usedUp_iff (taker maker : Order) :
    maker.qty - fillQty taker maker = 0 ↔ maker.qty ≤ taker.qty := by
  unfold fillQty
  split <;> omega

@[simp] theorem book_afterFill :
    (afterFill host takerSide batchId sweep price maker rest).engine.book =
      sweep.engine.book.setLevel takerSide.opposite price
        (queueAfterFill (fillQty sweep.taker maker.order) maker rest) := by
  simp [afterFill]

@[simp] theorem userManager_afterFill :
    (afterFill host takerSide batchId sweep price maker rest).engine.userManager =
      sweep.engine.userManager.map fun users =>
        users.onFill host maker.order.id sweep.taker.id price
          (fillQty sweep.taker maker.order) takerSide := by
  simp [afterFill]

@[simp] theorem trades_afterFill :
    (afterFill host takerSide batchId sweep price maker rest).trades =
      sweep.trades ++ [fillTrade sweep price maker] := rfl

@[simp] theorem batchSeq_afterFill :
    (afterFill host takerSide batchId sweep price maker rest).engine.batchSeq =
      sweep.engine.batchSeq := by
  simp [afterFill]

theorem map_queueAfterFill (qty : Int) (maker : Node) (rest : OrderList) :
    (queueAfterFill qty maker rest).map (·.order) =
      leftOver qty maker.order ++ rest.map (·.order) := by
  unfold queueAfterFill leftOver
  split <;> rfl

theorem sound_afterFill (sound : sweep.engine.book.Sound)
    (fillable : Fillable takerSide sweep price maker rest) :
    (afterFill host takerSide batchId sweep price maker rest).engine.book.Sound := by
  rw [book_afterFill]
  unfold queueAfterFill
  split
  · exact sound.remove (show _ = [] ++ maker :: rest from fillable.levelEq)
  · have le := fillQty_le_maker sweep.taker maker.order
    exact sound.shrink fillable.levelEq (by omega)

variable (host batchId) in
/-- A fill replaces its maker by what it leaves over. -/
theorem resting_afterFill (fillable : Fillable takerSide sweep price maker rest) :
    ∃ others, sweep.engine.book.resting.Perm (maker.order :: others) ∧
      (afterFill host takerSide batchId sweep price maker rest).engine.book.resting.Perm
        (leftOver (fillQty sweep.taker maker.order) maker.order ++ others) := by
  obtain ⟨others, before, after⟩ := sweep.engine.book.nodes_setLevel_perm takerSide.opposite price
    (queueAfterFill (fillQty sweep.taker maker.order) maker rest)
  rw [fillable.levelEq] at before
  refine ⟨(rest ++ others).map Node.order, before.map Node.order, ?_⟩
  have bag := after.map Node.order
  rw [List.map_append, map_queueAfterFill, List.append_assoc, ← List.map_append] at bag
  rw [OrderBook.resting, book_afterFill]
  exact bag

variable (host batchId) in
/-- A fill takes what it trades out of its maker's resting quantity. -/
theorem restingQty_afterFill (fillable : Fillable takerSide sweep price maker rest)
    (orderId : Int) :
    sweep.engine.book.restingQty orderId =
      (if maker.order.id = orderId then fillQty sweep.taker maker.order else 0) +
        (afterFill host takerSide batchId sweep price maker rest).engine.book.restingQty
          orderId := by
  obtain ⟨others, was, becomes⟩ := resting_afterFill host batchId fillable
  rw [OrderBook.restingQty, OrderBook.restingQty, tally_perm was, tally_perm becomes, tally_cons,
    tally_append, tally_leftOver (fun _ => .rfl) rfl]
  by_cases same : maker.order.id = orderId
  · simp only [if_pos same]
    omega
  · simp only [if_neg same, zero_add]

end Fill

/-! ## A whole sweep -/

/--
What a sweep has done so far, seen from the book it started from: makers lost
exactly what was traded with them, the taker lost exactly what it traded, and
nothing else of any order changed.
-/
structure Swept (before : OrderBook) (incoming : Order) (sweep : Sweep) : Prop where
  sound : sweep.engine.book.Sound
  index : sweep.engine.book.index = before.index
  onChange : sweep.engine.book.onChange = before.onChange
  taker : sweep.taker = { incoming with qty := sweep.taker.qty }
  left_nonneg : 0 ≤ sweep.taker.qty
  maker_qty : ∀ orderId, before.restingQty orderId =
    makerQty sweep.trades orderId + sweep.engine.book.restingQty orderId
  taker_qty : ∀ orderId, takerQty sweep.trades orderId =
    if orderId = incoming.id then incoming.qty - sweep.taker.qty else 0
  filled : tally (fun _ : Trade => True) (·.qty) sweep.trades = incoming.qty - sweep.taker.qty
  trades : ∀ trade ∈ sweep.trades, 0 < trade.qty ∧ trade.takerId = incoming.id ∧
    before.Resting trade.makerId
  kept : ∀ order ∈ sweep.engine.book.resting, ∃ old ∈ before.resting,
    order = { old with qty := order.qty }

namespace Swept

variable {host : Host} {takerSide : Side} {batchId : Int} {before : OrderBook} {incoming : Order}

theorem start (engine : MatchingEngine) (sound : engine.book.Sound) (nonneg : 0 ≤ incoming.qty) :
    Swept engine.book incoming (startSweep host engine batchId incoming) where
  sound := by simpa [startSweep] using sound
  index := by simp [startSweep]
  onChange := by simp [startSweep]
  taker := rfl
  left_nonneg := nonneg
  maker_qty := by simp [startSweep, makerQty]
  taker_qty := by simp [startSweep, takerQty]
  filled := by simp [startSweep]
  trades := by simp [startSweep]
  kept := by
    intro order member
    exact ⟨order, by simpa [startSweep] using member, rfl⟩

theorem step {sweep next : Sweep} (swept : Swept before incoming sweep)
    (moves : fillStep host takerSide batchId sweep = some next) :
    Swept before incoming next := by
  obtain ⟨price, maker, rest, fillable, rfl⟩ := fillStep_cases moves
  obtain ⟨others, was, becomes⟩ := resting_afterFill host batchId fillable
  have qtyPos := fillable.fillQty_pos swept.sound
  have leTaker := fillQty_le_taker sweep.taker maker.order
  have takerId : sweep.taker.id = incoming.id := by rw [swept.taker]
  exact {
    sound := sound_afterFill swept.sound fillable
    index := by simpa using swept.index
    onChange := by simpa using swept.onChange
    taker := by
      simp only [afterFill]
      rw [swept.taker]
    left_nonneg := by
      simp only [afterFill]
      omega
    maker_qty := by
      intro orderId
      have soFar := swept.maker_qty orderId
      have moved := restingQty_afterFill host batchId fillable orderId
      rw [trades_afterFill, makerQty_append, makerQty, makerQty, tally_cons, tally_nil]
      rw [makerQty] at soFar
      simp only [fillTrade]
      omega
    taker_qty := by
      intro orderId
      have soFar := swept.taker_qty orderId
      simp only [afterFill, fillTrade, takerQty, tally_append, tally_cons, tally_nil] at soFar ⊢
      rw [soFar, takerId]
      by_cases same : orderId = incoming.id
      · simp [same]
        omega
      · simp [same, Ne.symm same]
    filled := by
      have soFar := swept.filled
      simp only [afterFill, fillTrade, tally_append, tally_cons, tally_nil]
      rw [soFar]
      simp
      omega
    trades := by
      intro trade member
      simp only [afterFill, List.mem_append, List.mem_singleton] at member
      rcases member with earlier | rfl
      · exact swept.trades trade earlier
      · obtain ⟨old, oldMember, same⟩ := swept.kept maker.order fillable.mem_resting
        exact ⟨qtyPos, takerId, old, oldMember, by rw [fillTrade, same]⟩
    kept := by
      intro order member
      rcases List.mem_append.mp (becomes.mem_iff.mp member) with left | other
      · obtain ⟨old, oldMember, same⟩ := swept.kept maker.order fillable.mem_resting
        refine ⟨old, oldMember, ?_⟩
        rw [eq_of_mem_leftOver left, same]
      · exact swept.kept order (was.mem_iff.mpr (.tail _ other)) }

/-- Why a sweep ends: the taker is filled, or the other side has nothing it admits. -/
theorem ended {sweep : Sweep} (swept : Swept before incoming sweep)
    (stopped : fillStep host takerSide batchId sweep = none) :
    sweep.taker.qty = 0 ∨
      (sweep.engine.book.levels takerSide.opposite).first? = none ∨
      ∃ price queue, (sweep.engine.book.levels takerSide.opposite).first? = some (price, queue) ∧
        incoming.type = .limit ∧ beyondLimit takerSide price incoming.price := by
  have nonneg := swept.left_nonneg
  have sameType : sweep.taker.type = incoming.type := by rw [swept.taker]
  have samePrice : sweep.taker.price = incoming.price := by rw [swept.taker]
  rcases fillStep_none stopped with filled | none | ⟨price, empty⟩ | ⟨price, queue, best, beyond⟩
  · exact Or.inl (by omega)
  · exact Or.inr (Or.inl none)
  · obtain ⟨_, _, _, best⟩ := swept.sound.exists_front (by rw [empty]; simp)
    rw [empty] at best
    cases best
  · rw [sameType, samePrice] at beyond
    exact Or.inr (Or.inr ⟨price, queue, best, beyond⟩)

/-- What a sweep leaves of a resting order is no more than there was. -/
theorem kept_le {sweep : Sweep} (swept : Swept before incoming sweep) (sound : before.Sound)
    {order : Order} (member : order ∈ sweep.engine.book.resting) :
    ∃ old ∈ before.resting, order = { old with qty := order.qty } ∧ order.qty ≤ old.qty := by
  obtain ⟨old, oldMember, same⟩ := swept.kept order member
  refine ⟨old, oldMember, same, ?_⟩
  have total := swept.maker_qty old.id
  have left := swept.sound.restingQty_of_mem member
  have sameId : order.id = old.id := by rw [same]
  have traded : 0 ≤ makerQty sweep.trades old.id :=
    tally_nonneg fun trade inTrades _ => Int.le_of_lt (swept.trades trade inTrades).1
  rw [sameId] at left
  rw [sound.restingQty_of_mem oldMember, left] at total
  omega

/-- Something was filled exactly when there is a trade. -/
theorem filled_pos_iff {sweep : Sweep} (swept : Swept before incoming sweep) :
    0 < incoming.qty - sweep.taker.qty ↔ sweep.trades ≠ [] := by
  rw [← swept.filled]
  constructor
  · intro positive none
    rw [none] at positive
    exact absurd positive (by decide)
  · intro some
    obtain ⟨trade, member⟩ := List.exists_mem_of_ne_nil _ some
    exact tally_pos (fun other inTrades _ => (swept.trades other inTrades).1) member trivial

end Swept

/-! ## The call around the sweep -/

section Call

variable (host : Host) {engine : MatchingEngine} {incoming : Order}

/-- The book an accepted call starts its sweep on is the one it found. -/
theorem callSweep_settles (engine : MatchingEngine) (incoming : Order) :
    Settles (fillStep host incoming.side engine.batchSeq)
      (startSweep host (engine.opened incoming) engine.batchSeq incoming)
      (engine.callSweep host incoming) :=
  sweepIncoming_settles host (engine.opened incoming) incoming engine.batchSeq

theorem swept_callSweep (sound : engine.book.Sound) (nonneg : 0 ≤ incoming.qty) :
    Swept engine.book incoming (engine.callSweep host incoming) :=
  (callSweep_settles host engine incoming).invariant (Swept engine.book incoming)
    (fun _ _ swept moves => swept.step moves) (Swept.start (engine.opened incoming) sound nonneg)

/-- What registering the owner establishes and every fill keeps holds of the users after a sweep. -/
theorem callSweep_users {users : UserManager} (Keeps : UserManager → Prop)
    (onFill : ∀ users makerId takerId price qty side, Keeps users →
      Keeps (users.onFill host makerId takerId price qty side))
    (hasUsers : engine.userManager = some users)
    (initial : Keeps (users.registerOrder incoming.id incoming.userId)) :
    ∃ users', (engine.callSweep host incoming).engine.userManager = some users' ∧ Keeps users' := by
  refine (callSweep_settles host engine incoming).invariant
    (fun sweep => ∃ users', sweep.engine.userManager = some users' ∧ Keeps users') ?_
    ⟨_, by simp [startSweep, hasUsers], initial⟩
  rintro sweep next ⟨users', hasUsers', keeps⟩ moves
  obtain ⟨price, maker, rest, _, rfl⟩ := fillStep_cases moves
  exact ⟨_, by rw [userManager_afterFill, hasUsers', Option.map_some], onFill _ _ _ _ _ _ keeps⟩

/-- A sweep trades with the other side of the book only. -/
theorem ownLevels_callSweep (engine : MatchingEngine) (incoming : Order) :
    (engine.callSweep host incoming).engine.book.levels incoming.side =
      engine.book.levels incoming.side := by
  refine (callSweep_settles host engine incoming).invariant
    (fun sweep => sweep.engine.book.levels incoming.side = engine.book.levels incoming.side) ?_
    (by simp [startSweep])
  intro sweep next soFar moves
  obtain ⟨price, maker, rest, _, rfl⟩ := fillStep_cases moves
  rw [book_afterFill, OrderBook.levels_setLevel_of_opposite, soFar]

theorem sound_announcedBook {sweep : Sweep} (sound : sweep.engine.book.Sound) :
    (announcedBook sweep).Sound := by
  unfold announcedBook
  split
  · exact sound
  · exact sound.notifyChange

/-- No order makes a sound book unsound. -/
theorem sound_processOrder (sound : engine.book.Sound) (incoming : Order) :
    (engine.processOrder host incoming).1.book.Sound := by
  cases ok : (engine.preflightCheck host incoming).isOk with
  | false =>
      obtain ⟨status, _, answered⟩ := processOrder_of_refused host engine incoming ok
      rw [answered]
      simpa using sound
  | true =>
      have swept := swept_callSweep host sound (Int.le_of_lt (passed_of_isOk ok).qty_pos)
      rw [processOrder_of_accepted host engine incoming ok]
      simp only [book_concluded, book_restRemainder]
      split
      · exact (sound_announcedBook swept.sound).afterAdd _
      · exact sound_announcedBook swept.sound

end Call

end MatchingEngine

end OrderBookSimulator
