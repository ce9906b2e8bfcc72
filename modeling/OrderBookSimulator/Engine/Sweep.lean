import OrderBookSimulator.Book.Sound
import OrderBookSimulator.Engine.MatchingEngine
import OrderBookSimulator.Library.Settle

/-!
# A sweep as a sequence of fills

`matchBuy` and `matchSell` are nested loops.  Both loops only ever repeat one
thing: fill against the first order of the best level the taker's limit
admits.  `fillStep` is that single fill, with an emptied level cleaned up at
once, and the loops compute the state where it first declines.  Every property
of a sweep is proved for one fill and carried over by `Settles`.
-/

namespace OrderBookSimulator

open Library

namespace MatchingEngine

/-! ## Fields after an update -/

section Fields

variable (engine : MatchingEngine)

section Users

variable (update : UserManager → UserManager)

@[simp] theorem book_updateUsers : (engine.updateUsers update).book = engine.book := rfl
@[simp] theorem userManager_updateUsers :
    (engine.updateUsers update).userManager = engine.userManager.map update := rfl
@[simp] theorem tradeSink_updateUsers :
    (engine.updateUsers update).tradeSink = engine.tradeSink := rfl
@[simp] theorem orderSink_updateUsers :
    (engine.updateUsers update).orderSink = engine.orderSink := rfl
@[simp] theorem eventSeq_updateUsers :
    (engine.updateUsers update).eventSeq = engine.eventSeq := rfl
@[simp] theorem batchSeq_updateUsers :
    (engine.updateUsers update).batchSeq = engine.batchSeq := rfl

end Users

section Book

variable (update : OrderBook → OrderBook)

@[simp] theorem book_updateBook : (engine.updateBook update).book = update engine.book := rfl
@[simp] theorem userManager_updateBook :
    (engine.updateBook update).userManager = engine.userManager := rfl
@[simp] theorem tradeSink_updateBook :
    (engine.updateBook update).tradeSink = engine.tradeSink := rfl
@[simp] theorem orderSink_updateBook :
    (engine.updateBook update).orderSink = engine.orderSink := rfl
@[simp] theorem eventSeq_updateBook : (engine.updateBook update).eventSeq = engine.eventSeq := rfl
@[simp] theorem batchSeq_updateBook : (engine.updateBook update).batchSeq = engine.batchSeq := rfl

end Book

section Event

variable (host : Host) (batchId orderId userId : Int) (status : OrderStatus) (side : Side)
  (price qty remaining : Int)

/-- The event `emitOrderEvent` hands to a sink. -/
def orderEvent : OrderEvent :=
  { seq := engine.eventSeq, batchId, orderId, userId, status, side, price, qty
    remainingQty := remaining, timestamp := host.now engine.clockReads }

@[simp] theorem book_emitOrderEvent :
    (engine.emitOrderEvent host batchId orderId userId status side price qty remaining).book =
      engine.book := by
  unfold emitOrderEvent
  split <;> rfl

@[simp] theorem userManager_emitOrderEvent :
    (engine.emitOrderEvent host batchId orderId userId status side price qty
      remaining).userManager = engine.userManager := by
  unfold emitOrderEvent
  split <;> rfl

@[simp] theorem tradeSink_emitOrderEvent :
    (engine.emitOrderEvent host batchId orderId userId status side price qty
      remaining).tradeSink = engine.tradeSink := by
  unfold emitOrderEvent
  split <;> rfl

@[simp] theorem batchSeq_emitOrderEvent :
    (engine.emitOrderEvent host batchId orderId userId status side price qty
      remaining).batchSeq = engine.batchSeq := by
  unfold emitOrderEvent
  split <;> rfl

@[simp] theorem orderSink_emitOrderEvent :
    (engine.emitOrderEvent host batchId orderId userId status side price qty
      remaining).orderSink = engine.orderSink.map (· ++
        [engine.orderEvent host batchId orderId userId status side price qty remaining]) := by
  unfold emitOrderEvent
  split <;> rename_i sink <;> simp [sink, orderEvent]

theorem eventSeq_emitOrderEvent {events : List OrderEvent} (sink : engine.orderSink = some events) :
    (engine.emitOrderEvent host batchId orderId userId status side price qty
      remaining).eventSeq = engine.eventSeq + 1 := by
  simp only [emitOrderEvent, sink]

end Event

end Fields

/-! ## One fill -/

/-- What is left of a queue whose first order was filled for `qty`. -/
def queueAfterFill (qty : Int) (maker : Node) (rest : OrderList) : OrderList :=
  if maker.order.qty - qty = 0 then rest
  else { maker with order := { maker.order with qty := maker.order.qty - qty } } :: rest

/-- The trade of the taker with `maker`, the first order at `price`. -/
def fillTrade (sweep : Sweep) (price : Int) (maker : Node) : Trade :=
  { makerId := maker.order.id, takerId := sweep.taker.id
    makerUserId := sweep.engine.makerUser maker.order, takerUserId := sweep.taker.userId
    price, qty := fillQty sweep.taker maker.order }

/-- The state after the taker has been filled against `maker`, the first order at `price`. -/
def afterFill (host : Host) (takerSide : Side) (batchId : Int) (sweep : Sweep) (price : Int)
    (maker : Node) (rest : OrderList) : Sweep :=
  let qty := fillQty sweep.taker maker.order
  let left := maker.order.qty - qty
  { engine := ((sweep.engine.updateUsers fun users =>
        users.onFill host maker.order.id sweep.taker.id price qty takerSide).emitOrderEvent host
          batchId maker.order.id maker.order.userId
          (if left = 0 then .filled else .partiallyFilled) maker.order.side price qty
          left).updateBook fun book =>
            book.setLevel takerSide.opposite price (queueAfterFill qty maker rest)
    taker := { sweep.taker with qty := sweep.taker.qty - qty }
    trades := sweep.trades ++ [fillTrade sweep price maker] }

/-- The taker still wants something and its limit admits the best opposing order, `maker`. -/
structure Fillable (takerSide : Side) (sweep : Sweep) (price : Int) (maker : Node)
    (rest : OrderList) : Prop where
  wants : 0 < sweep.taker.qty
  best : (sweep.engine.book.levels takerSide.opposite).first? = some (price, maker :: rest)
  admits : ¬ (sweep.taker.type = .limit ∧ beyondLimit takerSide price sweep.taker.price)

/-- One fill against the best opposing order, or `none` where the sweep ends. -/
def fillStep (host : Host) (takerSide : Side) (batchId : Int) (sweep : Sweep) : Option Sweep :=
  if 0 < sweep.taker.qty then
    match (sweep.engine.book.levels takerSide.opposite).first? with
    | some (price, maker :: rest) =>
        if sweep.taker.type = .limit ∧ beyondLimit takerSide price sweep.taker.price then none
        else some (afterFill host takerSide batchId sweep price maker rest)
    | _ => none
  else none

section Step

variable {host : Host} {takerSide : Side} {batchId : Int} {sweep next : Sweep}

theorem fillStep_of_fillable {price : Int} {maker : Node} {rest : OrderList}
    (fillable : Fillable takerSide sweep price maker rest) :
    fillStep host takerSide batchId sweep =
      some (afterFill host takerSide batchId sweep price maker rest) := by
  simp only [fillStep, if_pos fillable.wants, fillable.best, if_neg fillable.admits]

theorem fillStep_of_sated (sated : ¬ 0 < sweep.taker.qty) :
    fillStep host takerSide batchId sweep = none := by
  rw [fillStep, if_neg sated]

/-- Everything one fill can be. -/
theorem fillStep_cases (moves : fillStep host takerSide batchId sweep = some next) :
    ∃ price maker rest, Fillable takerSide sweep price maker rest ∧
      next = afterFill host takerSide batchId sweep price maker rest := by
  unfold fillStep at moves
  split at moves
  · rename_i wants
    split at moves
    · rename_i price maker rest best
      split at moves
      · cases moves
      · rename_i admits
        cases moves
        exact ⟨price, maker, rest, ⟨wants, best, admits⟩, rfl⟩
    · cases moves
  · cases moves

theorem fillStep_of_not_fillable
    (notFillable : ∀ price maker rest, ¬ Fillable takerSide sweep price maker rest) :
    fillStep host takerSide batchId sweep = none := by
  cases moves : fillStep host takerSide batchId sweep with
  | none => rfl
  | some next =>
      obtain ⟨price, maker, rest, fillable, _⟩ := fillStep_cases moves
      exact absurd fillable (notFillable price maker rest)

/-- With the same opposing side and the same taker, two sweeps fill against the same maker or stop. -/
theorem fillStep_lockstep_of_levels {otherHost : Host} {otherBatchId : Int} {other : Sweep}
    {Rel : Sweep → Sweep → Prop}
    (levels : other.engine.book.levels takerSide.opposite =
      sweep.engine.book.levels takerSide.opposite)
    (taker : other.taker = sweep.taker)
    (filled : ∀ price maker rest, Fillable takerSide sweep price maker rest →
      Rel (afterFill host takerSide batchId sweep price maker rest)
        (afterFill otherHost takerSide otherBatchId other price maker rest)) :
    (fillStep host takerSide batchId sweep = none ∧
      fillStep otherHost takerSide otherBatchId other = none) ∨
    ∃ next otherNext, fillStep host takerSide batchId sweep = some next ∧
      fillStep otherHost takerSide otherBatchId other = some otherNext ∧ Rel next otherNext := by
  have transfer : ∀ price maker rest, Fillable takerSide other price maker rest ↔
      Fillable takerSide sweep price maker rest := by
    intro price maker rest
    constructor
    · rintro ⟨wants, best, admits⟩
      rw [taker] at wants admits
      rw [levels] at best
      exact ⟨wants, best, admits⟩
    · rintro ⟨wants, best, admits⟩
      rw [← taker] at wants admits
      rw [← levels] at best
      exact ⟨wants, best, admits⟩
  by_cases some : ∃ price maker rest, Fillable takerSide sweep price maker rest
  · obtain ⟨price, maker, rest, fillable⟩ := some
    exact Or.inr ⟨_, _, fillStep_of_fillable fillable,
      fillStep_of_fillable ((transfer price maker rest).mpr fillable), filled _ _ _ fillable⟩
  · have none : ∀ price maker rest, ¬ Fillable takerSide sweep price maker rest :=
      fun price maker rest fillable => some ⟨price, maker, rest, fillable⟩
    exact Or.inl ⟨fillStep_of_not_fillable none, fillStep_of_not_fillable fun price maker rest =>
      mt (transfer price maker rest).mp (none price maker rest)⟩

/-- With the same book and the same taker, two sweeps fill against the same maker or both stop. -/
theorem fillStep_lockstep {otherHost : Host} {otherBatchId : Int} {other : Sweep}
    {Rel : Sweep → Sweep → Prop} (book : other.engine.book = sweep.engine.book)
    (taker : other.taker = sweep.taker)
    (filled : ∀ price maker rest, Fillable takerSide sweep price maker rest →
      Rel (afterFill host takerSide batchId sweep price maker rest)
        (afterFill otherHost takerSide otherBatchId other price maker rest)) :
    (fillStep host takerSide batchId sweep = none ∧
      fillStep otherHost takerSide otherBatchId other = none) ∨
    ∃ next otherNext, fillStep host takerSide batchId sweep = some next ∧
      fillStep otherHost takerSide otherBatchId other = some otherNext ∧ Rel next otherNext :=
  fillStep_lockstep_of_levels (by rw [book]) taker filled

/-- A sweep ends with the taker filled, nothing acceptable left, or an empty best level. -/
theorem fillStep_none (stopped : fillStep host takerSide batchId sweep = none) :
    sweep.taker.qty ≤ 0 ∨
      (sweep.engine.book.levels takerSide.opposite).first? = none ∨
      (∃ price, (sweep.engine.book.levels takerSide.opposite).first? = some (price, [])) ∨
      ∃ price queue, (sweep.engine.book.levels takerSide.opposite).first? = some (price, queue) ∧
        sweep.taker.type = .limit ∧ beyondLimit takerSide price sweep.taker.price := by
  by_cases wants : 0 < sweep.taker.qty
  · cases best : (sweep.engine.book.levels takerSide.opposite).first? with
    | none => exact Or.inr (Or.inl rfl)
    | some entry =>
        obtain ⟨price, queue⟩ := entry
        cases queue with
        | nil => exact Or.inr (Or.inr (Or.inl ⟨price, rfl⟩))
        | cons maker rest =>
            by_cases admits :
                sweep.taker.type = .limit ∧ beyondLimit takerSide price sweep.taker.price
            · exact Or.inr (Or.inr (Or.inr ⟨price, _, rfl, admits⟩))
            · rw [fillStep_of_fillable ⟨wants, best, admits⟩] at stopped
              cases stopped
  · exact Or.inl (by omega)

/-- The loop body followed by the clean-up is one fill. -/
theorem cleanup_fillFront {price : Int} {maker : Node} {rest : OrderList}
    (best : (sweep.engine.book.levels takerSide.opposite).first? = some (price, maker :: rest)) :
    { fillFront host takerSide price batchId sweep maker rest with
      engine := (fillFront host takerSide price batchId sweep maker rest).engine.updateBook
        fun book => book.cleanupBestLevelIfEmpty takerSide.opposite } =
      afterFill host takerSide batchId sweep price maker rest := by
  have written := fun left => OrderBook.cleanup_setBestQueue best left
  unfold fillFront afterFill fillTrade queueAfterFill
  by_cases filled : maker.order.qty - fillQty sweep.taker maker.order = 0
  · simp only [filled, if_true, updateBook, book_emitOrderEvent, book_updateUsers, written]
  · simp only [if_neg filled, updateBook, book_emitOrderEvent, book_updateUsers, written]

end Step

/-! ## The loops -/

/-- A fill that leaves the taker wanting more uses up its maker. -/
theorem usedUp_of_wants {taker maker : Order} (wants : 0 < taker.qty - fillQty taker maker) :
    maker.qty - fillQty taker maker = 0 := by
  unfold fillQty at wants ⊢
  split at wants <;> omega

/-- A sweep state once the clean-up after the inner loop has run. -/
def cleaned (takerSide : Side) (sweep : Sweep) : Sweep :=
  { sweep with
    engine := sweep.engine.updateBook fun book => book.cleanupBestLevelIfEmpty takerSide.opposite }

section Loops

variable {host : Host} {takerSide : Side} {batchId : Int}

theorem cleaned_of_ne_nil {sweep : Sweep} {price : Int} {queue : OrderList}
    (best : (sweep.engine.book.levels takerSide.opposite).first? = some (price, queue))
    (nonempty : queue ≠ []) : cleaned takerSide sweep = sweep := by
  simp only [cleaned, updateBook, OrderBook.cleanup_of_ne_nil best nonempty]

variable (host batchId) in
/-- Between the loop body and the clean-up the level is still in place. -/
theorem first?_fillFront {sweep : Sweep} {price : Int} {maker : Node} {rest : OrderList}
    (best : (sweep.engine.book.levels takerSide.opposite).first? = some (price, maker :: rest)) :
    ((fillFront host takerSide price batchId sweep maker rest).engine.book.levels
      takerSide.opposite).first? =
        some (price, queueAfterFill (fillQty sweep.taker maker.order) maker rest) := by
  have written := fun left => OrderBook.first?_setBestQueue best left
  unfold fillFront queueAfterFill
  by_cases filled : maker.order.qty - fillQty sweep.taker maker.order = 0
  · simp only [filled, if_true, book_updateBook, book_emitOrderEvent, book_updateUsers, written]
  · simp only [if_neg filled, book_updateBook, book_emitOrderEvent, book_updateUsers, written]

theorem drainLevel_of_sated {price : Int} {sweep : Sweep} (sated : ¬ 0 < sweep.taker.qty)
    (fuel : Nat) : drainLevel host takerSide price batchId fuel sweep = sweep := by
  cases fuel with
  | zero => rfl
  | succ fuel => rw [drainLevel, if_neg sated]

theorem drainLevel_of_nil {price : Int} {sweep : Sweep}
    (best : (sweep.engine.book.levels takerSide.opposite).first? = some (price, []))
    (fuel : Nat) : drainLevel host takerSide price batchId fuel sweep = sweep := by
  cases fuel with
  | zero => rfl
  | succ fuel =>
      rw [drainLevel, OrderBook.bestQueue, best]
      split <;> rfl

theorem drainLevel_of_fillable {price : Int} {maker : Node} {rest : OrderList} {sweep : Sweep}
    (fillable : Fillable takerSide sweep price maker rest) (fuel : Nat) :
    drainLevel host takerSide price batchId (fuel + 1) sweep =
      drainLevel host takerSide price batchId fuel
        (fillFront host takerSide price batchId sweep maker rest) := by
  rw [drainLevel, if_pos fillable.wants, OrderBook.bestQueue, fillable.best]
  rfl

/-- A fill that satisfies the taker is the last one of the inner loop. -/
theorem cleaned_drainLevel_of_sated {price : Int} {maker : Node} {rest : OrderList} {sweep : Sweep}
    (fillable : Fillable takerSide sweep price maker rest)
    (sated : ¬ 0 < sweep.taker.qty - fillQty sweep.taker maker.order) (fuel : Nat) :
    cleaned takerSide (drainLevel host takerSide price batchId (fuel + 1) sweep) =
      afterFill host takerSide batchId sweep price maker rest := by
  rw [drainLevel_of_fillable fillable, drainLevel_of_sated sated, cleaned,
    cleanup_fillFront fillable.best]

variable (host batchId) in
/-- The number of levels after a fill that pops its maker. -/
theorem length_afterFill_of_usedUp {price : Int} {maker : Node} {rest : OrderList} {sweep : Sweep}
    (fillable : Fillable takerSide sweep price maker rest)
    (usedUp : maker.order.qty - fillQty sweep.taker maker.order = 0) :
    ((afterFill host takerSide batchId sweep price maker rest).engine.book.levels
      takerSide.opposite).entries.length + (if rest = [] then 1 else 0) =
        (sweep.engine.book.levels takerSide.opposite).entries.length := by
  have queueEq : queueAfterFill (fillQty sweep.taker maker.order) maker rest = rest :=
    if_pos usedUp
  simpa [afterFill, queueEq] using OrderBook.length_setLevel_of_first? fillable.best rest

variable (host batchId) in
/--
Running the inner loop and cleaning up is a number of fills.  The induction is
on the orders queued behind the first one: a fill that leaves the taker wanting
more has popped its maker.
-/
theorem drainLevel_fills {price : Int} {maker : Node} {rest : OrderList} {sweep after : Sweep}
    (fillable : Fillable takerSide sweep price maker rest) {fuel : Nat}
    (enough : rest.length ≤ fuel)
    (result : cleaned takerSide (drainLevel host takerSide price batchId (fuel + 1) sweep) = after) :
    (∀ last, Settles (fillStep host takerSide batchId) after last →
      Settles (fillStep host takerSide batchId) sweep last) ∧
    (¬ 0 < after.taker.qty ∨
      (after.engine.book.levels takerSide.opposite).entries.length <
        (sweep.engine.book.levels takerSide.opposite).entries.length) := by
  induction rest generalizing sweep maker fuel with
  | nil =>
      have moves : fillStep host takerSide batchId sweep = _ := fillStep_of_fillable fillable
      by_cases wants : 0 < sweep.taker.qty - fillQty sweep.taker maker.order
      · have usedUp := usedUp_of_wants wants
        have length := length_afterFill_of_usedUp host batchId fillable usedUp
        have bestNext := first?_fillFront host batchId fillable.best
        rw [queueAfterFill, if_pos usedUp] at bestNext
        rw [drainLevel_of_fillable fillable, drainLevel_of_nil bestNext, cleaned,
          cleanup_fillFront fillable.best] at result
        subst result
        rw [if_pos rfl] at length
        exact ⟨fun last => Settles.head moves, Or.inr (by omega)⟩
      · rw [cleaned_drainLevel_of_sated fillable wants] at result
        subst result
        exact ⟨fun last => Settles.head moves, Or.inl wants⟩
  | cons second rest ih =>
      have moves : fillStep host takerSide batchId sweep = _ := fillStep_of_fillable fillable
      by_cases wants : 0 < sweep.taker.qty - fillQty sweep.taker maker.order
      · have usedUp := usedUp_of_wants wants
        have length := length_afterFill_of_usedUp host batchId fillable usedUp
        have bestNext := first?_fillFront host batchId fillable.best
        rw [queueAfterFill, if_pos usedUp] at bestNext
        obtain ⟨fuel, rfl⟩ : ∃ less, fuel = less + 1 := ⟨fuel - 1, by simp at enough; omega⟩
        have same : fillFront host takerSide price batchId sweep maker (second :: rest) =
            afterFill host takerSide batchId sweep price maker (second :: rest) := by
          rw [← cleanup_fillFront fillable.best]
          exact (cleaned_of_ne_nil bestNext (by simp)).symm
        rw [drainLevel_of_fillable fillable, same] at result
        rw [same] at bestNext
        obtain ⟨later, shrinks⟩ := ih ⟨wants, bestNext, fillable.admits⟩
          (by simp at enough; omega) result
        rw [if_neg (by simp)] at length
        refine ⟨fun last settles => Settles.head moves (later last settles), ?_⟩
        rcases shrinks with sated | fewer
        · exact Or.inl sated
        · exact Or.inr (by omega)
      · rw [cleaned_drainLevel_of_sated fillable wants] at result
        subst result
        exact ⟨fun last => Settles.head moves, Or.inl wants⟩

theorem matchLevels_of_sated {sweep : Sweep} (sated : ¬ 0 < sweep.taker.qty) (fuel : Nat) :
    matchLevels host takerSide batchId fuel sweep = sweep := by
  cases fuel with
  | zero => rfl
  | succ fuel => rw [matchLevels, if_neg sated]

/-- The nested loops compute where repeating a single fill comes to rest. -/
theorem matchLevels_settles (fuel : Nat) (sweep : Sweep)
    (enough : (sweep.engine.book.levels takerSide.opposite).entries.length ≤ fuel) :
    Settles (fillStep host takerSide batchId) sweep
      (matchLevels host takerSide batchId fuel sweep) := by
  induction fuel generalizing sweep with
  | zero =>
      apply Settles.refl
      have empty := List.length_eq_zero_iff.mp (Nat.le_zero.mp enough)
      simp [fillStep, SortedMap.first?, empty]
  | succ fuel ih =>
      by_cases wants : 0 < sweep.taker.qty
      · cases best : (sweep.engine.book.levels takerSide.opposite).first? with
        | none =>
            simp only [matchLevels, OrderBook.bestPrice, best, if_pos wants, Option.map]
            exact Settles.refl (by simp [fillStep, best])
        | some entry =>
            obtain ⟨price, queue⟩ := entry
            by_cases beyond :
                sweep.taker.type = .limit ∧ beyondLimit takerSide price sweep.taker.price
            · simp only [matchLevels, OrderBook.bestPrice, best, if_pos wants, Option.map,
                if_pos beyond]
              apply Settles.refl
              cases queue <;> simp [fillStep, best, beyond]
            · cases queue with
              | nil =>
                  simp only [matchLevels, OrderBook.bestPrice, OrderBook.bestQueue, best,
                    if_pos wants, Option.map, if_neg beyond]
                  exact Settles.refl (by simp [fillStep, best])
              | cons maker rest =>
                  simp only [matchLevels, OrderBook.bestPrice, OrderBook.bestQueue, best,
                    if_pos wants, Option.map, if_neg beyond]
                  obtain ⟨later, shrinks⟩ := drainLevel_fills host batchId
                    ⟨wants, best, beyond⟩ (Nat.le_refl _) rfl
                  apply later
                  rcases shrinks with sated | fewer
                  · -- a filled taker ends the outer loop as well
                    rw [← cleaned, matchLevels_of_sated sated fuel]
                    exact Settles.refl (by simp [fillStep, sated])
                  · exact ih _ (by omega)
      · rw [matchLevels, if_neg wants]
        exact Settles.refl (by simp [fillStep, wants])

variable (host batchId) in
theorem matchBuy_settles (sweep : Sweep) :
    Settles (fillStep host .buy batchId) sweep (matchBuy host sweep batchId) :=
  matchLevels_settles _ sweep (Nat.le_refl _)

variable (host batchId) in
theorem matchSell_settles (sweep : Sweep) :
    Settles (fillStep host .sell batchId) sweep (matchSell host sweep batchId) :=
  matchLevels_settles _ sweep (Nat.le_refl _)

end Loops

end MatchingEngine

end OrderBookSimulator
