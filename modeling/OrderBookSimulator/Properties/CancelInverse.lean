import OrderBookSimulator.Properties.WellFormedBook

/-!
# Cancelling is an exact inverse

A cancel takes one order out of its queue and one reservation out of one
position, and touches nothing else.  Whatever a `long long` does with values it
cannot hold, adding an amount and subtracting it again restores what was
stored, so resting an order and cancelling it leaves no trace.
-/

namespace OrderBookSimulator

open Library

/-- The reserved amounts are values that a `long long` holds. -/
def Position.Stored (host : Host) (pos : Position) : Prop :=
  host.longLong pos.reservedBalance = pos.reservedBalance ∧
    host.longLong pos.reservedShares = pos.reservedShares

/-- What cancelling `qty` of an order on this side releases. -/
def Position.releaseFor (host : Host) (side : Side) (price qty : Int) (pos : Position) : Position :=
  match side with
  | .buy => { pos with reservedBalance := host.longLong (pos.reservedBalance - price * qty) }
  | .sell => { pos with reservedShares := host.longLong (pos.reservedShares - qty) }

theorem Position.stored_default {host : Host} (modular : host.Modular) :
    ({} : Position).Stored host := ⟨modular.zero, modular.zero⟩

/-- The callbacks store every reserved amount they compute. -/
theorem kept_stored {host : Host} (modular : host.Modular) :
    UserManager.Kept host fun users => ∀ user, (users.getPosition user).Stored host :=
  UserManager.kept_of_positions (fun _ _ _ stored => stored) (fun _ _ _ stored => stored)
    (fun _ _ stored => ⟨modular.longLong_longLong _, stored.2⟩)
    (fun _ _ stored => ⟨stored.1, modular.longLong_longLong _⟩)
    (fun _ _ stored => ⟨modular.longLong_longLong _, stored.2⟩)
    (fun _ _ stored => ⟨stored.1, modular.longLong_longLong _⟩)

namespace UserManager

variable {host : Host} {users : UserManager} {orderId owner : Int}

/-- A cancel releases in the owner's position and leaves all others alone. -/
theorem getPosition_onCancel (modular : host.Modular)
    (registered : users.orderToUser.find? orderId = some owner) (side : Side)
    (price qty user : Int) :
    (users.onCancel host orderId side price qty).getPosition user =
      if user = owner then (users.getPosition user).releaseFor host side price qty
      else users.getPosition user := by
  unfold onCancel Position.releaseFor
  rw [registered]
  cases side with
  | buy =>
      simp only [getPosition_updatePosition]
      split
      · rename_i same
        rw [same, Position.releaseBalance, modular.sub_right]
      · rfl
  | sell =>
      simp only [getPosition_updatePosition]
      split
      · rename_i same
        rw [same]
        rfl
      · rfl

/-- Resting an order and cancelling it restores every position. -/
theorem getPosition_onCancel_onOrderResting (modular : host.Modular)
    (stored : ∀ user, (users.getPosition user).Stored host)
    (registered : users.orderToUser.find? orderId = some owner) (side : Side)
    (price qty user : Int) :
    ((users.onOrderResting host orderId side price qty).onCancel host orderId side price
      qty).getPosition user = users.getPosition user := by
  have stillRegistered :
      (users.onOrderResting host orderId side price qty).orderToUser.find? orderId = some owner := by
    rw [orderToUser_onOrderResting]
    exact registered
  rw [getPosition_onCancel modular stillRegistered, onOrderResting, registered]
  obtain ⟨balance, shares⟩ := stored owner
  cases side with
  | buy =>
      simp only [getPosition_updatePosition, Position.releaseFor]
      split
      · rename_i same
        rw [same, Position.reserveBalance]
        simp only [modular.add_right, modular.sub_add_cancel balance]
      · rfl
  | sell =>
      simp only [getPosition_updatePosition, Position.releaseFor]
      split
      · rename_i same
        rw [same, Position.reserveShares]
        simp only [modular.sub_add_cancel shares]
      · rfl

end UserManager

namespace OrderBook

/-- The best price of a side is the price of an order there, and none there is ahead of it. -/
def BestIsBest (book : OrderBook) : Prop :=
  ∀ side price, book.bestPrice side = some price ↔
    (∃ order ∈ book.resting, order.side = side ∧ order.price = price) ∧
    ∀ order ∈ book.resting, order.side = side → order.price = price ∨ Ahead side price order.price

theorem bestIsBest_of_sound {book : OrderBook} (sound : book.Sound) : book.BestIsBest := by
  intro side price
  constructor
  · intro best
    refine ⟨exists_resting_of_bestPrice sound best, ?_⟩
    rintro order member rfl
    obtain ⟨other, isBest, behind⟩ := bestPrice_of_resting sound member
    rw [best] at isBest
    cases isBest
    exact behind
  · rintro ⟨⟨order, member, rfl, rfl⟩, behind⟩
    obtain ⟨best, isBest, notAhead⟩ := bestPrice_of_resting sound member
    obtain ⟨front, frontMember, frontSide, rfl⟩ := exists_resting_of_bestPrice sound isBest
    rw [isBest]
    rcases behind front frontMember frontSide with same | ahead
    · rw [same]
    · rcases notAhead with same | ahead'
      · rw [same]
      · exact absurd ahead' (asymm ahead)

/-- Without empty levels, a side is determined by the queues at its prices. -/
theorem levels_ext {first second : OrderBook} (noEmpty : first.NoEmptyLevel)
    (noEmptySecond : second.NoEmptyLevel) {side : Side}
    (same : ∀ price, first.level side price = second.level side price) :
    first.levels side = second.levels side := by
  apply SortedMap.ext_find?
  intro price
  have here := same price
  have nonempty := noEmpty side price
  have nonemptySecond := noEmptySecond side price
  unfold level SortedMap.findD at here
  cases found : (first.levels side).find? price with
  | none =>
      cases foundSecond : (second.levels side).find? price with
      | none => rfl
      | some queue =>
          rw [found, foundSecond] at here
          exact absurd (foundSecond.trans (congrArg some here.symm)) nonemptySecond
  | some queue =>
      cases foundSecond : (second.levels side).find? price with
      | none =>
          rw [found, foundSecond] at here
          exact absurd (found.trans (congrArg some here)) nonempty
      | some other =>
          rw [found, foundSecond] at here
          exact congrArg some here

section Withdrawn

variable {book : OrderBook}

theorem filter_of_not_resting {orderId : Int} (notResting : ¬ book.Resting orderId) (side : Side)
    (price : Int) :
    (book.level side price).filter (·.order.id ≠ orderId) = book.level side price := by
  refine List.filter_eq_self.mpr fun node atLevel => ?_
  have different : node.order.id ≠ orderId := fun same =>
    notResting ⟨node.order, List.mem_map_of_mem (mem_nodes_iff.mpr ⟨_, _, atLevel⟩), same⟩
  simpa using different

/-- Cancelling the order that was added last takes the book back to where it was. -/
theorem Sound.withdrawn_addRestingOrder (sound : book.Sound) {order : Order}
    (positive : 0 < order.qty) (new : book.index.find? order.id = none) :
    (⟨book.nextAddress, order⟩ : Node) ∈ (book.addRestingOrder order).nodes ∧
      (∀ side, ((book.addRestingOrder order).withdrawn order).levels side = book.levels side) ∧
      ((book.addRestingOrder order).withdrawn order).index = book.index := by
  have soundAdded := sound.addRestingOrder positive new
  have queued : (⟨book.nextAddress, order⟩ : Node) ∈ (book.addRestingOrder order).nodes := by
    refine mem_nodes_iff.mpr ⟨order.side, order.price, ?_⟩
    rw [level_addRestingOrder positive new, if_pos ⟨rfl, rfl⟩]
    exact List.mem_append_right _ (.head _)
  refine ⟨queued, fun side => ?_, ?_⟩
  · refine levels_ext (soundAdded.withdrawn queued).noEmptyLevel sound.noEmptyLevel fun price => ?_
    have before := filter_of_not_resting (sound.not_resting_of_unknown new) side price
    rw [soundAdded.level_withdrawn queued, level_addRestingOrder positive new]
    split
    · rw [List.filter_append, before]
      simp
    · exact before
  · rw [index_withdrawn, index_addRestingOrder positive new]
    apply SortedMap.ext_find?
    intro orderId
    rw [SortedMap.find?_erase, SortedMap.find?_insert]
    split
    · rename_i same
      rw [same, new]
    · rfl

end Withdrawn

end OrderBook

namespace MatchingEngine

/-- What a cancel of the resting order `order` of `owner` does, and all that it does. -/
structure CancelsExactly (host : Host) (order : Order) (owner : Int)
    (before after : MatchingEngine) : Prop where
  notFound : after.book.findOrder order.id = .ok none
  remaining : before.book.resting.Perm (order :: after.book.resting)
  level : ∀ side price, after.book.level side price =
    (before.book.level side price).filter (·.order.id ≠ order.id)
  noEmptyLevel : after.book.NoEmptyLevel
  best : after.book.BestIsBest
  positions : ∃ users users', before.userManager = some users ∧ after.userManager = some users' ∧
    ∀ user, users'.getPosition user =
      if user = owner then
        (users.getPosition user).releaseFor host order.side order.price order.qty
      else users.getPosition user

/-- The book and every position are what they were. -/
structure Restored (before after : MatchingEngine) : Prop where
  bids : after.book.bids = before.book.bids
  asks : after.book.asks = before.book.asks
  index : after.book.index = before.book.index
  positions : ∃ users users', before.userManager = some users ∧ after.userManager = some users' ∧
    ∀ user, users'.getPosition user = users.getPosition user

/-- The best opposing price is one that the order's limit admits. -/
def Crosses (engine : MatchingEngine) (order : Order) : Prop :=
  ∃ price, engine.book.bestPrice order.side.opposite = some price ∧
    ¬ beyondLimit order.side price order.price

instance (engine : MatchingEngine) (order : Order) : Decidable (engine.Crosses order) :=
  decidable_of_iff (∃ price ∈ engine.book.bestPrice order.side.opposite,
    ¬ beyondLimit order.side price order.price) Iff.rfl

section Cancel

variable {host : Host} {engine : MatchingEngine} {users : UserManager}

theorem cancelsExactly_of_queued (modular : host.Modular) (sound : engine.book.Sound)
    (hasUsers : engine.userManager = some users) {node : Node} (queued : node ∈ engine.book.nodes)
    {owner : Int} (registered : users.orderToUser.find? node.order.id = some owner) :
    CancelsExactly host node.order owner engine (engine.cancelled host node.order) where
  notFound := by
    rw [book_cancelled, OrderBook.findOrder, OrderBook.index_notifyChange,
      OrderBook.index_withdrawn, SortedMap.find?_erase, if_pos rfl]
  remaining := by
    rw [book_cancelled]
    exact sound.resting_withdrawn queued
  level := by
    intro side price
    rw [book_cancelled, OrderBook.level_notifyChange]
    exact sound.level_withdrawn queued side price
  noEmptyLevel := by
    rw [book_cancelled]
    exact (sound.withdrawn queued).notifyChange.noEmptyLevel
  best := by
    rw [book_cancelled]
    exact OrderBook.bestIsBest_of_sound (sound.withdrawn queued).notifyChange
  positions := by
    refine ⟨users, _, hasUsers, by rw [userManager_cancelled, hasUsers, Option.map_some], ?_⟩
    exact fun user => UserManager.getPosition_onCancel modular registered _ _ _ user

/-- A sweep of an order that does not cross trades nothing. -/
theorem callSweep_of_not_crosses {order : Order} (limit : order.type = .limit)
    (notCrosses : ¬ engine.Crosses order) :
    engine.callSweep host order =
      startSweep host (engine.opened order) engine.batchSeq order := by
  refine (callSweep_settles host engine order).eq_of_none (fillStep_of_not_fillable ?_)
  intro price maker rest fillable
  have best : engine.book.bestPrice order.side.opposite = some price := by
    have first := fillable.best
    simp only [startSweep, book_emitOrderEvent, book_opened] at first
    rw [OrderBook.bestPrice, first]
    rfl
  exact notCrosses ⟨price, best, fun beyond => fillable.admits ⟨limit, beyond⟩⟩

/-- Resting a new order that does not cross and cancelling it leaves no trace. -/
theorem restored_of_not_crosses (modular : host.Modular) (sound : engine.book.Sound)
    (hasUsers : engine.userManager = some users)
    (stored : ∀ user, (users.getPosition user).Stored host) {order : Order}
    (limit : order.type = .limit) (fresh : engine.book.index.find? order.id = none)
    (notCrosses : ¬ engine.Crosses order)
    (ok : (engine.preflightCheck host order).isOk = true) :
    ∃ after, (engine.processOrder host order).1.cancelOrder host order.id = .ok (after, true) ∧
      Restored engine after := by
  have positive := (passed_of_isOk ok).qty_pos
  have soundRested := sound_processOrder host sound order
  have sweepEq : engine.callSweep host order =
      startSweep host (engine.opened order) engine.batchSeq order :=
    callSweep_of_not_crosses limit notCrosses
  have restedBook : (engine.processOrder host order).1.book =
      engine.book.addRestingOrder order := by
    rw [processOrder_of_accepted host engine order ok, book_concluded, book_restRemainder, sweepEq]
    simp [startSweep, announcedBook, limit, positive]
  have restedUsers : (engine.processOrder host order).1.userManager =
      some ((users.registerOrder order.id order.userId).onOrderResting host order.id order.side
        order.price order.qty) := by
    rw [processOrder_of_accepted host engine order ok, userManager_concluded,
      userManager_restRemainder, sweepEq]
    simp [startSweep, limit, positive, hasUsers]
  obtain ⟨queued, levels, index⟩ := sound.withdrawn_addRestingOrder positive fresh
  rw [← restedBook] at queued
  refine ⟨_, cancelOrder_of_queued host soundRested queued, ?_⟩
  have afterBook : ((engine.processOrder host order).1.cancelled host order).book =
      ((engine.book.addRestingOrder order).withdrawn order).notifyChange := by
    rw [book_cancelled, restedBook]
  exact {
    bids := by rw [afterBook]; exact levels .buy
    asks := by rw [afterBook]; exact levels .sell
    index := by rw [afterBook]; exact index
    positions := by
      refine ⟨users, _, hasUsers, by rw [userManager_cancelled, restedUsers, Option.map_some], ?_⟩
      have storedOpened : ∀ user,
          ((users.registerOrder order.id order.userId).getPosition user).Stored host := stored
      have registered : (users.registerOrder order.id order.userId).orderToUser.find? order.id =
          some order.userId := by simp [UserManager.registerOrder]
      exact fun user =>
        UserManager.getPosition_onCancel_onOrderResting modular storedOpened registered _ _ _ user }

/--
In every reachable state, cancelling a resting order with a registered owner
removes that order and releases its reservation, and does nothing else; and
resting a new order that does not cross and cancelling it restores the book and
every position.
-/
theorem cancel_is_exact_inverse {start state : MatchingEngine} {log : Log} (modular : host.Modular)
    (sound : start.book.Sound) (hasUsers : start.userManager = some users)
    (stored : ∀ user, (users.getPosition user).Stored host)
    (run : AnySession host start log state) :
    ∃ users', state.userManager = some users' ∧
      (∀ order ∈ state.book.resting, ∀ owner,
        users'.orderToUser.find? order.id = some owner →
          ∃ after, state.cancelOrder host order.id = .ok (after, true) ∧
            CancelsExactly host order owner state after) ∧
      ∀ order, order.type = .limit → state.book.index.find? order.id = none →
        ¬ state.Crosses order → (state.preflightCheck host order).isOk = true →
          ∃ after, (state.processOrder host order).1.cancelOrder host order.id = .ok (after, true) ∧
            Restored state after := by
  have soundNow := sound_of_anySession sound run
  obtain ⟨users', hasUsers', storedNow⟩ :=
    users_of_anySession (kept_stored modular) sound hasUsers stored run
  refine ⟨users', hasUsers', ?_, ?_⟩
  · intro order member owner registered
    obtain ⟨node, queued, rfl⟩ := List.mem_map.mp member
    exact ⟨_, cancelOrder_of_queued host soundNow queued,
      cancelsExactly_of_queued modular soundNow hasUsers' queued registered⟩
  · intro order limit fresh notCrosses ok
    exact restored_of_not_crosses modular soundNow hasUsers' storedNow limit fresh notCrosses ok

/--
A partly filled bid is cancelled, and a bid below the best ask comes and goes;
so does one in exact arithmetic.
-/
theorem cancel_is_exact_inverse_sample :
    ∃ log state, AnySession (Host.twosComplement (·)) { userManager := some {} } log state ∧
      log.length = 3 ∧
      (∃ after, state.cancelOrder (Host.twosComplement (·)) 1 = .ok (after, true) ∧
        CancelsExactly (Host.twosComplement (·)) ⟨1, 7, .buy, 100, 5, .limit⟩ 7 state after) ∧
      (∃ after, (state.processOrder (Host.twosComplement (·))
          ⟨4, 8, .buy, 90, 10, .limit⟩).1.cancelOrder (Host.twosComplement (·)) 4 =
            .ok (after, true) ∧
        Restored state after) ∧
      ∃ after, (processOrder (Host.exact (·)) { userManager := some {} }
          ⟨1, 8, .buy, 90, 10, .limit⟩).1.cancelOrder (Host.exact (·)) 1 = .ok (after, true) ∧
        Restored { userManager := some {} } after := by
  have run := Run.of_isSome (exec (Host.twosComplement (·))) (fun _ _ => True)
    { userManager := some {} }
    [.processOrder ⟨1, 7, .buy, 100, 8, .limit⟩, .processOrder ⟨2, 0, .sell, 100, 3, .limit⟩,
      .processOrder ⟨3, 0, .sell, 110, 9, .limit⟩] (by decide)
  have modular := Host.modular_twosComplement (·)
  have users : ({ userManager := some {} } : MatchingEngine).userManager = some {} := rfl
  obtain ⟨users', hasUsers', cancels, restores⟩ :=
    cancel_is_exact_inverse modular (OrderBook.sound_empty none) users
      (fun _ => Position.stored_default modular) run
  have registered : ((drive (exec (Host.twosComplement (·))) (fun _ _ => True) []
      { userManager := some {} }
      [.processOrder ⟨1, 7, .buy, 100, 8, .limit⟩, .processOrder ⟨2, 0, .sell, 100, 3, .limit⟩,
        .processOrder ⟨3, 0, .sell, 110, 9, .limit⟩]).get (by decide)).2.userManager.bind
          (·.orderToUser.find? 1) = some 7 := by decide
  rw [hasUsers'] at registered
  have modularExact := Host.modular_exact (·)
  obtain ⟨_, _, _, restoresExactly⟩ :=
    cancel_is_exact_inverse modularExact (OrderBook.sound_empty none) users
      (fun _ => Position.stored_default modularExact) .nil
  exact ⟨_, _, run, rfl, cancels ⟨1, 7, .buy, 100, 5, .limit⟩ (by decide) 7 registered,
    restores ⟨4, 8, .buy, 90, 10, .limit⟩ rfl (by decide) (by decide) (by decide),
    restoresExactly ⟨1, 8, .buy, 90, 10, .limit⟩ rfl (by decide) (by decide) (by decide)⟩

end Cancel

end MatchingEngine

end OrderBookSimulator
