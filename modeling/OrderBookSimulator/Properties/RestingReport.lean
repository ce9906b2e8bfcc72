import OrderBookSimulator.Engine.Answer
import OrderBookSimulator.Engine.Walk

/-!
# What an order is reported to leave resting

The book may refuse to rest a remainder, and only the book knows: the status
and the reservation are decided without asking it.  They agree with the book
except where the id is already in the index.
-/

namespace OrderBookSimulator

open Library

/-- An order with the id, side and price of `order` rests with this quantity. -/
def OrderBook.RestsAs (book : OrderBook) (order : Order) (qty : Int) : Prop :=
  ∃ resting ∈ book.resting, resting.id = order.id ∧ resting.side = order.side ∧
    resting.price = order.price ∧ resting.qty = qty

instance (book : OrderBook) (order : Order) (qty : Int) : Decidable (book.RestsAs order qty) :=
  inferInstanceAs (Decidable (∃ resting ∈ book.resting, _))

/-- The status of an order that is still open. -/
def OrderStatus.IsOpen (status : OrderStatus) : Prop := status = .new ∨ status = .partiallyFilled

instance (status : OrderStatus) : Decidable status.IsOpen := inferInstanceAs (Decidable (_ ∨ _))

/-- What resting `qty` of an order locks: cash for a buy, shares for a sell. -/
def Position.reserveFor (host : Host) (order : Order) (qty : Int) (pos : Position) : Position :=
  match order.side with
  | .buy => pos.reserveBalance host (host.longLong (order.price * qty))
  | .sell => pos.reserveShares host qty

/-- Between the two, the order's owner had `qty` of it reserved, and nothing else moved. -/
def Reserved (host : Host) (order : Order) (qty : Int) (before after : Option UserManager) : Prop :=
  ∀ users, before = some users → ∃ users', after = some users' ∧ ∀ user,
    users'.getPosition user =
      if user = order.userId then (users.getPosition user).reserveFor host order qty
      else users.getPosition user

/-- Between the two, no position moved. -/
def ReservedNothing (before after : Option UserManager) : Prop :=
  ∀ users, before = some users → ∃ users', after = some users' ∧ ∀ user,
    users'.getPosition user = users.getPosition user

/-- On sound books, what rests as an order is read off its own side. -/
theorem OrderBook.restsAs_congr {first second : OrderBook} (sound : first.Sound)
    (soundSecond : second.Sound) {order : Order}
    (same : first.levels order.side = second.levels order.side) (qty : Int) :
    first.RestsAs order qty ↔ second.RestsAs order qty := by
  have carries : ∀ {book other : OrderBook}, book.Sound →
      book.levels order.side = other.levels order.side →
      book.RestsAs order qty → other.RestsAs order qty := by
    rintro book other sound same ⟨resting, member, id, side, rest⟩
    obtain ⟨node, queued, rfl⟩ := List.mem_map.mp member
    have atLevel := (sound.located_of_mem queued).2
    rw [side, OrderBook.level, same] at atLevel
    exact ⟨node.order, List.mem_map_of_mem (OrderBook.mem_nodes_iff.mpr ⟨_, _, atLevel⟩), id, side,
      rest⟩
  exact ⟨carries sound same, carries soundSecond same.symm⟩

namespace MatchingEngine

/-- The users when `process_order` has no more to do with them than `on_order_resting`. -/
def usersBeforeResting (host : Host) (engine : MatchingEngine) (order : Order) :
    Option UserManager :=
  if (engine.preflightCheck host order).isOk then (engine.callSweep host order).engine.userManager
  else (engine.opened order).userManager

/-- What `process_order` reports is what rests and what is reserved. -/
structure ReportsWhatRests (host : Host) (engine : MatchingEngine) (order : Order) : Prop where
  told : (engine.processOrder host order).2.status.IsOpen →
    0 < (engine.processOrder host order).2.remainingQty →
      (engine.processOrder host order).1.book.RestsAs order
          (engine.processOrder host order).2.remainingQty ∧
        Reserved host order (engine.processOrder host order).2.remainingQty
          (engine.usersBeforeResting host order) (engine.processOrder host order).1.userManager
  silent : ¬ (engine.processOrder host order).1.book.RestsAs order
      (engine.processOrder host order).2.remainingQty →
    ReservedNothing (engine.usersBeforeResting host order)
        (engine.processOrder host order).1.userManager ∧
      ¬ (engine.processOrder host order).2.status.IsOpen

/-- What the orders that `order` may trade with have to offer. -/
def offered (engine : MatchingEngine) (order : Order) : Int :=
  ((engine.book.opposing order).map (·.qty)).sum

section Report

variable {host : Host} {engine : MatchingEngine} {order : Order}

theorem fillStatus_isOpen_iff {filled left : Int} (positive : 0 < filled + left) :
    (fillStatus filled left).IsOpen ↔ left ≠ 0 := by
  rw [OrderStatus.IsOpen, fillStatus_eq_new_iff, fillStatus_eq_partiallyFilled_iff]
  omega

/-- Resting what is left of an order reserves it for the order's owner. -/
theorem reserved_onOrderResting {users : UserManager}
    (registered : users.orderToUser.find? order.id = some order.userId) (qty : Int) (user : Int) :
    (users.onOrderResting host order.id order.side order.price qty).getPosition user =
      if user = order.userId then (users.getPosition user).reserveFor host order qty
      else users.getPosition user := by
  unfold UserManager.onOrderResting Position.reserveFor
  rw [registered]
  cases order.side with
  | buy =>
      simp only [UserManager.getPosition_updatePosition]
      split
      · rename_i same
        rw [same]
      · rfl
  | sell =>
      simp only [UserManager.getPosition_updatePosition]
      split
      · rename_i same
        rw [same]
      · rfl

theorem reservedNothing_refl (users : Option UserManager) : ReservedNothing users users :=
  fun users' hasUsers => ⟨users', hasUsers, fun _ => rfl⟩

/-- An order that preflight refuses is reported as such. -/
theorem reportsWhatRests_of_refused (notOk : (engine.preflightCheck host order).isOk = false) :
    ReportsWhatRests host engine order := by
  obtain ⟨status, final, result⟩ := processOrder_of_refused host engine order notOk
  have notOpen : ¬ (engine.processOrder host order).2.status.IsOpen := by
    rw [result]
    rcases final with rfl | rfl <;> simp [OrderStatus.IsOpen]
  refine ⟨fun isOpen => absurd isOpen notOpen, fun _ => ⟨?_, notOpen⟩⟩
  rw [usersBeforeResting, notOk, result, userManager_emitOrderEvent]
  exact reservedNothing_refl _

section Accepted

variable (sound : engine.book.Sound) (limit : order.type = .limit)
  (ok : (engine.preflightCheck host order).isOk = true)

include sound ok

theorem left_of_accepted : (engine.processOrder host order).2.remainingQty =
    order.qty - min order.qty (engine.offered order) := by
  rw [processOrder_of_accepted host engine order ok]
  exact left_callSweep host sound (Int.le_of_lt (passed_of_isOk ok).qty_pos)

/-- An order with nothing left is reported as filled, and nothing of it is reserved. -/
theorem reportsWhatRests_of_filled (enough : order.qty ≤ engine.offered order) :
    ReportsWhatRests host engine order := by
  have none := left_of_accepted sound ok
  rw [Int.min_eq_left enough, Int.sub_self] at none
  have swept := swept_callSweep host sound (Int.le_of_lt (passed_of_isOk ok).qty_pos)
  have wanted := (passed_of_isOk ok).qty_pos
  have left : (engine.callSweep host order).taker.qty = 0 := by
    rw [processOrder_of_accepted host engine order ok] at none
    exact none
  refine ⟨fun _ some => by omega, fun _ => ⟨?_, ?_⟩⟩
  · rw [usersBeforeResting, if_pos ok, processOrder_of_accepted host engine order ok,
      userManager_concluded, userManager_restRemainder, if_neg (by omega)]
    exact reservedNothing_refl _
  · rw [processOrder_of_accepted host engine order ok, report, fillStatus_isOpen_iff (by omega)]
    exact absurd left

include limit

/-- What is left of a limit order is reserved whether or not the book rests it. -/
theorem reserved_of_left (short : engine.offered order < order.qty) :
    Reserved host order (order.qty - engine.offered order) (engine.usersBeforeResting host order)
      (engine.processOrder host order).1.userManager := by
  have left := left_callSweep host sound (Int.le_of_lt (passed_of_isOk ok).qty_pos)
  rw [show ((engine.book.opposing order).map (·.qty)).sum = engine.offered order from rfl,
    Int.min_eq_right (Int.le_of_lt short)] at left
  have swept := swept_callSweep host sound (Int.le_of_lt (passed_of_isOk ok).qty_pos)
  have takerIs := swept.taker
  rw [left] at takerIs
  rw [usersBeforeResting, if_pos ok, processOrder_of_accepted host engine order ok,
    userManager_concluded, userManager_restRemainder, takerIs,
    if_pos ⟨limit, by dsimp only; omega⟩]
  intro users hasUsers
  refine ⟨_, by rw [hasUsers, Option.map_some], fun user => ?_⟩
  cases before : engine.userManager with
  | none =>
      have noUsers := (Answered.accepted order ok swept).noUsers before
      rw [userManager_concluded, userManager_restRemainder, hasUsers] at noUsers
      split at noUsers <;> cases noUsers
  | some first =>
      obtain ⟨users', hasUsers', registered⟩ := @callSweep_users host engine order first
        (fun users => users.orderToUser.find? order.id = some order.userId)
        (fun users makerId takerId price qty side registered => by
          rw [UserManager.orderToUser_onFill]
          exact registered)
        before (by simp [UserManager.registerOrder])
      rw [hasUsers] at hasUsers'
      cases hasUsers'
      exact reserved_onOrderResting registered _ user

/-- What rests under the order's id, side and price after the call. -/
theorem restsAs_of_left_iff (short : engine.offered order < order.qty) (qty : Int) :
    (engine.processOrder host order).1.book.RestsAs order qty ↔
      (engine.book.index.find? order.id = none ∧ order.qty - engine.offered order = qty) ∨
        engine.book.RestsAs order qty := by
  have left := left_callSweep host sound (Int.le_of_lt (passed_of_isOk ok).qty_pos)
  rw [show ((engine.book.opposing order).map (·.qty)).sum = engine.offered order from rfl,
    Int.min_eq_right (Int.le_of_lt short)] at left
  have swept := swept_callSweep host sound (Int.le_of_lt (passed_of_isOk ok).qty_pos)
  obtain ⟨resting, index⟩ := swept.announced
  have takerIs := swept.taker
  rw [left] at takerIs
  have sideKept : (announcedBook (engine.callSweep host order)).RestsAs order qty ↔
      engine.book.RestsAs order qty := by
    rw [OrderBook.RestsAs, resting]
    exact OrderBook.restsAs_congr swept.sound sound (ownLevels_callSweep host engine order) qty
  rw [processOrder_of_accepted host engine order ok, book_concluded, book_restRemainder, takerIs,
    if_pos ⟨limit, by dsimp only; omega⟩, ← sideKept]
  cases found : engine.book.index.find? order.id with
  | some loc =>
      rw [OrderBook.addRestingOrder_of_known (by rw [index]; exact found)]
      simp
  | none =>
      have perm := @OrderBook.resting_addRestingOrder
        (announcedBook (engine.callSweep host order))
        { order with qty := order.qty - engine.offered order }
        (by dsimp only; omega) (by rw [index]; exact found)
      simp only [OrderBook.RestsAs, perm.mem_iff, List.mem_cons, exists_eq_or_imp, true_and]

end Accepted

/--
In every reachable state and for every limit order, whatever its id: what is
reported, what rests and what is reserved agree if and only if preflight
refuses the order, nothing of it is left, its id is not in the index, or just
such an order was resting already.
-/
theorem report_is_what_rests_iff {start state : MatchingEngine} {log : Log}
    (sound : start.book.Sound) (run : AnySession host start log state)
    (limit : order.type = .limit) :
    ReportsWhatRests host state order ↔
      (state.preflightCheck host order).isOk = false ∨ order.qty ≤ state.offered order ∨
        state.book.index.find? order.id = none ∨
        state.book.RestsAs order (order.qty - state.offered order) := by
  have soundNow := sound_of_anySession sound run
  cases ok : (state.preflightCheck host order).isOk with
  | false => exact iff_of_true (reportsWhatRests_of_refused ok) (Or.inl rfl)
  | true =>
      by_cases enough : order.qty ≤ state.offered order
      · exact iff_of_true (reportsWhatRests_of_filled soundNow ok enough) (Or.inr (Or.inl enough))
      · have short : state.offered order < order.qty := by omega
        have left := left_of_accepted soundNow ok
        rw [Int.min_eq_right (Int.le_of_lt short)] at left
        have rests := restsAs_of_left_iff soundNow limit ok short (order.qty - state.offered order)
        have isOpen : (state.processOrder host order).2.status.IsOpen := by
          rw [processOrder_of_accepted host state order ok] at left ⊢
          refine (fillStatus_isOpen_iff ?_).mpr ?_
          · have wanted := (passed_of_isOk ok).qty_pos
            omega
          · change (state.callSweep host order).taker.qty = _ at left
            omega
        constructor
        · intro reports
          rw [← left] at rests
          rcases rests.mp (reports.told isOpen (by omega)).1 with ⟨unknown, _⟩ | already
          · exact Or.inr (Or.inr (Or.inl unknown))
          · exact Or.inr (Or.inr (Or.inr (left ▸ already)))
        · intro agrees
          have restsNow : (state.processOrder host order).1.book.RestsAs order
              (order.qty - state.offered order) := by
            rcases agrees with refused | filled | unknown | already
            · cases refused
            · exact absurd filled enough
            · exact rests.mpr (Or.inl ⟨unknown, rfl⟩)
            · exact rests.mpr (Or.inr already)
          have reserved := reserved_of_left soundNow limit ok short
          rw [← left] at restsNow reserved
          exact ⟨fun _ _ => ⟨restsNow, reserved⟩, fun notResting => absurd restsNow notResting⟩

/-- A partly filled order rests what it is reported to have left. -/
theorem report_is_what_rests_after_partial_fill :
    ∃ log state, AnySession (Host.exact (·)) { userManager := some {} } log state ∧
      log.length = 1 ∧
      ReportsWhatRests (Host.exact (·)) state ⟨2, 7, .buy, 100, 8, .limit⟩ := by
  have run := Run.of_isSome (exec (Host.exact (·))) (fun _ _ => True) { userManager := some {} }
    [.processOrder ⟨1, 0, .sell, 100, 5, .limit⟩] (by decide)
  exact ⟨_, _, run, rfl, (report_is_what_rests_iff (OrderBook.sound_empty none) run rfl).mpr
    (by decide)⟩

/-- An id that was filled is still in the index: its next order is reported new but does not rest. -/
theorem not_reportsWhatRests_after_reuse :
    ∃ log state, AnySession (Host.exact (·)) { userManager := some {} } log state ∧
      log.length = 2 ∧
      (state.processOrder (Host.exact (·)) ⟨1, 7, .buy, 90, 10, .limit⟩).2.status = .new ∧
      (state.processOrder (Host.exact (·)) ⟨1, 7, .buy, 90, 10, .limit⟩).1.book.resting = [] ∧
      ¬ ReportsWhatRests (Host.exact (·)) state ⟨1, 7, .buy, 90, 10, .limit⟩ := by
  have run := Run.of_isSome (exec (Host.exact (·))) (fun _ _ => True) { userManager := some {} }
    [.processOrder ⟨1, 0, .sell, 100, 5, .limit⟩, .processOrder ⟨2, 7, .buy, 100, 5, .limit⟩]
    (by decide)
  refine ⟨_, _, run, rfl, by decide, by decide, fun reports => ?_⟩
  have rests := (reports.told (by decide) (by decide)).1
  revert rests
  decide

end Report

end MatchingEngine

end OrderBookSimulator
