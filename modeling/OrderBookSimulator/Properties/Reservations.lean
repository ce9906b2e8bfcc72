import OrderBookSimulator.Engine.Tracked
import OrderBookSimulator.User.Positions

/-!
# Reservations mirror the resting orders

What a user has reserved is what the user's resting orders would need if they
traded.  The statement is about the bag of resting orders, and there is one
lemma for each of the callbacks that change it.
-/

namespace OrderBookSimulator

open Library

/-- The cash that a user's bids among `orders` would cost. -/
def lockedBalance (orders : List Order) (user : Int) : Int :=
  tally (fun order : Order => order.side = .buy ∧ order.userId = user)
    (fun order => order.price * order.qty) orders

/-- The shares that a user's asks among `orders` would deliver. -/
def lockedShares (orders : List Order) (user : Int) : Int :=
  tally (fun order : Order => order.side = .sell ∧ order.userId = user) (·.qty) orders

/-- Every resting order is registered to its owner, and what it needs is reserved. -/
structure Backed (orders : List Order) (users : UserManager) : Prop where
  owners : ∀ order ∈ orders, users.getUserForOrder order.id = order.userId
  balance : ∀ user, 0 < user →
    (users.getPosition user).reservedBalance = lockedBalance orders user
  shares : ∀ user, 0 < user → (users.getPosition user).reservedShares = lockedShares orders user

namespace Backed

variable {orders : List Order} {users : UserManager}

theorem perm {other : List Order} (backed : Backed orders users) (perm : orders.Perm other) :
    Backed other users where
  owners := fun order member => backed.owners order (perm.mem_iff.mpr member)
  balance := fun user positive => (backed.balance user positive).trans (tally_perm perm)
  shares := fun user positive => (backed.shares user positive).trans (tally_perm perm)

/-- Registering an id that no resting order has. -/
theorem registerOrder (backed : Backed orders users) {orderId : Int}
    (fresh : ∀ order ∈ orders, order.id ≠ orderId) (userId : Int) :
    Backed orders (users.registerOrder orderId userId) where
  owners := by
    intro order member
    rw [UserManager.getUserForOrder_registerOrder, if_neg (fresh order member)]
    exact backed.owners order member
  balance := backed.balance
  shares := backed.shares

/-- A fill at the maker's price releases what the traded part of the maker had reserved. -/
theorem onFill (now : Nat → Int) {maker : Order} {others : List Order}
    (backed : Backed (maker :: others) users) {takerSide : Side}
    (opposite : maker.side = takerSide.opposite) (takerOrderId qty : Int) :
    Backed (leftOver qty maker ++ others)
      (users.onFill (Host.exact now) maker.id takerOrderId maker.price qty takerSide) := by
  have moved := UserManager.moved_onFill now (backed.owners maker (.head _))
    (rfl : users.getUserForOrder takerOrderId = _) maker.price qty takerSide
  exact {
    owners := by
      intro order member
      rw [UserManager.getUserForOrder_congr (UserManager.orderToUser_onFill _ _ _ _ _ _ _)]
      rcases List.mem_append.mp member with left | other
      · have own := backed.owners maker (.head _)
        rw [eq_of_mem_leftOver left]
        exact own
      · exact backed.owners order (.tail _ other)
    balance := by
      intro user positive
      have before := backed.balance user positive
      rw [(moved user).reservedBalance, before]
      unfold lockedBalance
      rw [tally_append, tally_cons, tally_leftOver (fun _ => .rfl) (by simp), opposite]
      cases takerSide with
      | buy => simp [Side.opposite]
      | sell =>
          by_cases own : maker.userId = user
          · simp [Side.opposite, own, Int.mul_sub]
            omega
          · simp [Side.opposite, own, amountIf_of_ne own]
    shares := by
      intro user positive
      have before := backed.shares user positive
      rw [(moved user).reservedShares, before]
      unfold lockedShares
      rw [tally_append, tally_cons, tally_leftOver (fun _ => .rfl) rfl, opposite]
      cases takerSide with
      | sell => simp [Side.opposite]
      | buy =>
          by_cases own : maker.userId = user
          · simp [Side.opposite, own]
            omega
          · simp [Side.opposite, own, amountIf_of_ne own] }

/-- Resting a registered order reserves what it needs. -/
theorem onOrderResting (now : Nat → Int) (backed : Backed orders users) {order : Order}
    (registered : users.orderToUser.find? order.id = some order.userId) :
    Backed (order :: orders)
      (users.onOrderResting (Host.exact now) order.id order.side order.price order.qty) := by
  have moved := UserManager.moved_onOrderResting now registered order.side order.price order.qty
  have owner : users.getUserForOrder order.id = order.userId := by
    rw [UserManager.getUserForOrder, SortedMap.findD, registered]
    rfl
  exact {
    owners := by
      intro other member
      rw [UserManager.getUserForOrder_congr (UserManager.orderToUser_onOrderResting _ _ _ _ _ _)]
      rcases List.mem_cons.mp member with rfl | member
      · exact owner
      · exact backed.owners other member
    balance := by
      intro user positive
      have before := backed.balance user positive
      rw [(moved user).reservedBalance, before, lockedBalance, lockedBalance, tally_cons]
      by_cases buys : order.side = .buy <;> by_cases own : order.userId = user <;>
        simp [buys, own, amountIf, add_comm]
    shares := by
      intro user positive
      have before := backed.shares user positive
      rw [(moved user).reservedShares, before, lockedShares, lockedShares, tally_cons]
      by_cases sells : order.side = .sell <;> by_cases own : order.userId = user <;>
        simp [sells, own, amountIf, add_comm] }

/-- A cancel releases what is left of the order's reservation. -/
theorem onCancel (now : Nat → Int) {order : Order} (backed : Backed (order :: orders) users) :
    Backed orders
      (users.onCancel (Host.exact now) order.id order.side order.price order.qty) := by
  have owner := backed.owners order (.head _)
  have owners : ∀ other ∈ orders, (users.onCancel (Host.exact now) order.id order.side order.price
      order.qty).getUserForOrder other.id = other.userId := by
    intro other member
    rw [UserManager.getUserForOrder_congr (UserManager.orderToUser_onCancel _ _ _ _ _ _)]
    exact backed.owners other (.tail _ member)
  cases registered : users.orderToUser.find? order.id with
  | none =>
      -- an unregistered order is the house's, and the house reserves nothing
      have house : order.userId = 0 := by
        rw [← owner, UserManager.getUserForOrder, SortedMap.findD, registered]
        rfl
      have unchanged : users.onCancel (Host.exact now) order.id order.side order.price order.qty =
          users := by rw [UserManager.onCancel, registered]
      rw [unchanged] at owners ⊢
      refine ⟨owners, fun user positive => ?_, fun user positive => ?_⟩
      · rw [backed.balance user positive, lockedBalance, tally_cons,
          if_neg fun own => by omega, zero_add]
        rfl
      · rw [backed.shares user positive, lockedShares, tally_cons,
          if_neg fun own => by omega, zero_add]
        rfl
  | some holder =>
      obtain rfl : holder = order.userId := by
        rw [← owner, UserManager.getUserForOrder, SortedMap.findD, registered]
        rfl
      have moved := UserManager.moved_onCancel now registered order.side order.price order.qty
      refine ⟨owners, fun user positive => ?_, fun user positive => ?_⟩
      · have before := backed.balance user positive
        rw [lockedBalance, tally_cons] at before
        rw [(moved user).reservedBalance, before, lockedBalance]
        by_cases buys : order.side = .buy <;> by_cases own : order.userId = user <;>
          simp [buys, own, amountIf]
      · have before := backed.shares user positive
        rw [lockedShares, tally_cons] at before
        rw [(moved user).reservedShares, before, lockedShares]
        by_cases sells : order.side = .sell <;> by_cases own : order.userId = user <;>
          simp [sells, own, amountIf]

end Backed

namespace MatchingEngine

section Calls

variable {now : Nat → Int} {engine : MatchingEngine} {incoming : Order}

/-- What holds between two fills of a sweep. -/
structure BackedSweep (incoming : Order) (sweep : Sweep) : Prop where
  sound : sweep.engine.book.Sound
  backed : ∃ users, sweep.engine.userManager = some users ∧
    users.orderToUser.find? incoming.id = some incoming.userId ∧
    Backed sweep.engine.book.resting users

theorem BackedSweep.step {batchId : Int} {sweep next : Sweep} (held : BackedSweep incoming sweep)
    (moves : fillStep (Host.exact now) incoming.side batchId sweep = some next) :
    BackedSweep incoming next := by
  obtain ⟨price, maker, rest, fillable, rfl⟩ := fillStep_cases moves
  obtain ⟨users, hasUsers, registered, backed⟩ := held.backed
  obtain rfl := fillable.maker_price held.sound
  obtain ⟨others, was, becomes⟩ := resting_afterFill (Host.exact now) batchId fillable
  refine ⟨sound_afterFill held.sound fillable, _,
    by rw [userManager_afterFill, hasUsers, Option.map_some], ?_, ?_⟩
  · rw [UserManager.orderToUser_onFill]
    exact registered
  · exact ((backed.perm was).onFill now (fillable.maker_side held.sound) _ _).perm becomes.symm

/-- What is known of an engine whose reservations mirror its book. -/
def Mirrored (engine : MatchingEngine) : Prop :=
  ∃ users, engine.userManager = some users ∧ Backed engine.book.resting users

theorem BackedSweep.start (sound : engine.book.Sound) (mirrored : engine.Mirrored)
    (fresh : ∀ order ∈ engine.book.resting, order.id ≠ incoming.id) (batchId : Int) :
    BackedSweep incoming
      (startSweep (Host.exact now) (engine.opened incoming) batchId incoming) := by
  obtain ⟨users, hasUsers, backed⟩ := mirrored
  refine ⟨by simpa [startSweep] using sound,
    users.registerOrder incoming.id incoming.userId, by simp [startSweep, hasUsers], ?_, ?_⟩
  · simp [UserManager.registerOrder]
  · simpa [startSweep] using backed.registerOrder fresh incoming.userId

theorem mirrored_concluded {before : OrderBook} {sweep : Sweep}
    (swept : Swept before incoming sweep) (held : BackedSweep incoming sweep)
    (fresh : before.index.find? incoming.id = none) (batchId : Int) :
    (concluded (Host.exact now) incoming batchId sweep).Mirrored := by
  obtain ⟨users, hasUsers, registered, backed⟩ := held.backed
  have perm := swept.resting_concluded (Host.exact now) fresh batchId
  unfold Mirrored
  rw [userManager_concluded, userManager_restRemainder, hasUsers]
  by_cases rests : sweep.taker.type = .limit ∧ 0 < sweep.taker.qty
  · rw [if_pos rests]
    rw [remainder, if_pos rests] at perm
    have ownTaker : users.orderToUser.find? sweep.taker.id = some sweep.taker.userId := by
      rw [swept.taker]
      exact registered
    exact ⟨_, rfl, (backed.onOrderResting now ownTaker).perm perm.symm⟩
  · rw [if_neg rests]
    rw [remainder, if_neg rests] at perm
    exact ⟨users, rfl, backed.perm perm.symm⟩

/-- One ordinary call keeps reservations and book in step. -/
theorem mirrored_step {start state next : MatchingEngine} {log : Log} {call : Call} {reply : Reply}
    (tracked : Tracked start log state) (allowed : Ordinary start log call)
    (answered : Answered (Host.exact now) state call reply next) (mirrored : state.Mirrored) :
    next.Mirrored := by
  cases answered with
  | allotted => exact mirrored
  | added order => exact allowed.elim
  | refused order status =>
      obtain ⟨users, hasUsers, backed⟩ := mirrored
      have fresh := tracked.not_resting_of_fresh allowed
      exact ⟨users.registerOrder order.id order.userId, by simp [refused, hasUsers],
        by simpa using backed.registerOrder fresh order.userId⟩
  | accepted order ok swept =>
      have held := (callSweep_settles (Host.exact now) state order).invariant (BackedSweep order)
        (fun _ _ held moves => held.step moves)
        (.start tracked.sound mirrored (tracked.not_resting_of_fresh allowed) state.batchSeq)
      exact mirrored_concluded swept held (tracked.unknown_of_fresh allowed) _
  | unknown => exact mirrored
  | withdrawn node queued =>
      obtain ⟨users, hasUsers, backed⟩ := mirrored
      have perm := tracked.sound.resting_withdrawn queued
      exact ⟨_, by rw [userManager_cancelled, hasUsers]; rfl, by
        rw [book_cancelled]
        exact (backed.perm perm).onCancel now⟩

end Calls

theorem mirrored_of_session {now : Nat → Int} {start state : MatchingEngine} {users : UserManager}
    {log : Log} (sound : start.book.Sound)
    (house : ∀ order ∈ start.book.resting,
      order.userId = 0 ∧ users.orderToUser.find? order.id = none)
    (hasUsers : start.userManager = some users)
    (defaults : ∀ user, users.getPosition user = {})
    (session : Session (Host.exact now) start log state) : state.Mirrored := by
  have unreserved : ∀ order ∈ start.book.resting, ∀ user, 0 < user → order.userId ≠ user := by
    intro order member user positive own
    have := (house order member).1
    omega
  have initial : Backed start.book.resting users := {
    owners := by
      intro order member
      obtain ⟨house, unregistered⟩ := house order member
      rw [house, UserManager.getUserForOrder, SortedMap.findD, unregistered]
      rfl
    balance := by
      intro user positive
      rw [defaults user, lockedBalance,
        tally_eq_zero fun order member own => unreserved order member user positive own.2]
    shares := by
      intro user positive
      rw [defaults user, lockedShares,
        tally_eq_zero fun order member own => unreserved order member user positive own.2] }
  refine session.invariant (fun _ state => state.Mirrored) ⟨users, hasUsers, initial⟩ ?_
  intro log state call reply next earlier mirrored allowed answer
  have tracked := tracked_of_session sound earlier
  exact mirrored_step tracked allowed (answered_of_exec tracked.sound answer) mirrored

/--
From a sound book of the house's orders and default positions, after every
ordinary call: each user has reserved exactly what the user's resting orders
need, so reservations are never negative and vanish with the last order.
-/
theorem reservations_mirror_book {now : Nat → Int} {start state : MatchingEngine}
    {users : UserManager} {log : Log} (sound : start.book.Sound)
    (house : ∀ order ∈ start.book.resting,
      order.userId = 0 ∧ users.orderToUser.find? order.id = none)
    (hasUsers : start.userManager = some users)
    (defaults : ∀ user, users.getPosition user = {})
    (session : Session (Host.exact now) start log state) :
    ∃ users', state.userManager = some users' ∧ ∀ user, 0 < user →
      (users'.getPosition user).reservedBalance = lockedBalance state.book.resting user ∧
      (users'.getPosition user).reservedShares = lockedShares state.book.resting user ∧
      0 ≤ (users'.getPosition user).reservedBalance ∧
      0 ≤ (users'.getPosition user).reservedShares ∧
      ((∀ order ∈ state.book.resting, order.userId ≠ user) →
        (users'.getPosition user).reservedBalance = 0 ∧
        (users'.getPosition user).reservedShares = 0) := by
  obtain ⟨users', hasUsers', backed⟩ := mirrored_of_session sound house hasUsers defaults session
  have priced := resting_of_session (fun order => 0 < order.userId → 0 < order.price)
    (fun _ _ good => good) (fun order member user => by have := (house order member).1; omega)
    (fun order _ positive _ => positive) sound session
  have tracked := tracked_of_session sound session
  refine ⟨users', hasUsers', fun user positive => ?_⟩
  rw [backed.balance user positive, backed.shares user positive]
  refine ⟨rfl, rfl, ?_, ?_, fun none => ⟨?_, ?_⟩⟩
  · refine tally_nonneg fun order member own => ?_
    have price := priced order member (own.2 ▸ positive)
    exact Int.mul_nonneg (Int.le_of_lt price) (Int.le_of_lt (tracked.sound.qty_pos member))
  · exact tally_nonneg fun order member _ => Int.le_of_lt (tracked.sound.qty_pos member)
  · exact tally_eq_zero fun order member own => none order member own.2
  · exact tally_eq_zero fun order member own => none order member own.2

/-- A bid that is partly filled on arrival and again as a maker, next to a resting ask. -/
theorem reservations_mirror_book_sample :
    ∃ log state users', Session (Host.exact (·))
        { book := ({} : OrderBook).addRestingOrder ⟨1, 0, .sell, 105, 4, .limit⟩
          userManager := some {} } log state ∧
      state.userManager = some users' ∧ (users'.getPosition 7).reservedBalance = 315 ∧
      (users'.getPosition 7).reservedBalance = lockedBalance state.book.resting 7 ∧
      (users'.getPosition 7).reservedShares = lockedShares state.book.resting 7 := by
  have run := Run.of_isSome (exec (Host.exact (·)))
    (Ordinary { book := ({} : OrderBook).addRestingOrder ⟨1, 0, .sell, 105, 4, .limit⟩
                userManager := some {} })
    { book := ({} : OrderBook).addRestingOrder ⟨1, 0, .sell, 105, 4, .limit⟩
      userManager := some {} }
    [.processOrder ⟨2, 7, .buy, 105, 9, .limit⟩, .processOrder ⟨3, 8, .sell, 100, 2, .limit⟩,
      .processOrder ⟨4, 7, .sell, 120, 1, .limit⟩] (by decide)
  have sound := (OrderBook.sound_empty none).afterAdd ⟨1, 0, .sell, 105, 4, .limit⟩
  obtain ⟨users', hasUsers, mirrored⟩ :=
    reservations_mirror_book sound (by decide) rfl (fun _ => rfl) run
  obtain ⟨balance, shares, _⟩ := mirrored 7 (by decide)
  refine ⟨_, _, users', run, hasUsers, ?_, balance, shares⟩
  rw [balance]
  decide

end MatchingEngine

end OrderBookSimulator
