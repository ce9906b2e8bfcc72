import OrderBookSimulator.Engine.Tracked
import OrderBookSimulator.User.Positions

/-!
# Solvency

Preflight looks at a position once, before any number of fills.  The invariant
that carries its answer through the sweep is that what is still available
covers the order's limit price times what the order still wants.
-/

namespace OrderBookSimulator

open Library

namespace Position

/-- Cash that is not reserved. -/
def availableCash (pos : Position) : Int := pos.balance - pos.reservedBalance

/-- Shares that are not reserved. -/
def availableShares (pos : Position) : Int := pos.shares - pos.reservedShares

end Position

/-- The user's buy orders among those submitted so far were all limit orders. -/
def LimitBuyer (log : Log) (user : Int) : Prop :=
  ∀ entry ∈ log, ∀ order ∈ entry.call.submitted,
    order.userId = user → order.side = .buy → order.type = .limit

/-- No user is short of shares, and no user in `Careful` is short of cash. -/
structure Solvent (Careful : Int → Prop) (users : UserManager) : Prop where
  shares : ∀ user, 0 < user → 0 ≤ (users.getPosition user).availableShares
  cash : ∀ user, 0 < user → Careful user → 0 ≤ (users.getPosition user).availableCash

theorem LimitBuyer.before {log : Log} {entry : Entry} {user : Int}
    (buyer : LimitBuyer (log ++ [entry]) user) : LimitBuyer log user :=
  fun earlier member => buyer earlier (List.mem_append_left _ member)

theorem Solvent.mono {Careful Fewer : Int → Prop} {users : UserManager}
    (solvent : Solvent Careful users) (fewer : ∀ user, Fewer user → Careful user) :
    Solvent Fewer users where
  shares := solvent.shares
  cash := fun user positive member => solvent.cash user positive (fewer user member)

/-- The cash an order with `left` to fill may still need from a user. -/
def neededCash (incoming : Order) (left user : Int) : Int :=
  if incoming.side = .buy ∧ incoming.userId = user then incoming.price * left else 0

/-- The shares an order with `left` to fill may still need from a user. -/
def neededShares (incoming : Order) (left user : Int) : Int :=
  if incoming.side = .sell ∧ incoming.userId = user then left else 0

/-- What is available covers what the order in the sweep may still need. -/
structure Covered (Careful : Int → Prop) (incoming : Order) (left : Int) (users : UserManager) :
    Prop where
  shares : ∀ user, 0 < user →
    neededShares incoming left user ≤ (users.getPosition user).availableShares
  cash : ∀ user, 0 < user → Careful user →
    neededCash incoming left user ≤ (users.getPosition user).availableCash

namespace Covered

variable {Careful : Int → Prop} {incoming : Order} {left : Int} {users : UserManager}

/-- A covered position is solvent, before the sweep is over. -/
theorem solvent (covered : Covered Careful incoming left users) (leftNonneg : 0 ≤ left)
    (careful : ∀ user, 0 < user → Careful user → incoming.side = .buy → incoming.userId = user →
      0 < incoming.price) : Solvent Careful users where
  shares := by
    intro user positive
    have enough := covered.shares user positive
    unfold neededShares at enough
    split at enough <;> omega
  cash := by
    intro user positive isCareful
    have enough := covered.cash user positive isCareful
    unfold neededCash at enough
    split at enough
    · rename_i own
      have price := careful user positive isCareful own.1 own.2
      have := Int.mul_nonneg (Int.le_of_lt price) leftNonneg
      omega
    · exact enough

/--
A fill within the limit keeps the order covered.  The taker pays at most the
limit price for what it no longer wants, and a maker that buys has reserved
what it pays.
-/
theorem onFill (now : Nat → Int) (covered : Covered Careful incoming left users)
    {takerOrderId : Int} (ownsTaker : users.getUserForOrder takerOrderId = incoming.userId)
    {price qty : Int} (pricePos : 0 < price) (qtyPos : 0 < qty)
    (within : ∀ user, 0 < user → Careful user → incoming.side = .buy → incoming.userId = user →
      price ≤ incoming.price) (makerOrderId : Int) :
    Covered Careful incoming (left - qty)
      (users.onFill (Host.exact now) makerOrderId takerOrderId price qty incoming.side) := by
  have moved := UserManager.moved_onFill now
    (rfl : users.getUserForOrder makerOrderId = _) ownsTaker price qty incoming.side
  have value : 0 < price * qty := Int.mul_pos pricePos qtyPos
  constructor
  · intro user positive
    have enough := covered.shares user positive
    have effect := moved user
    unfold Position.availableShares neededShares at *
    rw [effect.shares, effect.reservedShares]
    cases side : incoming.side with
    | buy =>
        have gain := amountIf_nonneg user incoming.userId (Int.le_of_lt qtyPos)
        simp [side, buyer, seller, Side.opposite] at enough ⊢
        omega
    | sell =>
        have gain := amountIf_nonneg user (users.getUserForOrder makerOrderId) (Int.le_of_lt qtyPos)
        simp [side, buyer, seller, Side.opposite] at enough ⊢
        by_cases own : incoming.userId = user
        · simp [own] at enough ⊢
          omega
        · simp [own, amountIf_of_ne own] at enough ⊢
          omega
  · intro user positive careful
    have enough := covered.cash user positive careful
    have effect := moved user
    unfold Position.availableCash neededCash at *
    rw [effect.balance, effect.reservedBalance]
    cases side : incoming.side with
    | buy =>
        have gain := amountIf_nonneg user (users.getUserForOrder makerOrderId) (Int.le_of_lt value)
        simp [side, buyer, seller, Side.opposite] at enough ⊢
        by_cases own : incoming.userId = user
        · have cost := Int.mul_le_mul_of_nonneg_right
            (within user positive careful side own) (Int.le_of_lt qtyPos)
          simp [own, Int.mul_sub] at enough ⊢
          omega
        · simp [own, amountIf_of_ne own] at enough ⊢
          omega
    | sell =>
        have gain := amountIf_nonneg user incoming.userId (Int.le_of_lt value)
        simp [side, buyer, seller, Side.opposite] at enough ⊢
        omega

/-- Resting the remainder reserves what the sweep has left available for it. -/
theorem onOrderResting (now : Nat → Int) {order : Order}
    (covered : Covered Careful order order.qty users)
    (registered : users.orderToUser.find? order.id = some order.userId) :
    Solvent Careful
      (users.onOrderResting (Host.exact now) order.id order.side order.price order.qty) := by
  have moved := UserManager.moved_onOrderResting now registered order.side order.price order.qty
  constructor
  · intro user positive
    have enough := covered.shares user positive
    unfold Position.availableShares neededShares at *
    rw [(moved user).shares, (moved user).reservedShares]
    by_cases sells : order.side = .sell <;> by_cases own : order.userId = user <;>
      simp [sells, own, amountIf] at enough ⊢ <;> omega
  · intro user positive careful
    have enough := covered.cash user positive careful
    unfold Position.availableCash neededCash at *
    rw [(moved user).balance, (moved user).reservedBalance]
    by_cases buys : order.side = .buy <;> by_cases own : order.userId = user <;>
      simp [buys, own, amountIf] at enough ⊢ <;> omega

end Covered

/-- A cancel only releases. -/
theorem Solvent.onCancel (now : Nat → Int) {Careful : Int → Prop} {users : UserManager}
    (solvent : Solvent Careful users) {order : Order} (pricePos : 0 < order.price)
    (qtyPos : 0 < order.qty) :
    Solvent Careful
      (users.onCancel (Host.exact now) order.id order.side order.price order.qty) := by
  have value := Int.mul_pos pricePos qtyPos
  cases registered : users.orderToUser.find? order.id with
  | none =>
      rw [UserManager.onCancel, registered]
      exact solvent
  | some owner =>
      have moved := UserManager.moved_onCancel now registered order.side order.price order.qty
      constructor
      · intro user positive
        have enough := solvent.shares user positive
        have gain := amountIf_nonneg user owner (Int.le_of_lt qtyPos)
        unfold Position.availableShares at *
        rw [(moved user).shares, (moved user).reservedShares]
        by_cases sells : order.side = .sell <;> simp [sells] <;> omega
      · intro user positive careful
        have enough := solvent.cash user positive careful
        have gain := amountIf_nonneg user owner (Int.le_of_lt value)
        unfold Position.availableCash at *
        rw [(moved user).balance, (moved user).reservedBalance]
        by_cases buys : order.side = .buy <;> simp [buys] <;> omega

namespace MatchingEngine

section Calls

variable {now : Nat → Int} {engine : MatchingEngine} {incoming : Order} {Careful : Int → Prop}

/-- What holds between two fills of a sweep. -/
structure CoveredSweep (Careful : Int → Prop) (before : OrderBook) (incoming : Order)
    (sweep : Sweep) : Prop where
  swept : Swept before incoming sweep
  covered : ∃ users, sweep.engine.userManager = some users ∧
    users.orderToUser.find? incoming.id = some incoming.userId ∧
    Covered Careful incoming sweep.taker.qty users

/-- Users count as careful in a sweep only if it is not their market order to buy. -/
def CarefulWith (Careful : Int → Prop) (incoming : Order) : Prop :=
  ∀ user, Careful user → incoming.side = .buy → incoming.userId = user → incoming.type = .limit

theorem CoveredSweep.step {before : OrderBook} {batchId : Int} {sweep next : Sweep}
    (held : CoveredSweep Careful before incoming sweep) (careful : CarefulWith Careful incoming)
    (priced : ∀ order ∈ before.resting, 0 < order.price)
    (moves : fillStep (Host.exact now) incoming.side batchId sweep = some next) :
    CoveredSweep Careful before incoming next := by
  have sweptNext := held.swept.step moves
  obtain ⟨price, maker, rest, fillable, rfl⟩ := fillStep_cases moves
  obtain ⟨users, hasUsers, registered, covered⟩ := held.covered
  have sound := held.swept.sound
  have takerId : sweep.taker.id = incoming.id := by rw [held.swept.taker]
  have takerType : sweep.taker.type = incoming.type := by rw [held.swept.taker]
  have takerPrice : sweep.taker.price = incoming.price := by rw [held.swept.taker]
  have ownsTaker : users.getUserForOrder sweep.taker.id = incoming.userId := by
    rw [takerId, UserManager.getUserForOrder, SortedMap.findD, registered]
    rfl
  have pricePos : 0 < price := by
    obtain ⟨old, oldMember, same⟩ := held.swept.kept maker.order fillable.mem_resting
    rw [← fillable.maker_price sound, same]
    exact priced old oldMember
  have within : ∀ user, 0 < user → Careful user → incoming.side = .buy →
      incoming.userId = user → price ≤ incoming.price := by
    intro user _ isCareful buys own
    have limit := careful user isCareful buys own
    have admits := fillable.admits
    rw [takerType, takerPrice, limit, buys] at admits
    simpa [beyondLimit] using admits
  refine ⟨sweptNext, _, by rw [userManager_afterFill, hasUsers, Option.map_some], ?_, ?_⟩
  · rw [UserManager.orderToUser_onFill]
    exact registered
  · exact covered.onFill now ownsTaker pricePos (fillable.fillQty_pos sound) within _

/-- Preflight covers an order for which no cash or shares are missing. -/
theorem CoveredSweep.start {users : UserManager} (sound : engine.book.Sound)
    (hasUsers : engine.userManager = some users) (solvent : Solvent Careful users)
    (careful : CarefulWith Careful incoming)
    (ok : (engine.preflightCheck (Host.exact now) incoming).isOk = true) (batchId : Int) :
    CoveredSweep Careful engine.book incoming
      (startSweep (Host.exact now) (engine.opened incoming) batchId incoming) := by
  have passed := passed_of_isOk ok
  refine ⟨.start (engine.opened incoming) sound (Int.le_of_lt passed.qty_pos),
    users.registerOrder incoming.id incoming.userId, by simp [startSweep, hasUsers],
    by simp [UserManager.registerOrder], ?_, ?_⟩
  · intro user positive
    have enough := solvent.shares user positive
    unfold neededShares
    split
    · rename_i own
      obtain ⟨sells, rfl⟩ := own
      exact passed.stock users hasUsers positive sells
    · exact enough
  · intro user positive isCareful
    have enough := solvent.cash user positive isCareful
    unfold neededCash
    split
    · rename_i own
      obtain ⟨buys, rfl⟩ := own
      exact passed.cash users hasUsers positive buys (careful _ isCareful buys rfl)
    · exact enough

/-- In the middle of a sweep, as at its end, no careful user is short. -/
theorem CoveredSweep.solvent {before : OrderBook} {sweep : Sweep}
    (held : CoveredSweep Careful before incoming sweep) (careful : CarefulWith Careful incoming)
    (priced : incoming.type = .limit → 0 < incoming.price) :
    ∃ users, sweep.engine.userManager = some users ∧ Solvent Careful users := by
  obtain ⟨users, hasUsers, _, covered⟩ := held.covered
  exact ⟨users, hasUsers, covered.solvent held.swept.left_nonneg
    fun user _ isCareful buys own => priced (careful user isCareful buys own)⟩

theorem CoveredSweep.concluded {before : OrderBook} {sweep : Sweep}
    (held : CoveredSweep Careful before incoming sweep) (careful : CarefulWith Careful incoming)
    (priced : incoming.type = .limit → 0 < incoming.price) (batchId : Int) :
    ∃ users, (concluded (Host.exact now) incoming batchId sweep).userManager = some users ∧
      Solvent Careful users := by
  obtain ⟨users, hasUsers, registered, covered⟩ := held.covered
  rw [userManager_concluded, userManager_restRemainder]
  split
  · have ownTaker : users.orderToUser.find? sweep.taker.id = some sweep.taker.userId := by
      rw [held.swept.taker]
      exact registered
    have coveredTaker : Covered Careful sweep.taker sweep.taker.qty users := by
      rw [held.swept.taker]
      exact ⟨covered.shares, covered.cash⟩
    exact ⟨_, by rw [hasUsers]; rfl, coveredTaker.onOrderResting now ownTaker⟩
  · exact held.solvent careful priced

end Calls

/-- The sweep of an accepted order after its first `fills` fills. -/
def sweepAfter (host : Host) (engine : MatchingEngine) (incoming : Order) (fills : Nat) : Sweep :=
  iterate (fillStep host incoming.side engine.batchSeq) fills
    (startSweep host (engine.opened incoming) engine.batchSeq incoming)

section Runs

variable {now : Nat → Int} {start state : MatchingEngine} {users : UserManager} {log : Log}

theorem coveredSweep_sweepAfter {Careful : Int → Prop} {incoming : Order}
    (sound : state.book.Sound) (priced : ∀ order ∈ state.book.resting, 0 < order.price)
    (hasUsers : state.userManager = some users) (solvent : Solvent Careful users)
    (careful : CarefulWith Careful incoming)
    (ok : (state.preflightCheck (Host.exact now) incoming).isOk = true) (fills : Nat) :
    CoveredSweep Careful state.book incoming
      (sweepAfter (Host.exact now) state incoming fills) :=
  iterate_invariant (fun _ _ held moves => held.step careful priced moves)
    (.start sound hasUsers solvent careful ok state.batchSeq) fills

/-- One ordinary call keeps every careful user solvent. -/
theorem solvent_step {next : MatchingEngine} {call : Call} {reply : Reply}
    {Careful : Int → Prop} (tracked : Tracked start log state) (allowed : Ordinary start log call)
    (answered : Answered (Host.exact now) state call reply next)
    (priced : ∀ order ∈ state.book.resting, 0 < order.price)
    (careful : ∀ order ∈ call.submitted, CarefulWith Careful order)
    (hasUsers : state.userManager = some users) (solvent : Solvent Careful users) :
    ∃ users', next.userManager = some users' ∧ Solvent Careful users' := by
  cases answered with
  | allotted => exact ⟨users, hasUsers, solvent⟩
  | added order => exact allowed.elim
  | refused order status =>
      exact ⟨users.registerOrder order.id order.userId, by simp [refused, hasUsers],
        solvent.shares, solvent.cash⟩
  | accepted order ok swept =>
      have carefulOrder := careful order rfl
      have held := (callSweep_settles (Host.exact now) state order).invariant
        (CoveredSweep Careful state.book order)
        (fun _ _ held moves => held.step carefulOrder priced moves)
        (.start tracked.sound hasUsers solvent carefulOrder ok state.batchSeq)
      exact held.concluded carefulOrder (passed_of_isOk ok).price_pos _
  | unknown => exact ⟨users, hasUsers, solvent⟩
  | withdrawn node queued =>
      have member : node.order ∈ state.book.resting := List.mem_map_of_mem queued
      exact ⟨_, by rw [userManager_cancelled, hasUsers]; rfl,
        solvent.onCancel now (priced _ member) (tracked.sound.qty_pos member)⟩

theorem solvent_of_session (sound : start.book.Sound)
    (priced : ∀ order ∈ start.book.resting, 0 < order.price)
    (hasUsers : start.userManager = some users)
    (defaults : ∀ user, users.getPosition user = {})
    (session : Session (Host.exact now) start log state) :
    (∀ order ∈ state.book.resting, 0 < order.price) ∧
      ∃ users', state.userManager = some users' ∧ Solvent (LimitBuyer log) users' := by
  have alwaysPriced : ∀ {log : Log} {state : MatchingEngine},
      Session (Host.exact now) start log state → ∀ order ∈ state.book.resting, 0 < order.price :=
    fun earlier => resting_of_session (fun order => 0 < order.price) (fun _ _ good => good) priced
      (fun _ _ positive => positive) sound earlier
  have initial : Solvent (LimitBuyer []) users := {
    shares := fun user _ => by rw [defaults user]; decide
    cash := fun user _ _ => by rw [defaults user]; decide }
  refine ⟨alwaysPriced session, session.invariant
    (fun (log : Log) state => ∃ users', state.userManager = some users' ∧
      Solvent (LimitBuyer log) users') ⟨users, hasUsers, initial⟩ ?_⟩
  rintro log state call reply next earlier ⟨users', hasUsers', solvent⟩ allowed answer
  have tracked := tracked_of_session sound earlier
  refine solvent_step tracked allowed (answered_of_exec tracked.sound answer)
    (alwaysPriced earlier) ?_ hasUsers' (solvent.mono fun _ buyer => buyer.before)
  intro order submitted user buyer buys own
  exact buyer _ (List.mem_append_right _ (.head _)) order submitted own buys

/--
From a sound book of positive prices and default positions no user is ever
short of shares, and no user who bought with limit orders only is ever short of
cash: not after an ordinary call, and not between two fills of a sweep.
-/
theorem users_stay_solvent (sound : start.book.Sound)
    (priced : ∀ order ∈ start.book.resting, 0 < order.price)
    (hasUsers : start.userManager = some users)
    (defaults : ∀ user, users.getPosition user = {})
    (session : Session (Host.exact now) start log state) :
    (∃ users', state.userManager = some users' ∧ Solvent (LimitBuyer log) users') ∧
    ∀ incoming, (state.preflightCheck (Host.exact now) incoming).isOk = true → ∀ fills,
        ∃ users', (sweepAfter (Host.exact now) state incoming fills).engine.userManager =
            some users' ∧
          Solvent (fun user => LimitBuyer log user ∧
            (incoming.userId = user → incoming.side = .buy → incoming.type = .limit)) users' := by
  obtain ⟨pricedNow, users', hasUsers', solvent⟩ :=
    solvent_of_session sound priced hasUsers defaults session
  refine ⟨⟨users', hasUsers', solvent⟩, ?_⟩
  intro incoming ok fills
  have careful : CarefulWith (fun user => LimitBuyer log user ∧
      (incoming.userId = user → incoming.side = .buy → incoming.type = .limit)) incoming :=
    fun user member buys own => member.2 own buys
  exact (coveredSweep_sweepAfter (tracked_of_session sound session).sound pricedNow hasUsers'
    (solvent.mono fun _ member => member.1) careful ok fills).solvent careful
      (passed_of_isOk ok).price_pos

/-- A limit buyer spends the last of its cash over two levels, one of them its own. -/
theorem users_stay_solvent_sample :
    ∃ log state, Session (Host.exact (·)) { userManager := some {} } log state ∧
      log.length = 3 ∧
      ∃ users', state.userManager = some users' ∧ Solvent (LimitBuyer log) users' := by
  have run := Run.of_isSome (exec (Host.exact (·))) (Ordinary { userManager := some {} })
    { userManager := some {} }
    [.processOrder ⟨1, 0, .sell, 900, 50, .limit⟩, .processOrder ⟨2, 7, .sell, 1000, 30, .limit⟩,
      .processOrder ⟨3, 7, .buy, 1000, 100, .limit⟩] (by decide)
  exact ⟨_, _, run, by decide,
    (users_stay_solvent (OrderBook.sound_empty none) (by decide) rfl (fun _ => rfl) run).1⟩

end Runs

end MatchingEngine

end OrderBookSimulator
