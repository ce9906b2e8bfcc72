import OrderBookSimulator.Engine.CancelOrder
import OrderBookSimulator.Engine.Effects
import OrderBookSimulator.User.Positions

/-!
# The ledger is the fold of the trade log

The trading fields of every position are sums over the trades returned so far,
and over all positions they cancel out.  Neither the state of the book nor the
choice of ids matters for it.
-/

namespace OrderBookSimulator

open Library

/-- A returned trade together with the side of the order that took it. -/
structure Fill where
  takerSide : Side
  trade : Trade

namespace Fill

def buyer (fill : Fill) : Int :=
  OrderBookSimulator.buyer fill.takerSide fill.trade.makerUserId fill.trade.takerUserId

def seller (fill : Fill) : Int :=
  OrderBookSimulator.seller fill.takerSide fill.trade.makerUserId fill.trade.takerUserId

def value (fill : Fill) : Int := fill.trade.price * fill.trade.qty

end Fill

/-- The fills a call returned. -/
def Entry.fills (entry : Entry) : List Fill :=
  match entry.call with
  | .processOrder order => entry.trades.map (⟨order.side, ·⟩)
  | _ => []

/-- Every fill returned so far, oldest first. -/
def Log.tape (log : Log) : List Fill := log.flatMap Entry.fills

/-- The trading fields of a position are the sums over the user's part of the tape. -/
structure Summarizes (tape : List Fill) (user : Int) (pos : Position) : Prop where
  buyQty : pos.totalBuyQty = tally (fun fill : Fill => fill.buyer = user) (·.trade.qty) tape
  buyValue : pos.totalBuyValue = tally (fun fill : Fill => fill.buyer = user) (·.value) tape
  sellQty : pos.totalSellQty = tally (fun fill : Fill => fill.seller = user) (·.trade.qty) tape
  sellValue : pos.totalSellValue = tally (fun fill : Fill => fill.seller = user) (·.value) tape
  net : pos.netQty = pos.totalBuyQty - pos.totalSellQty
  shares : pos.netQty = pos.shares - 100
  balance : pos.balance = 100000 + pos.totalSellValue - pos.totalBuyValue

/-- The positions are what the tape makes of the default ones. -/
structure Booked (tape : List Fill) (users : UserManager) : Prop where
  positions : ∀ user, Summarizes tape user (users.getPosition user)
  netQty : users.total (·.netQty) = 0
  cash : users.total (fun pos => pos.balance - 100000) = 0

theorem netQty_ignoresReservations :
    UserManager.IgnoresReservations (fun pos => pos.netQty) := fun _ _ _ => rfl

theorem cash_ignoresReservations :
    UserManager.IgnoresReservations (fun pos => pos.balance - 100000) := fun _ _ _ => rfl

namespace Booked

variable {tape : List Fill} {users : UserManager}

theorem initial (defaults : ∀ user, users.getPosition user = {}) : Booked [] users where
  positions := by
    intro user
    rw [defaults user]
    constructor <;> simp
  netQty := users.total_of_defaults rfl defaults
  cash := users.total_of_defaults (by decide) defaults

theorem registerOrder (booked : Booked tape users) (orderId userId : Int) :
    Booked tape (users.registerOrder orderId userId) := ⟨booked.1, booked.2, booked.3⟩

theorem onFill (now : Nat → Int) (booked : Booked tape users) {takerSide : Side} {trade : Trade}
    (ownsMaker : users.getUserForOrder trade.makerId = trade.makerUserId)
    (ownsTaker : users.getUserForOrder trade.takerId = trade.takerUserId) :
    Booked (tape ++ [⟨takerSide, trade⟩])
      (users.onFill (Host.exact now) trade.makerId trade.takerId trade.price trade.qty
        takerSide) where
  positions := by
    intro user
    have before := booked.positions user
    have moved := UserManager.moved_onFill now ownsMaker ownsTaker trade.price trade.qty takerSide
      user
    exact {
      buyQty := by
        rw [moved.totalBuyQty, before.buyQty, tally_append, tally_cons, tally_nil, add_zero]
        rfl
      buyValue := by
        rw [moved.totalBuyValue, before.buyValue, tally_append, tally_cons, tally_nil, add_zero]
        rfl
      sellQty := by
        rw [moved.totalSellQty, before.sellQty, tally_append, tally_cons, tally_nil, add_zero]
        rfl
      sellValue := by
        rw [moved.totalSellValue, before.sellValue, tally_append, tally_cons, tally_nil, add_zero]
        rfl
      net := by
        rw [moved.netQty, moved.totalBuyQty, moved.totalSellQty, before.net]
        omega
      shares := by
        rw [moved.netQty, moved.shares, before.shares]
        omega
      balance := by
        rw [moved.balance, moved.totalSellValue, moved.totalBuyValue, before.balance]
        omega }
  netQty := by
    rw [users.total_onFill now rfl netQty_ignoresReservations trade.qty (fun _ => rfl)
      fun _ => rfl]
    exact booked.netQty
  cash := by
    rw [users.total_onFill now (by decide) cash_ignoresReservations (-(trade.price * trade.qty))]
    · exact booked.cash
    · intro pos
      simp only [Position.bought, Host.exact_longLong]
      omega
    · intro pos
      simp only [Position.sold, Host.exact_longLong]
      omega

/-- Moving reservations books nothing. -/
theorem of_reservations {users' : UserManager} (booked : Booked tape users)
    (moved : ∀ user, ∃ releasedBalance releasedShares,
      Moved (users.getPosition user) (users'.getPosition user) 0 0 0 0 releasedBalance
        releasedShares)
    (netQty : users'.total (·.netQty) = users.total (·.netQty))
    (cash : users'.total (fun pos => pos.balance - 100000) =
      users.total fun pos => pos.balance - 100000) : Booked tape users' where
  positions := by
    intro user
    obtain ⟨releasedBalance, releasedShares, moved⟩ := moved user
    have before := booked.positions user
    have traded := And.intro moved.totalBuyQty moved.totalSellQty
    simp only [add_zero] at traded
    exact {
      buyQty := by rw [moved.totalBuyQty, before.buyQty, add_zero]
      buyValue := by rw [moved.totalBuyValue, before.buyValue, add_zero]
      sellQty := by rw [moved.totalSellQty, before.sellQty, add_zero]
      sellValue := by rw [moved.totalSellValue, before.sellValue, add_zero]
      net := by rw [moved.netQty, moved.totalBuyQty, moved.totalSellQty, before.net]; omega
      shares := by rw [moved.netQty, moved.shares, before.shares]; omega
      balance := by
        rw [moved.balance, moved.totalSellValue, moved.totalBuyValue, before.balance]
        omega }
  netQty := netQty.trans booked.netQty
  cash := cash.trans booked.cash

theorem onOrderResting (now : Nat → Int) (booked : Booked tape users) (orderId : Int) (side : Side)
    (price qty : Int) :
    Booked tape (users.onOrderResting (Host.exact now) orderId side price qty) := by
  refine booked.of_reservations (fun user => ?_)
    (users.total_onOrderResting rfl netQty_ignoresReservations _ _ _ _ _)
    (users.total_onOrderResting (by decide) cash_ignoresReservations _ _ _ _ _)
  cases registered : users.orderToUser.find? orderId with
  | none =>
      refine ⟨0, 0, ?_⟩
      rw [UserManager.onOrderResting, registered]
      exact .refl _
  | some owner => exact ⟨_, _, UserManager.moved_onOrderResting now registered side price qty user⟩

theorem onCancel (now : Nat → Int) (booked : Booked tape users) (orderId : Int) (side : Side)
    (price remainingQty : Int) :
    Booked tape (users.onCancel (Host.exact now) orderId side price remainingQty) := by
  refine booked.of_reservations (fun user => ?_)
    (users.total_onCancel rfl netQty_ignoresReservations _ _ _ _ _)
    (users.total_onCancel (by decide) cash_ignoresReservations _ _ _ _ _)
  cases registered : users.orderToUser.find? orderId with
  | none =>
      refine ⟨0, 0, ?_⟩
      rw [UserManager.onCancel, registered]
      exact .refl _
  | some owner =>
      exact ⟨_, _, UserManager.moved_onCancel now registered side price remainingQty user⟩

/-- Stamps are not booked. -/
theorem of_unstamped {side : Side} {first second : List Trade}
    (booked : Booked (tape ++ first.map (⟨side, ·⟩)) users)
    (same : first.map Trade.unstamped = second.map Trade.unstamped) :
    Booked (tape ++ second.map (⟨side, ·⟩)) users where
  positions := by
    intro user
    have before := booked.positions user
    have buyQty := before.buyQty
    have buyValue := before.buyValue
    have sellQty := before.sellQty
    have sellValue := before.sellValue
    rw [tally_append, tally_map, MatchingEngine.tally_of_unstamped (fun _ => ⟨.rfl, rfl⟩) same]
      at buyQty buyValue sellQty sellValue
    exact {
      buyQty := by rw [tally_append, tally_map]; exact buyQty
      buyValue := by rw [tally_append, tally_map]; exact buyValue
      sellQty := by rw [tally_append, tally_map]; exact sellQty
      sellValue := by rw [tally_append, tally_map]; exact sellValue
      net := before.net
      shares := before.shares
      balance := before.balance }
  netQty := booked.netQty
  cash := booked.cash

end Booked

namespace MatchingEngine

section Calls

variable {now : Nat → Int} {engine next : MatchingEngine} {tape : List Fill} {users : UserManager}

/-- What holds between two fills of a sweep. -/
structure BookedSweep (tape : List Fill) (incoming : Order) (sweep : Sweep) : Prop where
  takerId : sweep.taker.id = incoming.id
  takerUser : sweep.taker.userId = incoming.userId
  booked : ∃ users, sweep.engine.userManager = some users ∧
    users.getUserForOrder incoming.id = incoming.userId ∧
    Booked (tape ++ sweep.trades.map (⟨incoming.side, ·⟩)) users

theorem BookedSweep.step {incoming : Order} {batchId : Int} {sweep next : Sweep}
    (held : BookedSweep tape incoming sweep)
    (moves : fillStep (Host.exact now) incoming.side batchId sweep = some next) :
    BookedSweep tape incoming next := by
  obtain ⟨price, maker, rest, _, rfl⟩ := fillStep_cases moves
  obtain ⟨users, hasUsers, owner, booked⟩ := held.booked
  have ownsMaker : users.getUserForOrder maker.order.id =
      (fillTrade sweep price maker).makerUserId := by
    simp only [fillTrade, makerUser, hasUsers]
  have ownsTaker : users.getUserForOrder sweep.taker.id =
      (fillTrade sweep price maker).takerUserId := by
    rw [held.takerId, owner, fillTrade, held.takerUser]
  exact {
    takerId := held.takerId
    takerUser := held.takerUser
    booked := by
      refine ⟨_, by rw [userManager_afterFill, hasUsers, Option.map_some], ?_, ?_⟩
      · rw [UserManager.getUserForOrder_congr (UserManager.orderToUser_onFill _ _ _ _ _ _ _)]
        exact owner
      · rw [trades_afterFill, List.map_append, ← List.append_assoc]
        exact booked.onFill now ownsMaker ownsTaker }

theorem BookedSweep.start {incoming : Order} (hasUsers : engine.userManager = some users)
    (booked : Booked tape users) (batchId : Int) :
    BookedSweep tape incoming
      (startSweep (Host.exact now) (engine.opened incoming) batchId incoming) where
  takerId := rfl
  takerUser := rfl
  booked := by
    refine ⟨users.registerOrder incoming.id incoming.userId, by simp [startSweep, hasUsers], ?_, ?_⟩
    · simp
    · simpa [startSweep] using booked.registerOrder incoming.id incoming.userId

theorem booked_processOrder (hasUsers : engine.userManager = some users)
    (booked : Booked tape users) (incoming : Order) :
    ∃ users', (engine.processOrder (Host.exact now) incoming).1.userManager = some users' ∧
      Booked (tape ++ (engine.processOrder (Host.exact now) incoming).2.trades.map
        (⟨incoming.side, ·⟩)) users' := by
  cases ok : (engine.preflightCheck (Host.exact now) incoming).isOk with
  | false =>
      obtain ⟨status, _, answered⟩ := processOrder_of_refused _ engine incoming ok
      rw [answered]
      exact ⟨users.registerOrder incoming.id incoming.userId, by simp [hasUsers],
        by simpa using booked.registerOrder incoming.id incoming.userId⟩
  | true =>
      have swept := (callSweep_settles (Host.exact now) engine incoming).invariant
        (BookedSweep tape incoming) (fun _ _ held moves => held.step moves)
        (.start hasUsers booked engine.batchSeq)
      obtain ⟨users', hasUsers', _, booked'⟩ := swept.booked
      have stamped := booked'.of_unstamped
        (unstamped_report (Host.exact now) incoming (engine.callSweep (Host.exact now) incoming)).symm
      rw [processOrder_of_accepted _ engine incoming ok]
      simp only [userManager_concluded, userManager_restRemainder, hasUsers']
      split
      · exact ⟨_, rfl, stamped.onOrderResting now _ _ _ _⟩
      · exact ⟨_, rfl, stamped⟩

/-- Whatever the call, positions and tape move together. -/
theorem booked_exec {log : Log} {call : Call} {reply : Reply}
    (hasUsers : engine.userManager = some users) (booked : Booked log.tape users)
    (answer : exec (Host.exact now) engine call = .ok (next, reply)) :
    ∃ users', next.userManager = some users' ∧
      Booked (Log.tape (log ++ [⟨engine, call, reply, next⟩])) users' := by
  have idle : ∀ entry : Entry, entry.fills = [] → Log.tape (log ++ [entry]) = log.tape := by
    intro entry none
    simp [Log.tape, none]
  cases call with
  | nextOrderId =>
      cases answer
      rw [idle _ rfl]
      exact ⟨users, hasUsers, booked⟩
  | addRestingOrder order =>
      cases answer
      rw [idle _ rfl]
      exact ⟨users, hasUsers, booked⟩
  | processOrder order =>
      cases answer
      simpa [Log.tape, Entry.fills, Entry.trades] using booked_processOrder hasUsers booked order
  | cancelOrder orderId =>
      obtain ⟨ok, cancels, rfl⟩ := cancelOrder_of_exec answer
      rw [idle _ rfl]
      rcases userManager_of_cancelOrder cancels with same | ⟨order, same⟩
      · exact ⟨users, by rw [same, hasUsers], booked⟩
      · exact ⟨_, by rw [same, hasUsers]; rfl, booked.onCancel now _ _ _ _⟩

end Calls

/--
After any calls with any ids, every position is the sum over its user's part of
the returned trades, and the positions of all users cancel out.
-/
theorem ledger_is_fold_of_trades {now : Nat → Int} {start state : MatchingEngine}
    {users : UserManager} {log : Log} (hasUsers : start.userManager = some users)
    (defaults : ∀ user, users.getPosition user = {})
    (run : AnySession (Host.exact now) start log state) :
    ∃ users', state.userManager = some users' ∧ Booked log.tape users' :=
  run.invariant (fun (log : Log) state => ∃ users', state.userManager = some users' ∧
      Booked log.tape users')
    ⟨users, hasUsers, .initial defaults⟩
    fun _ _ _ _ _ _ ⟨_, hasUsers', booked⟩ _ answer => booked_exec hasUsers' booked answer

/-- A user who sells to another, buys back from the house, and trades with itself. -/
theorem ledger_is_fold_of_trades_sample :
    ∃ log state users', AnySession (Host.exact (·)) { userManager := some {} } log state ∧
      log.tape.length = 3 ∧ state.userManager = some users' ∧ Booked log.tape users' := by
  have run := Run.of_isSome (exec (Host.exact (·))) (fun _ _ => True) { userManager := some {} }
    [.processOrder ⟨1, 7, .sell, 100, 5, .limit⟩, .processOrder ⟨2, 8, .buy, 100, 3, .limit⟩,
      .processOrder ⟨3, 7, .buy, 100, 1, .limit⟩, .processOrder ⟨4, 0, .buy, 0, 1, .market⟩]
    (by decide)
  obtain ⟨users', hasUsers, booked⟩ := ledger_is_fold_of_trades rfl (fun _ => rfl) run
  exact ⟨_, _, users', run, by decide, hasUsers, booked⟩

end MatchingEngine

end OrderBookSimulator
