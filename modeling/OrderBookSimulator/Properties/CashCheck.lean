import OrderBookSimulator.Engine.Walk
import OrderBookSimulator.Properties.Solvency
import OrderBookSimulator.Server.Requests

/-!
# What the cash check of a buy is worth

Preflight multiplies one price by the whole quantity, in a `long long`.  A
sweep pays each maker's own price, and a product need not fit.  Both gaps are
closed here by naming exactly when the check still does what it is for.
-/

namespace OrderBookSimulator

open Library

/-- What a user pays to others for the trades of a purchase. -/
def debitedCash (trades : List Trade) (user : Int) : Int :=
  tally (fun trade : Trade => trade.makerUserId ≠ user) (fun trade => trade.price * trade.qty) trades

namespace MatchingEngine

/-- The price that preflight multiplies by; a market buy without an ask does not get that far. -/
def costPrice (engine : MatchingEngine) (order : Order) : Option Int :=
  if order.type = .limit then some order.price else engine.book.bestAsk

/-- What the cheapest asks, up to the order's quantity, cost where they are not its owner's. -/
def costToOthers (engine : MatchingEngine) (order : Order) : Int :=
  tally (fun taken : Order × Int =>
      taken.1.id ≠ order.id ∧ engine.makerUser taken.1 ≠ order.userId)
    (fun taken => taken.1.price * taken.2) (takes order.qty (engine.book.opposing order))

section Check

variable {host : Host} {engine : MatchingEngine} {users : UserManager} {order : Order}

/-- A buy by a user passes preflight exactly when the product, as stored, is covered. -/
theorem buy_isOk_iff (hasUsers : engine.userManager = some users) (user : 0 < order.userId)
    (buys : order.side = .buy) (qty : 0 < order.qty) (priced : order.type = .limit → 0 < order.price) :
    (engine.preflightCheck host order).isOk = true ↔
      ∃ price, engine.costPrice order = some price ∧
        host.longLong (price * order.qty) ≤
          host.longLong (users.getPosition order.userId).availableCash := by
  unfold preflightCheck costPrice Position.availableCash
  rw [if_neg (by omega)]
  cases type : order.type with
  | limit =>
      have positive := priced type
      simp only [buys, hasUsers, if_pos user, if_true, if_false, reduceCtorEq, false_and, true_and,
        if_neg (show ¬ order.price ≤ 0 by omega), Option.some.injEq, exists_eq_left']
      split
      · simp [PreflightResult.isOk, PreflightResult.rejected]
        omega
      · simp [PreflightResult.isOk, PreflightResult.ok]
        omega
  | market =>
      cases ask : engine.book.bestAsk with
      | none => simp [buys, PreflightResult.isOk, PreflightResult.cancelled]
      | some price =>
          simp only [buys, hasUsers, if_pos user, if_false, reduceCtorEq, false_and, and_false,
            Option.some.injEq, exists_eq_left', Option.getD_some]
          split
          · simp [PreflightResult.isOk, PreflightResult.rejected]
            omega
          · simp [PreflightResult.isOk, PreflightResult.ok]
            omega

/--
For every position and every buy of a user, the cash check lets through only
what the user can pay if and only if the product fits a `long long`, or what
the product wraps to is still more than what is available.
-/
theorem cash_check_exact_iff {now : Nat → Int} (hasUsers : engine.userManager = some users)
    (user : 0 < order.userId) (buys : order.side = .buy) (qty : 0 < order.qty)
    (priced : order.type = .limit → 0 < order.price) :
    ((engine.preflightCheck (Host.twosComplement now) order).isOk = true →
      ∀ price, engine.costPrice order = some price →
        price * order.qty ≤ (users.getPosition order.userId).availableCash ∧
          FitsLongLong (price * order.qty)) ↔
    ∀ price, engine.costPrice order = some price →
      (FitsLongLong (price * order.qty) ∧
          -(2 ^ 63) ≤ (users.getPosition order.userId).availableCash) ∨
        ((users.getPosition order.userId).availableCash).bmod (2 ^ 64) <
          (price * order.qty).bmod (2 ^ 64) := by
  rw [buy_isOk_iff hasUsers user buys qty priced]
  cases cost : engine.costPrice order with
  | none => simp
  | some price =>
      simp only [Option.some.injEq, forall_eq', exists_eq_left', Host.twosComplement]
      generalize price * order.qty = required
      generalize (users.getPosition order.userId).availableCash = available
      constructor
      · intro exact
        by_cases covered : required.bmod (2 ^ 64) ≤ available.bmod (2 ^ 64)
        · obtain ⟨enough, fits⟩ := exact covered
          have low := fits.1
          exact Or.inl ⟨fits, by omega⟩
        · exact Or.inr (by omega)
      · rintro (⟨fits, low⟩ | short) covered
        · refine ⟨?_, fits⟩
          rw [bmod_of_fits fits] at covered
          by_cases high : available ≤ longLongMax
          · rwa [bmod_of_fits ⟨low, high⟩] at covered
          · have most := fits.2
            omega
        · omega

/-- An order for all of the cash is weighed and accepted. -/
theorem cash_check_exact_for_all_cash :
    (preflightCheck (Host.twosComplement (·)) { userManager := some {} }
        ⟨1000, 1, .buy, 100, 1000, .limit⟩).isOk = true ∧
      ((preflightCheck (Host.twosComplement (·)) { userManager := some {} }
          ⟨1000, 1, .buy, 100, 1000, .limit⟩).isOk = true →
        ∀ price, costPrice { userManager := some {} }
            ⟨1000, 1, .buy, 100, 1000, .limit⟩ = some price →
          price * 1000 ≤ 100000 ∧ FitsLongLong (price * 1000)) := by
  have users : ({ userManager := some {} } : MatchingEngine).userManager = some {} := rfl
  refine ⟨by decide, ?_⟩
  refine (cash_check_exact_iff users (by decide) rfl (by decide) fun _ => by decide).mpr ?_
  rintro price cost
  cases cost
  exact Or.inl (by decide)

/-- A request whose product is `2 ^ 64` costs nothing as far as the cash check can see. -/
theorem cash_check_bypassed :
    ∃ request price,
      parseOrderJson "\x7b\"side\":\"BUY\",\"price\":1073741824,\"qty\":17179869184\x7d".toList =
        .ok (some request) ∧
      (preflightCheck (Host.twosComplement (·)) { userManager := some {} }
        (request.order 1000 1)).isOk = true ∧
      costPrice { userManager := some {} } (request.order 1000 1) = some price ∧
      price * request.qty = 2 ^ 64 ∧
      ¬ price * request.qty ≤ (({} : UserManager).getPosition 1).availableCash :=
  ⟨⟨.buy, .limit, 1073741824, 17179869184⟩, 1073741824, rfl, by decide, rfl, by decide, by decide⟩

end Check

/-! ## What a market buy pays -/

section Pays

variable {now : Nat → Int} {engine : MatchingEngine} {users : UserManager} {incoming : Order}

/-- Part of the way through a market buy: what has been paid is missing from what is available. -/
structure Paid (available : Int) (incoming : Order) (sweep : Sweep) : Prop where
  taker : sweep.taker = { incoming with qty := sweep.taker.qty }
  ledger : ∃ users, sweep.engine.userManager = some users ∧
    users.getUserForOrder incoming.id = incoming.userId ∧
    (users.getPosition incoming.userId).availableCash =
      available - debitedCash sweep.trades incoming.userId

theorem Paid.step {available batchId : Int} {sweep next : Sweep}
    (paid : Paid available incoming sweep)
    (moves : fillStep (Host.exact now) .buy batchId sweep = some next) :
    Paid available incoming next := by
  obtain ⟨price, maker, rest, fillable, rfl⟩ := fillStep_cases moves
  obtain ⟨users, hasUsers, registered, soFar⟩ := paid.ledger
  have takerId : sweep.taker.id = incoming.id := by rw [paid.taker]
  have moved := UserManager.moved_onFill now (rfl : users.getUserForOrder maker.order.id = _)
    registered price (fillQty sweep.taker maker.order) .buy incoming.userId
  refine ⟨?_, _, by rw [userManager_afterFill, hasUsers, Option.map_some], ?_, ?_⟩
  · simp only [afterFill]
    rw [paid.taker]
  · rw [UserManager.getUserForOrder_congr (UserManager.orderToUser_onFill _ _ _ _ _ _ _)]
    exact registered
  · have balance := moved.balance
    have reserved := moved.reservedBalance
    have makerIs : sweep.engine.makerUser maker.order = users.getUserForOrder maker.order.id := by
      rw [makerUser, hasUsers]
    simp only [buyer, seller, Side.opposite, amountIf_self] at balance
    simp only [reduceCtorEq, if_false, sub_zero] at reserved
    unfold Position.availableCash debitedCash at soFar ⊢
    rw [takerId, balance, reserved, trades_afterFill, tally_append, tally_cons, tally_nil, fillTrade,
      makerIs]
    dsimp only
    by_cases own : users.getUserForOrder maker.order.id = incoming.userId
    · rw [if_neg (by simpa using own), own, amountIf_self]
      omega
    · rw [if_pos own, amountIf_of_ne own]
      omega

/-- What a market buy costs its owner is what the queue of asks says it will. -/
theorem debitedCash_of_accepted {host : Host} (sound : engine.book.Sound)
    (hasUsers : engine.userManager = some users)
    (ok : (engine.preflightCheck host incoming).isOk = true) :
    debitedCash (engine.processOrder host incoming).2.trades incoming.userId =
      engine.costToOthers incoming := by
  have nonneg := Int.le_of_lt (passed_of_isOk ok).qty_pos
  rw [processOrder_of_accepted host engine incoming ok, debitedCash,
    tally_of_unstamped (fun _ => ⟨.rfl, rfl⟩) (unstamped_report host incoming _),
    trades_callSweep host sound nonneg, tally_map, costToOthers]
  refine tally_congr (fun taken _ => ?_) fun _ _ _ => rfl
  simp only [tradeWith, makerUser, userManager_opened, hasUsers, Option.map_some,
    UserManager.getUserForOrder_registerOrder]
  by_cases same : taken.1.id = incoming.id <;> simp [same]

/-- After a market buy, what is available is what was, less what was paid. -/
theorem availableCash_of_accepted (hasUsers : engine.userManager = some users)
    (market : incoming.type = .market) (buys : incoming.side = .buy)
    (ok : (engine.preflightCheck (Host.exact now) incoming).isOk = true) :
    ∃ users', (engine.processOrder (Host.exact now) incoming).1.userManager = some users' ∧
      (users'.getPosition incoming.userId).availableCash =
        (users.getPosition incoming.userId).availableCash -
          debitedCash (engine.processOrder (Host.exact now) incoming).2.trades incoming.userId := by
  have settles := callSweep_settles (Host.exact now) engine incoming
  rw [buys] at settles
  have paid := settles.invariant
    (Paid (users.getPosition incoming.userId).availableCash incoming)
    (fun _ _ paid moves => paid.step moves)
    ⟨rfl, users.registerOrder incoming.id incoming.userId, by simp [startSweep, hasUsers],
      by simp, by simp [startSweep, debitedCash]⟩
  obtain ⟨users', hasUsers', _, available⟩ := paid.ledger
  have takerType : (engine.callSweep (Host.exact now) incoming).taker.type = .market := by
    rw [paid.taker, market]
  rw [processOrder_of_accepted (Host.exact now) engine incoming ok]
  refine ⟨users', ?_, ?_⟩
  · rw [userManager_concluded, userManager_restRemainder, takerType, if_neg (by simp), hasUsers']
  · rw [available, debitedCash, debitedCash,
      tally_of_unstamped (fun _ => ⟨.rfl, rfl⟩) (unstamped_report (Host.exact now) incoming _)]

/--
In every reachable state, a market buy that preflight lets through costs its
owner no more than what is available, and leaves nothing overdrawn, if and only
if the cheapest asks up to its quantity, those of others, cost no more.
-/
theorem market_buy_affordable_iff {start state : MatchingEngine} {log : Log}
    (sound : start.book.Sound) (run : AnySession (Host.exact now) start log state)
    (hasUsers : state.userManager = some users) (market : incoming.type = .market)
    (buys : incoming.side = .buy)
    (ok : (state.preflightCheck (Host.exact now) incoming).isOk = true) :
    (debitedCash (state.processOrder (Host.exact now) incoming).2.trades incoming.userId ≤
        (users.getPosition incoming.userId).availableCash ∧
      ∃ users', (state.processOrder (Host.exact now) incoming).1.userManager = some users' ∧
        0 ≤ (users'.getPosition incoming.userId).availableCash) ↔
    state.costToOthers incoming ≤ (users.getPosition incoming.userId).availableCash := by
  obtain ⟨users', hasUsers', after⟩ := availableCash_of_accepted hasUsers market buys ok
  have debited := debitedCash_of_accepted (sound_of_anySession sound run) hasUsers ok
  constructor
  · rintro ⟨affordable, _⟩
    rwa [debited] at affordable
  · intro affordable
    rw [← debited] at affordable
    exact ⟨affordable, users', hasUsers', by omega⟩

/-- A market buy over two levels that its owner can pay. -/
theorem market_buy_affordable_over_two_levels :
    ∃ log state users incoming, AnySession (Host.exact (·)) { userManager := some {} } log state ∧
      log.length = 2 ∧ state.userManager = some users ∧
      debitedCash (state.processOrder (Host.exact (·)) incoming).2.trades incoming.userId ≤
        (users.getPosition incoming.userId).availableCash := by
  have run := Run.of_isSome (exec (Host.exact (·))) (fun _ _ => True) { userManager := some {} }
    [.processOrder ⟨1, 0, .sell, 100, 1, .limit⟩, .processOrder ⟨2, 0, .sell, 200, 899, .limit⟩]
    (by decide)
  let incoming : Order := ⟨3, 7, .buy, 0, 400, .market⟩
  have market : incoming.type = .market := rfl
  have affordable := (market_buy_affordable_iff (OrderBook.sound_empty none) run rfl market rfl
    (by decide)).mpr (by decide)
  exact ⟨_, _, _, incoming, run, rfl, rfl, affordable.1⟩

/-- The top of the book prices 900 shares at 90000; all but one of them cost twice that. -/
theorem market_buy_not_affordable :
    ∃ log state users incoming, AnySession (Host.exact (·)) { userManager := some {} } log state ∧
      state.userManager = some users ∧ incoming.userId = 7 ∧ incoming.type = .market ∧
      incoming.side = .buy ∧
      (state.preflightCheck (Host.exact (·)) incoming).isOk = true ∧
      (users.getPosition 7).availableCash = 100000 ∧
      debitedCash (state.processOrder (Host.exact (·)) incoming).2.trades 7 = 179900 := by
  have run := Run.of_isSome (exec (Host.exact (·))) (fun _ _ => True) { userManager := some {} }
    [.processOrder ⟨1, 0, .sell, 100, 1, .limit⟩, .processOrder ⟨2, 0, .sell, 200, 899, .limit⟩]
    (by decide)
  exact ⟨_, _, _, ⟨3, 7, .buy, 0, 900, .market⟩, run, rfl, rfl, rfl, rfl, by decide, by decide,
    by decide⟩

end Pays

end MatchingEngine

end OrderBookSimulator
