import OrderBookSimulator.Engine.Allotment
import OrderBookSimulator.Engine.Ledger
import OrderBookSimulator.MarketMaker.MarketMaker
import OrderBookSimulator.Properties.BookDocuments
import OrderBookSimulator.Properties.Seeding

/-!
# Aggregates that do not fit

Depths, level totals, balances and reservations are kept in `long long`s, and
an order without a user is asked for nothing.  They are exact as long as each
accepted order leaves room for what it fills and for what it leaves resting.
-/

namespace OrderBookSimulator

open Library MatchingEngine UserManager

/-! ## Requests without a user -/

/-- Each order belongs to user 0 and takes its id from `next_order_id`; any id may be cancelled. -/
def WithoutUser (log : Log) : Call → Prop
  | .processOrder order =>
      order.id ∈ log.unspent ∧ order.userId = 0 ∧ FitsInt order.price ∧ FitsLongLong order.qty
  | .addRestingOrder _ => False
  | .nextOrderId | .cancelOrder _ => True

instance (log : Log) : DecidablePred (WithoutUser log)
  | .processOrder order =>
      inferInstanceAs (Decidable (order.id ∈ log.unspent ∧ order.userId = 0 ∧
        FitsInt order.price ∧ FitsLongLong order.qty))
  | .addRestingOrder _ => instDecidableFalse
  | .nextOrderId | .cancelOrder _ => instDecidableTrue

/-- Runs of orders without a user and of cancels. -/
abbrev HouseRun (host : Host) (start : MatchingEngine) : Log → MatchingEngine → Prop :=
  Run (exec host) WithoutUser start

theorem WithoutUser.legal {log : Log} {call : Call} (allowed : WithoutUser log call) :
    call.Legal := by
  cases call with
  | processOrder order => exact allowed.2.2.1
  | addRestingOrder order => exact allowed
  | nextOrderId => trivial
  | cancelOrder orderId => trivial

/-- The position of user 0, to whom an order without a user belongs. -/
def MatchingEngine.house (engine : MatchingEngine) : Position :=
  (engine.userManager.getD {}).getPosition 0

/-! ## Exact aggregates -/

/-- `serialize_book_json` shows each level with the sum of its quantities. -/
def TotalsExact (host : Host) (snapshot : Snapshot) : Prop :=
  ∀ depth, bookDocument host snapshot depth =
    { bids := (snapshot.bids.entries.take depth).map LevelLine.ofLevel
      asks := (snapshot.asks.entries.take depth).map LevelLine.ofLevel }

/-- What a call computes, and what can be computed after it, is exact. -/
structure Entry.Exact (host : Host) (entry : Entry) : Prop where
  bidDepth : MarketMaker.bidDepth host entry.after.book = entry.after.book.depth .buy
  askDepth : MarketMaker.askDepth host entry.after.book = entry.after.book.depth .sell
  totals : TotalsExact host entry.after.book.snapshot
  announced : entry.after.book.Observed (TotalsExact host)
  ledger : ∀ users, entry.before.userManager = some users →
    LedgerExact host (users.registered entry.call)
      (entry.before.userCalls host entry.call)

/-- The most that a fill computes; what is sold is added to the balance. -/
def settled (value : Int) : Side → Int
  | .buy => value
  | .sell => ({} : Position).balance + value

/-- There is room for what an order fills and for what it leaves resting. -/
structure MatchingEngine.HasRoom (engine : MatchingEngine) (order : Order) : Prop where
  fills : ∀ taken ∈ takes order.qty (engine.book.opposing order),
    settled (takenValue taken) order.side ≤ longLongMax
  depth : engine.book.depth order.side + engine.book.leavesResting order ≤ longLongMax
  worth : order.side = .buy → order.price * engine.book.leavesResting order ≤ longLongMax
  reserve : order.side = .buy →
    engine.house.reservedBalance + order.price * engine.book.leavesResting order ≤ longLongMax

instance (engine : MatchingEngine) : DecidablePred engine.HasRoom := fun order =>
  decidable_of_iff
    ((∀ taken ∈ takes order.qty (engine.book.opposing order),
        settled (takenValue taken) order.side ≤ longLongMax) ∧
      engine.book.depth order.side + engine.book.leavesResting order ≤ longLongMax ∧
      (order.side = .buy → order.price * engine.book.leavesResting order ≤ longLongMax) ∧
      (order.side = .buy → engine.house.reservedBalance +
        order.price * engine.book.leavesResting order ≤ longLongMax))
    ⟨fun ⟨fills, depth, worth, reserve⟩ => ⟨fills, depth, worth, reserve⟩,
      fun ⟨fills, depth, worth, reserve⟩ => ⟨fills, depth, worth, reserve⟩⟩

/-- An order that preflight lets through finds room. -/
def Entry.Room (host : Host) (entry : Entry) : Prop :=
  ∀ order ∈ entry.call.submitted,
    (entry.before.preflightCheck host order).isOk = true → entry.before.HasRoom order

instance (host : Host) : DecidablePred (Entry.Room host) := fun entry =>
  inferInstanceAs (Decidable (∀ order ∈ entry.call.submitted,
    (entry.before.preflightCheck host order).isOk = true → entry.before.HasRoom order))

/-- Where a server starts: nothing is reserved yet, and the book is within its bounds. -/
structure MatchingEngine.HouseStart (engine : MatchingEngine) : Prop where
  orderly : engine.book.Orderly
  known : engine.KnownBelow
  account : ∃ users, engine.userManager = some users ∧ users.House ({} : Position).balance 0
  depths : ∀ side, engine.book.depth side ≤ longLongMax
  worth : engine.book.bidWorth ≤ longLongMax
  unseen : engine.book.onChange.getD [] = []

/-! ## Books within their bounds -/

namespace OrderBook

variable {book : OrderBook}

/-- No level holds more than its side. -/
theorem Sound.level_le_depth (sound : book.Sound) (side : Side) {level : Int × OrderList}
    (member : level ∈ (book.levels side).entries) :
    (level.2.map (·.order.qty)).sum ≤ book.depth side := by
  refine List.single_le_sum (fun total isTotal => ?_) _ (List.mem_map_of_mem member)
  obtain ⟨other, inLevels, rfl⟩ := List.mem_map.mp isTotal
  refine List.sum_nonneg fun qty isQty => ?_
  obtain ⟨node, inLevel, rfl⟩ := List.mem_map.mp isQty
  rw [← level_of_mem_entries inLevels] at inLevel
  exact Int.le_of_lt (sound.positive node (mem_nodes_iff.mpr ⟨side, other.1, inLevel⟩))

theorem Sound.totalsExact (sound : book.Sound) (now : Nat → Int)
    (depths : ∀ side, book.depth side ≤ longLongMax) :
    TotalsExact (Host.twosComplement now) book.snapshot := by
  refine fun depth => bookDocument_eq sound now fun side level shown => ?_
  exact Int.le_trans (sound.level_le_depth side (List.mem_of_mem_take shown)) (depths side)

/-- A depth is computed exactly when it is a `long long`. -/
theorem Sound.depth_exact_iff (sound : book.Sound) (now : Nat → Int) (side : Side) :
    (Host.twosComplement now).longLong (book.depth side) = book.depth side ↔
      book.depth side ≤ longLongMax := by
  have nonneg := sound.depth_nonneg side
  rw [Host.fitsLongLong_iff]
  unfold FitsLongLong
  omega

end OrderBook

namespace MatchingEngine

theorem house_fresh : ({} : UserManager).House ({} : Position).balance 0 where
  owner orderId user found := by cases found
  balance := rfl
  reserved := rfl

theorem houseStart_empty : HouseStart { userManager := some {} } where
  orderly := orderly_empty none
  known := knownBelow_empty
  account := ⟨{}, rfl, house_fresh⟩
  depths side := by cases side <;> decide
  worth := by decide
  unseen := rfl

/-- Whatever the server draws when it starts, it starts within every bound. -/
theorem houseStart_of_serverSeed (draws : Draws) :
    ∃ seeded, seedBook {} 100 2 20 2000 draws = .ok seeded ∧
      HouseStart { book := seeded.book.setOnChange, userManager := some {} } := by
  obtain ⟨seeded, runs, seeds⟩ := seeded_of_server draws
  have orderly := seeds.orderly_server
  have shallow : ∀ side, seeded.book.depth side ≤ 2000 := fun side => (seeds.depth_range side).2
  refine ⟨seeded, runs, ⟨orderly.sound.setOnChange, orderly.uncrossed, orderly.priced⟩,
    seeds.knownBelow, ⟨{}, rfl, house_fresh⟩, fun side => ?_, ?_, rfl⟩
  · have small := shallow side
    unfold longLongMax
    cases side <;> exact Int.le_trans small (by decide)
  · have worth := seeds.sound.bidWorth_le fun order member => (orderly.priced order member).2
    have small := shallow .buy
    refine Int.le_trans worth (Int.le_trans (Int.mul_le_mul_of_nonneg_left small ?_) ?_)
    · decide
    · decide

end MatchingEngine

/-! ## The account of user 0 -/

/-- What is true of a book and of the account behind it while everything has been exact. -/
structure Housed (host : Host) (pledged reserved : Int) (engine : MatchingEngine) : Prop where
  orderly : engine.book.Orderly
  account : ∃ users, engine.userManager = some users ∧
    users.House ({} : Position).balance reserved
  depths : ∀ side, engine.book.depth side ≤ longLongMax
  worth : ∀ order ∈ engine.book.resting, order.side = .buy → order.price * order.qty ≤ longLongMax
  announced : engine.book.Observed (TotalsExact host)
  /-- Only the bids that were there at the start are not reserved for. -/
  pledged : engine.book.bidWorth - pledged ≤ reserved
  reserved : reserved ≤ longLongMax

theorem Housed.house_reserved {host : Host} {pledged reserved : Int} {engine : MatchingEngine}
    (housed : Housed host pledged reserved engine) : engine.house.reservedBalance = reserved := by
  obtain ⟨users, hasUsers, house⟩ := housed.account
  rw [MatchingEngine.house, hasUsers]
  exact house.reserved

theorem Housed.priced {host : Host} {pledged reserved : Int} {engine : MatchingEngine}
    (housed : Housed host pledged reserved engine) :
    ∀ order ∈ engine.book.resting, 0 < order.price :=
  fun order member => (housed.orderly.priced order member).1

theorem MatchingEngine.HouseStart.housed {host : Host} {engine : MatchingEngine}
    (starts : engine.HouseStart) : Housed host engine.book.bidWorth 0 engine where
  orderly := starts.orderly
  account := starts.account
  depths := starts.depths
  worth order member bids := by
    have priced : ∀ order ∈ engine.book.resting, 0 < order.price :=
      fun order member => (starts.orderly.priced order member).1
    exact Int.le_trans (OrderBook.worth_le_bidWorth starts.orderly.sound priced member bids)
      starts.worth
  announced snapshot member := by
    rw [starts.unseen] at member
    cases member
  pledged := by omega
  reserved := by decide

/-- A fill that does not exceed the bound is exact in each of its values. -/
theorem settled_fits_iff {value : Int} (nonneg : 0 ≤ value) (side : Side) :
    FitsLongLong value ∧ FitsLongLong (between ({} : Position).balance value side) ↔
      settled value side ≤ longLongMax := by
  unfold FitsLongLong longLongMax
  cases side <;> simp only [between, settled] <;> omega

theorem takenValue_nonneg {engine : MatchingEngine} (orderly : engine.book.Orderly)
    (order : Order) :
    ∀ taken ∈ takes order.qty (engine.book.opposing order), 0 ≤ takenValue taken := by
  intro taken member
  have rests := OrderBook.mem_resting_of_mem_opposing (mem_of_mem_takes member)
  have positive : ∀ maker ∈ engine.book.opposing order, 0 < maker.qty := fun maker inQueue =>
    orderly.sound.qty_pos (OrderBook.mem_resting_of_mem_opposing inQueue)
  exact Int.mul_nonneg (Int.le_of_lt (orderly.priced _ rests).1)
    (Int.le_of_lt (pos_of_mem_takes positive member))

section Accepted

variable {now : Nat → Int} {pledged reserved : Int} {engine : MatchingEngine} {order : Order}
  (housed : Housed (Host.twosComplement now) pledged reserved engine)
  (pledgedFits : pledged ≤ longLongMax)

include housed pledgedFits

theorem Housed.reserved_fits : FitsLongLong reserved := by
  have worth := OrderBook.bidWorth_nonneg housed.orderly.sound housed.priced
  have least := housed.pledged
  have most := housed.reserved
  unfold FitsLongLong longLongMax at *
  omega

/-- What the fills of a sell order release was reserved, or pledged at the start. -/
theorem Housed.released_fits (nonneg : 0 ≤ order.qty) :
    FitsLongLong (reserved - releasedBy order.side
      (takes order.qty (engine.book.opposing order))) := by
  have swept := swept_callSweep (Host.twosComplement now) housed.orderly.sound nonneg
  have moved := bidWorth_callSweep (Host.twosComplement now) housed.orderly.sound nonneg
  have worth := OrderBook.bidWorth_nonneg swept.sound fun other member => by
    obtain ⟨old, oldMember, same⟩ := swept.kept other member
    rw [same]
    exact housed.priced old oldMember
  have positive := releasedBy_nonneg order.side (takenValue_nonneg housed.orderly order)
  have least := housed.pledged
  have most := housed.reserved
  unfold FitsLongLong longLongMax at *
  omega

section Ledger

variable {users : UserManager}
  (ok : (engine.preflightCheck (Host.twosComplement now) order).isOk = true)

include ok

/-- The fills of an accepted order are exact if none of them exceeds the bound. -/
theorem Housed.fills_exact_iff (house : users.House ({} : Position).balance reserved) :
    LedgerExact (Host.twosComplement now) (users.registerOrder order.id 0)
        ((takes order.qty (engine.book.opposing order)).map (takenCall order.id order.side)) ↔
      ∀ taken ∈ takes order.qty (engine.book.opposing order),
        settled (takenValue taken) order.side ≤ longLongMax := by
  have nonneg := Int.le_of_lt (passed_of_isOk ok).qty_pos
  have values := takenValue_nonneg housed.orderly order
  rw [(house.registerOrder order.id).fills_iff (by decide) (housed.reserved_fits pledgedFits) _ _
    values]
  refine (and_iff_left (housed.released_fits pledgedFits nonneg)).trans ?_
  exact forall₂_congr fun taken member => settled_fits_iff (values taken member) order.side

/-- What an accepted order leaves resting is reserved exactly if its worth and the sum fit. -/
theorem Housed.rest_exact_iff
    (account : users.House ({} : Position).balance (reserved -
      releasedBy order.side (takes order.qty (engine.book.opposing order))))
    (registered : (users.orderToUser.find? order.id).isSome) :
    LedgerExact (Host.twosComplement now) users
        (if 0 < engine.book.leavesResting order then
          [.onOrderResting order.id order.side order.price (engine.book.leavesResting order)]
        else []) ↔
      (order.side = .buy → order.price * engine.book.leavesResting order ≤ longLongMax ∧
        reserved + order.price * engine.book.leavesResting order ≤ longLongMax) := by
  have passed := passed_of_isOk ok
  have releasedFits := housed.released_fits pledgedFits (Int.le_of_lt passed.qty_pos)
  split
  · rename_i rests
    have limit : order.type = .limit := by
      by_contra market
      rw [OrderBook.leavesResting, if_neg market] at rests
      exact absurd rests (lt_irrefl 0)
    have worth : 0 ≤ order.price * engine.book.leavesResting order :=
      Int.mul_nonneg (Int.le_of_lt (passed.price_pos limit)) (Int.le_of_lt rests)
    have reservedFits := housed.reserved_fits pledgedFits
    rw [account.resting_iff releasedFits, reservedFor_of_registered registered]
    cases side : order.side with
    | buy =>
        simp only [releasedBy_buy, Int.sub_zero, if_true, true_implies]
        unfold FitsLongLong at *
        omega
    | sell =>
        rw [side] at releasedFits
        simpa using ⟨by decide, releasedFits⟩
  · rename_i none
    rw [OrderBook.leavesResting_of_not_pos none, Int.mul_zero, Int.add_zero]
    exact iff_of_true trivial fun _ => ⟨by decide, housed.reserved⟩

/-- The calls of an accepted order are exact if there is room for its fills and for its rest. -/
theorem Housed.ledger_exact_iff (house : users.House ({} : Position).balance reserved) :
    LedgerExact (Host.twosComplement now) (users.registerOrder order.id 0)
        (engine.userCalls (Host.twosComplement now) (.processOrder order)) ↔
      (∀ taken ∈ takes order.qty (engine.book.opposing order),
        settled (takenValue taken) order.side ≤ longLongMax) ∧
      (order.side = .buy → order.price * engine.book.leavesResting order ≤ longLongMax ∧
        reserved + order.price * engine.book.leavesResting order ≤ longLongMax) := by
  rw [userCalls_accepted (Host.twosComplement now) housed.orderly.sound ok,
    ledgerExact_append, housed.fills_exact_iff pledgedFits ok house]
  refine and_congr_right fun fills => housed.rest_exact_iff pledgedFits ok ?_ ?_
  · exact (house.registerOrder order.id).after_fills now (by decide) (housed.reserved_fits pledgedFits)
      _ _ ((housed.fills_exact_iff pledgedFits ok house).mpr fills)
  · exact isSome_owner_foldl_apply _ _ _ _ _

/-- The account after an accepted order for which there was room. -/
theorem Housed.account_after (house : users.House ({} : Position).balance reserved)
    (exact : LedgerExact (Host.twosComplement now) (users.registerOrder order.id 0)
      (engine.userCalls (Host.twosComplement now) (.processOrder order))) :
    ((engine.userCalls (Host.twosComplement now) (.processOrder order)).foldl
      (apply (Host.twosComplement now)) (users.registerOrder order.id 0)).House
        ({} : Position).balance (reserved -
          releasedBy order.side (takes order.qty (engine.book.opposing order)) +
            if order.side = .buy then order.price * engine.book.leavesResting order else 0) := by
  have releasedFits := housed.released_fits pledgedFits
    (Int.le_of_lt (passed_of_isOk ok).qty_pos)
  rw [userCalls_accepted (Host.twosComplement now) housed.orderly.sound ok] at exact ⊢
  rw [ledgerExact_append] at exact
  have filled := (house.registerOrder order.id).after_fills now (by decide)
    (housed.reserved_fits pledgedFits) _ _ exact.1
  have registered := isSome_owner_foldl_apply (Host.twosComplement now) users order.id 0
    ((takes order.qty (engine.book.opposing order)).map (takenCall order.id order.side))
  have rests := exact.2
  rw [List.foldl_append]
  split at rests
  · rename_i some
    rw [filled.resting_iff releasedFits] at rests
    have after := filled.after_resting now rests.1 rests.2
    rw [reservedFor_of_registered registered] at after
    rw [if_pos some]
    exact after
  · rename_i none
    rw [if_neg none, OrderBook.leavesResting_of_not_pos none, Int.mul_zero, ite_self, Int.add_zero]
    exact filled

end Ledger

end Accepted

section Concluded

variable {now : Nat → Int} {pledged reserved : Int} {engine : MatchingEngine} {order : Order}
  (housed : Housed (Host.twosComplement now) pledged reserved engine)
  (ok : (engine.preflightCheck (Host.twosComplement now) order).isOk = true) (batchId : Int)

include housed ok

/-- A bid that rests after an accepted order is worth a `long long`, if the order's rest is. -/
theorem Housed.worth_after
    (room : order.side = .buy →
      order.price * engine.book.leavesResting order ≤ longLongMax) :
    ∀ other ∈ (concluded (Host.twosComplement now) order batchId
        (engine.callSweep (Host.twosComplement now) order)).book.resting,
      other.side = .buy → other.price * other.qty ≤ longLongMax := by
  have sound := housed.orderly.sound
  have nonneg := Int.le_of_lt (passed_of_isOk ok).qty_pos
  have swept := swept_callSweep (Host.twosComplement now) sound nonneg
  intro other member bids
  rcases mem_resting_concluded member with rests | kept
  · obtain ⟨rfl, limit, _⟩ := eq_of_mem_remainder rests
    have leaves := leavesResting_eq (Host.twosComplement now) sound nonneg
    rw [swept.taker] at limit bids ⊢
    rw [if_pos limit] at leaves
    rw [← leaves]
    exact room bids
  · obtain ⟨old, oldMember, same, smaller⟩ := swept.kept_le sound kept
    rw [same] at bids ⊢
    exact Int.le_trans
      (Int.mul_le_mul_of_nonneg_left smaller (Int.le_of_lt (housed.priced old oldMember)))
      (housed.worth old oldMember bids)

variable (fresh : engine.book.index.find? order.id = none)

include fresh

/-- Only the order's own side gets deeper, by what it leaves resting. -/
theorem Housed.depths_after
    (room : engine.book.depth order.side + engine.book.leavesResting order ≤ longLongMax)
    (side : Side) :
    (concluded (Host.twosComplement now) order batchId
      (engine.callSweep (Host.twosComplement now) order)).book.depth side ≤ longLongMax := by
  have sound := housed.orderly.sound
  have swept := swept_callSweep (Host.twosComplement now) sound
    (Int.le_of_lt (passed_of_isOk ok).qty_pos)
  rcases order.side.eq_or_eq_opposite side with rfl | rfl
  · rw [depth_concluded_own (Host.twosComplement now) sound ok fresh]
    exact room
  · rw [depth_concluded_opposite (Host.twosComplement now) swept]
    exact Int.le_trans (depth_callSweep_le (Host.twosComplement now) swept _)
      (housed.depths _)

end Concluded

section Step

variable {now : Nat → Int} {pledged reserved : Int} {engine next : MatchingEngine}
  {call : Call} {reply : Reply}
  (housed : Housed (Host.twosComplement now) pledged reserved engine)
  (answered : Answered (Host.twosComplement now) engine call reply next)
  (legal : call.Legal)

include housed answered legal

/-- Where the depths are in range, every level that is shown has its exact total. -/
theorem Housed.announced_after (depths : ∀ side, next.book.depth side ≤ longLongMax) :
    next.book.Observed (TotalsExact (Host.twosComplement now)) := by
  refine answered.observed ?_ housed.announced ?_
    ((answered.sound housed.orderly.sound).totalsExact now depths)
  · rintro order rfl
    exact legal
  · intro order swept
    exact swept.sound.totalsExact now fun side =>
      Int.le_trans (depth_callSweep_le (Host.twosComplement now) swept side)
        (housed.depths side)

/-- With depths in range, an entry is exact if its calls into the user manager are. -/
theorem Housed.exact_of_ledger (depths : ∀ side, next.book.depth side ≤ longLongMax)
    {users : UserManager} (hasUsers : engine.userManager = some users)
    (ledger : LedgerExact (Host.twosComplement now) (users.registered call)
      (engine.userCalls (Host.twosComplement now) call)) :
    Entry.Exact (Host.twosComplement now) ⟨engine, call, reply, next⟩ := by
  have sound := answered.sound housed.orderly.sound
  refine ⟨(sound.depth_exact_iff now .buy).mpr (depths .buy),
    (sound.depth_exact_iff now .sell).mpr (depths .sell), sound.totalsExact now depths,
    housed.announced_after answered legal depths, ?_⟩
  intro users' hasUsers'
  obtain rfl := Option.some.inj (hasUsers.symm.trans hasUsers')
  exact ledger

end Step

section Answers

variable {now : Nat → Int} {pledged reserved : Int} {engine : MatchingEngine} {log : Log}
  (housed : Housed (Host.twosComplement now) pledged reserved engine)
  (pledgedFits : pledged ≤ longLongMax)

include housed pledgedFits

section Order

variable {order : Order}
  (ok : (engine.preflightCheck (Host.twosComplement now) order).isOk = true)
  (swept : Swept engine.book order
    (engine.callSweep (Host.twosComplement now) order))
  (allowed : WithoutUser log (.processOrder order))
  (fresh : engine.book.index.find? order.id = none)

include ok swept allowed fresh

/-- An accepted order is answered exactly if and only if there is room for it. -/
theorem Housed.accepted_exact_iff :
    Entry.Exact (Host.twosComplement now) ⟨engine, .processOrder order,
        .result (report (Host.twosComplement now) order
          (engine.callSweep (Host.twosComplement now) order)),
        concluded (Host.twosComplement now) order engine.batchSeq
          (engine.callSweep (Host.twosComplement now) order)⟩ ↔
      engine.HasRoom order := by
  obtain ⟨users, hasUsers, house⟩ := housed.account
  have answered := Answered.accepted order ok swept
  have ledger := housed.ledger_exact_iff pledgedFits ok house
  have after := answered.sound housed.orderly.sound
  have own := depth_concluded_own (Host.twosComplement now) housed.orderly.sound ok
    fresh engine.batchSeq
  have reservedIs := housed.house_reserved
  constructor
  · intro exact
    have calls := exact.ledger users hasUsers
    rw [registered, allowed.2.1] at calls
    obtain ⟨fills, rest⟩ := ledger.mp calls
    refine ⟨fills, ?_, fun bids => (rest bids).1, fun bids => reservedIs ▸ (rest bids).2⟩
    rw [← own, ← after.depth_exact_iff now]
    cases order.side with
    | buy => exact exact.bidDepth
    | sell => exact exact.askDepth
  · intro room
    refine housed.exact_of_ledger answered allowed.legal
      (housed.depths_after ok engine.batchSeq fresh room.depth) hasUsers ?_
    rw [registered, allowed.2.1]
    exact ledger.mpr ⟨room.fills, fun bids => ⟨room.worth bids, reservedIs ▸ room.reserve bids⟩⟩

/-- If there is room for an accepted order, everything stays within its bounds. -/
theorem Housed.accepted (room : engine.HasRoom order) :
    Housed (Host.twosComplement now) pledged
      (reserved - releasedBy order.side (takes order.qty (engine.book.opposing order)) +
        if order.side = .buy then order.price * engine.book.leavesResting order else 0)
      (concluded (Host.twosComplement now) order engine.batchSeq
        (engine.callSweep (Host.twosComplement now) order)) := by
  obtain ⟨users, hasUsers, house⟩ := housed.account
  have answered := Answered.accepted order ok swept
  have sound := housed.orderly.sound
  have exact := (housed.accepted_exact_iff pledgedFits ok swept allowed fresh).mpr room
  have calls := exact.ledger users hasUsers
  have depths := housed.depths_after ok engine.batchSeq fresh room.depth
  rw [registered, allowed.2.1] at calls
  refine ⟨answered.orderly allowed.legal housed.orderly, ⟨_, answered.userManager sound hasUsers, ?_⟩,
    depths, housed.worth_after ok engine.batchSeq room.worth,
    housed.announced_after answered allowed.legal depths, ?_, ?_⟩
  · rw [registered, allowed.2.1]
    exact housed.account_after pledgedFits ok house calls
  · have moved := bidWorth_callSweep (Host.twosComplement now) sound
      (Int.le_of_lt (passed_of_isOk ok).qty_pos)
    have least := housed.pledged
    rw [bidWorth_concluded (Host.twosComplement now) sound ok fresh]
    omega
  · have released := releasedBy_nonneg order.side
      (takenValue_nonneg housed.orderly order)
    have most := housed.reserved
    have reserve := room.reserve
    rw [housed.house_reserved] at reserve
    split
    · have sum := reserve ‹_›
      omega
    · omega

end Order

section Cancel

variable {node : Node} (queued : node ∈ engine.book.nodes)

include queued

/-- A cancel releases no more than the order is worth, and nothing that was not reserved. -/
theorem Housed.cancel_fits (users : UserManager) :
    FitsLongLong (users.reservedFor node.order.id node.order.side node.order.price
        node.order.qty) ∧
      FitsLongLong (reserved - users.reservedFor node.order.id node.order.side node.order.price
        node.order.qty) := by
  have member : node.order ∈ engine.book.resting := List.mem_map_of_mem queued
  have sound := housed.orderly.sound
  have reservedFits := housed.reserved_fits pledgedFits
  rcases users.reservedFor_cases node.order.id node.order.side node.order.price
    node.order.qty with none | ⟨bids, worth⟩
  · rw [none, Int.sub_zero]
    exact ⟨by decide, reservedFits⟩
  · have nonneg := OrderBook.worth_nonneg sound housed.priced member
    have atMost := housed.worth node.order member bids
    have within := OrderBook.worth_le_bidWorth sound housed.priced member bids
    have least := housed.pledged
    rw [worth]
    unfold FitsLongLong longLongMax at *
    omega

omit pledgedFits in
theorem Housed.depths_withdrawn (side : Side) :
    (engine.cancelled (Host.twosComplement now) node.order).book.depth side ≤ longLongMax := by
  have sound := housed.orderly.sound
  have split := sound.depth_withdrawn queued side
  have positive := sound.qty_pos (List.mem_map_of_mem queued)
  have before := housed.depths side
  rw [book_cancelled, OrderBook.depth_notifyChange]
  split at split <;> omega

/-- A cancel needs no room. -/
theorem Housed.withdrawn_exact :
    Entry.Exact (Host.twosComplement now) ⟨engine, .cancelOrder node.order.id, .cancelled true,
      engine.cancelled (Host.twosComplement now) node.order⟩ := by
  obtain ⟨users, hasUsers, house⟩ := housed.account
  refine housed.exact_of_ledger (.withdrawn node queued) trivial (housed.depths_withdrawn queued)
    hasUsers ?_
  rw [userCalls, housed.orderly.sound.findOrder_of_mem queued]
  exact (house.cancel_iff (housed.reserved_fits pledgedFits) _ _ _ _).mpr
    (housed.cancel_fits pledgedFits queued users)

theorem Housed.withdrawn :
    ∃ left, Housed (Host.twosComplement now) pledged left
      (engine.cancelled (Host.twosComplement now) node.order) := by
  obtain ⟨users, hasUsers, house⟩ := housed.account
  have sound := housed.orderly.sound
  have answered : Answered (Host.twosComplement now) engine _ _ _ :=
    .withdrawn node queued
  have legal : Call.Legal (.cancelOrder node.order.id) := trivial
  obtain ⟨worthFits, leftFits⟩ := housed.cancel_fits pledgedFits queued users
  have depths := housed.depths_withdrawn queued
  refine ⟨_, answered.orderly legal housed.orderly,
    ⟨_, answered.userManager sound hasUsers, ?_⟩, depths, ?_,
    housed.announced_after answered legal depths, ?_, leftFits.2⟩
  · rw [userCalls, sound.findOrder_of_mem queued]
    exact house.after_cancel now worthFits leftFits
  · intro order member bids
    rw [book_cancelled] at member
    exact housed.worth order ((sound.resting_withdrawn queued).mem_iff.mpr (.tail _ member)) bids
  · have split := sound.bidWorth_withdrawn queued
    have nonneg := OrderBook.worth_nonneg sound housed.priced (List.mem_map_of_mem queued)
    have least := housed.pledged
    rw [book_cancelled, OrderBook.bidWorth_notifyChange]
    rcases users.reservedFor_cases node.order.id node.order.side node.order.price
      node.order.qty with none | ⟨bids, worth⟩
    · split at split <;> omega
    · rw [if_pos bids] at split
      omega

end Cancel

omit pledgedFits in
/-- A refused order computes nothing and only registers its owner. -/
theorem Housed.refused {order : Order} (status : OrderStatus)
    (notOk : (engine.preflightCheck (Host.twosComplement now) order).isOk = false)
    (allowed : WithoutUser log (.processOrder order)) {reply : Reply}
    (answered : Answered (Host.twosComplement now) engine (.processOrder order) reply
      (engine.refused (Host.twosComplement now) order status)) :
    Entry.Exact (Host.twosComplement now) ⟨engine, .processOrder order, reply,
        engine.refused (Host.twosComplement now) order status⟩ ∧
      Housed (Host.twosComplement now) pledged reserved
        (engine.refused (Host.twosComplement now) order status) := by
  obtain ⟨users, hasUsers, house⟩ := housed.account
  have sameBook : (engine.refused (Host.twosComplement now) order status).book = engine.book :=
    book_refused order status
  have depths := sameBook ▸ housed.depths
  have noCalls : engine.userCalls (Host.twosComplement now) (.processOrder order) = [] := by
    rw [userCalls, if_neg (by simp [notOk])]
  refine ⟨housed.exact_of_ledger answered allowed.legal depths hasUsers ?_,
    sameBook ▸ housed.orderly, ⟨_, answered.userManager housed.orderly.sound hasUsers, ?_⟩, depths,
    sameBook ▸ housed.worth, sameBook ▸ housed.announced, sameBook ▸ housed.pledged,
    housed.reserved⟩
  · rw [noCalls]
    trivial
  · rw [noCalls, registered, allowed.2.1]
    exact house.registerOrder order.id

/-- Every answer: an entry is exact if and only if it has room, and then the bounds are kept. -/
theorem Housed.step {next : MatchingEngine} {call : Call} {reply : Reply}
    (answered : Answered (Host.twosComplement now) engine call reply next)
    (allowed : WithoutUser log call)
    (fresh : ∀ order, call = .processOrder order → engine.book.index.find? order.id = none) :
    (Entry.Exact (Host.twosComplement now) ⟨engine, call, reply, next⟩ ↔
        Entry.Room (Host.twosComplement now) ⟨engine, call, reply, next⟩) ∧
      (Entry.Room (Host.twosComplement now) ⟨engine, call, reply, next⟩ →
        ∃ left, Housed (Host.twosComplement now) pledged left next) := by
  have whole := answered
  obtain ⟨users, hasUsers, _⟩ := housed.account
  cases answered with
  | allotted =>
      refine ⟨iff_of_true (housed.exact_of_ledger whole trivial housed.depths hasUsers trivial) ?_,
        fun _ => ⟨reserved, ⟨housed.orderly, housed.account, housed.depths, housed.worth,
          housed.announced, housed.pledged, housed.reserved⟩⟩⟩
      intro order isOrder
      cases isOrder
  | added order => exact allowed.elim
  | refused order status notOk =>
      obtain ⟨exact, refused⟩ := housed.refused status notOk allowed whole
      refine ⟨iff_of_true exact ?_, fun _ => ⟨reserved, refused⟩⟩
      rintro other same ok
      cases same
      rw [notOk] at ok
      cases ok
  | accepted order ok swept =>
      have roomIff := housed.accepted_exact_iff pledgedFits ok swept allowed (fresh order rfl)
      refine ⟨roomIff.trans ⟨?_, fun room => room order rfl ok⟩, fun room =>
        ⟨_, housed.accepted pledgedFits ok swept allowed (fresh order rfl) (room order rfl ok)⟩⟩
      rintro room other same -
      cases same
      exact room
  | unknown orderId notFound =>
      refine ⟨iff_of_true (housed.exact_of_ledger whole trivial housed.depths hasUsers ?_) ?_,
        fun _ => ⟨reserved, housed⟩⟩
      · rw [userCalls, OrderBook.findOrder, notFound]
        trivial
      · intro order isOrder
        cases isOrder
  | withdrawn node queued =>
      refine ⟨iff_of_true (housed.withdrawn_exact pledgedFits queued) ?_,
        fun _ => housed.withdrawn pledgedFits queued⟩
      intro order isOrder
      cases isOrder

end Answers

/-! ## Runs -/

section Runs

variable {host : Host} {start engine : MatchingEngine} {log : Log}

/-- The ids that were given out, and those that the book knows. -/
structure IdsDrawn (start : MatchingEngine) (log : Log) (engine : MatchingEngine) : Prop where
  nodup : log.allotted.Nodup
  below : ∀ orderId ∈ log.allotted, orderId < engine.nextId
  above : ∀ orderId ∈ log.allotted, start.nextId ≤ orderId
  advances : start.nextId ≤ engine.nextId
  known : ∀ orderId, (engine.book.index.find? orderId).isSome →
    orderId < start.nextId ∨ orderId ∈ log.submittedIds

theorem IdsDrawn.fresh (drawn : IdsDrawn start log engine) {orderId : Int}
    (unspent : orderId ∈ log.unspent) : engine.book.index.find? orderId = none := by
  obtain ⟨given, notSpent⟩ := (drawn.nodup.mem_sdiff_iff).mp unspent
  have above := drawn.above orderId given
  refine Option.not_isSome_iff_eq_none.mp fun found => ?_
  rcases drawn.known orderId found with old | spent
  · omega
  · exact notSpent spent

theorem IdsDrawn.step {next : MatchingEngine} {call : Call} {reply : Reply}
    (drawn : IdsDrawn start log engine)
    (answered : Answered host engine call reply next)
    (legal : call.Legal) : IdsDrawn start (log ++ [⟨engine, call, reply, next⟩]) next := by
  obtain ⟨nodup, below⟩ := answered.allotted_nodup drawn.nodup drawn.below
  have counter := answered.nextId
  have advances := drawn.advances
  refine ⟨nodup, below, ?_, ?_, ?_⟩
  · rw [Log.allotted_append]
    refine List.forall_mem_append.mpr ⟨drawn.above, ?_⟩
    intro orderId isLast
    cases answered <;> simp [Entry.allotted] at isLast
    omega
  · rw [counter]
    split <;> omega
  · intro orderId found
    rw [Log.submittedIds_append]
    rcases answered.known found with old | ⟨order, rfl | rfl, rfl⟩
    · exact (drawn.known orderId old).imp_right (List.mem_append_left _)
    · exact Or.inr (List.mem_append_right _ (by simp [Call.submitted]))
    · exact legal.elim

theorem idsDrawn_of_houseRun (starts : start.HouseStart) (run : HouseRun host start log engine) :
    IdsDrawn start log engine := by
  have initial : IdsDrawn start [] start :=
    ⟨.nil, by simp [Log.allotted], by simp [Log.allotted], Int.le_refl _,
      fun orderId found => Or.inl (starts.known orderId found)⟩
  refine run.invariant (fun (log : Log) engine => IdsDrawn start log engine) initial ?_
  intro log engine call reply next past soFar allowed answer
  have sound := sound_of_anySession starts.orderly.sound
    (past.mono fun _ _ _ => trivial)
  exact soFar.step (answered_of_exec sound answer) allowed.legal

/--
Along every run of orders without a user and of cancels, each value is exact if
and only if each order that preflight lets through finds room: no fill of a buy
is worth more than a `long long` holds, and none of a sell more than what the
balance leaves; the rest fits the depth of its side, and that of a buy, at its
price, fits what is reserved already.
-/
theorem aggregates_exact_iff {now : Nat → Int} (starts : start.HouseStart)
    (run : HouseRun (Host.twosComplement now) start log engine) :
    (∀ entry ∈ log, Entry.Exact (Host.twosComplement now) entry) ↔
      ∀ entry ∈ log, Entry.Room (Host.twosComplement now) entry := by
  have kept : ((∀ entry ∈ log, Entry.Exact (Host.twosComplement now) entry) ↔
        ∀ entry ∈ log, Entry.Room (Host.twosComplement now) entry) ∧
      ((∀ entry ∈ log, Entry.Room (Host.twosComplement now) entry) →
        ∃ reserved, Housed (Host.twosComplement now) start.book.bidWorth reserved engine) := by
    induction run with
    | nil => exact ⟨by simp, fun _ => ⟨0, starts.housed⟩⟩
    | @snoc log engine next call reply past allowed answer ih =>
        obtain ⟨exactIff, housed⟩ := ih
        have drawn := idsDrawn_of_houseRun starts past
        simp only [List.forall_mem_append, List.forall_mem_singleton]
        have step : (∀ entry ∈ log, Entry.Room (Host.twosComplement now) entry) →
            (Entry.Exact (Host.twosComplement now) ⟨engine, call, reply, next⟩ ↔
              Entry.Room (Host.twosComplement now) ⟨engine, call, reply, next⟩) ∧
            (Entry.Room (Host.twosComplement now) ⟨engine, call, reply, next⟩ →
              ∃ left, Housed (Host.twosComplement now) start.book.bidWorth left next) := by
          intro rooms
          obtain ⟨reserved, housed⟩ := housed rooms
          have answered := answered_of_exec housed.orderly.sound answer
          exact housed.step starts.worth answered allowed (by
            rintro order rfl
            exact drawn.fresh allowed.1)
        constructor
        · rw [exactIff]
          exact and_congr_right fun rooms => (step rooms).1
        · rintro ⟨rooms, room⟩
          exact (step rooms).2 room
  exact kept.1

end Runs

/-- Two orders that trade, and what is left of one of them is cancelled. -/
theorem aggregates_exact_sample :
    (∃ log engine, HouseRun (Host.twosComplement (·)) { userManager := some {} } log engine ∧
      log.length = 5 ∧ ∀ entry ∈ log, Entry.Exact (Host.twosComplement (·)) entry) ∧
    ∀ draws, ∃ seeded, seedBook {} 100 2 20 2000 draws = .ok seeded ∧ ∀ log engine,
      HouseRun (Host.twosComplement (·))
          { book := seeded.book.setOnChange, userManager := some {} } log engine →
        ((∀ entry ∈ log, Entry.Exact (Host.twosComplement (·)) entry) ↔
          ∀ entry ∈ log, Entry.Room (Host.twosComplement (·)) entry) := by
  have run := Run.of_isSome (exec (Host.twosComplement (·))) WithoutUser
    { userManager := some {} }
    [.nextOrderId, .nextOrderId, .processOrder ⟨1000, 0, .sell, 100, 5, .limit⟩,
      .processOrder ⟨1001, 0, .buy, 101, 3, .limit⟩, .cancelOrder 1000] (by decide)
  refine ⟨⟨_, _, run, by decide,
    (aggregates_exact_iff houseStart_empty run).mpr (by decide)⟩, fun draws => ?_⟩
  obtain ⟨seeded, seeds, starts⟩ := houseStart_of_serverSeed draws
  exact ⟨seeded, seeds, fun log engine run => aggregates_exact_iff starts run⟩

/-- A bid for as many shares as there can be, at two: what it reserves is computed as -2. -/
theorem reservation_wraps :
    ∃ log engine, HouseRun (Host.twosComplement (·)) { userManager := some {} } log engine ∧
      (∃ entry ∈ log, ¬ Entry.Exact (Host.twosComplement (·)) entry) ∧
      engine.book.bidWorth = 2 ^ 64 - 2 ∧ engine.house.reservedBalance = -2 := by
  have run := Run.of_isSome (exec (Host.twosComplement (·))) WithoutUser
    { userManager := some {} }
    [.nextOrderId, .processOrder ⟨1000, 0, .buy, 2, longLongMax, .limit⟩] (by decide)
  refine ⟨_, _, run, ⟨_, List.getLast_mem (by decide), fun exact => ?_⟩, by decide, by decide⟩
  exact absurd (exact.ledger _ rfl) (by decide)

end OrderBookSimulator
