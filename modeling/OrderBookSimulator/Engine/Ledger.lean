import OrderBookSimulator.Engine.Callbacks
import OrderBookSimulator.Engine.Depth
import OrderBookSimulator.Engine.Walk

/-!
# The arithmetic of the ledger

Which values the callbacks compute for balances and reservations, and when 64
bits can hold them all.  An order without a user belongs to user 0, and so do
the orders it meets: each fill takes a value from one balance and returns it.
-/

namespace OrderBookSimulator

open Library

theorem Host.fitsLongLong_iff (now : Nat → Int) (value : Int) :
    (Host.twosComplement now).longLong value = value ↔ FitsLongLong value := by
  refine ⟨fun exact => ?_, bmod_of_fits⟩
  have above := Int.le_bmod (x := value) (m := 2 ^ 64) (by decide)
  have below := Int.bmod_lt (x := value) (m := 2 ^ 64) (by decide)
  have same : value.bmod (2 ^ 64) = value := exact
  unfold FitsLongLong longLongMax
  omega

namespace UserManager

/-- What a callback computes for balances and reserved balances, before it is stored. -/
def computed (host : Host) (users : UserManager) : UserCall → List Int
  | .onFill makerOrderId takerOrderId price qty takerSide =>
      let makerUser := users.getUserForOrder makerOrderId
      let takerUser := users.getUserForOrder takerOrderId
      let value := host.longLong (price * qty)
      match takerSide with
      | .buy =>
          let paid := users.updatePosition takerUser (Position.bought host qty value)
          [price * qty, (users.getPosition takerUser).balance - value,
            (paid.getPosition makerUser).balance + value]
      | .sell =>
          let received := users.updatePosition takerUser (Position.sold host qty value)
          [price * qty, (users.getPosition takerUser).balance + value,
            (received.getPosition makerUser).balance - value,
            (received.getPosition makerUser).reservedBalance - value]
  | .onOrderResting orderId side price qty =>
      match users.orderToUser.find? orderId, side with
      | some userId, .buy =>
          [price * qty,
            (users.getPosition userId).reservedBalance + host.longLong (price * qty)]
      | _, _ => []
  | .onCancel orderId side price remainingQty =>
      match users.orderToUser.find? orderId, side with
      | some userId, .buy =>
          [price * remainingQty,
            (users.getPosition userId).reservedBalance - host.longLong (price * remainingQty)]
      | _, _ => []

/-- Each value that the callbacks compute is stored as it is. -/
def LedgerExact (host : Host) : UserManager → List UserCall → Prop
  | _, [] => True
  | users, call :: rest =>
      (∀ value ∈ users.computed host call, host.longLong value = value) ∧
        LedgerExact host (users.apply host call) rest

instance decidableLedgerExact (host : Host) : (users : UserManager) → (calls : List UserCall) →
    Decidable (LedgerExact host users calls)
  | _, [] => instDecidableTrue
  | users, call :: rest =>
      have := decidableLedgerExact host (users.apply host call) rest
      inferInstanceAs (Decidable (_ ∧ _))

theorem ledgerExact_append {host : Host} {users : UserManager} {calls more : List UserCall} :
    LedgerExact host users (calls ++ more) ↔ LedgerExact host users calls ∧
      LedgerExact host (calls.foldl (UserManager.apply host) users) more := by
  induction calls generalizing users with
  | nil => simp [LedgerExact]
  | cons call rest ih => simp only [List.cons_append, LedgerExact, ih, List.foldl_cons, and_assoc]

theorem orderToUser_foldl_apply (host : Host) (users : UserManager) (calls : List UserCall) :
    (calls.foldl (UserManager.apply host) users).orderToUser = users.orderToUser := by
  induction calls generalizing users with
  | nil => rfl
  | cons call rest ih => rw [List.foldl_cons, ih, orderToUser_apply]

/-- Whatever is called afterwards, a registered order has its owner. -/
theorem isSome_owner_foldl_apply (host : Host) (users : UserManager) (orderId userId : Int)
    (calls : List UserCall) :
    (((calls.foldl (UserManager.apply host) (users.registerOrder orderId userId)).orderToUser).find?
      orderId).isSome := by
  rw [orderToUser_foldl_apply, registerOrder, SortedMap.find?_insert, if_pos rfl]
  rfl

/-! ## Orders without a user -/

/-- Every order belongs to user 0, who has this balance, so much of it reserved. -/
structure House (users : UserManager) (balance reserved : Int) : Prop where
  owner : ∀ orderId user, users.orderToUser.find? orderId = some user → user = 0
  balance : (users.getPosition 0).balance = balance
  reserved : (users.getPosition 0).reservedBalance = reserved

section Fill

variable {now : Nat → Int} {users : UserManager} {balance reserved : Int}

theorem House.getUserForOrder (house : users.House balance reserved) (orderId : Int) :
    users.getUserForOrder orderId = 0 := by
  unfold UserManager.getUserForOrder SortedMap.findD
  cases found : users.orderToUser.find? orderId with
  | none => rfl
  | some user => exact house.owner orderId user found

/-- An update of user 0's position is seen in the balance and in what is reserved. -/
theorem House.updatePosition (house : users.House balance reserved) {update : Position → Position}
    {balance' reserved' : Int}
    (updates : ∀ pos : Position, pos.balance = balance → pos.reservedBalance = reserved →
      (update pos).balance = balance' ∧ (update pos).reservedBalance = reserved') :
    (users.updatePosition 0 update).House balance' reserved' := by
  obtain ⟨sameBalance, sameReserved⟩ := updates _ house.balance house.reserved
  refine ⟨fun orderId user found => house.owner orderId user (by simpa using found), ?_, ?_⟩
  · rw [getPosition_updatePosition, if_pos rfl, sameBalance]
  · rw [getPosition_updatePosition, if_pos rfl, sameReserved]

theorem House.registerOrder (house : users.House balance reserved) (orderId : Int) :
    (users.registerOrder orderId 0).House balance reserved where
  owner other user found := by
    unfold UserManager.registerOrder at found
    rw [SortedMap.find?_insert] at found
    split at found
    · exact (Option.some.inj found).symm
    · exact house.owner other user found
  balance := house.balance
  reserved := house.reserved

/-- The balance of the taker between its own update and that of the maker. -/
def between (balance value : Int) : Side → Int
  | .buy => balance - value
  | .sell => balance + value

/-- What a fill releases of the maker's reserved balance. -/
def released (value : Int) : Side → Int
  | .buy => 0
  | .sell => value

theorem House.computed_fill_iff (house : users.House balance reserved)
    (balanceFits : FitsLongLong balance) (reservedFits : FitsLongLong reserved)
    (makerId takerId price qty : Int) (side : Side) :
    (∀ value ∈ users.computed (Host.twosComplement now) (.onFill makerId takerId price qty side),
        (Host.twosComplement now).longLong value = value) ↔
      FitsLongLong (price * qty) ∧ FitsLongLong (between balance (price * qty) side) ∧
        FitsLongLong (reserved - released (price * qty) side) := by
  have stored : FitsLongLong (price * qty) →
      (Host.twosComplement now).longLong (price * qty) = price * qty := bmod_of_fits
  cases side with
  | buy =>
      simp only [computed, house.getUserForOrder, getPosition_updatePosition, if_true,
        Position.bought, house.balance, List.forall_mem_cons, List.not_mem_nil, false_implies,
        implies_true, and_true, Host.fitsLongLong_iff, between, released, Int.sub_zero]
      refine and_congr_right fun valueFits => ?_
      rw [stored valueFits]
      refine ⟨fun ⟨paid, _⟩ => ⟨paid, reservedFits⟩, fun ⟨paid, _⟩ => ⟨paid, ?_⟩⟩
      rw [(Host.fitsLongLong_iff now _).mpr paid, Int.sub_add_cancel]
      exact balanceFits
  | sell =>
      simp only [computed, house.getUserForOrder, getPosition_updatePosition, if_true,
        Position.sold, house.balance, house.reserved, List.forall_mem_cons, List.not_mem_nil,
        false_implies, implies_true, and_true, Host.fitsLongLong_iff, between, released]
      refine and_congr_right fun valueFits => ?_
      rw [stored valueFits]
      refine and_congr_right fun received => ?_
      rw [(Host.fitsLongLong_iff now _).mpr received, Int.add_sub_cancel]
      exact and_iff_right balanceFits

variable (now) in
/-- A fill between two orders of user 0 moves no balance, if its values are exact. -/
theorem House.after_fill (house : users.House balance reserved) {price qty : Int} {side : Side}
    (balanceFits : FitsLongLong balance) (valueFits : FitsLongLong (price * qty))
    (betweenFits : FitsLongLong (between balance (price * qty) side))
    (reservedFits : FitsLongLong (reserved - released (price * qty) side)) (makerId takerId : Int) :
    (users.apply (Host.twosComplement now) (.onFill makerId takerId price qty side)).House balance
      (reserved - released (price * qty) side) := by
  have stored := (Host.fitsLongLong_iff now _).mpr valueFits
  have storedBetween := (Host.fitsLongLong_iff now _).mpr betweenFits
  have storedBalance := (Host.fitsLongLong_iff now _).mpr balanceFits
  have storedReserved := (Host.fitsLongLong_iff now _).mpr reservedFits
  simp only [apply, onFill, house.getUserForOrder, stored]
  cases side with
  | buy =>
      have paid : (users.updatePosition 0 (Position.bought (Host.twosComplement now) qty
          (price * qty))).House (balance - price * qty) reserved := by
        refine house.updatePosition fun pos hasBalance hasReserved => ⟨?_, hasReserved⟩
        rw [Position.bought, hasBalance]
        exact storedBetween
      refine paid.updatePosition fun pos hasBalance hasReserved => ⟨?_, ?_⟩
      · rw [Position.releaseShares, Position.sold, hasBalance, Int.sub_add_cancel]
        exact storedBalance
      · rw [Position.releaseShares, Position.sold, hasReserved, released, Int.sub_zero]
  | sell =>
      have received : (users.updatePosition 0 (Position.sold (Host.twosComplement now) qty
          (price * qty))).House (balance + price * qty) reserved := by
        refine house.updatePosition fun pos hasBalance hasReserved => ⟨?_, hasReserved⟩
        rw [Position.sold, hasBalance]
        exact storedBetween
      refine received.updatePosition fun pos hasBalance hasReserved => ⟨?_, ?_⟩
      · rw [Position.releaseBalance, Position.bought, hasBalance, Int.add_sub_cancel]
        exact storedBalance
      · rw [Position.releaseBalance, Position.bought, hasReserved]
        exact storedReserved

end Fill

/-! ## The fills of one order -/

section Fills

variable {now : Nat → Int} {users : UserManager} {balance reserved : Int}

/-- The price of the maker times what is taken from it. -/
def takenValue (taken : Order × Int) : Int := taken.1.price * taken.2

def takenCall (takerId : Int) (side : Side) (taken : Order × Int) : UserCall :=
  .onFill taken.1.id takerId taken.1.price taken.2 side

/-- What the fills of one order release of the reserved balance. -/
def releasedBy (side : Side) (fills : List (Order × Int)) : Int :=
  (fills.map fun taken => released (takenValue taken) side).sum

theorem released_nonneg {value : Int} (nonneg : 0 ≤ value) (side : Side) :
    0 ≤ released value side := by
  cases side
  · exact Int.le_refl 0
  · exact nonneg

theorem releasedBy_cons (side : Side) (taken : Order × Int) (fills : List (Order × Int)) :
    releasedBy side (taken :: fills) = released (takenValue taken) side + releasedBy side fills :=
  rfl

/-- The fills of a buy order release no balance. -/
theorem releasedBy_buy (fills : List (Order × Int)) : releasedBy .buy fills = 0 := by
  induction fills with
  | nil => rfl
  | cons taken rest ih =>
      rw [releasedBy_cons, ih]
      rfl

theorem releasedBy_nonneg (side : Side) {fills : List (Order × Int)}
    (nonneg : ∀ taken ∈ fills, 0 ≤ takenValue taken) : 0 ≤ releasedBy side fills := by
  refine List.sum_nonneg fun value member => ?_
  obtain ⟨taken, inFills, rfl⟩ := List.mem_map.mp member
  exact released_nonneg (nonneg taken inFills) side

/-- When the fills of one order are exact: reservations only shrink, so their last value counts. -/
theorem House.fills_iff (house : users.House balance reserved)
    (balanceFits : FitsLongLong balance) (reservedFits : FitsLongLong reserved) (takerId : Int)
    (side : Side) {fills : List (Order × Int)} (nonneg : ∀ taken ∈ fills, 0 ≤ takenValue taken) :
    LedgerExact (Host.twosComplement now) users (fills.map (takenCall takerId side)) ↔
      (∀ taken ∈ fills, FitsLongLong (takenValue taken) ∧
        FitsLongLong (between balance (takenValue taken) side)) ∧
        FitsLongLong (reserved - releasedBy side fills) := by
  induction fills generalizing users reserved with
  | nil => simpa [LedgerExact, releasedBy] using reservedFits
  | cons taken rest ih =>
      have here := nonneg taken (.head _)
      have later : ∀ other ∈ rest, 0 ≤ takenValue other :=
        fun other member => nonneg other (.tail _ member)
      have releasedHere := released_nonneg here side
      have releasedLater := releasedBy_nonneg side later
      rw [List.map_cons, LedgerExact, takenCall,
        house.computed_fill_iff balanceFits reservedFits, List.forall_mem_cons, releasedBy_cons]
      constructor
      · rintro ⟨⟨valueFits, betweenFits, leaves⟩, exact⟩
        have after := house.after_fill now balanceFits valueFits betweenFits leaves
          taken.1.id takerId
        obtain ⟨each, last⟩ := (ih after leaves later).mp exact
        refine ⟨⟨⟨valueFits, betweenFits⟩, each⟩, ?_⟩
        rw [← Int.sub_sub]
        exact last
      · rintro ⟨⟨⟨valueFits, betweenFits⟩, each⟩, last⟩
        have leaves : FitsLongLong (reserved - released (takenValue taken) side) := by
          unfold FitsLongLong at *
          omega
        refine ⟨⟨valueFits, betweenFits, leaves⟩, ?_⟩
        have after := house.after_fill now balanceFits valueFits betweenFits leaves
          taken.1.id takerId
        refine (ih after leaves later).mpr ⟨each, ?_⟩
        rw [← Int.sub_sub] at last
        exact last

variable (now) in
/-- What exact fills leave behind. -/
theorem House.after_fills (house : users.House balance reserved)
    (balanceFits : FitsLongLong balance) (reservedFits : FitsLongLong reserved) (takerId : Int)
    (side : Side) {fills : List (Order × Int)}
    (exact : LedgerExact (Host.twosComplement now) users (fills.map (takenCall takerId side))) :
    ((fills.map (takenCall takerId side)).foldl (UserManager.apply (Host.twosComplement now))
      users).House balance (reserved - releasedBy side fills) := by
  induction fills generalizing users reserved with
  | nil => simpa [releasedBy] using house
  | cons taken rest ih =>
      rw [List.map_cons, LedgerExact, takenCall,
        house.computed_fill_iff balanceFits reservedFits] at exact
      obtain ⟨⟨valueFits, betweenFits, leaves⟩, exact⟩ := exact
      have after := house.after_fill now balanceFits valueFits betweenFits leaves
        taken.1.id takerId
      rw [List.map_cons, List.foldl_cons, releasedBy_cons, ← Int.sub_sub]
      exact ih after leaves exact

end Fills

/-! ## Resting and cancelling -/

section Reserve

variable {now : Nat → Int} {users : UserManager} {balance reserved : Int}

/-- What an order of this side has reserved; nothing where nobody registered it. -/
def reservedFor (users : UserManager) (orderId : Int) (side : Side) (price qty : Int) : Int :=
  match users.orderToUser.find? orderId, side with
  | some _, .buy => price * qty
  | _, _ => 0

theorem reservedFor_cases (users : UserManager) (orderId : Int) (side : Side) (price qty : Int) :
    users.reservedFor orderId side price qty = 0 ∨
      side = .buy ∧ users.reservedFor orderId side price qty = price * qty := by
  unfold reservedFor
  split
  · exact Or.inr ⟨rfl, rfl⟩
  · exact Or.inl rfl

theorem reservedFor_of_registered {orderId : Int}
    (registered : (users.orderToUser.find? orderId).isSome) (side : Side) (price qty : Int) :
    users.reservedFor orderId side price qty = if side = .buy then price * qty else 0 := by
  obtain ⟨user, found⟩ := Option.isSome_iff_exists.mp registered
  cases side <;> simp [reservedFor, found]

/-- When a callback that changes what is reserved by what an order has reserved is exact. -/
theorem House.reserving_iff (house : users.House balance reserved)
    (reservedFits : FitsLongLong reserved) {call : UserCall} {orderId : Int} {side : Side}
    {price qty : Int} (change : Int → Int → Int) (neutral : change reserved 0 = reserved)
    (computes : users.computed (Host.twosComplement now) call =
      match users.orderToUser.find? orderId, side with
      | some userId, .buy => [price * qty, change (users.getPosition userId).reservedBalance
          ((Host.twosComplement now).longLong (price * qty))]
      | _, _ => []) :
    LedgerExact (Host.twosComplement now) users [call] ↔
      FitsLongLong (users.reservedFor orderId side price qty) ∧
        FitsLongLong (change reserved (users.reservedFor orderId side price qty)) := by
  have nothing : FitsLongLong 0 ∧ FitsLongLong (change reserved 0) :=
    ⟨by decide, by rw [neutral]; exact reservedFits⟩
  unfold LedgerExact LedgerExact reservedFor
  rw [computes]
  cases found : users.orderToUser.find? orderId with
  | none => simpa using nothing
  | some user =>
      obtain rfl := house.owner orderId user found
      cases side with
      | buy =>
          simp only [house.reserved, List.forall_mem_cons, List.not_mem_nil, false_implies,
            implies_true, and_true, Host.fitsLongLong_iff]
          refine and_congr_right fun valueFits => ?_
          rw [(Host.fitsLongLong_iff now _).mpr valueFits]
      | sell => simpa using nothing

theorem House.resting_iff (house : users.House balance reserved)
    (reservedFits : FitsLongLong reserved) (orderId : Int) (side : Side) (price qty : Int) :
    LedgerExact (Host.twosComplement now) users [.onOrderResting orderId side price qty] ↔
      FitsLongLong (users.reservedFor orderId side price qty) ∧
        FitsLongLong (reserved + users.reservedFor orderId side price qty) :=
  house.reserving_iff reservedFits (· + ·) (Int.add_zero reserved) rfl

theorem House.cancel_iff (house : users.House balance reserved)
    (reservedFits : FitsLongLong reserved) (orderId : Int) (side : Side) (price qty : Int) :
    LedgerExact (Host.twosComplement now) users [.onCancel orderId side price qty] ↔
      FitsLongLong (users.reservedFor orderId side price qty) ∧
        FitsLongLong (reserved - users.reservedFor orderId side price qty) :=
  house.reserving_iff reservedFits (· - ·) (Int.sub_zero reserved) rfl

variable (now) in
theorem House.after_resting (house : users.House balance reserved) {orderId : Int} {side : Side}
    {price qty : Int}
    (valueFits : FitsLongLong (users.reservedFor orderId side price qty))
    (sumFits : FitsLongLong (reserved + users.reservedFor orderId side price qty)) :
    (users.apply (Host.twosComplement now) (.onOrderResting orderId side price qty)).House balance
      (reserved + users.reservedFor orderId side price qty) := by
  have stored := (Host.fitsLongLong_iff now _).mpr valueFits
  have storedSum := (Host.fitsLongLong_iff now _).mpr sumFits
  unfold reservedFor at stored storedSum ⊢
  cases found : users.orderToUser.find? orderId with
  | none => simpa [apply, onOrderResting, found] using house
  | some user =>
      obtain rfl := house.owner orderId user found
      cases side with
      | buy =>
          simp only [found] at stored storedSum
          simp only [apply, onOrderResting, found, stored]
          refine house.updatePosition fun pos hasBalance hasReserved => ⟨hasBalance, ?_⟩
          rw [Position.reserveBalance, hasReserved]
          exact storedSum
      | sell =>
          simp only [apply, onOrderResting, found, Int.add_zero]
          exact house.updatePosition fun pos hasBalance hasReserved => ⟨hasBalance, hasReserved⟩

variable (now) in
theorem House.after_cancel (house : users.House balance reserved) {orderId : Int} {side : Side}
    {price qty : Int}
    (valueFits : FitsLongLong (users.reservedFor orderId side price qty))
    (restFits : FitsLongLong (reserved - users.reservedFor orderId side price qty)) :
    (users.apply (Host.twosComplement now) (.onCancel orderId side price qty)).House balance
      (reserved - users.reservedFor orderId side price qty) := by
  have stored := (Host.fitsLongLong_iff now _).mpr valueFits
  have storedRest := (Host.fitsLongLong_iff now _).mpr restFits
  unfold reservedFor at stored storedRest ⊢
  cases found : users.orderToUser.find? orderId with
  | none => simpa [apply, onCancel, found] using house
  | some user =>
      obtain rfl := house.owner orderId user found
      cases side with
      | buy =>
          simp only [found] at stored storedRest
          simp only [apply, onCancel, found, stored]
          refine house.updatePosition fun pos hasBalance hasReserved => ⟨hasBalance, ?_⟩
          rw [Position.releaseBalance, hasReserved]
          exact storedRest
      | sell =>
          simp only [apply, onCancel, found, Int.sub_zero]
          exact house.updatePosition fun pos hasBalance hasReserved => ⟨hasBalance, hasReserved⟩

end Reserve

end UserManager

/-! ## What the bids are worth -/

namespace OrderBook

variable {book : OrderBook}

/-- What the resting bids cost at their own prices. -/
def bidWorth (book : OrderBook) : Int :=
  tally (fun order : Order => order.side = .buy) (fun order => order.price * order.qty) book.resting

theorem bidWorth_notifyChange (book : OrderBook) : book.notifyChange.bidWorth = book.bidWorth := rfl

section Priced

variable (sound : book.Sound) (priced : ∀ order ∈ book.resting, 0 < order.price)

include sound priced

theorem worth_nonneg {order : Order} (member : order ∈ book.resting) :
    0 ≤ order.price * order.qty :=
  Int.mul_nonneg (Int.le_of_lt (priced order member)) (Int.le_of_lt (sound.qty_pos member))

theorem bidWorth_nonneg : 0 ≤ book.bidWorth :=
  tally_nonneg fun _ member _ => worth_nonneg sound priced member

theorem worth_le_bidWorth {order : Order} (member : order ∈ book.resting)
    (bids : order.side = .buy) : order.price * order.qty ≤ book.bidWorth := by
  unfold bidWorth
  exact le_tally (fun _ inBook _ => worth_nonneg sound priced inBook) member bids

end Priced

/-- Bids at bounded prices are worth at most the bound times their depth. -/
theorem Sound.bidWorth_le (sound : book.Sound) {most : Int}
    (priced : ∀ order ∈ book.resting, order.price ≤ most) :
    book.bidWorth ≤ most * book.depth .buy := by
  rw [sound.depth_eq_tally]
  exact tally_le_mul fun order member _ =>
    Int.mul_le_mul_of_nonneg_right (priced order member) (Int.le_of_lt (sound.qty_pos member))

theorem Sound.bidWorth_withdrawn (sound : book.Sound) {node : Node} (queued : node ∈ book.nodes) :
    book.bidWorth = (if node.order.side = .buy then node.order.price * node.order.qty else 0) +
      (book.withdrawn node.order).bidWorth := by
  rw [bidWorth, tally_perm (sound.resting_withdrawn queued), tally_cons]
  rfl

/-- The depth of a side without one of the orders. -/
theorem Sound.depth_withdrawn (sound : book.Sound) {node : Node} (queued : node ∈ book.nodes)
    (side : Side) : book.depth side = (if node.order.side = side then node.order.qty else 0) +
      (book.withdrawn node.order).depth side := by
  rw [sound.depth_eq_tally, (sound.withdrawn queued).depth_eq_tally,
    tally_perm (sound.resting_withdrawn queued), tally_cons]

/-- What an order leaves resting, if it is accepted. -/
def leavesResting (book : OrderBook) (order : Order) : Int :=
  if order.type = .limit then order.qty - min order.qty ((book.opposing order).map (·.qty)).sum
  else 0

theorem leavesResting_nonneg (book : OrderBook) (order : Order) :
    0 ≤ book.leavesResting order := by
  unfold leavesResting
  split <;> omega

theorem leavesResting_of_not_pos {order : Order} (none : ¬ 0 < book.leavesResting order) :
    book.leavesResting order = 0 :=
  Int.le_antisymm (Int.not_lt.mp none) (book.leavesResting_nonneg order)

end OrderBook

namespace MatchingEngine

open UserManager

section Fill

variable {host : Host} {takerSide : Side} {batchId : Int} {sweep next : Sweep}

/-- A fill of a sell order takes its value out of the bids. -/
theorem bidWorth_fillStep (sound : sweep.engine.book.Sound)
    (moves : fillStep host takerSide batchId sweep = some next) :
    next.engine.book.bidWorth +
        (next.trades.map fun trade => released (trade.price * trade.qty) takerSide).sum =
      sweep.engine.book.bidWorth +
        (sweep.trades.map fun trade => released (trade.price * trade.qty) takerSide).sum := by
  obtain ⟨price, maker, rest, fillable, rfl⟩ := fillStep_cases moves
  obtain ⟨others, was, becomes⟩ := resting_afterFill host batchId fillable
  rw [OrderBook.bidWorth, OrderBook.bidWorth, tally_perm was, tally_perm becomes, tally_cons,
    tally_append, tally_leftOver (fun _ => .rfl) (Int.mul_zero _), fillable.maker_side sound,
    fillable.maker_price sound, trades_afterFill, List.map_append, List.sum_append]
  cases takerSide with
  | buy => simp [Side.opposite, released]
  | sell =>
      simp only [Side.opposite, released, if_true, List.map_cons, List.map_nil, List.sum_cons,
        List.sum_nil, fillTrade, Int.mul_sub]
      omega

end Fill

section Order

variable (host : Host) {engine : MatchingEngine} {order : Order}

/-- What is left of a limit order after a sweep. -/
theorem leavesResting_eq (sound : engine.book.Sound) (nonneg : 0 ≤ order.qty) :
    engine.book.leavesResting order =
      if order.type = .limit then (engine.callSweep host order).taker.qty else 0 := by
  rw [left_callSweep host sound nonneg]
  rfl

/-- A sweep takes out of the bids what its fills release. -/
theorem bidWorth_callSweep (sound : engine.book.Sound) (nonneg : 0 ≤ order.qty) :
    (engine.callSweep host order).engine.book.bidWorth +
        releasedBy order.side (takes order.qty (engine.book.opposing order)) =
      engine.book.bidWorth := by
  have settled := ((callSweep_settles host engine order).invariant
    (fun sweep => sweep.engine.book.Sound ∧ sweep.engine.book.bidWorth +
      (sweep.trades.map fun trade => released (trade.price * trade.qty) order.side).sum =
        engine.book.bidWorth) ?_ ⟨by simpa [startSweep] using sound, by simp [startSweep]⟩).2
  · rw [trades_callSweep host sound nonneg, List.map_map] at settled
    exact settled
  · rintro sweep next ⟨soundThen, soFar⟩ moves
    refine ⟨?_, (bidWorth_fillStep soundThen moves).trans soFar⟩
    obtain ⟨price, maker, rest, fillable, rfl⟩ := fillStep_cases moves
    exact sound_afterFill soundThen fillable

/-- A tally over what an accepted order leaves resting. -/
theorem tally_remainder (sound : engine.book.Sound) (nonneg : 0 ≤ order.qty)
    {select : Order → Prop} [DecidablePred select] {weight : Order → Int}
    (blind : ∀ left, select { order with qty := left } ↔ select order)
    (zero : weight { order with qty := 0 } = 0) :
    tally select weight (remainder (engine.callSweep host order)) =
      if select order then weight { order with qty := engine.book.leavesResting order } else 0 := by
  have swept := swept_callSweep host sound nonneg
  have leaves := leavesResting_eq host sound nonneg
  have left := swept.left_nonneg
  have type : (engine.callSweep host order).taker.type = order.type := by rw [swept.taker]
  unfold remainder
  rw [type]
  by_cases limit : order.type = .limit
  · rw [if_pos limit] at leaves
    by_cases rests : 0 < (engine.callSweep host order).taker.qty
    · rw [if_pos ⟨limit, rests⟩, tally_cons, tally_nil, add_zero, leaves, swept.taker]
      simp only [blind]
    · have none : engine.book.leavesResting order = 0 := by omega
      rw [if_neg fun both => rests both.2, tally_nil, none, zero, ite_self]
  · rw [if_neg limit] at leaves
    rw [if_neg fun both => limit both.1, tally_nil, leaves, zero, ite_self]

section Fresh

variable (sound : engine.book.Sound) (ok : (engine.preflightCheck host order).isOk = true)
  (fresh : engine.book.index.find? order.id = none) (batchId : Int)

include sound ok fresh

/-- An accepted order makes its own side deeper by what it leaves resting. -/
theorem depth_concluded_own :
    (concluded host order batchId (engine.callSweep host order)).book.depth order.side =
      engine.book.depth order.side + engine.book.leavesResting order := by
  have nonneg := Int.le_of_lt (passed_of_isOk ok).qty_pos
  have swept := swept_callSweep host sound nonneg
  have after : (concluded host order batchId (engine.callSweep host order)).book.Sound := by
    rw [book_concluded, book_restRemainder]
    split
    · exact (sound_announcedBook swept.sound).afterAdd _
    · exact sound_announcedBook swept.sound
  rw [after.depth_eq_tally, tally_perm (swept.resting_concluded host fresh batchId), tally_append,
    ← swept.sound.depth_eq_tally, depth_callSweep_own host engine order,
    tally_remainder host sound nonneg (fun _ => .rfl) rfl, if_pos rfl, Int.add_comm]

/-- The worth of the bids after an accepted order. -/
theorem bidWorth_concluded :
    (concluded host order batchId (engine.callSweep host order)).book.bidWorth =
      (engine.callSweep host order).engine.book.bidWorth +
        if order.side = .buy then order.price * engine.book.leavesResting order else 0 := by
  have nonneg := Int.le_of_lt (passed_of_isOk ok).qty_pos
  have swept := swept_callSweep host sound nonneg
  rw [OrderBook.bidWorth, tally_perm (swept.resting_concluded host fresh batchId), tally_append,
    tally_remainder host sound nonneg (fun _ => .rfl) (Int.mul_zero _), Int.add_comm]
  rfl

end Fresh

/-- The callbacks of an accepted order: its fills, then what it leaves resting. -/
theorem userCalls_accepted (sound : engine.book.Sound)
    (ok : (engine.preflightCheck host order).isOk = true) :
    engine.userCalls host (.processOrder order) =
      (takes order.qty (engine.book.opposing order)).map (takenCall order.id order.side) ++
        if 0 < engine.book.leavesResting order then
          [.onOrderResting order.id order.side order.price (engine.book.leavesResting order)]
        else [] := by
  have nonneg := Int.le_of_lt (passed_of_isOk ok).qty_pos
  have swept := swept_callSweep host sound nonneg
  have fills : (engine.callSweep host order).trades.map (fillCall order.side) =
      (takes order.qty (engine.book.opposing order)).map (takenCall order.id order.side) := by
    rw [trades_callSweep host sound nonneg, List.map_map]
    rfl
  rw [userCalls, if_pos ok]
  simp only
  rw [fills, leavesResting_eq host sound nonneg, swept.taker]
  by_cases limit : order.type = .limit
  · simp only [limit, true_and, if_true]
  · simp only [limit, false_and, if_false, lt_irrefl]

end Order

end MatchingEngine

end OrderBookSimulator
