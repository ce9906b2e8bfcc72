import OrderBookSimulator.User.UserManager

/-!
# What the callbacks do to positions

Over unbounded integers.  A fill moves the position of each of its two parties,
who may be one and the same user; resting and cancelling move reservations
only.  Both are stated for the position of an arbitrary user, so that no later
proof looks at who aliases whom.
-/

namespace OrderBookSimulator

open Library

/-- The buying party of a fill, the side being the taker's. -/
def buyer : Side → Int → Int → Int
  | .buy, _, takerUser => takerUser
  | .sell, makerUser, _ => makerUser

/-- The selling party of a fill, the side being the taker's. -/
def seller (takerSide : Side) (makerUser takerUser : Int) : Int :=
  buyer takerSide.opposite makerUser takerUser

/-- The amount, for the user it concerns. -/
def amountIf (user party amount : Int) : Int := if party = user then amount else 0

@[simp] theorem amountIf_self (user amount : Int) : amountIf user user amount = amount := if_pos rfl

@[simp] theorem amountIf_zero (user party : Int) : amountIf user party 0 = 0 := ite_self 0

theorem amountIf_nonneg (user party : Int) {amount : Int} (nonneg : 0 ≤ amount) :
    0 ≤ amountIf user party amount := by
  unfold amountIf
  split
  · exact nonneg
  · exact Int.le_refl 0

theorem amountIf_of_ne {user party : Int} (different : party ≠ user) (amount : Int) :
    amountIf user party amount = 0 := if_neg different

/-- The position of a user after buying, selling and releasing the given amounts. -/
structure Moved (pos pos' : Position) (boughtQty soldQty boughtValue soldValue releasedBalance
    releasedShares : Int) : Prop where
  balance : pos'.balance = pos.balance - boughtValue + soldValue
  reservedBalance : pos'.reservedBalance = pos.reservedBalance - releasedBalance
  shares : pos'.shares = pos.shares + boughtQty - soldQty
  reservedShares : pos'.reservedShares = pos.reservedShares - releasedShares
  netQty : pos'.netQty = pos.netQty + boughtQty - soldQty
  totalBuyQty : pos'.totalBuyQty = pos.totalBuyQty + boughtQty
  totalSellQty : pos'.totalSellQty = pos.totalSellQty + soldQty
  totalBuyValue : pos'.totalBuyValue = pos.totalBuyValue + boughtValue
  totalSellValue : pos'.totalSellValue = pos.totalSellValue + soldValue

namespace Moved

theorem refl (pos : Position) : Moved pos pos 0 0 0 0 0 0 := by
  constructor <;> omega

theorem trans {pos pos' pos'' : Position} {bq bq' sq sq' bv bv' sv sv' rb rb' rs rs' : Int}
    (first : Moved pos pos' bq sq bv sv rb rs) (second : Moved pos' pos'' bq' sq' bv' sv' rb' rs') :
    Moved pos pos'' (bq + bq') (sq + sq') (bv + bv') (sv + sv') (rb + rb') (rs + rs') where
  balance := by rw [second.balance, first.balance]; omega
  reservedBalance := by rw [second.reservedBalance, first.reservedBalance]; omega
  shares := by rw [second.shares, first.shares]; omega
  reservedShares := by rw [second.reservedShares, first.reservedShares]; omega
  netQty := by rw [second.netQty, first.netQty]; omega
  totalBuyQty := by rw [second.totalBuyQty, first.totalBuyQty]; omega
  totalSellQty := by rw [second.totalSellQty, first.totalSellQty]; omega
  totalBuyValue := by rw [second.totalBuyValue, first.totalBuyValue]; omega
  totalSellValue := by rw [second.totalSellValue, first.totalSellValue]; omega

variable (now : Nat → Int) (pos : Position) (qty value : Int)

theorem bought : Moved pos (pos.bought (Host.exact now) qty value) qty 0 value 0 0 0 := by
  constructor <;> simp [Position.bought]

theorem sold : Moved pos (pos.sold (Host.exact now) qty value) 0 qty 0 value 0 0 := by
  constructor <;> simp [Position.sold]

theorem releaseBalance :
    Moved pos (pos.releaseBalance (Host.exact now) value) 0 0 0 0 value 0 := by
  constructor <;> simp [Position.releaseBalance]

theorem releaseShares : Moved pos (pos.releaseShares (Host.exact now) qty) 0 0 0 0 0 qty := by
  constructor <;> simp [Position.releaseShares]

theorem reserveBalance :
    Moved pos (pos.reserveBalance (Host.exact now) value) 0 0 0 0 (-value) 0 := by
  constructor <;> simp [Position.reserveBalance]

theorem reserveShares : Moved pos (pos.reserveShares (Host.exact now) qty) 0 0 0 0 0 (-qty) := by
  constructor <;> simp [Position.reserveShares]

end Moved

namespace UserManager

section Callbacks

variable (now : Nat → Int) (users : UserManager)

/-- An update moves the one position it is for. -/
theorem moved_updatePosition (userId : Int) (update : Position → Position)
    {bq sq bv sv rb rs : Int}
    (moved : Moved (users.getPosition userId) (update (users.getPosition userId)) bq sq bv sv rb rs)
    (user : Int) :
    Moved (users.getPosition user) ((users.updatePosition userId update).getPosition user)
      (amountIf user userId bq) (amountIf user userId sq) (amountIf user userId bv)
      (amountIf user userId sv) (amountIf user userId rb) (amountIf user userId rs) := by
  rw [getPosition_updatePosition]
  by_cases same : user = userId
  · subst same
    simpa using moved
  · have other : userId ≠ user := Ne.symm same
    simpa [same, amountIf_of_ne other] using Moved.refl (users.getPosition user)

variable {users}

/-- A fill moves each party's position by its part, also where both are the same user. -/
theorem moved_onFill {makerOrderId takerOrderId maker taker : Int}
    (ownsMaker : users.getUserForOrder makerOrderId = maker)
    (ownsTaker : users.getUserForOrder takerOrderId = taker) (price qty : Int) (takerSide : Side)
    (user : Int) :
    Moved (users.getPosition user)
      ((users.onFill (Host.exact now) makerOrderId takerOrderId price qty takerSide).getPosition
        user)
      (amountIf user (buyer takerSide maker taker) qty)
      (amountIf user (seller takerSide maker taker) qty)
      (amountIf user (buyer takerSide maker taker) (price * qty))
      (amountIf user (seller takerSide maker taker) (price * qty))
      (if takerSide = .sell then amountIf user maker (price * qty) else 0)
      (if takerSide = .buy then amountIf user maker qty else 0) := by
  subst ownsMaker ownsTaker
  cases takerSide with
  | buy =>
      have first := users.moved_updatePosition (users.getUserForOrder takerOrderId) _
        (Moved.bought now _ qty (price * qty)) user
      have second := (users.updatePosition (users.getUserForOrder takerOrderId)
          (Position.bought (Host.exact now) qty (price * qty))).moved_updatePosition
        (users.getUserForOrder makerOrderId)
        (fun pos => (pos.sold (Host.exact now) qty (price * qty)).releaseShares (Host.exact now) qty)
        ((Moved.sold now _ qty (price * qty)).trans (Moved.releaseShares now _ qty)) user
      simpa [onFill, buyer, seller, Side.opposite] using first.trans second
  | sell =>
      have first := users.moved_updatePosition (users.getUserForOrder takerOrderId) _
        (Moved.sold now _ qty (price * qty)) user
      have second := (users.updatePosition (users.getUserForOrder takerOrderId)
          (Position.sold (Host.exact now) qty (price * qty))).moved_updatePosition
        (users.getUserForOrder makerOrderId)
        (fun pos => (pos.bought (Host.exact now) qty (price * qty)).releaseBalance (Host.exact now)
          (price * qty))
        ((Moved.bought now _ qty (price * qty)).trans (Moved.releaseBalance now _ (price * qty)))
        user
      simpa [onFill, buyer, seller, Side.opposite] using first.trans second

/-- Resting an order reserves what its owner needs for it. -/
theorem moved_onOrderResting {orderId owner : Int}
    (registered : users.orderToUser.find? orderId = some owner) (side : Side) (price qty : Int)
    (user : Int) :
    Moved (users.getPosition user)
      ((users.onOrderResting (Host.exact now) orderId side price qty).getPosition user) 0 0 0 0
      (if side = .buy then amountIf user owner (-(price * qty)) else 0)
      (if side = .sell then amountIf user owner (-qty) else 0) := by
  unfold onOrderResting
  rw [registered]
  cases side with
  | buy => simpa using users.moved_updatePosition owner _ (Moved.reserveBalance now _ (price * qty)) user
  | sell => simpa using users.moved_updatePosition owner _ (Moved.reserveShares now _ qty) user

/-- A cancel releases what is left of the reservation of a registered order. -/
theorem moved_onCancel {orderId owner : Int}
    (registered : users.orderToUser.find? orderId = some owner) (side : Side)
    (price remainingQty : Int) (user : Int) :
    Moved (users.getPosition user)
      ((users.onCancel (Host.exact now) orderId side price remainingQty).getPosition user) 0 0 0 0
      (if side = .buy then amountIf user owner (price * remainingQty) else 0)
      (if side = .sell then amountIf user owner remainingQty else 0) := by
  unfold onCancel
  rw [registered]
  cases side with
  | buy =>
      simpa using users.moved_updatePosition owner _ (Moved.releaseBalance now _ (price * remainingQty)) user
  | sell => simpa using users.moved_updatePosition owner _ (Moved.releaseShares now _ remainingQty) user

end Callbacks

/-! ## Totals over all users -/

/-- The sum of a figure over all positions. -/
def total (users : UserManager) (figure : Position → Int) : Int :=
  (users.positions.entries.map fun entry => figure entry.2).sum

/-- The figure does not depend on what is reserved. -/
def IgnoresReservations (figure : Position → Int) : Prop :=
  ∀ (pos : Position) reservedBalance reservedShares,
    figure { pos with reservedBalance, reservedShares } = figure pos

section Totals

variable {figure : Position → Int} (users : UserManager)

theorem total_of_defaults (zero : figure {} = 0) (defaults : ∀ user, users.getPosition user = {}) :
    users.total figure = 0 := by
  apply List.sum_eq_zero
  intro amount member
  obtain ⟨⟨user, pos⟩, entry, rfl⟩ := List.mem_map.mp member
  have same : users.getPosition user = pos := by
    rw [getPosition, SortedMap.findD, SortedMap.mem_entries_iff.mp entry]
    rfl
  rw [← same, defaults user, zero]

/-- A total moves with the one position that is updated. -/
theorem total_updatePosition (zero : figure {} = 0) (userId : Int)
    (update : Position → Position) :
    (users.updatePosition userId update).total figure =
      users.total figure - figure (users.getPosition userId) +
        figure (update (users.getPosition userId)) := by
  have moved := users.positions.sum_alter userId
    (fun value => some (update (value.getD {}))) fun entry => figure entry.2
  have before : ((users.positions.find? userId).elim 0 fun value => figure value) =
      figure (users.getPosition userId) := by
    unfold getPosition SortedMap.findD
    cases users.positions.find? userId with
    | none => exact zero.symm
    | some pos => rfl
  rw [before] at moved
  exact moved

theorem total_updatePosition_of_same (zero : figure {} = 0) (userId : Int)
    {update : Position → Position} (same : ∀ pos, figure (update pos) = figure pos) :
    (users.updatePosition userId update).total figure = users.total figure := by
  rw [total_updatePosition users zero, same]
  omega

/-- What one party of a fill gains, the other loses. -/
theorem total_onFill (now : Nat → Int) (zero : figure {} = 0) (blind : IgnoresReservations figure)
    {price qty : Int} (change : Int)
    (bought : ∀ pos : Position, figure (pos.bought (Host.exact now) qty (price * qty)) =
      figure pos + change)
    (sold : ∀ pos : Position, figure (pos.sold (Host.exact now) qty (price * qty)) =
      figure pos - change)
    (makerOrderId takerOrderId : Int) (takerSide : Side) :
    (users.onFill (Host.exact now) makerOrderId takerOrderId price qty takerSide).total figure =
      users.total figure := by
  have releaseShares : ∀ pos : Position,
      figure (pos.releaseShares (Host.exact now) qty) = figure pos := fun pos => blind pos _ _
  have releaseBalance : ∀ pos : Position,
      figure (pos.releaseBalance (Host.exact now) (price * qty)) = figure pos :=
    fun pos => blind pos _ _
  cases takerSide with
  | buy =>
      simp only [onFill, Host.exact_longLong]
      rw [total_updatePosition _ zero, total_updatePosition _ zero, releaseShares, sold, bought]
      omega
  | sell =>
      simp only [onFill, Host.exact_longLong]
      rw [total_updatePosition _ zero, total_updatePosition _ zero, releaseBalance, sold, bought]
      omega

variable (zero : figure {} = 0) (blind : IgnoresReservations figure) (host : Host) (orderId : Int)
  (side : Side) (price qty : Int)

include zero blind

theorem total_onOrderResting :
    (users.onOrderResting host orderId side price qty).total figure = users.total figure := by
  unfold onOrderResting
  split
  · rfl
  · cases side with
    | buy => exact users.total_updatePosition_of_same zero _ fun pos => blind pos _ _
    | sell => exact users.total_updatePosition_of_same zero _ fun pos => blind pos _ _

theorem total_onCancel :
    (users.onCancel host orderId side price qty).total figure = users.total figure := by
  unfold onCancel
  split
  · rfl
  · cases side with
    | buy => exact users.total_updatePosition_of_same zero _ fun pos => blind pos _ _
    | sell => exact users.total_updatePosition_of_same zero _ fun pos => blind pos _ _

end Totals

end UserManager

end OrderBookSimulator
