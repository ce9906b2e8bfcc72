import OrderBookSimulator.Types

/-!
# Users and their positions

`user/user_manager.hpp` and the callbacks of `user/user_manager.cpp` that the
matching engine makes.  Every `long long` of a position is stored through
`Host.longLong`.
-/

namespace OrderBookSimulator

open Library

structure Position where
  balance : Int := 100000
  /-- Locked in resting buy orders. -/
  reservedBalance : Int := 0
  shares : Int := 100
  /-- Locked in resting sell orders. -/
  reservedShares : Int := 0
  netQty : Int := 0
  totalBuyQty : Int := 0
  totalSellQty : Int := 0
  totalBuyValue : Int := 0
  totalSellValue : Int := 0
  deriving DecidableEq, Repr

namespace Position

/-- The fields every purchase moves, for taker and maker alike. -/
def bought (host : Host) (qty value : Int) (pos : Position) : Position :=
  { pos with
    balance := host.longLong (pos.balance - value)
    shares := host.longLong (pos.shares + qty)
    netQty := host.longLong (pos.netQty + qty)
    totalBuyQty := host.longLong (pos.totalBuyQty + qty)
    totalBuyValue := host.longLong (pos.totalBuyValue + value) }

/-- The fields every sale moves, for taker and maker alike. -/
def sold (host : Host) (qty value : Int) (pos : Position) : Position :=
  { pos with
    balance := host.longLong (pos.balance + value)
    shares := host.longLong (pos.shares - qty)
    netQty := host.longLong (pos.netQty - qty)
    totalSellQty := host.longLong (pos.totalSellQty + qty)
    totalSellValue := host.longLong (pos.totalSellValue + value) }

def releaseBalance (host : Host) (value : Int) (pos : Position) : Position :=
  { pos with reservedBalance := host.longLong (pos.reservedBalance - value) }

def releaseShares (host : Host) (qty : Int) (pos : Position) : Position :=
  { pos with reservedShares := host.longLong (pos.reservedShares - qty) }

def reserveBalance (host : Host) (value : Int) (pos : Position) : Position :=
  { pos with reservedBalance := host.longLong (pos.reservedBalance + value) }

def reserveShares (host : Host) (qty : Int) (pos : Position) : Position :=
  { pos with reservedShares := host.longLong (pos.reservedShares + qty) }

end Position

structure UserManager where
  orderToUser : IntMap Int := .empty
  positions : IntMap Position := .empty
  deriving DecidableEq

namespace UserManager

def registerOrder (users : UserManager) (orderId userId : Int) : UserManager :=
  { users with orderToUser := users.orderToUser.insert orderId userId }

def getUserForOrder (users : UserManager) (orderId : Int) : Int :=
  users.orderToUser.findD orderId 0

def getPosition (users : UserManager) (userId : Int) : Position :=
  users.positions.findD userId {}

/-- `positions_[userId]`, default-inserted where it is missing, then updated. -/
def updatePosition (users : UserManager) (userId : Int) (update : Position → Position) :
    UserManager :=
  { users with positions := users.positions.upsert userId {} update }

def onFill (host : Host) (users : UserManager) (makerOrderId takerOrderId price qty : Int)
    (takerSide : Side) : UserManager :=
  let makerUser := users.getUserForOrder makerOrderId
  let takerUser := users.getUserForOrder takerOrderId
  let value := host.longLong (price * qty)
  match takerSide with
  | .buy =>
      (users.updatePosition takerUser (Position.bought host qty value)).updatePosition makerUser
        fun pos => (pos.sold host qty value).releaseShares host qty
  | .sell =>
      (users.updatePosition takerUser (Position.sold host qty value)).updatePosition makerUser
        fun pos => (pos.bought host qty value).releaseBalance host value

def onOrderResting (host : Host) (users : UserManager) (orderId : Int) (side : Side)
    (price qty : Int) : UserManager :=
  match users.orderToUser.find? orderId with
  | none => users
  | some userId =>
      match side with
      | .buy => users.updatePosition userId (Position.reserveBalance host (host.longLong (price * qty)))
      | .sell => users.updatePosition userId (Position.reserveShares host qty)

def onCancel (host : Host) (users : UserManager) (orderId : Int) (side : Side)
    (price remainingQty : Int) : UserManager :=
  match users.orderToUser.find? orderId with
  | none => users
  | some userId =>
      match side with
      | .buy =>
          users.updatePosition userId
            (Position.releaseBalance host (host.longLong (price * remainingQty)))
      | .sell => users.updatePosition userId (Position.releaseShares host remainingQty)

section Lookup

variable (users : UserManager)

@[simp] theorem getUserForOrder_registerOrder (orderId userId other : Int) :
    (users.registerOrder orderId userId).getUserForOrder other =
      if other = orderId then userId else users.getUserForOrder other := by
  unfold getUserForOrder registerOrder SortedMap.findD
  rw [SortedMap.find?_insert]
  split <;> rfl

@[simp] theorem getPosition_registerOrder (orderId userId other : Int) :
    (users.registerOrder orderId userId).getPosition other = users.getPosition other := rfl

@[simp] theorem positions_registerOrder (orderId userId : Int) :
    (users.registerOrder orderId userId).positions = users.positions := rfl

@[simp] theorem getPosition_updatePosition (userId other : Int) (update : Position → Position) :
    (users.updatePosition userId update).getPosition other =
      if other = userId then update (users.getPosition userId) else users.getPosition other :=
  SortedMap.findD_upsert _ _ _ _ _

@[simp] theorem orderToUser_updatePosition (userId : Int) (update : Position → Position) :
    (users.updatePosition userId update).orderToUser = users.orderToUser := rfl

variable (host : Host)

/-- The callbacks move positions only; who owns which order stays as registered. -/
@[simp] theorem orderToUser_onFill (makerOrderId takerOrderId price qty : Int) (takerSide : Side) :
    (users.onFill host makerOrderId takerOrderId price qty takerSide).orderToUser =
      users.orderToUser := by
  cases takerSide <;> rfl

@[simp] theorem orderToUser_onOrderResting (orderId : Int) (side : Side) (price qty : Int) :
    (users.onOrderResting host orderId side price qty).orderToUser = users.orderToUser := by
  unfold onOrderResting
  split
  · rfl
  · cases side <;> rfl

@[simp] theorem orderToUser_onCancel (orderId : Int) (side : Side) (price remainingQty : Int) :
    (users.onCancel host orderId side price remainingQty).orderToUser = users.orderToUser := by
  unfold onCancel
  split
  · rfl
  · cases side <;> rfl

theorem getUserForOrder_congr {first second : UserManager}
    (same : first.orderToUser = second.orderToUser) (orderId : Int) :
    first.getUserForOrder orderId = second.getUserForOrder orderId := by
  unfold getUserForOrder
  rw [same]

end Lookup

/-! ## What every callback keeps -/

/-- Each call the engine makes through `user_manager_` keeps the property. -/
structure Kept (host : Host) (Keeps : UserManager → Prop) : Prop where
  registerOrder : ∀ users orderId userId, Keeps users → Keeps (registerOrder users orderId userId)
  onFill : ∀ users makerId takerId price qty side, Keeps users →
    Keeps (onFill host users makerId takerId price qty side)
  onOrderResting : ∀ users orderId side price qty, Keeps users →
    Keeps (onOrderResting host users orderId side price qty)
  onCancel : ∀ users orderId side price qty, Keeps users →
    Keeps (onCancel host users orderId side price qty)

/-- What the updates of one position keep, the callbacks keep of every position. -/
theorem kept_of_positions {host : Host} {Good : Position → Prop}
    (bought : ∀ pos qty value, Good pos → Good (pos.bought host qty value))
    (sold : ∀ pos qty value, Good pos → Good (pos.sold host qty value))
    (releaseBalance : ∀ pos value, Good pos → Good (pos.releaseBalance host value))
    (releaseShares : ∀ pos qty, Good pos → Good (pos.releaseShares host qty))
    (reserveBalance : ∀ pos value, Good pos → Good (pos.reserveBalance host value))
    (reserveShares : ∀ pos qty, Good pos → Good (pos.reserveShares host qty)) :
    Kept host fun users => ∀ user, Good (users.getPosition user) := by
  have update : ∀ (users : UserManager) (userId : Int) (update : Position → Position),
      (∀ user, Good (users.getPosition user)) → (∀ pos, Good pos → Good (update pos)) →
      ∀ user, Good ((users.updatePosition userId update).getPosition user) := by
    intro users userId update good keeps user
    rw [getPosition_updatePosition]
    split
    · exact keeps _ (good userId)
    · exact good user
  refine ⟨fun _ _ _ good => good, ?_, ?_, ?_⟩
  · intro users makerId takerId price qty side good
    cases side with
    | buy =>
        exact update _ _ _ (update _ _ _ good fun pos => bought pos _ _)
          fun pos held => releaseShares _ _ (sold pos _ _ held)
    | sell =>
        exact update _ _ _ (update _ _ _ good fun pos => sold pos _ _)
          fun pos held => releaseBalance _ _ (bought pos _ _ held)
  · intro users orderId side price qty good
    unfold onOrderResting
    split
    · exact good
    · cases side with
      | buy => exact update _ _ _ good fun pos => reserveBalance pos _
      | sell => exact update _ _ _ good fun pos => reserveShares pos _
  · intro users orderId side price qty good
    unfold onCancel
    split
    · exact good
    · cases side with
      | buy => exact update _ _ _ good fun pos => releaseBalance pos _
      | sell => exact update _ _ _ good fun pos => releaseShares pos _

end UserManager

end OrderBookSimulator
