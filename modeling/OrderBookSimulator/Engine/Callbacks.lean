import OrderBookSimulator.Engine.Answer

/-!
# The calls into the user manager, one by one

Each callback takes `mtx_` for itself, so another thread can come in between
two callbacks of one engine call.  Which callbacks a call makes is settled once
preflight has read the position; the later ones read no position.
-/

namespace OrderBookSimulator

open Library

/-- A callback that moves positions. -/
inductive UserCall where
  | onFill (makerOrderId takerOrderId price qty : Int) (takerSide : Side)
  | onOrderResting (orderId : Int) (side : Side) (price qty : Int)
  | onCancel (orderId : Int) (side : Side) (price remainingQty : Int)
  deriving DecidableEq

namespace UserManager

def apply (host : Host) (users : UserManager) : UserCall → UserManager
  | .onFill makerOrderId takerOrderId price qty takerSide =>
      users.onFill host makerOrderId takerOrderId price qty takerSide
  | .onOrderResting orderId side price qty => users.onOrderResting host orderId side price qty
  | .onCancel orderId side price remainingQty =>
      users.onCancel host orderId side price remainingQty

/-- `register_order`, which `process_order` calls before anything else. -/
def registered (users : UserManager) : Call → UserManager
  | .processOrder order => users.registerOrder order.id order.userId
  | _ => users

@[simp] theorem orderToUser_apply (host : Host) (users : UserManager) (call : UserCall) :
    (users.apply host call).orderToUser = users.orderToUser := by
  cases call with
  | onFill => exact orderToUser_onFill ..
  | onOrderResting => exact orderToUser_onOrderResting ..
  | onCancel => exact orderToUser_onCancel ..

theorem Kept.apply {host : Host} {Keeps : UserManager → Prop} (kept : Kept host Keeps)
    {users : UserManager} (keeps : Keeps users) (call : UserCall) :
    Keeps (users.apply host call) := by
  cases call with
  | onFill => exact kept.onFill _ _ _ _ _ _ keeps
  | onOrderResting => exact kept.onOrderResting _ _ _ _ _ keeps
  | onCancel => exact kept.onCancel _ _ _ _ _ keeps

/-- A callback moves no position of a user who owns no order. -/
theorem getPosition_apply_of_not_owner (host : Host) {users : UserManager} {user : Int}
    (notHouse : user ≠ 0) (ownsNone : ∀ orderId, users.orderToUser.find? orderId ≠ some user)
    (call : UserCall) : (users.apply host call).getPosition user = users.getPosition user := by
  have notOwner : ∀ orderId, user ≠ users.getUserForOrder orderId := by
    intro orderId same
    cases found : users.orderToUser.find? orderId with
    | none => exact notHouse (by simpa [getUserForOrder, SortedMap.findD, found] using same)
    | some owner =>
        have owns : user = owner := by
          simpa [getUserForOrder, SortedMap.findD, found] using same
        exact ownsNone orderId (owns ▸ found)
  have update : ∀ orderId owner update, users.orderToUser.find? orderId = some owner →
      (users.updatePosition owner update).getPosition user = users.getPosition user := by
    intro orderId owner update found
    rw [getPosition_updatePosition, if_neg]
    rintro rfl
    exact ownsNone orderId found
  cases call with
  | onFill makerId takerId price qty side =>
      cases side <;> simp [apply, onFill, notOwner]
  | onOrderResting orderId side price qty =>
      unfold apply onOrderResting
      dsimp only
      split
      · rfl
      · rename_i owner found
        cases side <;> exact update orderId owner _ found
  | onCancel orderId side price remainingQty =>
      unfold apply onCancel
      dsimp only
      split
      · rfl
      · rename_i owner found
        cases side <;> exact update orderId owner _ found

end UserManager

namespace MatchingEngine

/-- The callback of a fill. -/
def fillCall (takerSide : Side) (trade : Trade) : UserCall :=
  .onFill trade.makerId trade.takerId trade.price trade.qty takerSide

/-- The callbacks of an engine call, in the order it makes them. -/
def userCalls (host : Host) (engine : MatchingEngine) : Call → List UserCall
  | .processOrder order =>
      if (engine.preflightCheck host order).isOk then
        let sweep := engine.callSweep host order
        let taker := sweep.taker
        sweep.trades.map (fillCall order.side) ++
          if taker.type = .limit ∧ 0 < taker.qty then
            [.onOrderResting taker.id taker.side taker.price taker.qty]
          else []
      else []
  | .cancelOrder orderId =>
      match engine.book.findOrder orderId with
      | .ok (some order) => [.onCancel orderId order.side order.price order.qty]
      | _ => []
  | .nextOrderId | .addRestingOrder _ => []

section Users

variable {host : Host} {engine : MatchingEngine} {users : UserManager}

/-- A sweep leaves the users as the callbacks of its trades leave them. -/
theorem userManager_callSweep (hasUsers : engine.userManager = some users) (order : Order) :
    (engine.callSweep host order).engine.userManager =
      some (((engine.callSweep host order).trades.map (fillCall order.side)).foldl
        (UserManager.apply host) (users.registerOrder order.id order.userId)) := by
  refine (callSweep_settles host engine order).invariant
    (fun sweep => sweep.engine.userManager = some ((sweep.trades.map (fillCall order.side)).foldl
      (UserManager.apply host) (users.registerOrder order.id order.userId))) ?_
    (by simp [startSweep, hasUsers])
  intro sweep next soFar moves
  obtain ⟨price, maker, rest, _, rfl⟩ := fillStep_cases moves
  rw [userManager_afterFill, trades_afterFill, soFar, List.map_append, List.foldl_append]
  rfl

/-- An engine call leaves the users as its callbacks do, taken in order after `register_order`. -/
theorem Answered.userManager {next : MatchingEngine} {call : Call} {reply : Reply}
    (answered : Answered host engine call reply next) (sound : engine.book.Sound)
    (hasUsers : engine.userManager = some users) :
    next.userManager = some ((engine.userCalls host call).foldl (UserManager.apply host)
      (users.registered call)) := by
  cases answered with
  | allotted => exact hasUsers
  | added order => exact hasUsers
  | refused order status notOk =>
      rw [userCalls, if_neg (by simp [notOk])]
      simp [MatchingEngine.refused, hasUsers, UserManager.registered]
  | accepted order ok swept =>
      rw [userManager_concluded, userManager_restRemainder, userManager_callSweep hasUsers,
        userCalls, if_pos ok, List.foldl_append, UserManager.registered]
      split <;> rfl
  | unknown orderId notFound =>
      rw [hasUsers, userCalls, OrderBook.findOrder, notFound]
      rfl
  | withdrawn node queued =>
      rw [userManager_cancelled, hasUsers, userCalls, sound.findOrder_of_mem queued]
      rfl

end Users

end MatchingEngine

end OrderBookSimulator
