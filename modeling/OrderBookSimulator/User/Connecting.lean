import OrderBookSimulator.Library.Run
import OrderBookSimulator.User.UserManager

/-!
# Handing out user ids

`next_user_id` and `reconnect_user`, cut at what other threads can see of them:
each access to the atomic `next_id_` and each section under `mtx_` is one step.
A compare-exchange may fail although it sees the value it expects.
-/

namespace OrderBookSimulator

open Library

namespace UserManager

/-- `positions_[userId] = Position{}` -/
def assignPosition (users : UserManager) (userId : Int) : UserManager :=
  { users with positions := users.positions.insert userId {} }

/-- `positions_.emplace(userId, Position{})`, which leaves an existing entry alone. -/
def emplacePosition (users : UserManager) (userId : Int) : UserManager :=
  if (users.positions.find? userId).isSome then users else users.assignPosition userId

@[simp] theorem getPosition_assignPosition (users : UserManager) (userId other : Int) :
    (users.assignPosition userId).getPosition other =
      if other = userId then {} else users.getPosition other := by
  unfold getPosition assignPosition SortedMap.findD
  rw [SortedMap.find?_insert]
  split <;> rfl

@[simp] theorem getPosition_emplacePosition (users : UserManager) (userId other : Int) :
    (users.emplacePosition userId).getPosition other = users.getPosition other := by
  unfold emplacePosition
  split
  · rfl
  · rename_i missing
    rw [getPosition_assignPosition]
    split
    · rename_i same
      rw [same, getPosition, SortedMap.findD, Option.not_isSome_iff_eq_none.mp missing]
      rfl
    · rfl

@[simp] theorem orderToUser_assignPosition (users : UserManager) (userId : Int) :
    (users.assignPosition userId).orderToUser = users.orderToUser := rfl

@[simp] theorem orderToUser_emplacePosition (users : UserManager) (userId : Int) :
    (users.emplacePosition userId).orderToUser = users.orderToUser := by
  unfold emplacePosition
  split <;> rfl

end UserManager

/-- The members of `UserManager` that only connecting users touch. -/
structure UserIds where
  nextId : Int := 1
  users : List Int := []
  deriving DecidableEq

/-- The next step of a call of `next_user_id` or `reconnect_user`. -/
inductive Connecting where
  /-- `next_id_.fetch_add(1)` -/
  | fetchAdd
  /-- Write the position of a new id. -/
  | assign (id : Int)
  /-- `next_id_.load()` -/
  | load (uid : Int)
  /-- `next_id_.compare_exchange_weak(expected, uid + 1)` -/
  | exchange (uid expected : Int)
  /-- Make sure a reclaimed id has a position. -/
  | emplace (uid : Int)
  | returned (id : Int)
  deriving DecidableEq

namespace Connecting

/-- How a call begins; `none` is `next_user_id`, which `reconnect_user` falls back on. -/
def called (reclaimUid : Option Int) : Connecting :=
  match reclaimUid with
  | none => .fetchAdd
  | some uid => if uid ≤ 0 then .fetchAdd else .load uid

/-- The test `while (expected <= uid)`. -/
def whileBelow (uid expected : Int) : Connecting :=
  if expected ≤ uid then .exchange uid expected else .emplace uid

/-- One step.  A `spurious` compare-exchange fails without cause. -/
def step (host : Host) (spurious : Bool) (ids : UserIds) (users : UserManager) :
    Connecting → UserIds × UserManager × Connecting
  | .fetchAdd =>
      ({ ids with nextId := host.longLong (ids.nextId + 1) }, users, .assign ids.nextId)
  | .assign id => ({ ids with users := ids.users ++ [id] }, users.assignPosition id, .returned id)
  | .load uid => (ids, users, whileBelow uid ids.nextId)
  | .exchange uid expected =>
      if ids.nextId = expected ∧ spurious = false then
        ({ ids with nextId := host.longLong (uid + 1) }, users, .emplace uid)
      else (ids, users, whileBelow uid ids.nextId)
  | .emplace uid =>
      ({ ids with users := if uid ∈ ids.users then ids.users else ids.users ++ [uid] },
        users.emplacePosition uid, .returned uid)
  | .returned id => (ids, users, .returned id)

/-- The id a call is going to return once it is done with `next_id_`. -/
def settled : Connecting → Option Int
  | .assign id | .emplace id | .returned id => some id
  | .fetchAdd | .load _ | .exchange _ _ => none

section Step

variable (host : Host) (spurious : Bool) (ids : UserIds) (users : UserManager)

/-- Only the assignment of `next_user_id` can change what `get_position` answers. -/
theorem getPosition_step (stage : Connecting) (user : Int) :
    (stage.step host spurious ids users).2.1.getPosition user =
      if stage = .assign user then {} else users.getPosition user := by
  cases stage with
  | assign id =>
      rw [step, UserManager.getPosition_assignPosition]
      simp only [assign.injEq, eq_comm]
  | exchange uid expected =>
      rw [if_neg (by simp), step]
      split <;> rfl
  | emplace uid =>
      rw [if_neg (by simp), step]
      exact UserManager.getPosition_emplacePosition _ _ _
  | fetchAdd | load | returned => rfl

@[simp] theorem orderToUser_step (stage : Connecting) :
    (stage.step host spurious ids users).2.1.orderToUser = users.orderToUser := by
  cases stage with
  | exchange uid expected =>
      rw [step]
      split <;> rfl
  | emplace uid => exact UserManager.orderToUser_emplacePosition _ _
  | fetchAdd | assign | load | returned => rfl

end Step

end Connecting

/-! ## Any number of calls, step by step -/

/-- A user manager and the calls made to connect to it, each where it has come to. -/
structure Connects where
  ids : UserIds := {}
  users : UserManager := {}
  calls : List Connecting := []
  deriving DecidableEq

inductive ConnectStep where
  | called (reclaimUid : Option Int)
  | advance (call : Nat) (spurious : Bool)
  deriving DecidableEq

/-- There is no such call. -/
inductive NoCall where
  | noCall

def Connects.step (host : Host) (state : Connects) :
    ConnectStep → Except NoCall (Connects × Unit)
  | .called reclaimUid =>
      .ok ({ state with calls := state.calls ++ [Connecting.called reclaimUid] }, ())
  | .advance call spurious =>
      match state.calls[call]? with
      | none => .error .noCall
      | some stage =>
          let (ids, users, next) := stage.step host spurious state.ids state.users
          .ok ({ ids, users, calls := state.calls.set call next }, ())

/-- A `uid` is a `long long`. -/
def ConnectStep.Fits : ConnectStep → Prop
  | .called (some uid) => FitsLongLong uid
  | _ => True

instance (step : ConnectStep) : Decidable step.Fits :=
  match step with
  | .called (some uid) => inferInstanceAs (Decidable (FitsLongLong uid))
  | .called none => isTrue trivial
  | .advance _ _ => isTrue trivial

end OrderBookSimulator
