import OrderBookSimulator.Client.BalanceStrip
import OrderBookSimulator.Properties.BookDocuments
import OrderBookSimulator.Properties.ServerAccounts
import OrderBookSimulator.Properties.SnapshotFreshness
import OrderBookSimulator.Server.AccountRoutes

/-!
# The account that a page shows

What the balance strip polls and the resting orders the page was sent belong
together, and the engine decides by the very figures that are shown.
-/

namespace OrderBookSimulator

open Library Json

/-! ## The figures on the page -/

/-- The doubles of the page hold what the account is made of. -/
structure Position.Showable (pos : Position) : Prop where
  balance : FitsNumber pos.balance
  reservedBalance : FitsNumber pos.reservedBalance
  shares : FitsNumber pos.shares
  reservedShares : FitsNumber pos.reservedShares
  netQty : FitsNumber pos.netQty
  cash : FitsNumber pos.availableCash
  free : FitsNumber pos.availableShares

section Shown

variable {pos : Position} (script : Script) (uid : Int)

theorem usePosition_fields (showable : pos.Showable) :
    usePosition script (.record (pos.fields uid)) =
      { balance := pos.balance, reservedBalance := pos.reservedBalance, shares := pos.shares
        reservedShares := pos.reservedShares, netQty := pos.netQty } := by
  have each : ∀ name value, FitsNumber value →
      (Value.record (pos.fields uid)).intAt? name = some value →
      ∀ missing, memberOr script (.record (pos.fields uid)) name missing = value := by
    intro name value fits found missing
    rw [memberOr, found, Option.map_some, Option.getD_some, script.signed_exact fits]
  unfold usePosition
  rw [each "balance" _ showable.balance, each "reservedBalance" _ showable.reservedBalance,
    each "shares" _ showable.shares, each "reservedShares" _ showable.reservedShares,
    each "netQty" _ showable.netQty]
  all_goals
    rw [Value.intAt?, member?_record (pos.names uid)]
    simp [Position.fields]

end Shown

/-! ## The rows on the page -/

/-- What the rows of a side that are the user's add up to. -/
def rowTotal (weigh : OrderLine → Int) (side : Side) (rows : List OrderLine) : Int :=
  ((rows.filter fun row => row.side = side).map weigh).sum

section Rows

variable {book : OrderBook} (sound : book.Sound) (user : Int)

include sound

theorem rowTotal_mine (weigh : OrderLine → Int) (side : Side) :
    rowTotal weigh side (mine (ordersDocument book.snapshot) user) =
      tally (fun order : Order => order.side = side ∧ order.userId = user)
        (fun order => weigh (OrderLine.ofOrder order)) book.resting := by
  rw [rowTotal, mine, OrderBook.ordersDocument_eq sound, tally, OrderBook.resting,
    List.filter_map, List.filter_map, List.filter_filter, List.filter_map, List.map_map,
    List.map_map]
  simp only [Function.comp_def, OrderLine.ofOrder, Bool.decide_and]

theorem lockedBalance_eq : lockedBalance book.resting user =
    rowTotal (fun row => row.price * row.qty) .buy (mine (ordersDocument book.snapshot) user) :=
  (rowTotal_mine sound user (fun row => row.price * row.qty) .buy).symm

theorem lockedShares_eq : lockedShares book.resting user =
    rowTotal (·.qty) .sell (mine (ordersDocument book.snapshot) user) :=
  (rowTotal_mine sound user (·.qty) .sell).symm

end Rows

/-! ## What the engine decides by -/

/-- What an order of a side is paid with. -/
def Position.available (pos : Position) : Side → Int
  | .buy => pos.availableCash
  | .sell => pos.availableShares

/-- What a limit order may need of it. -/
def Order.needs (order : Order) : Int :=
  match order.side with
  | .buy => order.price * order.qty
  | .sell => order.qty

/-- The tile of the strip that an order of a side is paid with. -/
def ShownPosition.available (script : Script) (position : ShownPosition) : Side → Int
  | .buy => position.availBalance script
  | .sell => position.availShares script

namespace MatchingEngine

variable {now : Nat → Int} {engine : MatchingEngine} {users : UserManager} {order : Order}

theorem fillStatus_ne_rejected (filled left : Int) : fillStatus filled left ≠ .rejected := by
  unfold fillStatus
  split
  · exact OrderStatus.noConfusion
  · split <;> exact OrderStatus.noConfusion

/-- A user's limit order is refused for one reason only: the user is short of what it needs. -/
theorem rejected_limit_iff (hasUsers : engine.userManager = some users) (user : 0 < order.userId)
    (limit : order.type = .limit) (price : 0 < order.price) (qty : 0 < order.qty) :
    (engine.processOrder (Host.exact now) order).2.status = .rejected ↔
      (users.getPosition order.userId).available order.side < order.needs := by
  have checked : ∃ reason, engine.preflightCheck (Host.exact now) order =
      if (users.getPosition order.userId).available order.side < order.needs then .rejected reason
      else .ok := by
    unfold preflightCheck
    rw [if_neg (by omega), if_neg (by omega), if_neg (by simp [limit]), if_neg (by simp [limit]),
      hasUsers]
    simp only [if_pos user, limit, if_true]
    cases side : order.side with
    | buy => exact ⟨"insufficient cash", if_congr (by rw [Order.needs, side]; rfl) rfl rfl⟩
    | sell => exact ⟨"insufficient shares", if_congr (by rw [Order.needs, side]; rfl) rfl rfl⟩
  obtain ⟨reason, checked⟩ := checked
  by_cases short : (users.getPosition order.userId).available order.side < order.needs
  · rw [if_pos short] at checked
    refine ⟨fun _ => short, fun _ => ?_⟩
    unfold processOrder
    simp only [preflightCheck_opened, checked, PreflightResult.rejected]
  · rw [if_neg short] at checked
    have ok : (engine.preflightCheck (Host.exact now) order).isOk = true := by
      rw [checked]
      rfl
    rw [processOrder_of_accepted _ engine order ok]
    exact ⟨fun rejected => (fillStatus_ne_rejected _ _ rejected).elim, fun yes => (short yes).elim⟩

end MatchingEngine

/-! ## The page of a connected client -/

/-- Connecting changes no account if each position that it assigns was the default one. -/
theorem keepsAccounts_of_defaults {host : Host} {start state : Server} {log : List ServerEntry}
    (run : ServerRun host start log state)
    (untouched : ∀ entry ∈ log, ∀ id ∈ ServerEntry.assigned entry,
      entry.before.users.getPosition id = {}) :
    ∀ entry ∈ log, ServerEntry.KeepsAccounts entry := by
  intro entry member connects user
  obtain ⟨past, earlier, _, steps, _⟩ := run.of_mem member
  obtain ⟨stage, connects⟩ := Option.isSome_iff_exists.mp connects
  obtain ⟨spurious, users⟩ := users_of_connecting steps connects
  rw [users, Connecting.getPosition_step]
  split
  · rename_i assigns
    exact (untouched entry member user
      (ServerEntry.assigned_eq_some_iff.mpr (assigns ▸ connects))).symm
  · rfl

end OrderBookSimulator
