import OrderBookSimulator.Client.DepthChart
import OrderBookSimulator.Library.JsonRecord

/-!
# The account on the page

`hooks/usePosition.ts`, the figures of `components/BalanceStrip.tsx`, and the
rows of `components/RestingOrders.tsx` that are the user's own.
-/

namespace OrderBookSimulator

open Library Json

/-- What a double makes of an integer, on both sides of zero alike. -/
def Script.signed (script : Script) (value : Int) : Int :=
  if 0 ≤ value then script.number value else -script.number (-value)

/-- The integers that a double holds. -/
def FitsNumber (value : Int) : Prop := -(2 ^ 53) ≤ value ∧ value ≤ 2 ^ 53

instance (value : Int) : Decidable (FitsNumber value) := inferInstanceAs (Decidable (_ ∧ _))

theorem Script.signed_exact (script : Script) {value : Int} (fits : FitsNumber value) :
    script.signed value = value := by
  obtain ⟨low, high⟩ := fits
  unfold Script.signed
  split
  · rename_i nonneg
    exact script.exact value nonneg high
  · rw [script.exact (-value) (by omega) (by omega), Int.neg_neg]

/-- The state of `usePosition`. -/
structure ShownPosition where
  balance : Int
  reservedBalance : Int
  shares : Int
  reservedShares : Int
  netQty : Int
  deriving DecidableEq, Repr

/-- A member of the answer, or what `??` puts for a missing one. -/
def memberOr (script : Script) (data : Value) (name : String) (missing : Int) : Int :=
  ((data.intAt? name).map script.signed).getD missing

/-- What `poll` sets. -/
def usePosition (script : Script) (data : Value) : ShownPosition :=
  { balance := memberOr script data "balance" 1000
    reservedBalance := memberOr script data "reservedBalance" 0
    shares := memberOr script data "shares" 10
    reservedShares := memberOr script data "reservedShares" 0
    netQty := memberOr script data "netQty" 0 }

namespace ShownPosition

variable (script : Script) (position : ShownPosition)

/-- The tile CASH. -/
def availBalance : Int := script.signed (position.balance - position.reservedBalance)

/-- The tile SHARES. -/
def availShares : Int := script.signed (position.shares - position.reservedShares)

end ShownPosition

/-- The rows of RestingOrders under Mine. -/
def mine (orders : List OrderLine) (userId : Int) : List OrderLine :=
  orders.filter fun o => o.userId = userId

end OrderBookSimulator
