import Mathlib.Data.Int.Order.Basic
import Mathlib.Order.RelClasses
import OrderBookSimulator.Library.SortedMap

/-!
# Orders, trades and events

The records of `types/types.hpp` and `engine/order_sink.hpp`.  Identifiers,
prices and quantities are integers.  What the program takes from outside, the
clock and the width of a `long long`, is a parameter.
-/

namespace OrderBookSimulator

open Library

inductive Side where
  | buy
  | sell
  deriving DecidableEq, Repr

/-- The side an order trades against. -/
def Side.opposite : Side → Side
  | .buy => .sell
  | .sell => .buy

@[simp] theorem Side.opposite_ne (side : Side) : side.opposite ≠ side := by
  cases side <;> decide

@[simp] theorem Side.ne_opposite (side : Side) : side ≠ side.opposite := by
  cases side <;> decide

theorem Side.eq_or_eq_opposite (side other : Side) : other = side ∨ other = side.opposite := by
  cases side <;> cases other <;> decide

inductive OrderType where
  | limit
  | market
  deriving DecidableEq, Repr

inductive OrderStatus where
  | new
  | partiallyFilled
  | filled
  | canceled
  | rejected
  deriving DecidableEq, Repr

structure Order where
  id : Int
  userId : Int := 0
  side : Side
  price : Int
  qty : Int
  type : OrderType
  deriving DecidableEq, Repr

/-- `tradeId`, `seq` and `timestamp` stay zero until a trade is emitted to a sink. -/
structure Trade where
  tradeId : Int := 0
  makerId : Int
  takerId : Int
  makerUserId : Int := 0
  takerUserId : Int := 0
  price : Int
  qty : Int
  seq : Int := 0
  timestamp : Int := 0
  deriving DecidableEq, Repr

structure OrderResult where
  id : Int
  status : OrderStatus
  originalQty : Int
  filledQty : Int
  remainingQty : Int
  trades : List Trade
  reason : String
  deriving DecidableEq, Repr

structure OrderEvent where
  seq : Int
  batchId : Int
  orderId : Int
  userId : Int := 0
  status : OrderStatus
  side : Side
  price : Int
  qty : Int
  remainingQty : Int
  timestamp : Int
  deriving DecidableEq, Repr

/-- What the engine takes from the machine it runs on. -/
structure Host where
  /-- The reading of `steady_clock` at each of its uses, in nanoseconds. -/
  now : Nat → Int
  /-- What a `long long` holds after an integer is assigned to it. -/
  longLong : Int → Int

/-- Arithmetic over unbounded integers. -/
def Host.exact (now : Nat → Int) : Host := ⟨now, id⟩

@[simp] theorem Host.exact_longLong (now : Nat → Int) (value : Int) :
    (Host.exact now).longLong value = value := rfl

/-- The largest value of a `long long`. -/
def longLongMax : Int := 2 ^ 63 - 1

/-- A `long long` of 64 bits can hold the value. -/
def FitsLongLong (value : Int) : Prop := -(2 ^ 63) ≤ value ∧ value ≤ longLongMax

instance (value : Int) : Decidable (FitsLongLong value) := inferInstanceAs (Decidable (_ ∧ _))

theorem bmod_of_fits {value : Int} (fits : FitsLongLong value) : value.bmod (2 ^ 64) = value := by
  obtain ⟨low, high⟩ := fits
  unfold longLongMax at high
  exact Int.bmod_eq_of_le (by omega) (by omega)

/-- The largest value of an `int`. -/
def intMax : Int := 2 ^ 31 - 1

/-- What an `int` of 32 bits holds after an integer is assigned to it, by a cast or by wrapping. -/
def castInt (value : Int) : Int := value.bmod (2 ^ 32)

/-- An `int` of 32 bits can hold the value. -/
def FitsInt (value : Int) : Prop := -(2 ^ 31) ≤ value ∧ value ≤ intMax

instance (value : Int) : Decidable (FitsInt value) := inferInstanceAs (Decidable (_ ∧ _))

theorem castInt_of_fits {value : Int} (fits : FitsInt value) : castInt value = value := by
  obtain ⟨low, high⟩ := fits
  unfold intMax at high
  exact Int.bmod_eq_of_le (by omega) (by omega)

/-- A cast to `int` keeps what is below 2^31. -/
theorem castInt_of_small {value : Int} (nonneg : 0 ≤ value) (small : value < 2 ^ 31) :
    castInt value = value :=
  castInt_of_fits ⟨by omega, by unfold intMax; omega⟩

/-- The sum of two positive `int`s that is too large comes back negative. -/
theorem castInt_of_large {value : Int} (large : intMax < value) (bounded : value ≤ 2 * intMax) :
    castInt value = value - 2 ^ 32 := by
  unfold intMax at *
  have same : (value - 2 ^ 32).bmod (2 ^ 32) = value.bmod (2 ^ 32) :=
    Int.sub_bmod_right value (2 ^ 32)
  rw [castInt, ← same]
  exact Int.bmod_eq_of_le (by omega) (by omega)

theorem fitsInt_castInt (value : Int) : FitsInt (castInt value) := by
  have above := Int.le_bmod (x := value) (m := 2 ^ 32) (by decide)
  have below := Int.bmod_lt (x := value) (m := 2 ^ 32) (by decide)
  unfold castInt FitsInt intMax
  omega

/-- Arithmetic in `long long`s of 64 bits, where a signed overflow wraps around. -/
def Host.twosComplement (now : Nat → Int) : Host := ⟨now, fun value => value.bmod (2 ^ 64)⟩

/-- A `long long` keeps every value of 64 bits. -/
def Host.Stores (host : Host) : Prop := ∀ value, FitsLongLong value → host.longLong value = value

theorem Host.stores_twosComplement (now : Nat → Int) : (Host.twosComplement now).Stores :=
  fun _ fits => bmod_of_fits fits

/-- What is stored depends on the stored operands only: true with and without wrapping. -/
structure Host.Modular (host : Host) : Prop where
  zero : host.longLong 0 = 0
  add_left : ∀ first second,
    host.longLong (host.longLong first + second) = host.longLong (first + second)

theorem Host.modular_exact (now : Nat → Int) : (Host.exact now).Modular := ⟨rfl, fun _ _ => rfl⟩

theorem Host.modular_twosComplement (now : Nat → Int) : (Host.twosComplement now).Modular :=
  ⟨rfl, fun _ _ => Int.bmod_add_bmod⟩

namespace Host.Modular

variable {host : Host} (modular : host.Modular)

include modular

theorem longLong_longLong (value : Int) :
    host.longLong (host.longLong value) = host.longLong value := by
  simpa using modular.add_left value 0

theorem add_right (first second : Int) :
    host.longLong (first + host.longLong second) = host.longLong (first + second) := by
  rw [Int.add_comm, modular.add_left, Int.add_comm]

theorem sub_right (first second : Int) :
    host.longLong (first - host.longLong second) = host.longLong (first - second) := by
  have back := modular.add_right (first - host.longLong second - second) second
  rw [Int.sub_add_cancel] at back
  rw [← back]
  congr 1
  omega

/-- Adding and then subtracting restores what a `long long` held. -/
theorem sub_add_cancel {value : Int} (stored : host.longLong value = value) (amount : Int) :
    host.longLong (host.longLong (value + amount) - amount) = value := by
  rw [Int.sub_eq_add_neg, modular.add_left, Int.add_neg_cancel_right, stored]

end Host.Modular

/-- `unordered_map<long long, Value>`; no code here depends on its iteration order. -/
abbrev IntMap (Value : Type) := SortedMap (fun first second : Int => first < second) Value

end OrderBookSimulator
