import OrderBookSimulator.Server.Records
import OrderBookSimulator.Server.ScanningJson
import OrderBookSimulator.Server.Serializers
import OrderBookSimulator.User.UserManager

/-!
# What a user is told of an account

`GET /user/position` and `GET /user/orders` of `server/http_handlers.cpp`, with
the loops of the second as they are written.
-/

namespace OrderBookSimulator

open Library Json

/-! ## The routes -/

/-- What `std::stoll` throws on a parameter; the HTTP library answers such a request. -/
inductive BadParam where
  | invalidArgument
  | outOfRange
  deriving DecidableEq, Repr

/-- `std::isspace` -/
def isSpace (c : Char) : Bool :=
  c = ' ' || c = '\t' || c = '\n' || c = '\r' || c.toNat = 11 || c.toNat = 12

/-- `std::stoll` on a parameter: blanks and a sign may stand in front, anything behind. -/
def stollParam (param : Text) : Except BadParam Int :=
  let number := param.dropWhile isSpace
  let negative := number.head? = some '-'
  let digits := (if negative ∨ number.head? = some '+' then number.tail else number).takeWhile
    (·.isDigit)
  let value := if negative then -readDigits digits else readDigits digits
  if digits = [] then .error .invalidArgument
  else if FitsLongLong value then .ok value
  else .error .outOfRange

structure Response where
  status : Nat := 200
  body : Text
  deriving DecidableEq

def missingUserId : Response := { status := 400, body := jsonError "Missing user_id param" }

def Position.json (uid : Int) (pos : Position) : Text :=
  "\x7b\"userId\":".toList ++ number uid ++ ",\"balance\":".toList ++ number pos.balance ++
    ",\"reservedBalance\":".toList ++ number pos.reservedBalance ++ ",\"shares\":".toList ++
    number pos.shares ++ ",\"reservedShares\":".toList ++ number pos.reservedShares ++
    ",\"netQty\":".toList ++ number pos.netQty ++ ",\"totalBuyQty\":".toList ++
    number pos.totalBuyQty ++ ",\"totalSellQty\":".toList ++ number pos.totalSellQty ++
    ",\"totalBuyValue\":".toList ++ number pos.totalBuyValue ++ ",\"totalSellValue\":".toList ++
    number pos.totalSellValue ++ "\x7d".toList

/-- `GET /user/position` -/
def getUserPosition (users : UserManager) : Option Text → Except BadParam Response
  | none => .ok missingUserId
  | some param => do
      let uid ← stollParam param
      pure { body := (users.getPosition uid).json uid }

namespace SerializerLoops

/-- The loop over the orders of a level, in which those of others are passed over. -/
def writeOrdersOf (uid : Int) (side : Side) (price : Int) :
    OrderList → Bool → Text → Text × Bool
  | [], first, oss => (oss, first)
  | node :: rest, first, oss =>
      if node.order.userId ≠ uid then writeOrdersOf uid side price rest first oss
      else
        let oss := oss ++ separator first
        let oss := oss ++ "\x7b\"id\":".toList ++ number node.order.id ++
          ",\"user_id\":".toList ++ number node.order.userId ++
          (match side with
            | .buy => ",\"side\":\"bid\"".toList
            | .sell => ",\"side\":\"ask\"".toList) ++
          ",\"price\":".toList ++ number price ++ ",\"qty\":".toList ++ number node.order.qty ++
          "\x7d".toList
        writeOrdersOf uid side price rest false oss

def writeSideOf (uid : Int) (side : Side) :
    List (Int × OrderList) → Bool → Text → Text × Bool
  | [], first, oss => (oss, first)
  | (price, queue) :: rest, first, oss =>
      let written := writeOrdersOf uid side price queue first oss
      writeSideOf uid side rest written.2 written.1

def userOrders (book : OrderBook) (uid : Int) : Text :=
  let bids := writeSideOf uid .buy book.bids.entries true "[".toList
  let asks := writeSideOf uid .sell book.asks.entries bids.2 bids.1
  asks.1 ++ "]".toList

end SerializerLoops

/-- `GET /user/orders` -/
def getUserOrders (book : OrderBook) : Option Text → Except BadParam Response
  | none => .ok missingUserId
  | some param => do
      let uid ← stollParam param
      pure { body := SerializerLoops.userOrders book uid }

/-! ## The parameter -/

theorem stollParam_digits (digits : Digits) :
    stollParam digits.chars =
      if FitsLongLong (readDigits digits.chars) then .ok (readDigits digits.chars)
      else .error .outOfRange := by
  obtain ⟨chars, all, nonempty⟩ := digits
  obtain ⟨c, rest, rfl⟩ := List.exists_cons_of_ne_nil nonempty
  have digit : c.isDigit = true := (Bool.and_eq_true_iff.mp (List.all_cons ▸ all)).1
  have taken : (c :: rest).takeWhile (·.isDigit) = c :: rest :=
    List.takeWhile_eq_self_iff.mpr (List.all_eq_true.mp all)
  have noSpace : isSpace c = false := by
    simp only [Char.isDigit, Bool.and_eq_true, decide_eq_true_eq] at digit
    have low : 48 ≤ c.toNat := digit.1
    simp only [isSpace, Bool.or_eq_false_iff, decide_eq_false_iff_not]
    refine ⟨⟨⟨⟨⟨?_, ?_⟩, ?_⟩, ?_⟩, by omega⟩, by omega⟩ <;>
      · rintro rfl
        revert low
        decide
  have dropped : (c :: rest).dropWhile isSpace = c :: rest := by
    rw [List.dropWhile_cons_of_neg (by simp [noSpace])]
  have unsigned : c ≠ '-' ∧ c ≠ '+' := by
    constructor <;> rintro rfl <;> revert digit <;> decide
  simp only [stollParam, dropped, List.head?_cons, Option.some.injEq, unsigned.1, unsigned.2,
    or_self, if_false, taken, reduceCtorEq]

/-- A user id comes through as it was put into the URL. -/
theorem stollParam_number {uid : Int} (nonneg : 0 ≤ uid) (fits : uid ≤ longLongMax) :
    stollParam (number uid) = .ok uid := by
  have text : number uid = (Literal.ofInt uid).whole.chars := by
    rw [number, ← Literal.text_ofInt, text_of_isDigits (isDigits_ofInt nonneg)]
  have value : readDigits (Literal.ofInt uid).whole.chars = uid := by
    rw [readDigits_eq]
    have same := Digits.value_ofNat uid.natAbs
    simp only [Literal.ofInt, same]
    omega
  rw [text, stollParam_digits, value, if_pos ⟨by omega, fits⟩]

/-! ## The documents -/

section Documents

def Position.fields (uid : Int) (pos : Position) : List (String × Value) :=
  [("userId", .int uid), ("balance", .int pos.balance),
    ("reservedBalance", .int pos.reservedBalance), ("shares", .int pos.shares),
    ("reservedShares", .int pos.reservedShares), ("netQty", .int pos.netQty),
    ("totalBuyQty", .int pos.totalBuyQty), ("totalSellQty", .int pos.totalSellQty),
    ("totalBuyValue", .int pos.totalBuyValue), ("totalSellValue", .int pos.totalSellValue)]

theorem Position.names (uid : Int) (pos : Position) :
    PlainNames ((pos.fields uid).map (·.1)) :=
  (by decide : PlainNames ["userId", "balance", "reservedBalance", "shares", "reservedShares",
    "netQty", "totalBuyQty", "totalSellQty", "totalBuyValue", "totalSellValue"])

theorem Position.json_eq (uid : Int) (pos : Position) :
    pos.json uid = (Value.record (pos.fields uid)).written := by
  unfold Position.json
  rw [written_record (pos.names uid), numbers_eq]
  simp [Position.fields, commas_cons, fieldText]

/-- The orders of one user, as `GET /orders` lists them. -/
def linesOf (uid : Int) (lines : List OrderLine) : List OrderLine :=
  lines.filter fun line => line.userId = uid

def readLines (value : Value) : Option (List OrderLine) := do
  let items ← value.items?
  items.mapM OrderLine.read

variable (oss : Text) (uid : Int) (side : Side)

theorem writeOrdersOf_eq (price : Int) (queue : OrderList) (first : Bool) :
    SerializerLoops.writeOrdersOf uid side price queue first oss =
      (oss ++ flagged first ((linesOf uid (orderLines side (price, queue))).map OrderLine.json),
        first && (linesOf uid (orderLines side (price, queue))).isEmpty) := by
  induction queue generalizing first oss with
  | nil =>
      unfold SerializerLoops.writeOrdersOf
      rw [orderLines, List.map_nil, linesOf, List.filter_nil, List.map_nil, flagged_nil,
        List.append_nil, List.isEmpty_nil, Bool.and_true]
  | cons node rest ih =>
      unfold SerializerLoops.writeOrdersOf
      by_cases own : node.order.userId = uid
      · rw [if_neg (not_not.mpr own)]
        simp only [ih, orderLines, linesOf, List.map_cons, List.filter_cons, own, decide_true,
          if_true, flagged_cons, Bool.false_and, List.isEmpty_cons, Bool.and_false]
        unfold OrderLine.json
        cases side <;> simp only [List.append_assoc]
      · rw [if_pos own, ih]
        simp only [orderLines, linesOf, List.map_cons, List.filter_cons, own, decide_false,
          Bool.false_eq_true, if_false]

theorem writeSideOf_eq (entries : List (Int × OrderList)) (first : Bool) :
    SerializerLoops.writeSideOf uid side entries first oss =
      (oss ++ flagged first ((linesOf uid (entries.flatMap (orderLines side))).map OrderLine.json),
        first && (linesOf uid (entries.flatMap (orderLines side))).isEmpty) := by
  induction entries generalizing first oss with
  | nil =>
      rw [SerializerLoops.writeSideOf, List.flatMap_nil, linesOf, List.filter_nil, List.map_nil,
        flagged_nil, List.append_nil, List.isEmpty_nil, Bool.and_true]
  | cons level rest ih =>
      obtain ⟨price, queue⟩ := level
      have split : linesOf uid (((price, queue) :: rest).flatMap (orderLines side)) =
          linesOf uid (orderLines side (price, queue)) ++
            linesOf uid (rest.flatMap (orderLines side)) := by
        rw [List.flatMap_cons, linesOf, List.filter_append]
        rfl
      rw [SerializerLoops.writeSideOf, writeOrdersOf_eq, ih, split, List.map_append,
        flagged_append, List.isEmpty_map, List.append_assoc, isEmpty_append, Bool.and_assoc]

theorem userOrders_eq (book : OrderBook) :
    SerializerLoops.userOrders book uid =
      (Value.array ((linesOf uid (ordersDocument book.snapshot)).map (·.value))).written := by
  have split : linesOf uid (ordersDocument book.snapshot) =
      linesOf uid (book.bids.entries.flatMap (orderLines .buy)) ++
        linesOf uid (book.asks.entries.flatMap (orderLines .sell)) := List.filter_append _ _
  have texts : (linesOf uid (ordersDocument book.snapshot)).map (Value.written ∘ OrderLine.value) =
      (linesOf uid (ordersDocument book.snapshot)).map OrderLine.json :=
    List.map_congr_left fun line _ => line.json_eq.symm
  rw [written_array, List.map_map, texts, split, List.map_append, ← commaSeparated_eq,
    ← flagged_true, flagged_append, List.isEmpty_map]
  unfold SerializerLoops.userOrders
  simp only [writeSideOf_eq, Bool.true_and]
  simp

theorem decodes_userOrders (book : OrderBook) :
    Decodes readLines (SerializerLoops.userOrders book uid)
      (linesOf uid (ordersDocument book.snapshot)) :=
  decodes_written (userOrders_eq uid book) (by simp [readLines, mapM_read OrderLine.read_value])

end Documents

end OrderBookSimulator
