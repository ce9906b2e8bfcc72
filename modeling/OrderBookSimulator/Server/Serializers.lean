import OrderBookSimulator.Library.JsonRecord
import OrderBookSimulator.Server.Messages

/-!
# The serializers as they are written

`server/book_serializer.cpp` builds its texts with nested loops, counters and
separator flags that are reset between sides, levels and orders, and so does
`json_order_result` for the trades.  The loops are transcribed here and shown to
spell out the documents.
-/

namespace OrderBookSimulator

open Library Json

/-- `if (!first) oss << ",";` -/
def separator (first : Bool) : Text := if first then [] else [',']

namespace SerializerLoops

/-- The loop over the orders of a level. -/
def writeQuantities : OrderList → Bool → Text → Text
  | [], _, oss => oss
  | node :: rest, firstOrder, oss =>
      writeQuantities rest false (oss ++ separator firstOrder ++ number node.order.qty)

/-- The loop over the levels of a side, left at the `depth`th turn. -/
def writeLevels (host : Host) (depth : Nat) : List (Int × OrderList) → Nat → Bool → Text → Text
  | [], _, _, oss => oss
  | (price, queue) :: rest, i, first, oss =>
      if i ≥ depth then oss
      else
        let qty := queue.foldl (fun qty node => host.longLong (qty + node.order.qty)) 0
        let oss := oss ++ separator first
        let oss := oss ++ "\x7b\"price\":".toList ++ number price ++ ",\"qty\":".toList ++
          number qty ++ ",\"orders\":[".toList
        let oss := writeQuantities queue true oss
        writeLevels host depth rest (i + 1) false (oss ++ "]\x7d".toList)

def serializeBookJson (host : Host) (book : OrderBook) (depth : Nat) : Text :=
  let oss := "\x7b\"type\":\"book_snapshot\",\"payload\":\x7b\"bids\":[".toList
  let oss := writeLevels host depth book.bids.entries 0 true oss
  let oss := oss ++ "],\"asks\":[".toList
  let oss := writeLevels host depth book.asks.entries 0 true oss
  oss ++ "]\x7d\x7d".toList

/-- The loop over the orders of a level of the given side; the flag goes on to the next level. -/
def writeOrders (side : Side) (price : Int) : OrderList → Bool → Text → Text × Bool
  | [], first, oss => (oss, first)
  | node :: rest, first, oss =>
      let oss := oss ++ separator first
      let oss := oss ++ "\x7b\"id\":".toList ++ number node.order.id ++
        ",\"user_id\":".toList ++ number node.order.userId ++
        (match side with
          | .buy => ",\"side\":\"bid\"".toList
          | .sell => ",\"side\":\"ask\"".toList) ++
        ",\"price\":".toList ++ number price ++ ",\"qty\":".toList ++ number node.order.qty ++
        "\x7d".toList
      writeOrders side price rest false oss

def writeSide (side : Side) : List (Int × OrderList) → Bool → Text → Text × Bool
  | [], first, oss => (oss, first)
  | (price, queue) :: rest, first, oss =>
      let written := writeOrders side price queue first oss
      writeSide side rest written.2 written.1

def serializeOrdersJson (book : OrderBook) : Text :=
  let oss := "\x7b\"type\":\"orders_update\",\"payload\":[".toList
  let bids := writeSide .buy book.bids.entries true oss
  let asks := writeSide .sell book.asks.entries bids.2 bids.1
  asks.1 ++ "]\x7d".toList

/-- The loop over the trades of a result. -/
def writeTrades : List Trade → Bool → Text → Text
  | [], _, oss => oss
  | t :: rest, first, oss =>
      let oss := oss ++ separator first
      let oss := oss ++ "\x7b\"price\":".toList ++ number t.price ++ ",\"qty\":".toList ++
        number t.qty ++ ",\"maker\":".toList ++ number t.makerId ++ ",\"taker\":".toList ++
        number t.takerId ++ "\x7d".toList
      writeTrades rest false oss

def jsonOrderResult (result : OrderResult) : Text :=
  let oss := "\x7b\"id\":".toList ++ number result.id ++ ",\"status\":\"".toList ++
    (statusToString result.status).toList ++ "\"".toList
  let oss :=
    if result.reason ≠ "" then
      oss ++ ",\"error\":\"".toList ++ result.reason.toList ++ "\"".toList
    else oss
  let oss := oss ++ ",\"originalQty\":".toList ++ number result.originalQty ++
    ",\"filledQty\":".toList ++ number result.filledQty ++
    ",\"remainingQty\":".toList ++ number result.remainingQty ++ ",\"trades\":[".toList
  writeTrades result.trades true oss ++ "]\x7d".toList

end SerializerLoops

/-! ## What the loops spell out -/

section Loops

/-- The items behind a flag: nothing in front of the very first, a comma before each other. -/
def flagged (first : Bool) (items : List Text) : Text :=
  if first then commaSeparated items else items.flatMap (',' :: ·)

theorem flagged_nil (first : Bool) : flagged first [] = [] := by cases first <;> rfl

theorem flagged_cons (first : Bool) (item : Text) (items : List Text) :
    flagged first (item :: items) = separator first ++ item ++ flagged false items := by
  cases first with
  | true => exact commas_cons item items
  | false => rfl

theorem flagged_true (items : List Text) : flagged true items = commaSeparated items := rfl

theorem flagged_append (first : Bool) (items more : List Text) :
    flagged first (items ++ more) =
      flagged first items ++ flagged (first && items.isEmpty) more := by
  induction items generalizing first with
  | nil => cases first <;> rfl
  | cons item items ih =>
      rw [List.cons_append, flagged_cons, flagged_cons, ih]
      simp

theorem isEmpty_append {Item : Type} (first second : List Item) :
    (first ++ second).isEmpty = (first.isEmpty && second.isEmpty) := by
  cases first <;> rfl

variable (host : Host) (oss : Text)

theorem writeQuantities_eq (queue : OrderList) (first : Bool) :
    SerializerLoops.writeQuantities queue first oss =
      oss ++ flagged first (queue.map fun node => number node.order.qty) := by
  induction queue generalizing first oss with
  | nil => cases first <;> exact (List.append_nil oss).symm
  | cons node rest ih =>
      rw [SerializerLoops.writeQuantities, ih, List.map_cons, flagged_cons]
      simp

theorem writeLevels_eq (depth : Nat) (entries : List (Int × OrderList)) (i : Nat) (first : Bool) :
    SerializerLoops.writeLevels host depth entries i first oss =
      oss ++ flagged first
        ((entries.take (depth - i)).map fun level => (levelLine host level).json) := by
  induction entries generalizing i first oss with
  | nil =>
      rw [SerializerLoops.writeLevels, List.take_nil, List.map_nil, flagged_nil, List.append_nil]
  | cons level rest ih =>
      obtain ⟨price, queue⟩ := level
      by_cases done : i ≥ depth
      · have none : depth - i = 0 := by omega
        rw [SerializerLoops.writeLevels, if_pos done, none, List.take_zero, List.map_nil,
          flagged_nil, List.append_nil]
      · obtain ⟨left, more⟩ : ∃ left, depth - i = left + 1 := ⟨depth - i - 1, by omega⟩
        have later : depth - (i + 1) = left := by omega
        rw [SerializerLoops.writeLevels, if_neg done, more, List.take_succ_cons, List.map_cons,
          flagged_cons, ih, later, writeQuantities_eq]
        unfold LevelLine.json levelLine
        simp only [flagged_true, List.map_map, Function.comp_def, List.append_assoc]

theorem serializeBookJson_eq (book : OrderBook) (depth : Nat) :
    SerializerLoops.serializeBookJson host book depth =
      serializeBookJson host book.snapshot depth := by
  unfold SerializerLoops.serializeBookJson serializeBookJson BookDocument.json bookDocument
  simp only [writeLevels_eq, flagged_true, Nat.sub_zero, OrderBook.snapshot, List.map_map,
    Function.comp_def]

theorem writeOrders_eq (side : Side) (price : Int) (queue : OrderList) (first : Bool) :
    SerializerLoops.writeOrders side price queue first oss =
      (oss ++ flagged first ((orderLines side (price, queue)).map OrderLine.json),
        first && queue.isEmpty) := by
  induction queue generalizing first oss with
  | nil =>
      unfold SerializerLoops.writeOrders
      rw [orderLines, List.map_nil, List.map_nil, flagged_nil,
        List.append_nil, List.isEmpty_nil, Bool.and_true]
  | cons node rest ih =>
      unfold SerializerLoops.writeOrders orderLines
      simp only [ih, orderLines, List.map_cons, flagged_cons, Bool.false_and, List.isEmpty_cons,
        Bool.and_false]
      unfold OrderLine.json
      cases side <;> simp only [List.append_assoc]

theorem writeSide_eq (side : Side) (entries : List (Int × OrderList)) (first : Bool) :
    SerializerLoops.writeSide side entries first oss =
      (oss ++ flagged first ((entries.flatMap (orderLines side)).map OrderLine.json),
        first && (entries.flatMap (orderLines side)).isEmpty) := by
  induction entries generalizing first oss with
  | nil =>
      rw [SerializerLoops.writeSide, List.flatMap_nil, List.map_nil, flagged_nil, List.append_nil,
        List.isEmpty_nil, Bool.and_true]
  | cons level rest ih =>
      obtain ⟨price, queue⟩ := level
      have empty : (orderLines side (price, queue)).isEmpty = queue.isEmpty := List.isEmpty_map
      rw [SerializerLoops.writeSide, writeOrders_eq, ih, List.flatMap_cons, List.map_append,
        flagged_append, List.isEmpty_map, empty, List.append_assoc, isEmpty_append, empty,
        Bool.and_assoc]

theorem serializeOrdersJson_eq (book : OrderBook) :
    SerializerLoops.serializeOrdersJson book = serializeOrdersJson book.snapshot := by
  unfold SerializerLoops.serializeOrdersJson serializeOrdersJson ordersJson ordersDocument
  rw [List.map_append, ← flagged_true, flagged_append, List.isEmpty_map]
  simp only [writeSide_eq, OrderBook.snapshot, List.append_assoc]

theorem writeTrades_eq (trades : List Trade) (first : Bool) :
    SerializerLoops.writeTrades trades first oss =
      oss ++ flagged first (trades.map (·.resultJson)) := by
  induction trades generalizing first oss with
  | nil => rw [SerializerLoops.writeTrades, List.map_nil, flagged_nil, List.append_nil]
  | cons t rest ih =>
      rw [SerializerLoops.writeTrades, ih, List.map_cons, flagged_cons]
      unfold Trade.resultJson
      simp only [List.append_assoc]

theorem jsonOrderResult_eq (result : OrderResult) :
    SerializerLoops.jsonOrderResult result = jsonOrderResult result := by
  unfold SerializerLoops.jsonOrderResult jsonOrderResult
  by_cases noReason : result.reason = ""
  · simp only [writeTrades_eq, flagged_true, if_pos noReason, if_neg (not_not.mpr noReason),
      List.append_nil, List.append_assoc]
  · simp only [writeTrades_eq, flagged_true, if_neg noReason, if_pos noReason, List.append_assoc]

end Loops

end OrderBookSimulator
