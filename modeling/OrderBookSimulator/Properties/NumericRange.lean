import OrderBookSimulator.Properties.ClientMessages

/-!
# Numbers that do not fit

A request writes its numbers with any number of digits.  `stoll` throws where
they do not fit a `long long`, and the price is cast to `int` after its sign
was checked, so that a price from 2^31 on becomes another one.
-/

namespace OrderBookSimulator

open Library Json

/-- A body with the numbers of an order as they are written. -/
structure OrderBody where
  side : Side
  type : OrderType
  price : Literal
  qty : Literal
  priceDigits : Literal.IsDigits price
  qtyDigits : Literal.IsDigits qty

def OrderBody.fields (body : OrderBody) : List (String × Value) :=
  [("side", .word (sideText body.side)), ("type", .word (typeText body.type)),
    ("price", .number body.price), ("qty", .number body.qty)]

/-- The body with the given numbers. -/
def OrderBody.ofNats (side : Side) (type : OrderType) (price qty : Nat) : OrderBody where
  side := side
  type := type
  price := .ofInt price
  qty := .ofInt qty
  priceDigits := isDigits_ofInt (Int.natCast_nonneg price)
  qtyDigits := isDigits_ofInt (Int.natCast_nonneg qty)

/-- A body with the id of a cancel request as it is written. -/
structure CancelBody where
  id : Literal
  idDigits : Literal.IsDigits id

def CancelBody.ofNat (id : Nat) : CancelBody where
  id := .ofInt id
  idDigits := isDigits_ofInt (Int.natCast_nonneg id)

def CancelBody.fields (body : CancelBody) : List (String × Value) := [("id", .number body.id)]

/-- Parsing returns, and either refuses the body or has every number as it was written. -/
def OrderBody.ReadExactly (body : OrderBody) (text : Text) : Prop :=
  ∃ parsed, parseOrderJson text = .ok parsed ∧
    ∀ request ∈ parsed, request.qty = body.qty.whole.value ∧
      (body.type = .limit → request.price = body.price.whole.value)

def CancelBody.ReadExactly (body : CancelBody) (text : Text) : Prop :=
  ∃ parsed, parseCancelJson text = .ok parsed ∧ ∀ id ∈ parsed, id = body.id.whole.value

theorem OrderBody.unambiguous (body : OrderBody) : Unambiguous body.fields where
  names field member := by
    simp only [fields, List.mem_cons, List.not_mem_nil, or_false] at member
    rcases member with rfl | rfl | rfl | rfl
    · exact (by decide : isKey "side".toList = true)
    · exact (by decide : isKey "type".toList = true)
    · exact (by decide : isKey "price".toList = true)
    · exact (by decide : isKey "qty".toList = true)
  distinct := by simp [fields]
  nowhere field member other otherMember := by
    have name : field.1 ∈ ["side", "type", "price", "qty"] :=
      List.mem_map_of_mem member
    have word_ne : ∀ word ∈ ["BUY", "SELL", "LIMIT", "MARKET"],
        ∀ name ∈ ["side", "type", "price", "qty"], word.toList ≠ name.toList := by decide
    simp only [fields, List.mem_cons, List.not_mem_nil, or_false] at otherMember
    rcases otherMember with rfl | rfl | rfl | rfl
    · exact not_contains_word (plain_sideText _)
        (word_ne _ (List.mem_append_left ["LIMIT", "MARKET"] (sideText_mem _)) _ name)
    · exact not_contains_word (plain_typeText _)
        (word_ne _ (List.mem_append_right ["BUY", "SELL"] (typeText_mem _)) _ name)
    · exact not_contains_number _ _
    · exact not_contains_number _ _

theorem CancelBody.unambiguous (body : CancelBody) : Unambiguous body.fields where
  names field member := by
    rw [List.mem_singleton.mp member]
    exact (by decide : isKey "id".toList = true)
  distinct := List.nodup_singleton _
  nowhere field _ other otherMember := by
    rw [List.mem_singleton.mp otherMember]
    exact not_contains_number _ _

theorem stoll_eq (literal : Literal) :
    stoll literal.whole.chars =
      if (literal.whole.value : Int) ≤ longLongMax then .ok (literal.whole.value : Int)
      else .error .outOfRange := by
  rw [stoll, readDigits_eq]

/-- A cast to `int` keeps a positive number if and only if it is below 2^31. -/
theorem castInt_eq_iff {value : Int} (positive : 0 < value) :
    castInt value = value ↔ value < 2 ^ 31 := by
  constructor
  · intro same
    unfold castInt at same
    have below := Int.bmod_lt (x := value) (m := 2 ^ 32) (by decide)
    omega
  · exact castInt_of_small (Int.le_of_lt positive)

section Order

variable (body : OrderBody) {fields : List (String × Value)}
variable (reordered : fields.Perm body.fields) {text : Text}
variable (writes : Writes (.record fields) text)

include reordered writes

/-- The numbers that decide the parse. -/
theorem parseOrderJson_body :
    parseOrderJson text =
      if longLongMax < body.qty.whole.value then .error .outOfRange
      else if body.qty.whole.value = 0 then .ok none
      else
        match body.type with
        | .market =>
            .ok (some { side := body.side, type := .market, price := 0, qty := body.qty.whole.value })
        | .limit =>
            if longLongMax < body.price.whole.value then .error .outOfRange
            else if body.price.whole.value = 0 then .ok none
            else .ok (some { side := body.side, type := .limit
                             price := castInt body.price.whole.value
                             qty := body.qty.whole.value }) := by
  have unambiguous := body.unambiguous.perm reordered
  have side := unambiguous.extractString writes "side" (plain_sideText body.side).plain
    (reordered.symm.subset (by simp [OrderBody.fields, Value.word]))
  have type := unambiguous.extractString writes "type" (plain_typeText body.type).plain
    (reordered.symm.subset (by simp [OrderBody.fields, Value.word]))
  have qty := unambiguous.extractDigits writes "qty" body.qtyDigits
    (reordered.symm.subset (by simp [OrderBody.fields]))
  have price := unambiguous.extractDigits writes "price" body.priceDigits
    (reordered.symm.subset (by simp [OrderBody.fields]))
  have typeFound : (extractStringField text "type").getD "LIMIT".toList =
      (typeText body.type).toList := by
    rw [type]
    rfl
  rw [parseOrderJson_of_words side typeFound, parseNumbers, qty, price, stoll_eq, stoll_eq]
  by_cases qtyFits : (body.qty.whole.value : Int) ≤ longLongMax
  · rw [if_pos qtyFits, if_neg (Int.not_lt.mpr qtyFits)]
    by_cases noQty : body.qty.whole.value = 0
    · simp [Except.map, noQty]
    · simp only [Except.map, if_neg noQty, if_neg (show ¬ (body.qty.whole.value : Int) ≤ 0 by omega)]
      cases body.type with
      | market => rfl
      | limit =>
          by_cases priceFits : (body.price.whole.value : Int) ≤ longLongMax
          · rw [if_pos priceFits, if_neg (Int.not_lt.mpr priceFits)]
            by_cases noPrice : body.price.whole.value = 0
            · simp [noPrice]
            · simp only [if_neg noPrice,
                if_neg (show ¬ (body.price.whole.value : Int) ≤ 0 by omega)]
          · rw [if_neg priceFits, if_pos (Int.not_le.mp priceFits)]
  · rw [if_neg qtyFits, if_pos (Int.not_le.mp qtyFits)]
    rfl

/-- An order is read exactly if its numbers fit, and its price fits an `int`. -/
theorem orderReadExactly_iff :
    body.ReadExactly text ↔ body.qty.whole.value ≤ longLongMax ∧
      (body.type = .limit → 0 < body.qty.whole.value → body.price.whole.value < 2 ^ 31) := by
  have parsed := parseOrderJson_body body reordered writes
  unfold OrderBody.ReadExactly
  rw [parsed]
  by_cases qtyFits : (body.qty.whole.value : Int) ≤ longLongMax
  · rw [if_neg (Int.not_lt.mpr qtyFits)]
    by_cases noQty : body.qty.whole.value = 0
    · simp [noQty, longLongMax]
    · rw [if_neg noQty]
      cases body.type with
      | market => simp [qtyFits]
      | limit =>
          have positive : 0 < body.qty.whole.value := Nat.pos_of_ne_zero noQty
          by_cases priceFits : (body.price.whole.value : Int) ≤ longLongMax
          · by_cases noPrice : body.price.whole.value = 0
            · have small : ¬ longLongMax < 0 := by decide
              simp [qtyFits, noPrice, small]
            · have exact_iff := castInt_eq_iff
                (by omega : (0 : Int) < body.price.whole.value)
              simp only [if_neg (Int.not_lt.mpr priceFits), if_neg noPrice]
              simp [qtyFits, positive, exact_iff]
          · have tooLarge : 2147483648 ≤ body.price.whole.value := by
              unfold longLongMax at priceFits
              omega
            simp [Int.not_le.mp priceFits, qtyFits, positive, tooLarge]
  · simp [Int.not_le.mp qtyFits, qtyFits]

end Order

theorem cancelReadExactly_iff (body : CancelBody) {text : Text}
    (writes : Writes (.record body.fields) text) :
    body.ReadExactly text ↔ body.id.whole.value ≤ longLongMax := by
  have id := body.unambiguous.extractDigits writes "id" body.idDigits (.head _)
  unfold CancelBody.ReadExactly
  rw [parseCancelJson, id, stoll_eq]
  by_cases fits : (body.id.whole.value : Int) ≤ longLongMax
  · simp only [Except.map, fits, iff_true]
    by_cases noId : (body.id.whole.value : Int) ≤ 0
    · exact ⟨none, if_pos noId, by simp⟩
    · exact ⟨some body.id.whole.value, if_neg noId, by simp⟩
  · simp [Except.map, fits]

/--
Orders and cancel requests are read exactly if and only if every number read
fits a `long long` and the price of an order fits an `int`.
-/
theorem numbers_read_exactly_iff (order : OrderBody) (cancel : CancelBody)
    {fields : List (String × Value)} {orderText cancelText : Text}
    (reordered : fields.Perm order.fields) (orderWrites : Writes (.record fields) orderText)
    (cancelWrites : Writes (.record cancel.fields) cancelText) :
    (order.ReadExactly orderText ↔ order.qty.whole.value ≤ longLongMax ∧
      (order.type = .limit → 0 < order.qty.whole.value → order.price.whole.value < 2 ^ 31)) ∧
    (cancel.ReadExactly cancelText ↔ cancel.id.whole.value ≤ longLongMax) :=
  ⟨orderReadExactly_iff order reordered orderWrites, cancelReadExactly_iff cancel cancelWrites⟩

/-- The largest price and the largest id that fit. -/
theorem numbers_read_exactly_sample :
    (OrderBody.ofNats .buy .limit 2147483647 3).ReadExactly
      "\x7b\"side\":\"BUY\",\"type\":\"LIMIT\",\"price\":2147483647,\"qty\":3\x7d".toList ∧
    (CancelBody.ofNat 9223372036854775807).ReadExactly
      "\x7b\"id\":9223372036854775807\x7d".toList := by
  have ⟨order, cancel⟩ := numbers_read_exactly_iff (OrderBody.ofNats .buy .limit 2147483647 3)
    (CancelBody.ofNat 9223372036854775807) (.refl _) (writes_written _) (writes_written _)
  exact ⟨order.mpr ⟨by decide, fun _ _ => by decide⟩, cancel.mpr (by decide)⟩

/-- A price of 2^32 + 5 is taken for 5, and an id of 2^63 is thrown. -/
theorem price_narrowed :
    ¬ (OrderBody.ofNats .buy .limit 4294967301 1).ReadExactly
      "\x7b\"side\":\"BUY\",\"type\":\"LIMIT\",\"price\":4294967301,\"qty\":1\x7d".toList ∧
    ¬ (CancelBody.ofNat 9223372036854775808).ReadExactly
      "\x7b\"id\":9223372036854775808\x7d".toList := by
  have parsed : parseOrderJson
      "\x7b\"side\":\"BUY\",\"type\":\"LIMIT\",\"price\":4294967301,\"qty\":1\x7d".toList =
        .ok (some { side := .buy, type := .limit, price := 5, qty := 1 }) := by rfl
  have thrown : parseCancelJson "\x7b\"id\":9223372036854775808\x7d".toList =
      .error .outOfRange := by rfl
  constructor
  · rintro ⟨_, returned, exactly⟩
    rw [parsed] at returned
    cases returned
    exact absurd ((exactly _ rfl).2 rfl) (by decide)
  · rintro ⟨_, returned, _⟩
    rw [thrown] at returned
    cases returned

end OrderBookSimulator
