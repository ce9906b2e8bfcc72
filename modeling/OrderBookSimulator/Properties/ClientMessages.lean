import OrderBookSimulator.Server.ScanningJson
import OrderBookSimulator.Server.Server

/-!
# Client messages

What `OrderEntry` and `send` put into an order, and what the cancel button puts
into its request, is what the server reads out of it, in whatever order the
members stand and however they are spaced.
-/

namespace OrderBookSimulator

open Library Json

/-! ## The messages -/

def sideText : Side → String
  | .buy => "BUY"
  | .sell => "SELL"

def typeText : OrderType → String
  | .limit => "LIMIT"
  | .market => "MARKET"

/-- What `crypto.randomUUID` is made of. -/
def isIdChar (c : Char) : Bool := isHex c || c = '-'

/-- What `submitOrder` sends; the price of a market order is not sent. -/
structure OrderMessage where
  side : Side
  type : OrderType
  qty : Int
  price : Int
  userId : Int
  requestId : Text
  qtyRange : 1 ≤ qty ∧ qty ≤ longLongMax
  priceRange : 1 ≤ price ∧ price < 2 ^ 31
  userIdRange : 0 ≤ userId ∧ userId ≤ longLongMax
  requestIdNonempty : requestId ≠ []
  requestIdChars : requestId.all isIdChar = true

namespace OrderMessage

def priceField (message : OrderMessage) : List (String × Value) :=
  match message.type with
  | .limit => [("price", .int message.price)]
  | .market => []

def fields (message : OrderMessage) : List (String × Value) :=
  [("action", .word "order"), ("side", .word (sideText message.side)), ("qty", .int message.qty),
    ("type", .word (typeText message.type))] ++ message.priceField ++
    [("user_id", .int message.userId), ("requestId", .text message.requestId)]

/-- What the server should make of the message. -/
def request (message : OrderMessage) : OrderRequest where
  side := message.side
  type := message.type
  price :=
    match message.type with
    | .limit => message.price
    | .market => 0
  qty := message.qty

end OrderMessage

/-- What `cancelOrder` sends. -/
structure CancelMessage where
  id : Int
  userId : Int
  idRange : 1 ≤ id ∧ id ≤ longLongMax
  userIdRange : 0 ≤ userId ∧ userId ≤ longLongMax

def CancelMessage.fields (message : CancelMessage) : List (String × Value) :=
  [("id", .int message.id), ("user_id", .int message.userId)]

/-! ## No name is found in a value -/

theorem plain_of_isIdChar {id : Text} (chars : id.all isIdChar = true) :
    ∀ c ∈ id, isPlain c = true := by
  intro c member
  have idChar := List.all_eq_true.mp chars c member
  have notQuote : c ≠ '"' := by rintro rfl; revert idChar; decide
  have notBackslash : c ≠ '\\' := by rintro rfl; revert idChar; decide
  have code : 32 ≤ c.toNat := by
    simp only [isIdChar, isHex, Char.isDigit, Bool.or_eq_true, Bool.and_eq_true,
      decide_eq_true_eq] at idChar
    rcases idChar with ((digit | lower) | upper) | rfl
    · exact Nat.le_trans (by decide : 32 ≤ 48) digit.1
    · exact Nat.le_trans (by decide : 32 ≤ 97) lower.1
    · exact Nat.le_trans (by decide : 32 ≤ 65) upper.1
    · exact (by decide : 32 ≤ 45)
  simp only [isPlain, Bool.and_eq_true, decide_eq_true_eq]
  exact ⟨⟨notQuote, notBackslash⟩, code⟩

theorem plain_sideText (side : Side) : PlainWord (sideText side) := by
  cases side <;> decide

theorem plain_typeText (type : OrderType) : PlainWord (typeText type) := by
  cases type <;> decide

theorem isKey_sideText (side : Side) : isKey (sideText side).toList = true := by
  cases side <;> decide

theorem isKey_typeText (type : OrderType) : isKey (typeText type).toList = true := by
  cases type <;> decide

theorem sideText_mem (side : Side) : sideText side ∈ ["BUY", "SELL"] := by
  cases side <;> simp [sideText]

theorem typeText_mem (type : OrderType) : typeText type ∈ ["LIMIT", "MARKET"] := by
  cases type <;> simp [typeText]

namespace OrderMessage

variable (message : OrderMessage)

def names : List String := ["action", "side", "qty", "type", "price", "user_id", "requestId"]

theorem name_mem {field : String × Value} (member : field ∈ message.fields) : field.1 ∈ names := by
  have sublist : (message.fields.map (·.1)).Sublist names := by
    unfold fields priceField
    cases message.type <;> simp [names]
  exact sublist.subset (List.mem_map_of_mem member)

theorem requestId_ne_name {name : String} (member : name ∈ names) :
    message.requestId ≠ name.toList := by
  intro same
  have others : ∀ name ∈ names, (name.toList.all isIdChar) = false := by decide
  have chars := message.requestIdChars
  rw [same, others name member] at chars
  cases chars

theorem unambiguous : Unambiguous message.fields where
  names field member := by
    have words : ∀ name ∈ names, isKey name.toList = true := by decide
    exact words _ (message.name_mem member)
  distinct := by
    unfold fields priceField
    cases message.type <;> simp
  nowhere field member other otherMember := by
    have isName := message.name_mem member
    have word_ne : ∀ word ∈ ["order", "BUY", "SELL", "LIMIT", "MARKET"], ∀ name ∈ names,
        word.toList ≠ name.toList := by decide
    have requestId_not : ¬ Contains field.1.toList (.text message.requestId) :=
      (contains_text_iff (plain_of_isIdChar message.requestIdChars)).not.mpr
        (message.requestId_ne_name isName)
    have inValues : ¬ Contains field.1.toList other.2 ∨ other ∈ message.priceField := by
      simp only [fields, List.mem_append, List.mem_cons, List.not_mem_nil, or_false] at otherMember
      rcases otherMember with ((rfl | rfl | rfl | rfl) | inPrice) | rfl | rfl
      · exact Or.inl (not_contains_word (by decide) (word_ne _ (.head _) _ isName))
      · exact Or.inl (not_contains_word (plain_sideText _) (word_ne _
          (.tail _ (List.mem_append_left ["LIMIT", "MARKET"] (sideText_mem _))) _ isName))
      · exact Or.inl (not_contains_number _ _)
      · exact Or.inl (not_contains_word (plain_typeText _) (word_ne _
          (.tail _ (List.mem_append_right ["BUY", "SELL"] (typeText_mem _))) _ isName))
      · exact Or.inr inPrice
      · exact Or.inl (not_contains_number _ _)
      · exact Or.inl requestId_not
    rcases inValues with hidden | inPrice
    · exact hidden
    · unfold priceField at inPrice
      cases type : message.type with
      | limit =>
          rw [type] at inPrice
          rw [List.mem_singleton.mp inPrice]
          exact not_contains_number _ _
      | market =>
          rw [type] at inPrice
          cases inPrice

end OrderMessage

theorem CancelMessage.unambiguous (message : CancelMessage) : Unambiguous message.fields where
  names field member := by
    simp only [fields, List.mem_cons, List.not_mem_nil, or_false] at member
    rcases member with rfl | rfl
    · exact (by decide : isKey "id".toList = true)
    · exact (by decide : isKey "user_id".toList = true)
  distinct := by simp [fields]
  nowhere field _ other otherMember := by
    simp only [fields, List.mem_cons, List.not_mem_nil, or_false] at otherMember
    rcases otherMember with rfl | rfl <;> exact not_contains_number _ _

/-! ## What the server reads -/

/-- Parsing, once the side and the type are known words. -/
def parseNumbers (body : Text) (side : Side) (type : OrderType) :
    Except Thrown (Option OrderRequest) :=
  match extractIntField body "qty" with
  | .error thrown => .error thrown
  | .ok none => .ok none
  | .ok (some qty) =>
      if qty ≤ 0 then .ok none
      else
        match type with
        | .market => .ok (some { side, type, price := 0, qty })
        | .limit =>
            match extractIntField body "price" with
            | .error thrown => .error thrown
            | .ok none => .ok none
            | .ok (some price) =>
                if price ≤ 0 then .ok none
                else .ok (some { side, type, price := castInt price, qty })

theorem parseOrderJson_of_words {text : Text} {side : Side} {type : OrderType}
    (sideFound : extractStringField text "side" = some (sideText side).toList)
    (typeFound : (extractStringField text "type").getD "LIMIT".toList = (typeText type).toList) :
    parseOrderJson text = parseNumbers text side type := by
  have sideOf : (if (sideText side).toList = "BUY".toList then Side.buy else .sell) = side := by
    cases side <;> rfl
  have sideKnown : ¬ ((sideText side).toList ≠ "BUY".toList ∧
      (sideText side).toList ≠ "SELL".toList) := by
    cases side <;> decide
  unfold parseOrderJson parseNumbers
  rw [sideFound, typeFound]
  simp only [sideOf, if_neg sideKnown]
  rcases extractIntField text "qty" with thrown | _ | qty
  · rfl
  · rfl
  · cases type with
    | market => simp [typeText]
    | limit =>
        rcases extractIntField text "price" with thrown | _ | price
        · simp [typeText]
        · simp [typeText]
        · simp [typeText]

section Order

variable (message : OrderMessage) {fields : List (String × Value)}
variable (reordered : fields.Perm message.fields) {text : Text}
variable (writes : Writes (.record fields) text)

include reordered writes

theorem parseOrderJson_message : parseOrderJson text = .ok (some message.request) := by
  have unambiguous := message.unambiguous.perm reordered
  have field_mem : ∀ field ∈ message.fields, field ∈ fields := fun _ member =>
    reordered.symm.subset member
  have qtyRange := message.qtyRange
  have priceRange := message.priceRange
  have side := unambiguous.extractString writes "side" (plain_sideText message.side).plain
    (field_mem _ (by simp [OrderMessage.fields, Value.word]))
  have type := unambiguous.extractString writes "type" (plain_typeText message.type).plain
    (field_mem _ (by simp [OrderMessage.fields, Value.word]))
  have qty := unambiguous.extractInt writes "qty" (n := message.qty) (by omega)
    qtyRange.2 (field_mem _ (by simp [OrderMessage.fields]))
  have typeFound : (extractStringField text "type").getD "LIMIT".toList =
      (typeText message.type).toList := by
    rw [type]
    rfl
  rw [parseOrderJson_of_words side typeFound, parseNumbers, qty]
  simp only [if_neg (show ¬ message.qty ≤ 0 by omega)]
  cases isType : message.type with
  | market => simp [OrderMessage.request, isType]
  | limit =>
      have price := unambiguous.extractInt writes "price" (n := message.price) (by omega)
        (by unfold longLongMax; omega)
        (field_mem _ (by simp [OrderMessage.fields, OrderMessage.priceField, isType]))
      have same := castInt_of_small (by omega) priceRange.2
      rw [price]
      simp only [if_neg (show ¬ message.price ≤ 0 by omega), same]
      simp [OrderMessage.request, isType]

theorem action_message : extractStringField text "action" = some "order".toList := by
  have plain : PlainWord "order" := by decide
  exact (message.unambiguous.perm reordered).extractString writes "action" plain.plain
    (reordered.symm.subset (by simp [OrderMessage.fields, Value.word]))

theorem requestId_message : extractStringField text "requestId" = some message.requestId :=
  (message.unambiguous.perm reordered).extractString writes "requestId"
    (plain_of_isIdChar message.requestIdChars)
    (reordered.symm.subset (by simp [OrderMessage.fields]))

theorem userId_message : extractIntField text "user_id" = .ok (some message.userId) :=
  (message.unambiguous.perm reordered).extractInt writes "user_id" message.userIdRange.1
    message.userIdRange.2 (reordered.symm.subset (by simp [OrderMessage.fields]))

theorem processMessage_message : processMessage text = .ok (.drawId message.request) := by
  unfold processMessage
  rw [action_message message reordered writes, parseOrderJson_message message reordered writes]
  rfl

end Order

section Cancel

variable (message : CancelMessage) {fields : List (String × Value)}
variable (reordered : fields.Perm message.fields) {text : Text}
variable (writes : Writes (.record fields) text)

include reordered writes

theorem parseCancelJson_message : parseCancelJson text = .ok (some message.id) := by
  have id := (message.unambiguous.perm reordered).extractInt writes "id"
    (n := message.id) (by have := message.idRange; omega) message.idRange.2
    (reordered.symm.subset (by simp [CancelMessage.fields]))
  have positive : ¬ message.id ≤ 0 := by have := message.idRange; omega
  rw [parseCancelJson, id]
  exact if_neg positive

theorem userId_cancelMessage : extractIntField text "user_id" = .ok (some message.userId) :=
  (message.unambiguous.perm reordered).extractInt writes "user_id" message.userIdRange.1
    message.userIdRange.2 (reordered.symm.subset (by simp [CancelMessage.fields]))

end Cancel

/--
Every order and every cancel request is read as it was meant, in whatever order
its members stand and whatever blanks stand between its tokens.
-/
theorem client_messages_round_trip :
    (∀ (message : OrderMessage) (fields : List (String × Value)) (text : Text),
      fields.Perm message.fields → Writes (.record fields) text →
        parseOrderJson text = .ok (some message.request) ∧
        extractStringField text "action" = some "order".toList ∧
        extractStringField text "requestId" = some message.requestId ∧
        processMessage text = .ok (.drawId message.request) ∧
        extractIntField text "user_id" = .ok (some message.userId)) ∧
    ∀ (message : CancelMessage) (fields : List (String × Value)) (text : Text),
      fields.Perm message.fields → Writes (.record fields) text →
        parseCancelJson text = .ok (some message.id) ∧
        extractIntField text "user_id" = .ok (some message.userId) := by
  constructor
  · intro message fields text reordered writes
    exact ⟨parseOrderJson_message message reordered writes,
      action_message message reordered writes, requestId_message message reordered writes,
      processMessage_message message reordered writes, userId_message message reordered writes⟩
  · intro message fields text reordered writes
    exact ⟨parseCancelJson_message message reordered writes,
      userId_cancelMessage message reordered writes⟩

/-- A limit order with its members the other way round, and a cancel request. -/
theorem client_messages_round_trip_sample :
    parseOrderJson (Value.record [("requestId", .text "9b-2f".toList), ("user_id", .int 7),
        ("price", .int 101), ("type", .word "LIMIT"), ("qty", .int 3), ("side", .word "SELL"),
        ("action", .word "order")]).written =
      .ok (some { side := .sell, type := .limit, price := 101, qty := 3 }) ∧
    parseCancelJson (Value.record [("user_id", .int 7), ("id", .int 1001)]).written =
      .ok (some 1001) := by
  let order : OrderMessage :=
    { side := .sell, type := .limit, qty := 3, price := 101, userId := 7
      requestId := "9b-2f".toList, qtyRange := by decide, priceRange := by decide
      userIdRange := by decide, requestIdNonempty := by decide, requestIdChars := by decide }
  let cancel : CancelMessage :=
    { id := 1001, userId := 7, idRange := by decide, userIdRange := by decide }
  have parsedOrder := (client_messages_round_trip.1 order _ _ (List.reverse_perm _)
    (writes_written _)).1
  have parsedCancel := (client_messages_round_trip.2 cancel _ _ (List.reverse_perm _)
    (writes_written _)).1
  exact ⟨parsedOrder, parsedCancel⟩

end OrderBookSimulator
