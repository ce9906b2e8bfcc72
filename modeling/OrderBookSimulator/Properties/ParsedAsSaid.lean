import OrderBookSimulator.Properties.NumericRange
import OrderBookSimulator.Server.Landing

/-!
# What the JSON says

A request is read as the object says it where each key first stands as the name
of a member that is written with digits only, or is a string without escaped
quotes.  Signs, fractions, exponents, nulls, strings, nested members and keys
used as values all make the scan leave its member.
-/

namespace OrderBookSimulator

open Library Json

/-! ## What an object says -/

section Says

variable (members : List (List Piece × Value)) (key : String)

def SaysNumber (n : Int) : Prop :=
  ∃ name literal, (name, .number literal) ∈ members ∧ stringValue name = key.toList ∧
    literal.int? = some n

def SaysText (word : Text) : Prop :=
  ∃ name pieces, (name, .string pieces) ∈ members ∧ stringValue name = key.toList ∧
    stringValue pieces = word

def SaysNothing : Prop := ∀ member ∈ members, stringValue member.1 ≠ key.toList

end Says

/-- The order is the one the object describes. -/
def SaysOrder (members : List (List Piece × Value)) (request : OrderRequest) : Prop :=
  SaysText members "side" (sideText request.side).toList ∧
  (0 < request.qty ∧ SaysNumber members "qty" request.qty) ∧
  (SaysNothing members "type" ∨ SaysText members "type" (typeText request.type).toList) ∧
  (request.type = .limit → 0 < request.price ∧ SaysNumber members "price" request.price)

/-- Whatever is read of the text is what the object says. -/
def ParsedAsSaid (members : List (List Piece × Value)) (text : Text) : Prop :=
  (∀ request, parseOrderJson text = .ok (some request) → SaysOrder members request) ∧
  ∀ key ∈ ["user_id", "id"], ∀ n, extractIntField text key = .ok (some n) →
    SaysNumber members key n

/-! ## What is read -/

/-- The order that is made of the words and the numbers found. -/
structure OrderRead (word : String → Option Text) (number : String → Option Int)
    (request : OrderRequest) : Prop where
  side : word "side" = some (sideText request.side).toList
  qty : number "qty" = some request.qty
  qtyRange : 0 < request.qty ∧ request.qty ≤ longLongMax
  type : (word "type").getD "LIMIT".toList = (typeText request.type).toList
  market : request.type = .market → request.price = 0
  limit : request.type = .limit → ∃ price, number "price" = some price ∧
    (0 < price ∧ price ≤ longLongMax) ∧ request.price = castInt price

theorem extractIntField_eq_some_iff {text : Text} {key : String} {n : Int} :
    extractIntField text key = .ok (some n) ↔ numberFound text key = some n ∧ n ≤ longLongMax := by
  rw [extractIntField_eq]
  cases numberFound text key with
  | none => simp
  | some m =>
      by_cases fits : m ≤ longLongMax
      · simp only [if_pos fits, Except.ok.injEq, Option.some.injEq]
        constructor
        · rintro rfl
          exact ⟨rfl, fits⟩
        · exact fun same => same.1
      · simp only [if_neg fits, Option.some.injEq]
        constructor
        · exact fun thrown => nomatch thrown
        · rintro ⟨rfl, small⟩
          exact absurd small fits

/-- An accepted text has a known side and a known type. -/
theorem words_of_parsed {text : Text} {request : OrderRequest}
    (parsed : parseOrderJson text = .ok (some request)) :
    ∃ side type, extractStringField text "side" = some (sideText side).toList ∧
      (extractStringField text "type").getD "LIMIT".toList = (typeText type).toList := by
  unfold parseOrderJson at parsed
  generalize extractStringField text "side" = foundSide at parsed ⊢
  generalize (extractStringField text "type").getD "LIMIT".toList = typeWord at parsed ⊢
  rcases foundSide with _ | sideWord
  · cases parsed
  generalize extractIntField text "qty" = foundQty at parsed
  rcases foundQty with thrown | _ | qty
  · cases parsed
  · cases parsed
  simp only at parsed
  by_cases unknown : sideWord ≠ "BUY".toList ∧ sideWord ≠ "SELL".toList
  · rw [if_pos unknown] at parsed
    cases parsed
  have known : ∃ side, some sideWord = some (sideText side).toList := by
    by_cases buy : sideWord = "BUY".toList
    · exact ⟨.buy, by rw [buy]; rfl⟩
    · have sell : sideWord = "SELL".toList := not_not.mp fun notSell => unknown ⟨buy, notSell⟩
      exact ⟨.sell, by rw [sell]; rfl⟩
  obtain ⟨side, isSide⟩ := known
  refine ⟨side, ?_⟩
  by_cases market : typeWord = "MARKET".toList
  · exact ⟨.market, isSide, market⟩
  by_cases limit : typeWord = "LIMIT".toList
  · exact ⟨.limit, isSide, limit⟩
  rw [if_neg unknown, if_neg market, if_neg limit, ite_self] at parsed
  cases parsed

/-- Parsing accepts the orders that are made of what the scanners find. -/
theorem parseOrderJson_iff {text : Text} {request : OrderRequest} :
    parseOrderJson text = .ok (some request) ↔
      OrderRead (extractStringField text) (numberFound text) request := by
  constructor
  · intro parsed
    obtain ⟨side, type, sideFound, typeFound⟩ := words_of_parsed parsed
    rw [parseOrderJson_of_words sideFound typeFound, parseNumbers] at parsed
    generalize found : extractIntField text "qty" = foundQty at parsed
    rcases foundQty with thrown | _ | qty
    · cases parsed
    · cases parsed
    obtain ⟨isQty, fits⟩ := extractIntField_eq_some_iff.mp found
    simp only at parsed
    by_cases negative : qty ≤ 0
    · rw [if_pos negative] at parsed
      cases parsed
    rw [if_neg negative] at parsed
    cases type with
    | market =>
        cases parsed
        exact ⟨sideFound, isQty, ⟨Int.not_le.mp negative, fits⟩, typeFound, fun _ => rfl,
          (fun limit => by cases limit)⟩
    | limit =>
        generalize found : extractIntField text "price" = foundPrice at parsed
        rcases foundPrice with thrown | _ | price
        · cases parsed
        · cases parsed
        obtain ⟨isPrice, priceFits⟩ := extractIntField_eq_some_iff.mp found
        simp only at parsed
        by_cases noPrice : price ≤ 0
        · rw [if_pos noPrice] at parsed
          cases parsed
        rw [if_neg noPrice] at parsed
        cases parsed
        exact ⟨sideFound, isQty, ⟨Int.not_le.mp negative, fits⟩, typeFound,
          (fun market => by cases market),
          fun _ => ⟨price, isPrice, ⟨Int.not_le.mp noPrice, priceFits⟩, rfl⟩⟩
  · rintro ⟨isSide, isQty, qtyRange, isType, market, limit⟩
    have foundQty := extractIntField_eq_some_iff.mpr ⟨isQty, qtyRange.2⟩
    rw [parseOrderJson_of_words isSide isType, parseNumbers, foundQty]
    simp only [if_neg (Int.not_le.mpr qtyRange.1)]
    obtain ⟨side, type, price, qty⟩ := request
    cases type with
    | market =>
        obtain rfl : price = 0 := market rfl
        rfl
    | limit =>
        obtain ⟨number, found, range, rfl⟩ := limit rfl
        have foundPrice := extractIntField_eq_some_iff.mpr ⟨found, range.2⟩
        simp only [foundPrice, if_neg (Int.not_le.mpr range.1)]

/-! ## What the tokens show -/

section Tokens

variable {members : List (List Piece × Value)} {text : Text} (writes : Writes (.object members) text)

include writes

/-- Parsing accepts the orders that are made of what the tokens show. -/
theorem parseOrderJson_object {request : OrderRequest} :
    parseOrderJson text = .ok (some request) ↔
      OrderRead (landedText (objectTokens members)) (landedNumber (objectTokens members))
        request := by
  have side_iff := extractStringField_object writes (by decide : isKey "side".toList = true)
    (isKey_sideText request.side)
  have type_iff := getD_extractStringField_object writes
    (by decide : isKey "type".toList = true) "LIMIT".toList (isKey_typeText request.type)
  have qty := numberFound_object writes (by decide : isKey "qty".toList = true)
  have price := numberFound_object writes (by decide : isKey "price".toList = true)
  rw [parseOrderJson_iff]
  constructor
  · rintro ⟨isSide, isQty, qtyRange, isType, market, limit⟩
    exact ⟨side_iff.mp isSide, qty ▸ isQty, qtyRange, type_iff.mp isType, market, price ▸ limit⟩
  · rintro ⟨isSide, isQty, qtyRange, isType, market, limit⟩
    exact ⟨side_iff.mpr isSide, qty ▸ isQty, qtyRange, type_iff.mpr isType, market, price ▸ limit⟩

end Tokens

/-! ## Which members are read -/

section Read

variable (members : List (List Piece × Value)) (key : String)

/-- The first string that carries the key is the name of this member. -/
def Leads (value : Value) : Prop :=
  ∃ before name after, members = before ++ (name, value) :: after ∧
    stringText name = key.toList ∧
    ∀ member ∈ before, ∀ pieces, .string pieces ∈ memberTokens member →
      ¬ Carries key.toList pieces

/-- No string of the object carries the key. -/
def Absent : Prop :=
  ∀ member ∈ members, ∀ pieces, .string pieces ∈ memberTokens member → ¬ Carries key.toList pieces

/-- The key first stands as the name of a string without escaped quotes. -/
def LeadsToText (word : Text) : Prop :=
  ∃ pieces, Leads members key (.string pieces) ∧ '"' ∉ stringText pieces ∧ stringText pieces = word

/-- The key first stands as the name of a number that is written with digits only. -/
def LeadsToDigits (n : Nat) : Prop :=
  ∃ literal, Leads members key (.number literal) ∧ Literal.IsDigits literal ∧
    literal.whole.value = n

end Read

/-- Refused, whatever else the object says. -/
inductive Refused (members : List (List Piece × Value)) : Prop where
  | noSide (absent : Absent members "side")
  | otherSide (word : Text) (leads : LeadsToText members "side" word)
      (other : ∀ side, word ≠ (sideText side).toList)
  | noQty (absent : Absent members "qty")
  | zeroQty (leads : LeadsToDigits members "qty" 0)
  | otherType (word : Text) (leads : LeadsToText members "type" word)
      (other : ∀ type, word ≠ (typeText type).toList)

/-- What an order needs stands in the members of these names. -/
structure OrderOfMembers (members : List (List Piece × Value)) : Prop where
  side : ∃ word, LeadsToText members "side" word
  qty : ∃ n, LeadsToDigits members "qty" n
  type : SaysNothing members "type" ∨ ∃ word, LeadsToText members "type" word
  price : LeadsToText members "type" "MARKET".toList ∨ Absent members "price" ∨
    ∃ n : Nat, LeadsToDigits members "price" n ∧ FitsInt n

/-- The scan for each key that is used stays in the member of that name. -/
structure ReadOfMembers (members : List (List Piece × Value)) : Prop where
  order : Refused members ∨ OrderOfMembers members
  numbers : ∀ key ∈ ["user_id", "id"], Absent members key ∨ ∃ n, LeadsToDigits members key n

theorem mem_separated {Item : Type} {mark token : Item} {items : List (List Item)}
    (member : token ∈ separated mark items) : token = mark ∨ ∃ item ∈ items, token ∈ item := by
  cases items with
  | nil => cases member
  | cons first rest =>
      rcases List.mem_append.mp member with inFirst | inRest
      · exact Or.inr ⟨first, .head _, inFirst⟩
      · obtain ⟨item, inItems, inItem⟩ := List.mem_flatMap.mp inRest
        rcases List.mem_cons.mp inItem with isMark | inItem
        · exact Or.inl isMark
        · exact Or.inr ⟨item, .tail _ inItems, inItem⟩

/-- A key that no member carries is not found. -/
theorem Absent.landing {members : List (List Piece × Value)} {key : String}
    (absent : Absent members key) : landing (objectTokens members) key = none := by
  have notInTokens : ∀ pieces, .string pieces ∈ objectTokens members →
      ¬ Carries key.toList pieces := by
    intro pieces member
    rw [objectTokens, tokens_object] at member
    rcases List.mem_cons.mp member with isBrace | member
    · cases isBrace
    rcases List.mem_append.mp member with inside | isBrace
    · rcases mem_separated inside with isComma | ⟨tokens, isMember, inTokens⟩
      · cases isComma
      · obtain ⟨other, inMembers, rfl⟩ := List.mem_map.mp isMember
        exact absent other inMembers pieces inTokens
    · cases List.mem_singleton.mp isBrace
  rcases behindKey_cases key.toList (objectTokens members) with
    ⟨none, _⟩ | ⟨front, pieces, rest, same, _, carries, _⟩
  · rw [OrderBookSimulator.landing, none]
    rfl
  · exact absurd carries (notInTokens pieces (by rw [same]; simp))

theorem Absent.landedNumber {members : List (List Piece × Value)} {key : String}
    (absent : Absent members key) : landedNumber (objectTokens members) key = none := by
  rw [OrderBookSimulator.landedNumber, absent.landing]
  rfl

theorem Absent.landedText {members : List (List Piece × Value)} {key : String}
    (absent : Absent members key) : landedText (objectTokens members) key = none := by
  rw [OrderBookSimulator.landedText, absent.landing]
  rfl

theorem stringValue_of_stringText {pieces : List Piece} {word : Text} (isWord : isKey word = true)
    (same : stringText pieces = word) : stringValue pieces = word := by
  subst same
  rw [eq_plainPieces (backslash_not_mem_key isWord),
    stringValue_plainPieces (isPlain_of_isKey isWord), ← eq_plainPieces (backslash_not_mem_key isWord)]

section Leads

variable {members : List (List Piece × Value)} {key : String}

theorem landing_of_leads {value : Value} (leads : Leads members key value) :
    ∃ back, landing (objectTokens members) key = some (.outside (value.tokens ++ back)) := by
  obtain ⟨before, name, after, rfl, named, absent⟩ := leads
  obtain ⟨front, back, tokens, absentInFront, _⟩ := tokens_around name value after absent
  refine ⟨back, ?_⟩
  rw [landing, objectTokens, tokens,
    behindKey_of_first absentInFront ⟨name, .head _, named⟩]
  rfl

theorem member_of_leads (isWord : isKey key.toList = true) {value : Value}
    (leads : Leads members key value) :
    ∃ name, (name, value) ∈ members ∧ stringValue name = key.toList := by
  obtain ⟨before, name, after, rfl, named, _⟩ := leads
  exact ⟨name, by simp, stringValue_of_stringText isWord named⟩

theorem landedNumber_of_leads {literal : Literal} (leads : Leads members key (.number literal)) :
    landedNumber (objectTokens members) key = some (literal.whole.value : Int) := by
  obtain ⟨back, lands⟩ := landing_of_leads leads
  rw [landedNumber, lands, Option.bind_some, Landing.digits, Value.tokens, List.singleton_append,
    firstDigits, numberOf, if_neg literal.whole.nonempty, readDigits_eq]

theorem landedText_of_leads {pieces : List Piece} (leads : Leads members key (.string pieces))
    (noQuote : '"' ∉ stringText pieces) :
    landedText (objectTokens members) key = some (stringText pieces) := by
  obtain ⟨back, lands⟩ := landing_of_leads leads
  rw [landedText, lands, Option.bind_some, Landing.text, Value.tokens, List.singleton_append,
    firstString, takeWhile_of_not_mem noQuote]

theorem int?_of_isDigits {literal : Literal} (digits : Literal.IsDigits literal) :
    literal.int? = some (literal.whole.value : Int) := by
  obtain ⟨positive, noFraction, noExponent⟩ := digits
  simp [Literal.int?, positive, noFraction, noExponent]

theorem LeadsToText.landed {word : Text} (leads : LeadsToText members key word) :
    landedText (objectTokens members) key = some word := by
  obtain ⟨pieces, leads, noQuote, rfl⟩ := leads
  exact landedText_of_leads leads noQuote

theorem LeadsToDigits.landed {n : Nat} (leads : LeadsToDigits members key n) :
    landedNumber (objectTokens members) key = some (n : Int) := by
  obtain ⟨literal, leads, _, rfl⟩ := leads
  exact landedNumber_of_leads leads

theorem LeadsToText.said (isKeyWord : isKey key.toList = true) {word : Text}
    (isWord : isKey word = true) (leads : LeadsToText members key word) :
    SaysText members key word := by
  obtain ⟨pieces, leads, _, same⟩ := leads
  obtain ⟨name, member, named⟩ := member_of_leads isKeyWord leads
  exact ⟨name, pieces, member, named, stringValue_of_stringText isWord same⟩

theorem LeadsToDigits.said (isKeyWord : isKey key.toList = true) {n : Nat}
    (leads : LeadsToDigits members key n) : SaysNumber members key n := by
  obtain ⟨literal, leads, digits, rfl⟩ := leads
  obtain ⟨name, member, named⟩ := member_of_leads isKeyWord leads
  exact ⟨name, literal, member, named, int?_of_isDigits digits⟩

end Leads

/-! ## When the requests are read as they are said -/

theorem isKey_of_id {key : String} (listed : key ∈ ["user_id", "id"]) :
    isKey key.toList = true := by
  simp only [List.mem_cons, List.not_mem_nil, or_false] at listed
  rcases listed with rfl | rfl <;> decide

section Parsed

variable {members : List (List Piece × Value)} {text : Text} (writes : Writes (.object members) text)

include writes

omit writes in
/-- What no order can be made of. -/
theorem not_orderRead_of_refused (refused : Refused members) {request : OrderRequest} :
    ¬ OrderRead (landedText (objectTokens members)) (landedNumber (objectTokens members))
      request := by
  intro read
  cases refused with
  | noSide absent =>
      have found := read.side
      rw [absent.landedText] at found
      cases found
  | otherSide word leads other =>
      exact other request.side (Option.some.inj (leads.landed.symm.trans read.side))
  | noQty absent =>
      have found := read.qty
      rw [absent.landedNumber] at found
      cases found
  | zeroQty leads =>
      have isZero := Option.some.inj (leads.landed.symm.trans read.qty)
      have positive := read.qtyRange.1
      omega
  | otherType word leads other =>
      have found := read.type
      rw [leads.landed] at found
      exact other request.type found

omit writes in
theorem saysOrder_of_members (reads : OrderOfMembers members) {request : OrderRequest}
    (read : OrderRead (landedText (objectTokens members)) (landedNumber (objectTokens members))
      request) : SaysOrder members request := by
  obtain ⟨word, side⟩ := reads.side
  obtain ⟨n, qty⟩ := reads.qty
  obtain rfl := Option.some.inj (side.landed.symm.trans read.side)
  have isQty := Option.some.inj (qty.landed.symm.trans read.qty)
  refine ⟨side.said (by decide) (isKey_sideText _), ⟨read.qtyRange.1, ?_⟩, ?_, fun limit => ?_⟩
  · rw [← isQty]
    exact qty.said (by decide)
  · refine reads.type.imp_right ?_
    rintro ⟨word, type⟩
    have isType := read.type
    rw [type.landed] at isType
    obtain rfl : word = (typeText request.type).toList := isType
    exact type.said (by decide) (isKey_typeText _)
  · obtain ⟨number, landed, range, same⟩ := read.limit limit
    rcases reads.price with market | absent | ⟨price, leads, fits⟩
    · have isType := read.type
      rw [market.landed, limit] at isType
      exact absurd isType (by decide)
    · rw [absent.landedNumber] at landed
      cases landed
    · obtain rfl := Option.some.inj (leads.landed.symm.trans landed)
      rw [same, castInt_of_fits fits]
      exact ⟨range.1, leads.said (by decide)⟩

theorem saysOrder_of_read (read : ReadOfMembers members) {request : OrderRequest}
    (parsed : parseOrderJson text = .ok (some request)) : SaysOrder members request := by
  have shown := (parseOrderJson_object writes).mp parsed
  rcases read.order with refused | reads
  · exact absurd shown (not_orderRead_of_refused refused)
  · exact saysOrder_of_members reads shown

theorem extractIntField_object {key : String} (isWord : isKey key.toList = true) {n : Int} :
    extractIntField text key = .ok (some n) ↔
      landedNumber (objectTokens members) key = some n ∧ n ≤ longLongMax := by
  rw [extractIntField_eq_some_iff, numberFound_object writes isWord]

end Parsed

/-! ## Canonical bodies -/

theorem Unambiguous.leads {fields : List (String × Value)} (unambiguous : Unambiguous fields)
    {name : String} {value : Value} (member : (name, value) ∈ fields) :
    Leads (fields.map fun field => (plainPieces field.1.toList, field.2)) name value := by
  obtain ⟨before, after, rfl⟩ := List.append_of_mem member
  have plain := isPlain_of_isKey (unambiguous.names _ member)
  exact ⟨_, _, _, List.map_append, stringText_plainPieces plain, unambiguous.absent_before⟩

/-- No field of a canonical body carries a key that is neither a name nor a word of it. -/
theorem OrderBody.not_carries (body : OrderBody) {key : String} (listed : key ∈ ["user_id", "id"])
    {field : String × Value} (member : field ∈ body.fields) {pieces : List Piece}
    (inTokens : .string pieces ∈ memberTokens (plainPieces field.1.toList, field.2)) :
    ¬ Carries key.toList pieces := by
  have word_ne : ∀ word ∈ ["side", "type", "price", "qty", "BUY", "SELL", "LIMIT", "MARKET"],
      ∀ key ∈ ["user_id", "id"], word.toList ≠ key.toList := by decide
  have name : field.1 ∈ ["side", "type", "price", "qty"] := List.mem_map_of_mem member
  have value_ne : ∀ word ∈ ["BUY", "SELL", "LIMIT", "MARKET"], word.toList ≠ key.toList :=
    fun word isWord =>
      word_ne word (List.mem_append_right ["side", "type", "price", "qty"] isWord) key listed
  have notInValue : ¬ Contains key.toList field.2 := by
    simp only [fields, List.mem_cons, List.not_mem_nil, or_false] at member
    rcases member with rfl | rfl | rfl | rfl
    · exact not_contains_word (plain_sideText _)
        (value_ne _ (List.mem_append_left ["LIMIT", "MARKET"] (sideText_mem _)))
    · exact not_contains_word (plain_typeText _)
        (value_ne _ (List.mem_append_right ["BUY", "SELL"] (typeText_mem _)))
    · exact not_contains_number _ _
    · exact not_contains_number _ _
  rcases List.mem_cons.mp inTokens with isName | inValue
  · rw [Token.string.inj isName, carries_plainPieces (isPlain_of_isKey
      (body.unambiguous.names _ member))]
    exact word_ne _ (List.mem_append_left ["BUY", "SELL", "LIMIT", "MARKET"] name) key listed
  · rcases List.mem_cons.mp inValue with isColon | inValue
    · cases isColon
    · exact fun carries => notInValue ⟨pieces, inValue, carries⟩

/-- A canonical body is read of its members if its price fits an `int`. -/
theorem OrderBody.readOfMembers (body : OrderBody) (fits : body.price.whole.value < 2 ^ 31)
    {fields : List (String × Value)} (reordered : fields.Perm body.fields) :
    ReadOfMembers (fields.map fun field => (plainPieces field.1.toList, field.2)) where
  order := by
    have unambiguous := body.unambiguous.perm reordered
    have side := unambiguous.leads (reordered.symm.subset
      (by simp [OrderBody.fields] : ("side", .word (sideText body.side)) ∈ body.fields))
    have type := unambiguous.leads (reordered.symm.subset
      (by simp [OrderBody.fields] : ("type", .word (typeText body.type)) ∈ body.fields))
    have qty := unambiguous.leads (reordered.symm.subset
      (by simp [OrderBody.fields] : ("qty", .number body.qty) ∈ body.fields))
    have price := unambiguous.leads (reordered.symm.subset
      (by simp [OrderBody.fields] : ("price", .number body.price) ∈ body.fields))
    have small : FitsInt body.price.whole.value := ⟨by omega, by unfold intMax; omega⟩
    exact .inr {
      side := ⟨_, _, side, quote_not_mem_plainPieces (plain_sideText body.side).plain, rfl⟩
      qty := ⟨_, _, qty, body.qtyDigits, rfl⟩
      type := .inr ⟨_, _, type, quote_not_mem_plainPieces (plain_typeText body.type).plain, rfl⟩
      price := .inr (.inr ⟨_, ⟨_, price, body.priceDigits, rfl⟩, small⟩) }
  numbers key listed := by
    refine .inl fun member inMembers pieces inTokens => ?_
    obtain ⟨field, inFields, rfl⟩ := List.mem_map.mp inMembers
    exact body.not_carries listed (reordered.subset inFields) inTokens

end OrderBookSimulator
