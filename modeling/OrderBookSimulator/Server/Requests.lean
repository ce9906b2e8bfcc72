import OrderBookSimulator.Types

/-!
# Reading requests

The field scanners of `server/http_handlers.cpp` and `server/ws_server.cpp`.
They look for a quoted key anywhere in the text and take what follows the next
colon; nothing checks that the text is JSON.  A text is a list of bytes, each
one as the character of its code.
-/

namespace OrderBookSimulator

abbrev Text := List Char

/-- What a scanner can throw. -/
inductive Thrown where
  /-- `std::out_of_range`, from `stoll`. -/
  | outOfRange
  deriving DecidableEq, Repr

/-- The text from the first occurrence of `needle` on, where `std::string::find` finds one. -/
def findText (needle : Text) : Text → Option Text
  | [] => if needle = [] then some [] else none
  | first :: rest =>
      if needle.isPrefixOf (first :: rest) then some (first :: rest) else findText needle rest

/-- The text after the first colon that follows the quoted key. -/
def fieldValue (body : Text) (key : String) : Option Text := do
  let fromKey ← findText ('"' :: key.toList ++ ['"']) body
  let fromColon ← findText [':'] fromKey
  pure fromColon.tail

/-- `extract_string_field`, which `find_string` repeats: what stands between the next two quotes. -/
def extractStringField (body : Text) (key : String) : Option Text := do
  let value ← fieldValue body key
  let fromQuote ← findText ['"'] value
  let _ ← findText ['"'] fromQuote.tail
  pure (fromQuote.tail.takeWhile (· ≠ '"'))

/-- The number a string of digits is read as. -/
def readDigits (num : Text) : Int :=
  num.foldl (fun value digit => value * 10 + (digit.toNat - '0'.toNat)) 0

/-- `std::stoll` on a non-empty string of digits. -/
def stoll (num : Text) : Except Thrown Int :=
  if readDigits num ≤ longLongMax then .ok (readDigits num) else .error .outOfRange

/-- The first run of digits after the colon, whatever stands before it. -/
def extractIntField (body : Text) (key : String) : Except Thrown (Option Int) :=
  match fieldValue body key with
  | none => .ok none
  | some value =>
      let num := (value.dropWhile (!·.isDigit)).takeWhile (·.isDigit)
      if num = [] then .ok none
      else
        match stoll num with
        | .error thrown => .error thrown
        | .ok number => .ok (some number)

structure OrderRequest where
  side : Side
  type : OrderType
  price : Int
  qty : Int
  deriving DecidableEq, Repr

def parseOrderJson (body : Text) : Except Thrown (Option OrderRequest) :=
  match extractStringField body "side" with
  | none => .ok none
  | some sideText =>
      match extractIntField body "qty" with
      | .error thrown => .error thrown
      | .ok none => .ok none
      | .ok (some qty) =>
          let typeText := (extractStringField body "type").getD "LIMIT".toList
          let side : Side := if sideText = "BUY".toList then .buy else .sell
          if sideText ≠ "BUY".toList ∧ sideText ≠ "SELL".toList then .ok none
          else if qty ≤ 0 then .ok none
          else if typeText = "MARKET".toList then .ok (some { side, type := .market, price := 0, qty })
          else if typeText = "LIMIT".toList then
            match extractIntField body "price" with
            | .error thrown => .error thrown
            | .ok none => .ok none
            | .ok (some price) =>
                if price ≤ 0 then .ok none
                else .ok (some { side, type := .limit, price := castInt price, qty })
          else .ok none

/-- The id a cancel request names. -/
def parseCancelJson (body : Text) : Except Thrown (Option Int) :=
  match extractIntField body "id" with
  | .error thrown => .error thrown
  | .ok none => .ok none
  | .ok (some id) => if id ≤ 0 then .ok none else .ok (some id)

/-- The order a handler makes of a request. -/
def OrderRequest.order (request : OrderRequest) (id userId : Int) : Order :=
  { id, userId, side := request.side, price := request.price, qty := request.qty
    type := request.type }

end OrderBookSimulator
