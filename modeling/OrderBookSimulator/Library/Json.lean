import Mathlib.Tactic.IntervalCases

/-!
# JSON texts

The grammar of JSON over texts that are lists of bytes, each byte the character
of its code.  A value keeps its numbers and strings as they are written, so
that a value and the blanks between its tokens make up a text, and nothing
else does.  What a string stands for is a function of its pieces, what a number
stands for a function of its literal.
-/

namespace OrderBookSimulator.Library.Json

/-! ## Strings -/

def isBlank (c : Char) : Bool := c = ' ' || c = '\t' || c = '\n' || c = '\r'

def isHex (c : Char) : Bool := c.isDigit || ('a' ≤ c && c ≤ 'f') || ('A' ≤ c && c ≤ 'F')

/-- May stand in a string as it is. -/
def isPlain (c : Char) : Bool := c ≠ '"' && c ≠ '\\' && 32 ≤ c.toNat

/-- May follow a backslash; `u` starts a longer escape. -/
def isEscapable (c : Char) : Bool := ['"', '\\', '/', 'b', 'f', 'n', 'r', 't'].contains c

/-- What a string is written with. -/
inductive Piece where
  | plain (c : Char) (ok : isPlain c = true)
  | escape (c : Char) (ok : isEscapable c = true)
  | unicode (a b c d : Char) (ok : ([a, b, c, d].all isHex) = true)
  deriving DecidableEq

def Piece.text : Piece → List Char
  | .plain c _ => [c]
  | .escape c _ => ['\\', c]
  | .unicode a b c d _ => ['\\', 'u', a, b, c, d]

/-- The text between the quotes. -/
def stringText (pieces : List Piece) : List Char := pieces.flatMap Piece.text

def hexDigit (c : Char) : Nat :=
  if c.isDigit then c.toNat - '0'.toNat
  else if 'a' ≤ c then c.toNat - 'a'.toNat + 10
  else c.toNat - 'A'.toNat + 10

/-- The UTF-16 code unit that four hexadecimal digits name. -/
def codeUnit (a b c d : Char) : Nat :=
  ((hexDigit a * 16 + hexDigit b) * 16 + hexDigit c) * 16 + hexDigit d

/-- The bytes of a code point. -/
def utf8 (code : Nat) : List Char :=
  (if code < 0x80 then [code]
  else if code < 0x800 then [0xC0 + code / 0x40, 0x80 + code % 0x40]
  else if code < 0x10000 then
    [0xE0 + code / 0x1000, 0x80 + code / 0x40 % 0x40, 0x80 + code % 0x40]
  else
    [0xF0 + code / 0x40000, 0x80 + code / 0x1000 % 0x40, 0x80 + code / 0x40 % 0x40,
      0x80 + code % 0x40]).map Char.ofNat

def Piece.value : Piece → List Char
  | .plain c _ => [c]
  | .escape c _ =>
      match c with
      | 'b' => ['\x08']
      | 'f' => ['\x0c']
      | 'n' => ['\n']
      | 'r' => ['\r']
      | 't' => ['\t']
      | c => [c]
  | .unicode a b c d _ => utf8 (codeUnit a b c d)

/-- The code point of two escapes that are a high and a low surrogate. -/
def surrogatePair : Piece → Piece → Option Nat
  | .unicode a b c d _, .unicode a' b' c' d' _ =>
      let high := codeUnit a b c d
      let low := codeUnit a' b' c' d'
      if 0xD800 ≤ high ∧ high < 0xDC00 ∧ 0xDC00 ≤ low ∧ low < 0xE000 then
        some (0x10000 + (high - 0xD800) * 0x400 + (low - 0xDC00))
      else none
  | _, _ => none

/-- The bytes a string stands for. -/
def stringValue : List Piece → List Char
  | [] => []
  | [piece] => piece.value
  | piece :: next :: rest =>
      match surrogatePair piece next with
      | some code => utf8 code ++ stringValue rest
      | none => piece.value ++ stringValue (next :: rest)

/-- The pieces of a text that needs no escapes; other characters are left out. -/
def plainPieces (text : List Char) : List Piece :=
  text.flatMap fun c => if ok : isPlain c = true then [.plain c ok] else []

theorem stringText_plainPieces {text : List Char} (plain : ∀ c ∈ text, isPlain c = true) :
    stringText (plainPieces text) = text := by
  induction text with
  | nil => rfl
  | cons c rest ih =>
      have here := plain c (.head _)
      have later := ih fun other member => plain other (.tail _ member)
      rw [plainPieces, List.flatMap_cons, dif_pos here]
      exact congrArg (c :: ·) later

/-- What does not stand for itself in a string is in no plain text. -/
theorem not_mem_of_plain {text : List Char} (plain : ∀ c ∈ text, isPlain c = true) {special : Char}
    (notPlain : isPlain special = false) : special ∉ text := by
  intro member
  have isPlain := plain special member
  rw [notPlain] at isPlain
  cases isPlain

theorem quote_not_mem_plainPieces {text : List Char} (plain : ∀ c ∈ text, isPlain c = true) :
    '"' ∉ stringText (plainPieces text) := by
  rw [stringText_plainPieces plain]
  exact not_mem_of_plain plain rfl

theorem stringValue_plainPieces {text : List Char} (plain : ∀ c ∈ text, isPlain c = true) :
    stringValue (plainPieces text) = text := by
  induction text with
  | nil => rfl
  | cons c rest ih =>
      have here := plain c (.head _)
      have later := ih fun other member => plain other (.tail _ member)
      have pieces : plainPieces (c :: rest) = .plain c here :: plainPieces rest := by
        rw [plainPieces, List.flatMap_cons, dif_pos here]
        rfl
      rw [pieces]
      cases others : plainPieces rest with
      | nil =>
          rw [others] at later
          rw [← later]
          rfl
      | cons next more =>
          rw [others] at later
          rw [stringValue, surrogatePair, later]
          · rfl
          · simp

/-! ## Numbers -/

/-- Digits as they are written. -/
structure Digits where
  chars : List Char
  digits : chars.all Char.isDigit = true
  nonempty : chars ≠ []
  deriving DecidableEq

structure Exponent where
  mark : Char
  sign : List Char
  digits : Digits
  marked : mark = 'e' ∨ mark = 'E'
  signed : sign = [] ∨ sign = ['+'] ∨ sign = ['-']
  deriving DecidableEq

/-- A number as it is written. -/
structure Literal where
  negative : Bool
  whole : Digits
  fraction : Option Digits
  exponent : Option Exponent
  /-- No superfluous zero in front. -/
  short : whole.chars.head? = some '0' → whole.chars = ['0']
  deriving DecidableEq

def Exponent.text (exponent : Exponent) : List Char :=
  exponent.mark :: exponent.sign ++ exponent.digits.chars

def Literal.text (literal : Literal) : List Char :=
  (if literal.negative then ['-'] else []) ++ (literal.whole.chars ++
    ((literal.fraction.elim [] fun digits => '.' :: digits.chars) ++
      literal.exponent.elim [] Exponent.text))

/-- The number that digits write. -/
def Digits.value (digits : Digits) : Nat := Nat.ofDigitChars 10 digits.chars 0

/-- The integer a literal writes, where it has neither a fraction nor an exponent. -/
def Literal.int? (literal : Literal) : Option Int :=
  match literal.fraction, literal.exponent with
  | none, none =>
      some (if literal.negative then -(literal.whole.value : Int) else literal.whole.value)
  | _, _ => none

/-! ### Decimal notation -/

/-- The digits of a number. -/
def Digits.ofNat (n : Nat) : Digits where
  chars := Nat.toDigits 10 n
  digits := List.all_eq_true.mpr fun _ member =>
    Nat.isDigit_of_mem_toDigits (by decide) (by decide) member
  nonempty := Nat.toDigits_ne_nil

theorem Digits.value_ofNat (n : Nat) : (Digits.ofNat n).value = n :=
  Nat.ofDigitChars_ten_toDigits

theorem head?_toDigits {n : Nat} (positive : 0 < n) : (Nat.toDigits 10 n).head? ≠ some '0' := by
  induction n using Nat.strong_induction_on with
  | _ n ih =>
      by_cases small : n < 10
      · rw [Nat.toDigits_of_lt_base small]
        interval_cases n <;> decide
      · have smaller := ih (n / 10) (by omega) (by omega)
        rw [Nat.toDigits_of_base_le (by decide) (by omega)]
        cases digits : Nat.toDigits 10 (n / 10) with
        | nil => exact absurd digits Nat.toDigits_ne_nil
        | cons c rest =>
            rw [digits] at smaller
            exact smaller

/-- The literal of an integer. -/
def Literal.ofInt (n : Int) : Literal where
  negative := n < 0
  whole := .ofNat n.natAbs
  fraction := none
  exponent := none
  short := by
    intro zero
    by_cases positive : 0 < n.natAbs
    · exact absurd zero (head?_toDigits positive)
    · rw [show n.natAbs = 0 by omega]
      rfl

theorem Literal.int?_ofInt (n : Int) : (Literal.ofInt n).int? = some n := by
  simp only [Literal.int?, Literal.ofInt, Digits.value_ofNat, decide_eq_true_eq]
  split <;> congr 1 <;> omega

/-- The literal of an integer is its decimal notation. -/
theorem Literal.text_ofInt (n : Int) : (Literal.ofInt n).text = (toString n).toList := by
  rw [Int.toString_eq_repr, Int.repr_eq_if]
  simp only [Literal.text, Literal.ofInt, Digits.ofNat, Option.elim, List.append_nil,
    decide_eq_true_eq]
  by_cases negative : n < 0
  · rw [if_pos negative, if_neg (by omega), String.toList_append, Nat.toList_repr]
    have abs : n.natAbs = (-n).toNat := by omega
    rw [abs]
    rfl
  · rw [if_neg negative, if_pos (by omega), Nat.toList_repr]
    have abs : n.natAbs = n.toNat := by omega
    rw [abs]
    rfl

/-! ## Tokens -/

inductive Token where
  | openObject
  | closeObject
  | openArray
  | closeArray
  | colon
  | comma
  | null
  | bool (b : Bool)
  | number (literal : Literal)
  | string (pieces : List Piece)
  deriving DecidableEq

def Token.text : Token → List Char
  | .openObject => ['\x7b']
  | .closeObject => ['\x7d']
  | .openArray => ['[']
  | .closeArray => [']']
  | .colon => [':']
  | .comma => [',']
  | .null => "null".toList
  | .bool true => "true".toList
  | .bool false => "false".toList
  | .number literal => literal.text
  | .string pieces => '"' :: stringText pieces ++ ['"']

def Blank (text : List Char) : Prop := ∀ c ∈ text, isBlank c = true

theorem blank_nil : Blank [] := fun _ member => nomatch member

/-- The tokens with blanks before, between and after them. -/
inductive Spells : List Token → List Char → Prop where
  | done {blank : List Char} (blanks : Blank blank) : Spells [] blank
  | next {blank text : List Char} {token : Token} {tokens : List Token}
      (blanks : Blank blank) (rest : Spells tokens text) :
      Spells (token :: tokens) (blank ++ (token.text ++ text))

/-- Tokens written without blanks. -/
def compact (tokens : List Token) : List Char := tokens.flatMap Token.text

theorem spells_compact (tokens : List Token) : Spells tokens (compact tokens) := by
  induction tokens with
  | nil => exact .done blank_nil
  | cons token tokens ih =>
      have next : Spells (token :: tokens) ([] ++ (token.text ++ compact tokens)) :=
        .next blank_nil ih
      exact next

/-! ## Values -/

inductive Value where
  | null
  | bool (b : Bool)
  | number (literal : Literal)
  | string (pieces : List Piece)
  | array (items : List Value)
  | object (members : List (List Piece × Value))

/-- The value of an integer. -/
def Value.int (n : Int) : Value := .number (.ofInt n)

/-- The value of a text that needs no escapes. -/
def Value.text (text : List Char) : Value := .string (plainPieces text)

/-- Lists with a mark between them. -/
def separated {Item : Type} (mark : Item) : List (List Item) → List Item
  | [] => []
  | first :: rest => first ++ rest.flatMap (mark :: ·)

mutual

def Value.tokens : Value → List Token
  | .null => [.null]
  | .bool b => [.bool b]
  | .number literal => [.number literal]
  | .string pieces => [.string pieces]
  | .array items => .openArray :: separated .comma (tokensOfItems items) ++ [.closeArray]
  | .object members => .openObject :: separated .comma (tokensOfMembers members) ++ [.closeObject]

def tokensOfItems : List Value → List (List Token)
  | [] => []
  | item :: rest => item.tokens :: tokensOfItems rest

def tokensOfMembers : List (List Piece × Value) → List (List Token)
  | [] => []
  | (name, value) :: rest => (.string name :: .colon :: value.tokens) :: tokensOfMembers rest

end

/-- The tokens of one member of an object. -/
def memberTokens (member : List Piece × Value) : List Token :=
  .string member.1 :: .colon :: member.2.tokens

theorem tokensOfItems_eq (items : List Value) : tokensOfItems items = items.map Value.tokens := by
  induction items with
  | nil => rfl
  | cons item rest ih => rw [tokensOfItems, ih, List.map_cons]

theorem tokensOfMembers_eq (members : List (List Piece × Value)) :
    tokensOfMembers members = members.map memberTokens := by
  induction members with
  | nil => rfl
  | cons member rest ih =>
      obtain ⟨name, value⟩ := member
      rw [tokensOfMembers, ih, List.map_cons, memberTokens]

/-- The text is a JSON text of the value. -/
def Writes (value : Value) (text : List Char) : Prop := Spells value.tokens text

end OrderBookSimulator.Library.Json
