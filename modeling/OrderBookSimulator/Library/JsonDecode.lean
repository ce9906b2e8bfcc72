import Mathlib.Data.List.TakeWhile
import OrderBookSimulator.Library.Json

/-!
# A JSON text has one value

A reader that takes a text apart into tokens and the tokens into a value.  It
reads back every text of the grammar, so a text writes at most one value, and a
text it refuses writes none.
-/

namespace OrderBookSimulator.Library.Json

/-! ## Reading a string -/

/-- The string that ends at the next quote outside an escape, and what follows it. -/
def readString : List Char → Option (List Piece × List Char)
  | [] => none
  | '"' :: rest => some ([], rest)
  | '\\' :: 'u' :: a :: b :: c :: d :: rest =>
      if ok : ([a, b, c, d].all isHex) = true then
        (readString rest).map (Prod.map (.unicode a b c d ok :: ·) id)
      else none
  | '\\' :: c :: rest =>
      if ok : isEscapable c = true then
        (readString rest).map (Prod.map (.escape c ok :: ·) id)
      else none
  | c :: rest =>
      if ok : isPlain c = true then
        (readString rest).map (Prod.map (.plain c ok :: ·) id)
      else none

theorem readString_quote (rest : List Char) : readString ('"' :: rest) = some ([], rest) := by
  rw [readString]

theorem readString_plain {c : Char} (ok : isPlain c = true) (rest : List Char) :
    readString (c :: rest) =
      (readString rest).map (Prod.map (.plain c ok :: ·) id) := by
  have notQuote : c ≠ '"' := by
    rintro rfl
    exact absurd ok (by decide)
  have notSlash : c ≠ '\\' := by
    rintro rfl
    exact absurd ok (by decide)
  rw [readString]
  · rw [dif_pos ok]
  · exact fun same => notQuote same
  · exact fun _ _ _ _ _ same => absurd same notSlash
  · exact fun _ _ same => absurd same notSlash

theorem readString_escape {c : Char} (ok : isEscapable c = true) (rest : List Char) :
    readString ('\\' :: c :: rest) =
      (readString rest).map (Prod.map (.escape c ok :: ·) id) := by
  have notU : c ≠ 'u' := by
    rintro rfl
    exact absurd ok (by decide)
  rw [readString]
  · rw [dif_pos ok]
  · exact fun _ _ _ _ _ same => absurd same notU

theorem readString_piece (piece : Piece) (rest : List Char) :
    readString (piece.text ++ rest) =
      (readString rest).map (Prod.map (piece :: ·) id) := by
  cases piece with
  | plain c ok => exact readString_plain ok rest
  | escape c ok => exact readString_escape ok rest
  | unicode a b c d ok =>
      rw [Piece.text]
      simp only [List.cons_append, List.nil_append]
      rw [readString, dif_pos ok]

theorem readString_pieces (pieces : List Piece) (rest : List Char) :
    readString (stringText pieces ++ rest) =
      (readString rest).map (Prod.map (pieces ++ ·) id) := by
  induction pieces with
  | nil =>
      rw [stringText, List.flatMap_nil, List.nil_append]
      cases readString rest <;> rfl
  | cons piece pieces ih =>
      rw [stringText, List.flatMap_cons, List.append_assoc, readString_piece]
      rw [stringText] at ih
      rw [ih]
      cases readString rest <;> rfl

/-- A string is read back up to its closing quote. -/
theorem readString_text (pieces : List Piece) (rest : List Char) :
    readString (stringText pieces ++ '"' :: rest) = some (pieces, rest) := by
  rw [readString_pieces, readString_quote]
  simp

theorem stringText_inj {pieces others : List Piece} (same : stringText pieces = stringText others) :
    pieces = others := by
  have read := readString_text pieces []
  rw [same, readString_text] at read
  exact (Prod.mk.inj (Option.some.inj read)).1.symm

/-- No string starts with a whole string and its closing quote. -/
theorem stringText_ne_quoted (pieces others : List Piece) (after : List Char) :
    stringText pieces ≠ stringText others ++ '"' :: after := by
  intro same
  have read := readString_text pieces []
  rw [same, List.append_assoc, List.cons_append, readString_text] at read
  have closed := (Prod.mk.inj (Option.some.inj read)).2
  simp at closed

/-! ## Reading a number -/

/-- The digits at the front, at least one. -/
def readDigits (text : List Char) : Option (Digits × List Char) :=
  if nonempty : text.takeWhile Char.isDigit ≠ [] then
    some (⟨text.takeWhile Char.isDigit,
      List.all_eq_true.mpr fun _ member => List.mem_takeWhile_imp member, nonempty⟩,
      text.dropWhile Char.isDigit)
  else none

def readFraction : List Char → Option (Option Digits × List Char)
  | '.' :: rest => (readDigits rest).map (Prod.map some id)
  | rest => some (none, rest)

def readSign : List Char → List Char × List Char
  | '+' :: rest => (['+'], rest)
  | '-' :: rest => (['-'], rest)
  | rest => ([], rest)

theorem signed_readSign (text : List Char) :
    (readSign text).1 = [] ∨ (readSign text).1 = ['+'] ∨ (readSign text).1 = ['-'] := by
  unfold readSign
  split
  · exact Or.inr (Or.inl rfl)
  · exact Or.inr (Or.inr rfl)
  · exact Or.inl rfl

def readExponent : List Char → Option (Option Exponent × List Char)
  | [] => some (none, [])
  | c :: rest =>
      if marked : c = 'e' ∨ c = 'E' then
        (readDigits (readSign rest).2).map (Prod.map
          (fun digits => some ⟨c, (readSign rest).1, digits, marked, signed_readSign rest⟩) id)
      else some (none, c :: rest)

def readUnsigned (negative : Bool) (text : List Char) : Option (Literal × List Char) :=
  match readDigits text with
  | none => none
  | some (whole, rest) =>
      if short : whole.chars.head? = some '0' → whole.chars = ['0'] then
        match readFraction rest with
        | none => none
        | some (fraction, rest) =>
            (readExponent rest).map (Prod.map
              (fun exponent => ⟨negative, whole, fraction, exponent, short⟩) id)
      else none

def readNumber : List Char → Option (Literal × List Char)
  | '-' :: rest => readUnsigned true rest
  | rest => readUnsigned false rest

/-- No number goes on with this text. -/
def EndsNumber (rest : List Char) : Prop :=
  ∀ c ∈ rest.head?, c.isDigit = false ∧ c ≠ '.' ∧ c ≠ 'e' ∧ c ≠ 'E'

theorem readDigits_text (digits : Digits) {rest : List Char}
    (ends : ∀ c ∈ rest.head?, c.isDigit = false) :
    readDigits (digits.chars ++ rest) = some (digits, rest) := by
  have all : ∀ c ∈ digits.chars, c.isDigit = true := List.all_eq_true.mp digits.digits
  have stops : rest.takeWhile Char.isDigit = [] ∧ rest.dropWhile Char.isDigit = rest := by
    cases rest with
    | nil => exact ⟨rfl, rfl⟩
    | cons c rest =>
        have stop := ends c rfl
        simp [stop]
  have taken : (digits.chars ++ rest).takeWhile Char.isDigit = digits.chars := by
    rw [List.takeWhile_append_of_pos all, stops.1, List.append_nil]
  have dropped : (digits.chars ++ rest).dropWhile Char.isDigit = rest := by
    rw [List.dropWhile_append_of_pos all, stops.2]
  unfold readDigits
  simp only [taken, dropped, digits.nonempty, ne_eq, not_false_eq_true, dite_true]

theorem readFraction_text (fraction : Option Digits) {rest : List Char}
    (ends : ∀ c ∈ rest.head?, c.isDigit = false ∧ c ≠ '.') :
    readFraction ((fraction.elim [] fun digits => '.' :: digits.chars) ++ rest) =
      some (fraction, rest) := by
  cases fraction with
  | some digits =>
      rw [Option.elim, List.cons_append, readFraction,
        readDigits_text digits fun c first => (ends c first).1]
      rfl
  | none =>
      rw [Option.elim, List.nil_append, readFraction.eq_def]
      split
      · exact absurd rfl (ends '.' rfl).2
      · rfl

theorem readSign_text {sign : List Char} (signed : sign = [] ∨ sign = ['+'] ∨ sign = ['-'])
    (digits : Digits) (rest : List Char) :
    readSign (sign ++ (digits.chars ++ rest)) = (sign, digits.chars ++ rest) := by
  rcases signed with rfl | rfl | rfl
  · rw [List.nil_append]
    cases chars : digits.chars with
    | nil => exact absurd chars digits.nonempty
    | cons c more =>
        have digit : c.isDigit = true := by
          have all := List.all_eq_true.mp digits.digits
          rw [chars] at all
          exact all c (.head _)
        rw [List.cons_append, readSign]
        · intro rest same
          cases same
          exact absurd digit (by decide)
        · intro rest same
          cases same
          exact absurd digit (by decide)
  · rfl
  · rfl

theorem readExponent_text (exponent : Option Exponent) {rest : List Char}
    (ends : EndsNumber rest) :
    readExponent (exponent.elim [] Exponent.text ++ rest) = some (exponent, rest) := by
  cases exponent with
  | some exponent =>
      have sign := readSign_text exponent.signed exponent.digits rest
      rw [Option.elim, Exponent.text, List.cons_append, List.cons_append, List.append_assoc,
        readExponent, dif_pos exponent.marked]
      simp only [sign, readDigits_text exponent.digits fun c first => (ends c first).1]
      rfl
  | none =>
      rw [Option.elim, List.nil_append]
      cases rest with
      | nil => rfl
      | cons c rest =>
          have other := ends c rfl
          rw [readExponent, dif_neg]
          exact fun marked => marked.elim other.2.2.1 other.2.2.2

theorem head?_exponent (exponent : Option Exponent) {rest : List Char} (ends : EndsNumber rest) :
    ∀ c ∈ (exponent.elim [] Exponent.text ++ rest).head?, c.isDigit = false ∧ c ≠ '.' := by
  cases exponent with
  | none => exact fun c first => ⟨(ends c first).1, (ends c first).2.1⟩
  | some exponent =>
      intro c first
      obtain rfl : exponent.mark = c := Option.some.inj first
      rcases exponent.marked with marked | marked <;> rw [marked] <;> decide

theorem head?_fraction (fraction : Option Digits) {rest : List Char}
    (ends : ∀ c ∈ rest.head?, c.isDigit = false) :
    ∀ c ∈ ((fraction.elim [] fun digits => '.' :: digits.chars) ++ rest).head?,
      c.isDigit = false := by
  cases fraction with
  | none => exact ends
  | some digits =>
      intro c first
      obtain rfl : '.' = c := Option.some.inj first
      decide

theorem readUnsigned_text (literal : Literal) {rest : List Char} (ends : EndsNumber rest) :
    readUnsigned literal.negative (literal.whole.chars ++
      ((literal.fraction.elim [] fun digits => '.' :: digits.chars) ++
        (literal.exponent.elim [] Exponent.text ++ rest))) = some (literal, rest) := by
  have afterFraction := head?_exponent literal.exponent ends
  have afterWhole := head?_fraction literal.fraction fun c first => (afterFraction c first).1
  rw [readUnsigned, readDigits_text literal.whole afterWhole]
  simp only [readFraction_text literal.fraction afterFraction,
    readExponent_text literal.exponent ends, dif_pos literal.short]
  rfl

/-- A number is read back where no number goes on. -/
theorem readNumber_text (literal : Literal) {rest : List Char} (ends : EndsNumber rest) :
    readNumber (literal.text ++ rest) = some (literal, rest) := by
  have unsigned := readUnsigned_text literal ends
  rw [Literal.text]
  simp only [List.append_assoc]
  cases negative : literal.negative with
  | true =>
      rw [negative] at unsigned
      exact unsigned
  | false =>
      rw [negative] at unsigned
      rw [if_neg (by decide), List.nil_append, readNumber, unsigned]
      -- a literal without a sign starts with a digit
      intro more same
      cases chars : literal.whole.chars with
      | nil => exact literal.whole.nonempty chars
      | cons c others =>
          rw [chars] at same
          obtain rfl : c = '-' := (List.cons.inj same).1
          have all := List.all_eq_true.mp literal.whole.digits
          rw [chars] at all
          exact absurd (all '-' (.head _)) (by decide)

/-! ## Reading tokens -/

def punctuation (c : Char) : Option Token :=
  if c = '\x7b' then some .openObject
  else if c = '\x7d' then some .closeObject
  else if c = '[' then some .openArray
  else if c = ']' then some .closeArray
  else if c = ':' then some .colon
  else if c = ',' then some .comma
  else none

def readWord : List Char → Option (Token × List Char)
  | 'n' :: 'u' :: 'l' :: 'l' :: rest => some (.null, rest)
  | 't' :: 'r' :: 'u' :: 'e' :: rest => some (.bool true, rest)
  | 'f' :: 'a' :: 'l' :: 's' :: 'e' :: rest => some (.bool false, rest)
  | _ => none

/-- The token at the front of a text that starts with no blank. -/
def readToken : List Char → Option (Token × List Char)
  | [] => none
  | c :: rest =>
      if c = '-' ∨ c.isDigit then (readNumber (c :: rest)).map (Prod.map .number id)
      else if c = '"' then (readString rest).map (Prod.map .string id)
      else
        match punctuation c with
        | some token => some (token, rest)
        | none => readWord (c :: rest)

/-- The tokens of a text, in at most `fuel` turns. -/
def readTokens : Nat → List Char → Option (List Token)
  | 0, _ => none
  | fuel + 1, text =>
      match text.dropWhile isBlank with
      | [] => some []
      | c :: rest =>
          match readToken (c :: rest) with
          | none => none
          | some (token, rest) => (readTokens fuel rest).map (token :: ·)

/-- A value of one token. -/
def Token.isScalar : Token → Bool
  | .null | .bool _ | .number _ | .string _ => true
  | _ => false

/-- No two scalars stand next to each other. -/
def Apart : List Token → Prop
  | [] => True
  | [_] => True
  | first :: second :: rest =>
      ¬ (first.isScalar = true ∧ second.isScalar = true) ∧ Apart (second :: rest)

theorem Apart.tail {token : Token} {tokens : List Token} (apart : Apart (token :: tokens)) :
    Apart tokens := by
  cases tokens with
  | nil => trivial
  | cons second rest => exact apart.2

theorem head?_number (literal : Literal) :
    ∃ c rest, literal.text = c :: rest ∧ (c = '-' ∨ c.isDigit = true) := by
  rw [Literal.text]
  cases literal.negative with
  | true => exact ⟨'-', _, rfl, Or.inl rfl⟩
  | false =>
      cases chars : literal.whole.chars with
      | nil => exact absurd chars literal.whole.nonempty
      | cons c more =>
          have all := List.all_eq_true.mp literal.whole.digits
          rw [chars] at all
          exact ⟨c, _, rfl, Or.inr (all c (.head _))⟩

/-- A token starts with no blank, and goes on no number unless it is one. -/
theorem head?_token (token : Token) :
    ∃ c rest, token.text = c :: rest ∧ isBlank c = false ∧
      ((∀ literal, token ≠ .number literal) → c.isDigit = false ∧ c ≠ '.' ∧ c ≠ 'e' ∧ c ≠ 'E') := by
  cases token with
  | number literal =>
      obtain ⟨c, rest, same, first⟩ := head?_number literal
      refine ⟨c, rest, same, ?_, fun other => absurd rfl (other literal)⟩
      rcases first with rfl | digit
      · decide
      · by_contra blank
        simp only [isBlank, Bool.not_eq_false, Bool.or_eq_true, decide_eq_true_eq] at blank
        rcases blank with ((rfl | rfl) | rfl) | rfl <;> exact absurd digit (by decide)
  | bool b => cases b <;> exact ⟨_, _, rfl, by decide, fun _ => by decide⟩
  | string pieces => exact ⟨_, _, rfl, by decide, fun _ => by decide⟩
  | openObject | closeObject | openArray | closeArray | colon | comma | null =>
      exact ⟨_, _, rfl, by decide, fun _ => by decide⟩

theorem readToken_text (token : Token) {rest : List Char}
    (ends : (∃ literal, token = .number literal) → EndsNumber rest) :
    readToken (token.text ++ rest) = some (token, rest) := by
  cases token with
  | number literal =>
      obtain ⟨c, more, same, first⟩ := head?_number literal
      have number := readNumber_text literal (ends ⟨literal, rfl⟩)
      rw [Token.text, same, List.cons_append]
      rw [same, List.cons_append] at number
      rw [readToken, if_pos first, number]
      rfl
  | string pieces =>
      have string := readString_text pieces rest
      rw [Token.text, List.cons_append, List.cons_append, List.append_assoc, readToken,
        if_neg (by decide), if_pos rfl]
      rw [List.singleton_append, string]
      rfl
  | bool b => cases b <;> rfl
  | openObject | closeObject | openArray | closeArray | colon | comma | null => rfl

theorem dropWhile_blank {blank : List Char} (blanks : Blank blank) (text : List Char) :
    (blank ++ text).dropWhile isBlank = text.dropWhile isBlank :=
  List.dropWhile_append_of_pos blanks

/-- What follows a token ends a number, unless it is a number that follows. -/
theorem Spells.endsNumber {tokens : List Token} {text : List Char} (spells : Spells tokens text)
    (other : ∀ literal, tokens.head? ≠ some (.number literal)) : EndsNumber text := by
  have blankEnds : ∀ {c : Char}, isBlank c = true →
      c.isDigit = false ∧ c ≠ '.' ∧ c ≠ 'e' ∧ c ≠ 'E' := by
    intro c blank
    simp only [isBlank, Bool.or_eq_true, decide_eq_true_eq] at blank
    rcases blank with ((rfl | rfl) | rfl) | rfl <;> decide
  cases spells with
  | done blanks =>
      intro c first
      exact blankEnds (blanks c (List.mem_of_mem_head? first))
  | next blanks rest =>
      rename_i blank text token tokens
      cases blank with
      | cons c blank =>
          intro first same
          obtain rfl : c = first := Option.some.inj same
          exact blankEnds (blanks c (.head _))
      | nil =>
          obtain ⟨c, more, same, _, ends⟩ := head?_token token
          intro first isFirst
          rw [List.nil_append, same, List.cons_append] at isFirst
          obtain rfl : c = first := Option.some.inj isFirst
          exact ends fun literal number => other literal (congrArg some number)

/-- The tokens that were spelled out are read back. -/
theorem readTokens_spells {tokens : List Token} {text : List Char} (spells : Spells tokens text)
    (apart : Apart tokens) {fuel : Nat} (enough : tokens.length < fuel) :
    readTokens fuel text = some tokens := by
  induction spells generalizing fuel with
  | done blanks =>
      obtain ⟨fuel, rfl⟩ : ∃ less, fuel = less + 1 := ⟨fuel - 1, by omega⟩
      have dropped := dropWhile_blank blanks []
      rw [List.append_nil, List.dropWhile_nil] at dropped
      rw [readTokens, dropped]
  | next blanks rest ih =>
      rename_i blank text token tokens
      obtain ⟨fuel, rfl⟩ : ∃ less, fuel = less + 1 := ⟨fuel - 1, by omega⟩
      obtain ⟨c, more, same, notBlank, _⟩ := head?_token token
      have ends : (∃ literal, token = .number literal) → EndsNumber text := by
        rintro ⟨literal, rfl⟩
        refine rest.endsNumber fun other first => ?_
        cases tokens with
        | nil => cases first
        | cons second others =>
            obtain rfl : second = .number other := Option.some.inj first
            exact apart.1 ⟨rfl, rfl⟩
      have dropped : (blank ++ (token.text ++ text)).dropWhile isBlank = token.text ++ text := by
        rw [dropWhile_blank blanks, same, List.cons_append, List.dropWhile_cons_of_neg]
        simp [notBlank]
      have read := readToken_text token ends
      rw [same, List.cons_append] at dropped read
      rw [readTokens]
      simp only [same, List.cons_append, dropped, read]
      rw [ih apart.tail (by simpa using enough)]
      rfl

/-! ## Reading a value -/

/-- What is still open around the value being read. -/
inductive Frame where
  | array (items : List Value)
  | object (members : List (List Piece × Value)) (name : List Piece)

/-- What may come next. -/
inductive Reading where
  | expectValue (frames : List Frame)
  | expectItem (frames : List Frame)
  | expectFirst (frames : List Frame)
  | expectName (members : List (List Piece × Value)) (frames : List Frame)
  | expectColon (members : List (List Piece × Value)) (name : List Piece) (frames : List Frame)
  | after (value : Value) (frames : List Frame)

def startValue (frames : List Frame) : Token → Option Reading
  | .null => some (.after .null frames)
  | .bool b => some (.after (.bool b) frames)
  | .number literal => some (.after (.number literal) frames)
  | .string pieces => some (.after (.string pieces) frames)
  | .openArray => some (.expectItem frames)
  | .openObject => some (.expectFirst frames)
  | _ => none

def Reading.step : Reading → Token → Option Reading
  | .expectValue frames, token => startValue frames token
  | .expectItem frames, .closeArray => some (.after (.array []) frames)
  | .expectItem frames, token => startValue (.array [] :: frames) token
  | .expectFirst frames, .closeObject => some (.after (.object []) frames)
  | .expectFirst frames, .string name => some (.expectColon [] name frames)
  | .expectName members frames, .string name => some (.expectColon members name frames)
  | .expectColon members name frames, .colon => some (.expectValue (.object members name :: frames))
  | .after value (.array items :: frames), .comma =>
      some (.expectValue (.array (items ++ [value]) :: frames))
  | .after value (.array items :: frames), .closeArray =>
      some (.after (.array (items ++ [value])) frames)
  | .after value (.object members name :: frames), .comma =>
      some (.expectName (members ++ [(name, value)]) frames)
  | .after value (.object members name :: frames), .closeObject =>
      some (.after (.object (members ++ [(name, value)])) frames)
  | _, _ => none

def Reading.run : Reading → List Token → Option Value
  | .after value [], [] => some value
  | _, [] => none
  | reading, token :: tokens =>
      match reading.step token with
      | none => none
      | some next => next.run tokens

/-- The value of a text, where the text writes one. -/
def decode (text : List Char) : Option Value :=
  match readTokens (text.length + 1) text with
  | none => none
  | some tokens => (Reading.expectValue []).run tokens

/-- What holds of a value when it holds of its items and members holds of all values. -/
@[elab_as_elim]
theorem Value.induct {Holds : Value → Prop} (null : Holds .null) (bool : ∀ b, Holds (.bool b))
    (number : ∀ literal, Holds (.number literal)) (string : ∀ pieces, Holds (.string pieces))
    (array : ∀ items, (∀ item ∈ items, Holds item) → Holds (.array items))
    (object : ∀ members, (∀ member ∈ members, Holds member.2) → Holds (.object members))
    (value : Value) : Holds value :=
  match value with
  | .null => null
  | .bool b => bool b
  | .number literal => number literal
  | .string pieces => string pieces
  | .array items => array items fun item _ =>
      Value.induct null bool number string array object item
  | .object members => object members fun member _ =>
      Value.induct null bool number string array object member.2
termination_by sizeOf value
decreasing_by
  · have smaller := List.sizeOf_lt_of_mem ‹item ∈ items›
    simp only [Value.array.sizeOf_spec]
    omega
  · have smaller := List.sizeOf_lt_of_mem ‹member ∈ members›
    have second : sizeOf member.2 < sizeOf member := by
      obtain ⟨name, inner⟩ := member
      simp only [Prod.mk.sizeOf_spec]
      omega
    simp only [Value.object.sizeOf_spec]
    omega

theorem tokens_array (items : List Value) :
    (Value.array items).tokens =
      .openArray :: (separated .comma (items.map Value.tokens) ++ [.closeArray]) := by
  rw [Value.tokens, tokensOfItems_eq, List.cons_append]

theorem tokens_object (members : List (List Piece × Value)) :
    (Value.object members).tokens =
      .openObject :: (separated .comma (members.map memberTokens) ++ [.closeObject]) := by
  rw [Value.tokens, tokensOfMembers_eq, List.cons_append]

/-- A value starts with a token that starts a value. -/
theorem tokens_eq_cons (value : Value) :
    ∃ first rest, value.tokens = first :: rest ∧ first ≠ .closeArray := by
  cases value with
  | null => exact ⟨_, _, rfl, by simp⟩
  | bool b => exact ⟨_, _, rfl, by simp⟩
  | number literal => exact ⟨_, _, rfl, by simp⟩
  | string pieces => exact ⟨_, _, rfl, by simp⟩
  | array items => exact ⟨_, _, tokens_array items, by simp⟩
  | object members => exact ⟨_, _, tokens_object members, by simp⟩

section Run

/-- Reading a value's tokens is having read the value. -/
def ReadsBack (value : Value) : Prop :=
  ∀ frames rest, (Reading.expectValue frames).run (value.tokens ++ rest) =
    (Reading.after value frames).run rest

theorem run_expectItem (value : Value) (frames : List Frame) (rest : List Token) :
    (Reading.expectItem frames).run (value.tokens ++ rest) =
      (Reading.expectValue (.array [] :: frames)).run (value.tokens ++ rest) := by
  obtain ⟨first, others, tokens, other⟩ := tokens_eq_cons value
  rw [tokens, List.cons_append, Reading.run, Reading.run]
  cases first <;> first | rfl | exact absurd rfl other

theorem run_items {items : List Value} (readBack : ∀ item ∈ items, ReadsBack item)
    (value : Value) (done : List Value) (frames : List Frame) (rest : List Token) :
    (Reading.after value (.array done :: frames)).run
        ((items.map Value.tokens).flatMap (.comma :: ·) ++ .closeArray :: rest) =
      (Reading.after (.array (done ++ value :: items)) frames).run rest := by
  induction items generalizing value done with
  | nil => rfl
  | cons item items ih =>
      have here := readBack item (.head _)
      have later := ih fun other member => readBack other (.tail _ member)
      rw [List.map_cons, List.flatMap_cons, List.cons_append, List.cons_append, List.append_assoc,
        Reading.run]
      simp only [Reading.step]
      rw [here, later, List.append_assoc, List.singleton_append]

theorem run_member {member : List Piece × Value} (readBack : ReadsBack member.2)
    (members : List (List Piece × Value)) (frames : List Frame) (rest : List Token) :
    (Reading.expectName members frames).run (memberTokens member ++ rest) =
      (Reading.after member.2 (.object members member.1 :: frames)).run rest := by
  rw [memberTokens, List.cons_append, List.cons_append, Reading.run]
  simp only [Reading.step, Reading.run]
  exact readBack _ _

theorem run_expectFirst (member : List Piece × Value) (frames : List Frame) (rest : List Token) :
    (Reading.expectFirst frames).run (memberTokens member ++ rest) =
      (Reading.expectName [] frames).run (memberTokens member ++ rest) := rfl

theorem run_members {members : List (List Piece × Value)}
    (readBack : ∀ member ∈ members, ReadsBack member.2) (member : List Piece × Value)
    (done : List (List Piece × Value)) (frames : List Frame) (rest : List Token) :
    (Reading.after member.2 (.object done member.1 :: frames)).run
        ((members.map memberTokens).flatMap (.comma :: ·) ++ .closeObject :: rest) =
      (Reading.after (.object (done ++ member :: members)) frames).run rest := by
  induction members generalizing member done with
  | nil => rfl
  | cons next members ih =>
      have here := readBack next (.head _)
      have later := ih fun other inRest => readBack other (.tail _ inRest)
      rw [List.map_cons, List.flatMap_cons, List.cons_append, List.cons_append, List.append_assoc,
        Reading.run]
      simp only [Reading.step]
      rw [run_member here, later, List.append_assoc, List.singleton_append]

theorem readsBack (value : Value) : ReadsBack value := by
  induction value using Value.induct with
  | null => exact fun _ _ => rfl
  | bool b => exact fun _ _ => rfl
  | number literal => exact fun _ _ => rfl
  | string pieces => exact fun _ _ => rfl
  | array items ih =>
      intro frames rest
      rw [tokens_array, List.cons_append, List.append_assoc, List.singleton_append, Reading.run]
      simp only [Reading.step, startValue]
      cases items with
      | nil => rfl
      | cons item items =>
          rw [List.map_cons, separated, List.append_assoc, run_expectItem, ih item (.head _),
            run_items fun other member => ih other (.tail _ member)]
          rfl
  | object members ih =>
      intro frames rest
      rw [tokens_object, List.cons_append, List.append_assoc, List.singleton_append, Reading.run]
      simp only [Reading.step, startValue]
      cases members with
      | nil => rfl
      | cons member members =>
          rw [List.map_cons, separated, List.append_assoc, run_expectFirst,
            run_member (ih member (.head _)),
            run_members fun other inRest => ih other (.tail _ inRest)]
          rfl

end Run

/-! ## One value for a text -/

/-- No scalar is in front. -/
def NoScalar (tokens : List Token) : Prop := ∀ token ∈ tokens.head?, token.isScalar = false

theorem noScalar_cons {token : Token} (other : token.isScalar = false) (tokens : List Token) :
    NoScalar (token :: tokens) := fun _ first => Option.some.inj first ▸ other

theorem apart_cons {token : Token} (other : token.isScalar = false) {tokens : List Token}
    (apart : Apart tokens) : Apart (token :: tokens) := by
  cases tokens with
  | nil => trivial
  | cons second rest => exact ⟨fun both => absurd both.1 (by simp [other]), apart⟩

theorem apart_cons_of_noScalar (token : Token) {tokens : List Token} (apart : Apart tokens)
    (noScalar : NoScalar tokens) : Apart (token :: tokens) := by
  cases tokens with
  | nil => trivial
  | cons second rest => exact ⟨fun both => absurd both.2 (by simp [noScalar second rfl]), apart⟩

theorem Apart.drop {front back : List Token} (apart : Apart (front ++ back)) : Apart back := by
  induction front with
  | nil => exact apart
  | cons token front ih => exact ih apart.tail

/-- Behind a scalar there is none. -/
theorem Apart.noScalar {token : Token} {tokens : List Token} (apart : Apart (token :: tokens))
    (scalar : token.isScalar = true) : NoScalar tokens := by
  cases tokens with
  | nil => exact fun _ first => nomatch first
  | cons second rest =>
      intro other first
      obtain rfl : second = other := Option.some.inj first
      exact Bool.eq_false_iff.mpr fun otherScalar => apart.1 ⟨scalar, otherScalar⟩

/-- A value can be put in front of anything that starts with no scalar. -/
def StaysApart (value : Value) : Prop :=
  ∀ rest, Apart rest → NoScalar rest → Apart (value.tokens ++ rest)

theorem apart_separated {Item : Type} {toTokens : Item → List Token} {items : List Item}
    (stays : ∀ item ∈ items, ∀ rest, Apart rest → NoScalar rest → Apart (toTokens item ++ rest))
    {rest : List Token} (apart : Apart rest) (noScalar : NoScalar rest) :
    Apart (separated .comma (items.map toTokens) ++ rest) := by
  have more : ∀ items : List Item, (∀ item ∈ items, ∀ rest, Apart rest → NoScalar rest →
      Apart (toTokens item ++ rest)) →
        Apart ((items.map toTokens).flatMap (.comma :: ·) ++ rest) ∧
          NoScalar ((items.map toTokens).flatMap (.comma :: ·) ++ rest) := by
    intro items stays
    induction items with
    | nil => exact ⟨apart, noScalar⟩
    | cons item items ih =>
        obtain ⟨later, starts⟩ := ih fun other member => stays other (.tail _ member)
        rw [List.map_cons, List.flatMap_cons, List.cons_append, List.cons_append, List.append_assoc]
        exact ⟨apart_cons rfl (stays item (.head _) _ later starts), noScalar_cons rfl _⟩
  cases items with
  | nil => exact apart
  | cons item items =>
      rw [List.map_cons, separated, List.append_assoc]
      obtain ⟨later, starts⟩ := more items fun other member => stays other (.tail _ member)
      exact stays item (.head _) _ later starts

theorem staysApart (value : Value) : StaysApart value := by
  induction value using Value.induct with
  | null => exact fun rest => apart_cons_of_noScalar _
  | bool b => exact fun rest => apart_cons_of_noScalar _
  | string pieces => exact fun rest => apart_cons_of_noScalar _
  | number literal => exact fun rest => apart_cons_of_noScalar _
  | array items ih =>
      intro rest apart _
      rw [tokens_array, List.cons_append, List.append_assoc, List.singleton_append]
      exact apart_cons rfl (apart_separated ih (apart_cons rfl apart) (noScalar_cons rfl _))
  | object members ih =>
      intro rest apart _
      rw [tokens_object, List.cons_append, List.append_assoc, List.singleton_append]
      refine apart_cons rfl (apart_separated ?_ (apart_cons rfl apart) (noScalar_cons rfl _))
      intro member inMembers rest apart noScalar
      have colon : Apart (.colon :: (member.2.tokens ++ rest)) :=
        apart_cons rfl (ih member inMembers rest apart noScalar)
      exact apart_cons_of_noScalar _ colon (noScalar_cons rfl _)

theorem apart_tokens (value : Value) : Apart value.tokens := by
  have apart := staysApart value [] trivial fun _ first => nomatch first
  rwa [List.append_nil] at apart

theorem Spells.length_le {tokens : List Token} {text : List Char} (spells : Spells tokens text) :
    tokens.length ≤ text.length := by
  induction spells with
  | done blanks => exact Nat.zero_le _
  | next blanks rest ih =>
      rename_i blank text token tokens
      obtain ⟨c, more, same, _⟩ := head?_token token
      rw [same]
      simp only [List.length_cons, List.length_append]
      omega

/-- Whatever a text writes is what it decodes to. -/
theorem decode_of_writes {value : Value} {text : List Char} (writes : Writes value text) :
    decode text = some value := by
  have tokens : readTokens (text.length + 1) text = some value.tokens :=
    readTokens_spells writes (apart_tokens value) (Nat.lt_succ_of_le writes.length_le)
  have read := readsBack value [] []
  rw [List.append_nil] at read
  rw [decode, tokens]
  exact read

/-- A text writes at most one value. -/
theorem Writes.unique {value other : Value} {text : List Char} (writes : Writes value text)
    (writesOther : Writes other text) : value = other := by
  have same := (decode_of_writes writes).symm.trans (decode_of_writes writesOther)
  exact Option.some.inj same

/-- What is not read back is not JSON. -/
theorem not_writes_of_decode {text : List Char} (refused : decode text = none) (value : Value) :
    ¬ Writes value text := by
  intro writes
  rw [decode_of_writes writes] at refused
  cases refused

example : decode "[1,]".toList = none := by decide

end OrderBookSimulator.Library.Json
