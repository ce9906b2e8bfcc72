import OrderBookSimulator.Library.JsonDecode

/-!
# Records as JSON objects

Writers put a value down without blanks, and readers look up the members of an
object by name.  What is written of each kind of value, and what a reader
finds in an object whose names need no escapes.
-/

namespace OrderBookSimulator.Library.Json

/-! ## Writing -/

/-- Texts with commas between them. -/
def commas (texts : List (List Char)) : List Char := [','].intercalate texts

theorem commas_cons (first : List Char) (rest : List (List Char)) :
    commas (first :: rest) = first ++ rest.flatMap (',' :: ·) := by
  induction rest generalizing first with
  | nil => simp [commas]
  | cons second rest ih =>
      rw [List.flatMap_cons, commas, List.intercalate_cons_cons, ← commas, ih]
      simp

/-- The text of a value without blanks. -/
def Value.written (value : Value) : List Char := compact value.tokens

theorem writes_written (value : Value) : Writes value value.written := spells_compact value.tokens

theorem written_ne_nil (value : Value) : value.written ≠ [] := by
  intro empty
  have refused : decode [] = none := rfl
  exact not_writes_of_decode refused value (empty ▸ writes_written value)

theorem compact_append (first second : List Token) :
    compact (first ++ second) = compact first ++ compact second := List.flatMap_append

theorem compact_cons (token : Token) (tokens : List Token) :
    compact (token :: tokens) = token.text ++ compact tokens := List.flatMap_cons

theorem compact_separated {Item : Type} (toTokens : Item → List Token) (items : List Item) :
    compact (separated .comma (items.map toTokens)) =
      commas (items.map fun item => compact (toTokens item)) := by
  cases items with
  | nil => rfl
  | cons item items =>
      rw [List.map_cons, List.map_cons, commas_cons, separated, compact_append]
      congr 1
      induction items with
      | nil => rfl
      | cons next items ih =>
          rw [List.map_cons, List.map_cons, List.flatMap_cons, List.flatMap_cons, compact_append,
            ih, compact_cons]
          rfl

theorem written_int (n : Int) : (Value.int n).written = (toString n).toList := by
  rw [Value.written, Value.int, Value.tokens, compact_cons, Token.text, Literal.text_ofInt]
  exact List.append_nil _

theorem written_text {text : List Char} (plain : ∀ c ∈ text, isPlain c = true) :
    (Value.text text).written = '"' :: text ++ ['"'] := by
  rw [Value.written, Value.text, Value.tokens, compact_cons, Token.text,
    stringText_plainPieces plain]
  exact List.append_nil _

theorem written_array (items : List Value) :
    (Value.array items).written = '[' :: commas (items.map Value.written) ++ [']'] := by
  rw [Value.written, tokens_array, compact_cons, compact_append, compact_separated]
  rfl

/-- What is written of one member. -/
def memberText (member : List Piece × Value) : List Char :=
  '"' :: stringText member.1 ++ '"' :: ':' :: member.2.written

theorem written_object (members : List (List Piece × Value)) :
    (Value.object members).written =
      '\x7b' :: commas (members.map memberText) ++ ['\x7d'] := by
  have each : ∀ member : List Piece × Value, compact (memberTokens member) = memberText member := by
    intro member
    rw [memberTokens, compact_cons, compact_cons, Token.text, Token.text, memberText, Value.written]
    simp
  rw [Value.written, tokens_object, compact_cons, compact_append, compact_separated]
  simp only [each]
  rfl

/-- The word needs no escapes. -/
def PlainWord (word : String) : Prop := (word.toList.all isPlain) = true

instance (word : String) : Decidable (PlainWord word) :=
  inferInstanceAs (Decidable ((word.toList.all isPlain) = true))

theorem PlainWord.plain {word : String} (plain : PlainWord word) :
    ∀ c ∈ word.toList, isPlain c = true :=
  List.all_eq_true.mp plain

/-- The value of a word. -/
def Value.word (word : String) : Value := .text word.toList

theorem written_word {word : String} (plain : PlainWord word) :
    (Value.word word).written = '"' :: word.toList ++ ['"'] :=
  written_text plain.plain

/-- An object with the given names, which should need no escapes. -/
def Value.record (fields : List (String × Value)) : Value :=
  .object (fields.map fun field => (plainPieces field.1.toList, field.2))

def PlainNames (names : List String) : Prop := ∀ name ∈ names, PlainWord name

instance (names : List String) : Decidable (PlainNames names) :=
  inferInstanceAs (Decidable (∀ name ∈ names, PlainWord name))

/-- What is written of one field. -/
def fieldText (field : String × Value) : List Char :=
  '"' :: field.1.toList ++ '"' :: ':' :: field.2.written

theorem written_record {fields : List (String × Value)} (names : PlainNames (fields.map (·.1))) :
    (Value.record fields).written = '\x7b' :: commas (fields.map fieldText) ++ ['\x7d'] := by
  have each : ∀ field ∈ fields, memberText (plainPieces field.1.toList, field.2) =
      fieldText field := by
    intro field member
    have plain := (names field.1 (List.mem_map_of_mem member)).plain
    rw [memberText, stringText_plainPieces plain, fieldText]
  rw [Value.record, written_object, List.map_map]
  exact congrArg (fun texts => '\x7b' :: commas texts ++ ['\x7d']) (List.map_congr_left each)

/-! ### One line -/

/-- What fails a check is not in a text that passes it. -/
theorem not_mem_of_all {text : List Char} {check : Char → Bool} {c : Char}
    (passes : text.all check = true) (fails : check c = false) : c ∉ text := by
  intro member
  have passed := List.all_eq_true.mp passes c member
  rw [fails] at passed
  cases passed

theorem Piece.newline_not_mem (piece : Piece) : '\n' ∉ piece.text := by
  cases piece with
  | plain c ok =>
      have passes : [c].all isPlain = true := by rw [List.all_cons, ok, List.all_nil]; rfl
      exact not_mem_of_all passes rfl
  | escape c ok =>
      have passes : [c].all isEscapable = true := by rw [List.all_cons, ok, List.all_nil]; rfl
      exact List.not_mem_cons_of_ne_of_not_mem (by simp) (not_mem_of_all passes rfl)
  | unicode a b c d ok =>
      exact List.not_mem_cons_of_ne_of_not_mem (by simp)
        (List.not_mem_cons_of_ne_of_not_mem (by simp) (not_mem_of_all ok rfl))

/-- A number is written with digits, signs, a point and an `e`. -/
theorem Literal.not_mem_text {c : Char} (noDigit : c.isDigit = false)
    (other : c ∉ ['-', '+', '.', 'e', 'E']) (literal : Literal) : c ∉ literal.text := by
  simp only [List.mem_cons, List.not_mem_nil, or_false, not_or] at other
  obtain ⟨notMinus, notPlus, notPoint, notLower, notUpper⟩ := other
  have inDigits : ∀ digits : Digits, c ∉ digits.chars := fun digits =>
    not_mem_of_all digits.digits noDigit
  have sign : c ∉ if literal.negative then ['-'] else [] := by
    cases literal.negative <;> simp [notMinus]
  have fraction : c ∉ literal.fraction.elim [] fun digits => '.' :: digits.chars := by
    cases literal.fraction with
    | none => simp
    | some digits => simp [inDigits, notPoint]
  have exponent : c ∉ literal.exponent.elim [] Exponent.text := by
    cases literal.exponent with
    | none => simp
    | some exponent =>
        have mark : c ≠ exponent.mark := by
          rcases exponent.marked with same | same <;> simp [same, notLower, notUpper]
        have sign : c ∉ exponent.sign := by
          rcases exponent.signed with same | same | same <;> simp [same, notPlus, notMinus]
        simp [Exponent.text, mark, sign, inDigits]
  simp only [Literal.text, List.mem_append, not_or]
  exact ⟨sign, inDigits literal.whole, fraction, exponent⟩

theorem Token.newline_not_mem (token : Token) : '\n' ∉ token.text := by
  cases token with
  | number literal => exact literal.not_mem_text rfl (by decide)
  | string pieces =>
      have inner : '\n' ∉ stringText pieces := by
        intro member
        obtain ⟨piece, _, inPiece⟩ := List.mem_flatMap.mp member
        exact piece.newline_not_mem inPiece
      simp [Token.text, inner]
  | bool b => cases b <;> simp [Token.text]
  | _ => simp [Token.text]

/-- What is written of a value is one line. -/
theorem newline_not_mem_written (value : Value) : '\n' ∉ value.written := by
  intro member
  obtain ⟨token, _, inToken⟩ := List.mem_flatMap.mp member
  exact token.newline_not_mem inToken

/-! ## Reading -/

namespace Value

/-- The first member of the given name. -/
def member? (name : String) : Value → Option Value
  | .object members =>
      (members.find? fun member => stringValue member.1 = name.toList).map (·.2)
  | _ => none

def int? : Value → Option Int
  | .number literal => literal.int?
  | _ => none

def text? : Value → Option (List Char)
  | .string pieces => some (stringValue pieces)
  | _ => none

def items? : Value → Option (List Value)
  | .array items => some items
  | _ => none

/-- The integer, the text or the items under a name. -/
def intAt? (name : String) (value : Value) : Option Int := (value.member? name).bind int?

def textAt? (name : String) (value : Value) : Option (List Char) :=
  (value.member? name).bind text?

def itemsAt? (name : String) (value : Value) : Option (List Value) :=
  (value.member? name).bind items?

@[simp] theorem int?_int (n : Int) : (Value.int n).int? = some n := Literal.int?_ofInt n

theorem text?_text {text : List Char} (plain : ∀ c ∈ text, isPlain c = true) :
    (Value.text text).text? = some text :=
  congrArg some (stringValue_plainPieces plain)

@[simp] theorem items?_array (items : List Value) : (Value.array items).items? = some items := rfl

end Value

theorem Value.text?_word {word : String} (plain : PlainWord word) :
    (Value.word word).text? = some word.toList :=
  Value.text?_text plain.plain

theorem member?_record {fields : List (String × Value)} (names : PlainNames (fields.map (·.1)))
    (name : String) :
    (Value.record fields).member? name = (fields.find? (·.1 = name)).map (·.2) := by
  have same : fields.find? ((fun member => decide (stringValue member.1 = name.toList)) ∘
      fun field => (plainPieces field.1.toList, field.2)) = fields.find? (·.1 = name) := by
    rw [← List.head?_filter, ← List.head?_filter]
    refine congrArg List.head? (List.filter_congr fun field member => ?_)
    have plain := (names field.1 (List.mem_map_of_mem member)).plain
    simp only [Function.comp, stringValue_plainPieces plain, String.toList_inj]
  rw [Value.record, Value.member?, List.find?_map, Option.map_map, same]
  rfl

/-- Reading each of a list of written records gives the records back. -/
theorem mapM_read {Record : Type} {write : Record → Value} {read : Value → Option Record}
    (readsBack : ∀ record, read (write record) = some record) (records : List Record) :
    (records.map write).mapM read = some records := by
  induction records with
  | nil => rfl
  | cons record records ih =>
      rw [List.map_cons, List.mapM_cons, readsBack, ih]
      rfl

/-! ## Texts that decode to records -/

/-- The text is well-formed, and the record is what is read of its value. -/
def Decodes {Record : Type} (read : Value → Option Record) (text : List Char) (record : Record) :
    Prop :=
  ∃ value, Writes value text ∧ read value = some record

section Decodes

variable {Record : Type} {read : Value → Option Record} {text : List Char} {record : Record}

theorem decodes_written {value : Value} (written : text = value.written)
    (readsBack : read value = some record) : Decodes read text record :=
  ⟨value, written ▸ writes_written value, readsBack⟩

theorem Decodes.bind_decode (decodes : Decodes read text record) :
    (decode text).bind read = some record := by
  obtain ⟨value, writes, readsBack⟩ := decodes
  rw [decode_of_writes writes]
  exact readsBack

/-- A text decodes to one record at most. -/
theorem Decodes.unique {other : Record} (decodes : Decodes read text record)
    (decodesOther : Decodes read text other) : record = other :=
  Option.some.inj (decodes.bind_decode.symm.trans decodesOther.bind_decode)

end Decodes

end OrderBookSimulator.Library.Json
