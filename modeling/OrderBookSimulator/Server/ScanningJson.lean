import OrderBookSimulator.Library.JsonRecord
import OrderBookSimulator.Server.Scanning

/-!
# Scanning a JSON text

Where the scanners land in a text of JSON tokens.  A quoted key can only match
inside a string token: the whole of it, or what follows an escaped quote up to
the end.
-/

namespace OrderBookSimulator

open Library Json

/-- What the scanners search for: a word of letters and underscores. -/
def isKey (key : Text) : Bool := !key.isEmpty && key.all fun c => c.isAlpha || c = '_'

/-- The ends of a string that start behind an escaped quote. -/
def quoteTails : List Piece → List (List Piece)
  | [] => []
  | .escape c _ :: rest => if c = '"' then rest :: quoteTails rest else quoteTails rest
  | _ :: rest => quoteTails rest

/-- The quoted key is found in the quoted string. -/
def Carries (key : Text) (pieces : List Piece) : Prop :=
  ∃ tail ∈ pieces :: quoteTails pieces, stringText tail = key

instance (key : Text) (pieces : List Piece) : Decidable (Carries key pieces) :=
  inferInstanceAs (Decidable (∃ tail ∈ pieces :: quoteTails pieces, stringText tail = key))

section Key

variable {key : Text} (isWord : isKey key = true)

include isWord

theorem isKey_all : (key.all fun c => c.isAlpha || c = '_') = true := by
  simp only [isKey, Bool.and_eq_true] at isWord
  exact isWord.2

theorem quote_not_mem_key : '"' ∉ key := not_mem_of_all (isKey_all isWord) rfl

theorem backslash_not_mem_key : '\\' ∉ key := not_mem_of_all (isKey_all isWord) rfl

theorem colon_not_mem_key : ':' ∉ key := not_mem_of_all (isKey_all isWord) rfl

theorem exists_cons_of_isKey : ∃ c rest, key = c :: rest ∧ (c.isAlpha || c = '_') = true := by
  have all := isKey_all isWord
  cases key with
  | nil => cases isWord
  | cons c rest => exact ⟨c, rest, rfl, List.all_eq_true.mp all c (.head _)⟩

/-- At a quote that starts what is left of a string, the key matches if it is all that is left. -/
theorem key_prefix_iff (pieces : List Piece) (after : Text) :
    key ++ ['"'] <+: stringText pieces ++ '"' :: after ↔ stringText pieces = key := by
  have noQuote := quote_not_mem_key isWord
  have noBackslash := backslash_not_mem_key isWord
  clear isWord
  induction pieces generalizing key with
  | nil =>
      cases key with
      | nil => simp [stringText]
      | cons c key =>
          have different : c ≠ '"' := fun same => noQuote (same ▸ .head _)
          simp [stringText, different]
  | cons piece rest ih =>
      cases piece with
      | plain c ok =>
          have text : stringText (.plain c ok :: rest) = c :: stringText rest := rfl
          rw [text]
          cases key with
          | nil =>
              have different : c ≠ '"' := by rintro rfl; cases ok
              simp [Ne.symm different]
          | cons k key =>
              have later := ih (fun found => noQuote (.tail _ found))
                (fun found => noBackslash (.tail _ found))
              rw [List.cons_append, List.cons_append, List.cons_prefix_cons, List.cons.injEq]
              exact and_congr eq_comm later
      | escape c ok =>
          have text : stringText (.escape c ok :: rest) = '\\' :: c :: stringText rest := rfl
          rw [text]
          cases key with
          | nil => simp
          | cons k key =>
              have different : k ≠ '\\' := fun same => noBackslash (same ▸ .head _)
              simp [different, Ne.symm different]
      | unicode a b c d ok =>
          have text : stringText (.unicode a b c d ok :: rest) =
              '\\' :: 'u' :: a :: b :: c :: d :: stringText rest := rfl
          rw [text]
          cases key with
          | nil => simp
          | cons k key =>
              have different : k ≠ '\\' := fun same => noBackslash (same ▸ .head _)
              simp [different, Ne.symm different]

/-- What is left of a string is searched end by end. -/
theorem findText_string (pieces : List Piece) (after : Text) :
    findText ('"' :: (key ++ ['"'])) (stringText pieces ++ '"' :: after) =
      if ∃ tail ∈ quoteTails pieces, stringText tail = key then some ('"' :: (key ++ '"' :: after))
      else findText ('"' :: (key ++ ['"'])) ('"' :: after) := by
  induction pieces with
  | nil => simp [quoteTails, stringText]
  | cons piece rest ih =>
      cases piece with
      | plain c ok =>
          have different : '"' ≠ c := by rintro rfl; cases ok
          have text : stringText (.plain c ok :: rest) = c :: stringText rest := rfl
          rw [text, List.cons_append, findText_cons_of_ne different, ih]
          rfl
      | unicode a b c d ok =>
          have skipped : '"' ∉ ['\\', 'u', a, b, c, d] := by
            have digits : '"' ∉ [a, b, c, d] := not_mem_of_all ok rfl
            simpa using digits
          have text : stringText (.unicode a b c d ok :: rest) =
              ['\\', 'u', a, b, c, d] ++ stringText rest := rfl
          rw [text, List.append_assoc, findText_skip skipped, ih]
          rfl
      | escape c ok =>
          have text : stringText (.escape c ok :: rest) = '\\' :: c :: stringText rest := rfl
          rw [text, List.cons_append, List.cons_append, findText_cons_of_ne (by decide)]
          by_cases quote : c = '"'
          · subst quote
            have tails : quoteTails (.escape '"' ok :: rest) = rest :: quoteTails rest := rfl
            have start := key_prefix_iff isWord rest after
            rw [tails]
            by_cases here : stringText rest = key
            · rw [findText_of_start (List.cons_prefix_cons.mpr ⟨rfl, start.mpr here⟩) (by simp),
                if_pos ⟨rest, .head _, here⟩, here]
            · rw [findText_cons_of_mismatch fun reached =>
                here (start.mp (List.cons_prefix_cons.mp reached).2), ih]
              simp only [List.mem_cons, exists_eq_or_imp, here, false_or]
          · have tails : quoteTails (.escape c ok :: rest) = quoteTails rest := if_neg quote
            rw [findText_cons_of_ne (Ne.symm quote), ih, tails]

end Key

/-! ## Over tokens -/

theorem quote_not_mem_blank {blank : Text} (blanks : Blank blank) : '"' ∉ blank := fun member => by
  have isBlankQuote := blanks '"' member
  cases isBlankQuote

theorem quote_not_mem_token {token : Token} (noString : ∀ pieces, token ≠ .string pieces) :
    '"' ∉ token.text := by
  cases token with
  | string pieces => exact absurd rfl (noString pieces)
  | number literal => exact literal.not_mem_text rfl (by decide)
  | bool b => cases b <;> simp [Token.text]
  | _ => simp [Token.text]

/-- Where no scalar stands, no key starts. -/
theorem not_letter_of_spells {tokens : List Token} {text : Text} (spells : Spells tokens text)
    (noScalar : NoScalar tokens) : ∀ c ∈ text.head?, (c.isAlpha || c = '_') = false := by
  have blankNot : ∀ c, isBlank c = true → (c.isAlpha || c = '_') = false := by
    intro c blank
    simp only [isBlank, Bool.or_eq_true, decide_eq_true_eq] at blank
    rcases blank with ((rfl | rfl) | rfl) | rfl <;> rfl
  cases spells with
  | done blanks => exact fun c first => blankNot c (blanks c (List.mem_of_mem_head? first))
  | next blanks rest =>
      rename_i blank text token tokens
      intro c first
      cases blank with
      | cons b blank =>
          obtain rfl : b = c := Option.some.inj first
          exact blankNot b (blanks b (.head _))
      | nil =>
          have other := noScalar token rfl
          cases token with
          | null | bool _ | number _ | string _ => cases other
          | openObject | closeObject | openArray | closeArray | colon | comma =>
              cases first
              rfl

section Find

variable {key : Text} (isWord : isKey key = true)

include isWord

theorem findText_behind {tokens : List Token} {after : Text} (spells : Spells tokens after)
    (noScalar : NoScalar tokens) :
    findText ('"' :: (key ++ ['"'])) ('"' :: after) = findText ('"' :: (key ++ ['"'])) after := by
  refine findText_cons_of_mismatch fun reached => ?_
  obtain ⟨c, rest, rfl, letter⟩ := exists_cons_of_isKey isWord
  have start := (List.cons_prefix_cons.mp reached).2
  cases after with
  | nil => cases List.prefix_nil.mp start
  | cons d after =>
      have notLetter := not_letter_of_spells spells noScalar d rfl
      rw [(List.cons_prefix_cons.mp start).1, notLetter] at letter
      cases letter

/-- Tokens that do not carry the key are skipped. -/
theorem findText_key_skip {front back : List Token} {text : Text}
    (spells : Spells (front ++ back) text) (apart : Apart (front ++ back))
    (absent : ∀ pieces, Token.string pieces ∈ front → ¬ Carries key pieces) :
    ∃ rest, Spells back rest ∧
      findText ('"' :: (key ++ ['"'])) text = findText ('"' :: (key ++ ['"'])) rest := by
  induction front generalizing text with
  | nil => exact ⟨text, spells, rfl⟩
  | cons token front ih =>
      cases spells with
      | next blanks spells =>
          rename_i blank text
          obtain ⟨rest, restSpells, same⟩ := ih spells apart.tail
            fun pieces member => absent pieces (.tail _ member)
          refine ⟨rest, restSpells, ?_⟩
          rw [findText_skip (quote_not_mem_blank blanks), ← same]
          cases token with
          | string pieces =>
              have notHere := absent pieces (.head _)
              have noStart : ¬ stringText pieces = key := fun start =>
                notHere ⟨pieces, .head _, start⟩
              have noTail : ¬ ∃ tail ∈ quoteTails pieces, stringText tail = key :=
                fun ⟨tail, member, found⟩ => notHere ⟨tail, .tail _ member, found⟩
              rw [Token.text, List.cons_append, List.cons_append, List.append_assoc,
                List.singleton_append,
                findText_cons_of_mismatch fun reached => noStart ((key_prefix_iff isWord pieces
                  text).mp (List.cons_prefix_cons.mp reached).2),
                findText_string isWord, if_neg noTail,
                findText_behind isWord spells (apart.noScalar rfl)]
          | _ => exact findText_skip (quote_not_mem_token fun pieces => by simp)

theorem findText_key_found {pieces : List Piece} {back : List Token} {text : Text}
    (spells : Spells (.string pieces :: back) text) (carries : Carries key pieces) :
    ∃ rest, Spells back rest ∧
      findText ('"' :: (key ++ ['"'])) text = some ('"' :: (key ++ '"' :: rest)) := by
  cases spells with
  | next blanks spells =>
      rename_i blank rest
      refine ⟨rest, spells, ?_⟩
      have start := key_prefix_iff isWord pieces rest
      rw [findText_skip (quote_not_mem_blank blanks), Token.text, List.cons_append,
        List.cons_append, List.append_assoc, List.singleton_append]
      by_cases here : stringText pieces = key
      · rw [findText_of_start (List.cons_prefix_cons.mpr ⟨rfl, start.mpr here⟩) (by simp), here]
      · obtain ⟨tail, member, found⟩ := carries
        have inTails : tail ∈ quoteTails pieces := by
          rcases List.mem_cons.mp member with rfl | inTails
          · exact absurd found here
          · exact inTails
        rw [findText_cons_of_mismatch fun reached =>
            here (start.mp (List.cons_prefix_cons.mp reached).2),
          findText_string isWord, if_pos ⟨tail, inTails, found⟩]

end Find

section Field

variable {key : String} (isWord : isKey key.toList = true)

include isWord

theorem fieldValue_eq_none {tokens : List Token} {text : Text} (spells : Spells tokens text)
    (apart : Apart tokens)
    (absent : ∀ pieces, Token.string pieces ∈ tokens → ¬ Carries key.toList pieces) :
    fieldValue text key = none := by
  have whole : Spells (tokens ++ []) text := by rwa [List.append_nil]
  have wholeApart : Apart (tokens ++ []) := by rwa [List.append_nil]
  obtain ⟨rest, blank, same⟩ := findText_key_skip isWord whole wholeApart absent
  cases blank with
  | done blanks =>
      have none : findText ('"' :: (key.toList ++ ['"'])) rest = none :=
        findText_eq_none (quote_not_mem_blank blanks)
      rw [fieldValue, List.cons_append, same, none]
      rfl

/-- The first string that carries the key is followed by a colon: what is behind it is read. -/
theorem fieldValue_found {front back : List Token} {pieces : List Piece} {text : Text}
    (spells : Spells (front ++ .string pieces :: .colon :: back) text)
    (apart : Apart (front ++ .string pieces :: .colon :: back))
    (absent : ∀ pieces, Token.string pieces ∈ front → ¬ Carries key.toList pieces)
    (carries : Carries key.toList pieces) :
    ∃ rest, fieldValue text key = some rest ∧ Spells back rest := by
  obtain ⟨fromString, stringSpells, same⟩ := findText_key_skip isWord spells apart absent
  obtain ⟨rest, restSpells, found⟩ := findText_key_found isWord stringSpells carries
  cases restSpells with
  | next blanks spells =>
      rename_i blank text
      refine ⟨text, ?_, spells⟩
      have noColon : ':' ∉ blank := fun member => by
        have isBlankColon := blanks ':' member
        cases isBlankColon
      have skipped : ':' ∉ '"' :: (key.toList ++ '"' :: blank) := by
        simp [colon_not_mem_key isWord, noColon]
      have colon : findText [':'] ('"' :: (key.toList ++ '"' :: (blank ++ (Token.colon.text ++
          text)))) = some (':' :: text) := by
        have text : '"' :: (key.toList ++ '"' :: (blank ++ (Token.colon.text ++ text))) =
            ('"' :: (key.toList ++ '"' :: blank)) ++ ':' :: text := by
          simp [Token.text]
        rw [text, findText_skip skipped]
        exact findText_of_start (by simp) (by simp)
      rw [fieldValue, List.cons_append, same, found]
      simp only [Option.bind_eq_bind, Option.bind_some, colon]
      rfl

end Field

/-! ## Reading the value -/

/-- A number of digits only. -/
def Literal.IsDigits (literal : Literal) : Prop :=
  literal.negative = false ∧ literal.fraction = none ∧ literal.exponent = none

instance (literal : Literal) : Decidable (Literal.IsDigits literal) :=
  inferInstanceAs (Decidable (_ ∧ _))

theorem text_of_isDigits {literal : Literal} (digits : Literal.IsDigits literal) :
    literal.text = literal.whole.chars := by
  obtain ⟨positive, noFraction, noExponent⟩ := digits
  simp [Literal.text, positive, noFraction, noExponent]

theorem isDigits_ofInt {n : Int} (nonneg : 0 ≤ n) : Literal.IsDigits (Literal.ofInt n) :=
  ⟨decide_eq_false (Int.not_lt.mpr nonneg), rfl, rfl⟩

theorem readDigits_eq (digits : Digits) : readDigits digits.chars = digits.value := by
  have each : ∀ (chars : List Char) (soFar : Nat), chars.all Char.isDigit = true →
      chars.foldl (fun value digit => value * 10 + ((digit.toNat : Int) - '0'.toNat)) (soFar : Int) =
        (Nat.ofDigitChars 10 chars soFar : Nat) := by
    intro chars
    induction chars with
    | nil => exact fun soFar _ => by simp
    | cons c chars ih =>
        intro soFar all
        obtain ⟨digit, later⟩ := Bool.and_eq_true_iff.mp (List.all_cons ▸ all)
        have low : '0'.toNat ≤ c.toNat := by
          simp only [Char.isDigit, Bool.and_eq_true, decide_eq_true_eq] at digit
          exact digit.1
        rw [List.foldl_cons, Nat.ofDigitChars_cons, ← ih _ later]
        congr 1
        omega
  exact each digits.chars 0 digits.digits

theorem no_digit_of_blank {blank : Text} (blanks : Blank blank) :
    ∀ c ∈ blank, c.isDigit = false := by
  intro c member
  have isBlank := blanks c member
  simp only [Json.isBlank, Bool.or_eq_true, decide_eq_true_eq] at isBlank
  rcases isBlank with ((rfl | rfl) | rfl) | rfl <;> rfl

section Value

variable {body value : Text} {key : String} {back : List Token}

theorem extractStringField_of_value (found : fieldValue body key = some value)
    {pieces : List Piece} (spells : Spells (.string pieces :: back) value)
    (noQuote : '"' ∉ stringText pieces) :
    extractStringField body key = some (stringText pieces) := by
  cases spells with
  | next blanks spells =>
      rename_i blank after
      have opening : findText ['"'] (blank ++ ((Token.string pieces).text ++ after)) =
          some ('"' :: (stringText pieces ++ '"' :: after)) := by
        rw [findText_skip (quote_not_mem_blank blanks), Token.text, List.cons_append,
          List.cons_append, List.append_assoc, List.singleton_append]
        exact findText_of_start (by simp) (by simp)
      have closing : findText ['"'] (stringText pieces ++ '"' :: after) = some ('"' :: after) := by
        rw [findText_skip noQuote]
        exact findText_of_start (by simp) (by simp)
      have between : (stringText pieces ++ '"' :: after).takeWhile (· ≠ '"') =
          stringText pieces := by
        rw [List.takeWhile_append_of_pos fun c member => by
          simpa using fun same : c = '"' => noQuote (same ▸ member)]
        simp
      simp only [extractStringField, found, opening, closing, Option.bind_eq_bind,
        Option.bind_some, List.tail_cons, between]
      rfl

theorem extractIntField_of_value (found : fieldValue body key = some value) {literal : Literal}
    (spells : Spells (.number literal :: back) value) (noScalar : NoScalar back)
    (digits : Literal.IsDigits literal) :
    extractIntField body key = (stoll literal.whole.chars).map some := by
  cases spells with
  | next blanks spells =>
      rename_i blank after
      have ends : EndsNumber after := spells.endsNumber fun other first => by
        have noNumber := noScalar (.number other) first
        cases noNumber
      have num : digitRun (blank ++ ((Token.number literal).text ++ after)) =
          literal.whole.chars := by
        rw [Token.text, text_of_isDigits digits]
        exact digitRun_digits (no_digit_of_blank blanks)
          (List.all_eq_true.mp literal.whole.digits) literal.whole.nonempty
          fun c first => (ends c first).1
      rw [extractIntField_eq, numberFound, found, Option.bind_some, num, numberOf,
        if_neg literal.whole.nonempty, stoll]
      simp only [apply_ite (Except.map some)]
      rfl

end Value

/-! ## Over the members of an object -/

/-- The tokens around one of several lists with marks between them. -/
theorem separated_split {Item : Type} (mark : Item) (before : List (List Item)) (item : List Item)
    (after : List (List Item)) :
    ∃ front back, separated mark (before ++ item :: after) = front ++ (item ++ back) ∧
      (∀ token ∈ front, token = mark ∨ ∃ other ∈ before, token ∈ other) ∧
      ∀ token ∈ back.head?, token = mark := by
  have back : ∀ token ∈ (after.flatMap (mark :: ·)).head?, token = mark := by
    cases after with
    | nil => exact fun _ first => nomatch first
    | cons other after => exact fun _ first => (Option.some.inj first).symm
  cases before with
  | nil => exact ⟨[], _, rfl, by simp, back⟩
  | cons first before =>
      refine ⟨first ++ (before.flatMap (mark :: ·) ++ [mark]), _, ?_, ?_, back⟩
      · simp [separated]
      · intro token member
        rcases List.mem_append.mp member with inFirst | member
        · exact Or.inr ⟨first, .head _, inFirst⟩
        · rcases List.mem_append.mp member with inBefore | last
          · obtain ⟨other, otherMember, inOther⟩ := List.mem_flatMap.mp inBefore
            rcases List.mem_cons.mp inOther with rfl | inOther
            · exact Or.inl rfl
            · exact Or.inr ⟨other, .tail _ otherMember, inOther⟩
          · exact Or.inl (List.mem_singleton.mp last)

/-- The tokens of an object around one of its members. -/
theorem tokens_around {key : Text} {before : List (List Piece × Value)} (name : List Piece)
    (value : Value) (after : List (List Piece × Value))
    (absent : ∀ member ∈ before, ∀ pieces, Token.string pieces ∈ memberTokens member →
      ¬ Carries key pieces) :
    ∃ front back, (Value.object (before ++ (name, value) :: after)).tokens =
        front ++ .string name :: .colon :: (value.tokens ++ back) ∧
      (∀ pieces, Token.string pieces ∈ front → ¬ Carries key pieces) ∧ NoScalar back := by
  obtain ⟨front, back, tokens, inFront, backMark⟩ := separated_split .comma
    (before.map memberTokens) (memberTokens (name, value)) (after.map memberTokens)
  refine ⟨.openObject :: front, back ++ [.closeObject], ?_, ?_, ?_⟩
  · rw [tokens_object, List.map_append, List.map_cons, tokens]
    simp [memberTokens]
  · intro pieces member
    rcases List.mem_cons.mp member with isBrace | member
    · cases isBrace
    · rcases inFront _ member with isComma | ⟨other, inBefore, inOther⟩
      · cases isComma
      · obtain ⟨member, inMembers, rfl⟩ := List.mem_map.mp inBefore
        exact absent member inMembers pieces inOther
  · cases back with
    | nil => exact noScalar_cons rfl _
    | cons token back =>
        rw [backMark token rfl]
        exact noScalar_cons rfl _

section Object

variable {key : String} (isWord : isKey key.toList = true)

include isWord

/-- The name of a member is the first string that carries the key: its value is read. -/
theorem fieldValue_of_member {before after : List (List Piece × Value)} {name : List Piece}
    {value : Value} {text : Text} (writes : Writes (.object (before ++ (name, value) :: after)) text)
    (absent : ∀ member ∈ before, ∀ pieces, Token.string pieces ∈ memberTokens member →
      ¬ Carries key.toList pieces)
    (carries : Carries key.toList name) :
    ∃ rest back, fieldValue text key = some rest ∧ Spells (value.tokens ++ back) rest ∧
      NoScalar back := by
  obtain ⟨front, back, tokens, absentInFront, noScalar⟩ := tokens_around name value after absent
  have apart := apart_tokens (.object (before ++ (name, value) :: after))
  have spells : Spells (Value.object (before ++ (name, value) :: after)).tokens text := writes
  rw [tokens] at apart spells
  obtain ⟨rest, found, restSpells⟩ := fieldValue_found isWord spells apart absentInFront carries
  exact ⟨rest, back, found, restSpells, noScalar⟩

end Object

theorem quoteTails_plainPieces (word : Text) : quoteTails (plainPieces word) = [] := by
  induction word with
  | nil => rfl
  | cons c word ih =>
      rw [plainPieces, List.flatMap_cons, ← plainPieces]
      split
      · exact ih
      · exact ih

theorem carries_plainPieces {key word : Text} (plain : ∀ c ∈ word, isPlain c = true) :
    Carries key (plainPieces word) ↔ word = key := by
  unfold Carries
  rw [quoteTails_plainPieces]
  simp [stringText_plainPieces plain]

/-! ## Over the fields of a record -/

/-- The key is found in the value. -/
def Contains (key : Text) (value : Value) : Prop :=
  ∃ pieces, Token.string pieces ∈ value.tokens ∧ Carries key pieces

theorem not_contains_number (key : Text) (literal : Literal) :
    ¬ Contains key (.number literal) := by
  rintro ⟨pieces, member, _⟩
  cases List.mem_singleton.mp member

theorem contains_text_iff {key word : Text} (plain : ∀ c ∈ word, isPlain c = true) :
    Contains key (.text word) ↔ word = key := by
  rw [← carries_plainPieces plain]
  constructor
  · rintro ⟨pieces, member, carries⟩
    obtain rfl := Token.string.inj (List.mem_singleton.mp member)
    exact carries
  · exact fun carries => ⟨_, List.mem_singleton.mpr rfl, carries⟩

theorem not_contains_word {key : Text} {word : String} (plain : PlainWord word)
    (differs : word.toList ≠ key) : ¬ Contains key (.word word) :=
  (contains_text_iff plain.plain).not.mpr differs

theorem isPlain_of_isKey {key : Text} (isWord : isKey key = true) :
    ∀ c ∈ key, isPlain c = true := by
  intro c member
  have letter := List.all_eq_true.mp (isKey_all isWord) c member
  simp only [Bool.or_eq_true, decide_eq_true_eq] at letter
  rcases letter with letter | rfl
  · have code : 65 ≤ c.toNat := by
      have upperOrLower : (c.isUpper || c.isLower) = true := letter
      rcases Bool.or_eq_true_iff.mp upperOrLower with upper | lower
      · exact (of_decide_eq_true upper).1
      · exact Nat.le_trans (by decide) (of_decide_eq_true (Bool.and_eq_true_iff.mp lower).1)
    have notQuote : c ≠ '"' := by rintro rfl; revert letter; decide
    have notBackslash : c ≠ '\\' := by rintro rfl; revert letter; decide
    simp only [isPlain, Bool.and_eq_true, decide_eq_true_eq]
    exact ⟨⟨notQuote, notBackslash⟩, by omega⟩
  · rfl

/-- Each name is found as the name of its field and nowhere else. -/
structure Unambiguous (fields : List (String × Value)) : Prop where
  names : ∀ field ∈ fields, isKey field.1.toList = true
  distinct : (fields.map (·.1)).Nodup
  nowhere : ∀ field ∈ fields, ∀ other ∈ fields, ¬ Contains field.1.toList other.2

namespace Unambiguous

variable {fields : List (String × Value)}

theorem perm {others : List (String × Value)} (unambiguous : Unambiguous fields)
    (same : others.Perm fields) : Unambiguous others where
  names field member := unambiguous.names field (same.subset member)
  distinct := (same.map (·.1)).nodup_iff.mpr unambiguous.distinct
  nowhere field member other otherMember :=
    unambiguous.nowhere field (same.subset member) other (same.subset otherMember)

/-- What stands before a field does not carry its name. -/
theorem absent_before {before after : List (String × Value)} {name : String} {value : Value}
    (unambiguous : Unambiguous (before ++ (name, value) :: after)) :
    ∀ member ∈ before.map fun field => (plainPieces field.1.toList, field.2),
      ∀ pieces, Token.string pieces ∈ memberTokens member → ¬ Carries name.toList pieces := by
  intro other inBefore pieces inOther carries
  obtain ⟨field, inFields, rfl⟩ := List.mem_map.mp inBefore
  have inAll : field ∈ before ++ (name, value) :: after := List.mem_append_left _ inFields
  have member : (name, value) ∈ before ++ (name, value) :: after := by simp
  rcases List.mem_cons.mp inOther with isName | inValue
  · rw [Token.string.inj isName,
      carries_plainPieces (isPlain_of_isKey (unambiguous.names _ inAll))] at carries
    have distinct := unambiguous.distinct
    rw [List.map_append, List.map_cons, List.nodup_append] at distinct
    exact distinct.2.2 _ (List.mem_map_of_mem inFields) _ (.head _) (String.toList_inj.mp carries)
  · rcases List.mem_cons.mp inValue with isColon | inTokens
    · cases isColon
    · exact unambiguous.nowhere _ member _ inAll ⟨pieces, inTokens, carries⟩

variable (unambiguous : Unambiguous fields) {text : Text} (writes : Writes (.record fields) text)

include unambiguous writes

theorem fieldValue {name : String} {value : Value} (member : (name, value) ∈ fields) :
    ∃ rest back, fieldValue text name = some rest ∧ Spells (value.tokens ++ back) rest ∧
      NoScalar back := by
  obtain ⟨before, after, rfl⟩ := List.append_of_mem member
  have isWord := unambiguous.names _ member
  rw [Value.record, List.map_append, List.map_cons] at writes
  exact fieldValue_of_member isWord writes unambiguous.absent_before
    ((carries_plainPieces (isPlain_of_isKey isWord)).mpr rfl)

theorem extractString (name : String) {word : Text} (plain : ∀ c ∈ word, isPlain c = true)
    (member : (name, .text word) ∈ fields) : extractStringField text name = some word := by
  obtain ⟨rest, back, found, spells, _⟩ := unambiguous.fieldValue writes member
  rw [extractStringField_of_value found spells (quote_not_mem_plainPieces plain),
    stringText_plainPieces plain]

theorem extractDigits (name : String) {literal : Literal} (digits : Literal.IsDigits literal)
    (member : (name, .number literal) ∈ fields) :
    extractIntField text name = (stoll literal.whole.chars).map some := by
  obtain ⟨rest, back, found, spells, noScalar⟩ := unambiguous.fieldValue writes member
  exact extractIntField_of_value found spells noScalar digits

theorem extractInt (name : String) {n : Int} (nonneg : 0 ≤ n) (fits : n ≤ longLongMax)
    (member : (name, .int n) ∈ fields) : extractIntField text name = .ok (some n) := by
  have value : readDigits (Literal.ofInt n).whole.chars = n := by
    rw [readDigits_eq]
    have same := Digits.value_ofNat n.natAbs
    simp only [Literal.ofInt, same]
    omega
  rw [unambiguous.extractDigits writes name (isDigits_ofInt nonneg) member, stoll, value, if_pos fits]
  rfl

end Unambiguous

end OrderBookSimulator
