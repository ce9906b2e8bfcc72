import OrderBookSimulator.Library.JsonQuoting
import OrderBookSimulator.Server.ScanningJson

/-!
# Where a scan lands

What the scanners take from a JSON text depends on its tokens only.  The first
string that carries the key counts, then the first colon behind it, which may
stand inside a string, then the first digits or the first string behind that.
-/

namespace OrderBookSimulator

open Library Json

/-- The tokens behind the first string that carries the key. -/
def behindKey (key : Text) : List Token → Option (List Token)
  | [] => none
  | .string pieces :: rest => if Carries key pieces then some rest else behindKey key rest
  | _ :: rest => behindKey key rest

/-- What stands behind a colon. -/
inductive Landing where
  | outside (rest : List Token)
  /-- The colon stands in a string, of which this is left. -/
  | inside (left : Text) (rest : List Token)

def behindColon : List Token → Option Landing
  | [] => none
  | .colon :: rest => some (.outside rest)
  | .string pieces :: rest =>
      if ':' ∈ stringText pieces then
        some (.inside ((stringText pieces).dropWhile (· ≠ ':')).tail rest)
      else behindColon rest
  | _ :: rest => behindColon rest

def landing (tokens : List Token) (key : String) : Option Landing :=
  (behindKey key.toList tokens).bind behindColon

/-- The first digits in the tokens. -/
def firstDigits : List Token → Text
  | [] => []
  | .number literal :: _ => literal.whole.chars
  | .string pieces :: rest =>
      if digitRun (stringText pieces) = [] then firstDigits rest else digitRun (stringText pieces)
  | _ :: rest => firstDigits rest

/-- The first string in the tokens, up to an escaped quote. -/
def firstString : List Token → Option Text
  | [] => none
  | .string pieces :: _ => some ((stringText pieces).takeWhile (· ≠ '"'))
  | _ :: rest => firstString rest

namespace Landing

/-- The text is what stands behind the colon. -/
def SpelledBy (value : Text) : Landing → Prop
  | outside rest => Spells rest value ∧ Apart rest
  | inside left rest =>
      ∃ after, value = left ++ '"' :: after ∧ Spells rest after ∧ Apart rest ∧ NoScalar rest

def digits : Landing → Text
  | outside rest => firstDigits rest
  | inside left rest => if digitRun left = [] then firstDigits rest else digitRun left

/-- What stands between two strings is no word; it counts as an empty one. -/
def text : Landing → Option Text
  | outside rest => firstString rest
  | inside left rest =>
      if '"' ∈ left then some ((left.dropWhile (· ≠ '"')).tail.takeWhile (· ≠ '"'))
      else (firstString rest).map fun _ => []

end Landing

def landedNumber (tokens : List Token) (key : String) : Option Int :=
  (landing tokens key).bind fun landing => numberOf landing.digits

def landedText (tokens : List Token) (key : String) : Option Text :=
  (landing tokens key).bind Landing.text

/-! ## Finding the place -/

theorem split_of_mem {c : Char} {text : Text} (member : c ∈ text) :
    ∃ front, text = front ++ c :: (text.dropWhile (· ≠ c)).tail ∧ c ∉ front := by
  induction text with
  | nil => cases member
  | cons d text ih =>
      by_cases here : d = c
      · exact ⟨[], by simp [here], List.not_mem_nil⟩
      · have later : c ∈ text := (List.mem_cons.mp member).resolve_left (Ne.symm here)
        obtain ⟨front, same, absent⟩ := ih later
        refine ⟨d :: front, ?_, List.not_mem_cons_of_ne_of_not_mem (Ne.symm here) absent⟩
        have dropped : (d :: text).dropWhile (· ≠ c) = text.dropWhile (· ≠ c) :=
          List.dropWhile_cons_of_pos (by simp [here])
        rw [dropped, List.cons_append, ← same]

theorem takeWhile_of_not_mem {text : Text} {c : Char} (absent : c ∉ text) :
    text.takeWhile (· ≠ c) = text :=
  List.takeWhile_eq_self_iff.mpr fun d member => by
    simpa using fun same : d = c => absent (same ▸ member)

theorem behindKey_cases (key : Text) (tokens : List Token) :
    (behindKey key tokens = none ∧ ∀ pieces, .string pieces ∈ tokens → ¬ Carries key pieces) ∨
      ∃ front pieces rest, tokens = front ++ .string pieces :: rest ∧
        behindKey key tokens = some rest ∧ Carries key pieces ∧
          ∀ pieces, .string pieces ∈ front → ¬ Carries key pieces := by
  induction tokens with
  | nil => exact Or.inl ⟨rfl, fun _ member => nomatch member⟩
  | cons token tokens ih =>
      by_cases here : ∃ pieces, token = .string pieces ∧ Carries key pieces
      · obtain ⟨pieces, rfl, carries⟩ := here
        exact Or.inr ⟨[], pieces, tokens, rfl, if_pos carries, carries, fun _ member =>
          nomatch member⟩
      · have notHere : ∀ pieces, token = .string pieces → ¬ Carries key pieces :=
          fun pieces isString carries => here ⟨pieces, isString, carries⟩
        have skips : behindKey key (token :: tokens) = behindKey key tokens := by
          cases token with
          | string pieces => exact if_neg (notHere pieces rfl)
          | _ => rfl
        rw [skips]
        rcases ih with ⟨none, absent⟩ | ⟨front, pieces, rest, rfl, found, carries, absent⟩
        · refine Or.inl ⟨none, fun pieces member => ?_⟩
          rcases List.mem_cons.mp member with isToken | later
          · exact notHere pieces isToken.symm
          · exact absent pieces later
        · refine Or.inr ⟨token :: front, pieces, rest, rfl, found, carries,
            fun pieces member => ?_⟩
          rcases List.mem_cons.mp member with isToken | later
          · exact notHere pieces isToken.symm
          · exact absent pieces later

theorem behindKey_of_first {key : Text} {front rest : List Token} {pieces : List Piece}
    (absent : ∀ pieces, .string pieces ∈ front → ¬ Carries key pieces)
    (carries : Carries key pieces) :
    behindKey key (front ++ .string pieces :: rest) = some rest := by
  induction front with
  | nil => exact if_pos carries
  | cons token front ih =>
      have later := ih fun pieces member => absent pieces (.tail _ member)
      cases token with
      | string other => exact (if_neg (absent other (.head _))).trans later
      | _ => exact later

theorem colon_not_mem_blank {blank : Text} (blanks : Blank blank) : ':' ∉ blank := fun member => by
  have isBlankColon := blanks ':' member
  cases isBlankColon

theorem findText_colon {tokens : List Token} {text : Text} (spells : Spells tokens text)
    (apart : Apart tokens) :
    match behindColon tokens with
    | none => findText [':'] text = none
    | some landing => ∃ value, findText [':'] text = some (':' :: value) ∧
        landing.SpelledBy value := by
  induction spells with
  | done blanks => exact findText_eq_none (colon_not_mem_blank blanks)
  | next blanks rest ih =>
      rename_i blank text token tokens
      rw [findText_skip (colon_not_mem_blank blanks)]
      have later := ih apart.tail
      by_cases absent : ':' ∈ token.text
      · cases token with
        | colon => exact ⟨text, findText_of_start (by simp [Token.text]) (by simp), rest, apart.tail⟩
        | string pieces =>
            have inside : ':' ∈ stringText pieces := by simpa [Token.text] using absent
            obtain ⟨front, same, notBefore⟩ := split_of_mem inside
            have noColon : ':' ∉ '"' :: front :=
              List.not_mem_cons_of_ne_of_not_mem (by decide) notBefore
            rw [behindColon, if_pos inside]
            refine ⟨_, ?_, text, rfl, rest, apart.tail, apart.noScalar rfl⟩
            generalize ((stringText pieces).dropWhile (· ≠ ':')).tail = left at same ⊢
            have whole : (Token.string pieces).text ++ text =
                ('"' :: front) ++ ':' :: (left ++ '"' :: text) := by
              rw [Token.text, same]
              simp
            rw [whole, findText_skip noColon]
            exact findText_of_start (by simp) (by simp)
        | number literal => exact absurd absent (literal.not_mem_text rfl (by decide))
        | bool b => cases b <;> exact absurd absent (by decide)
        | _ => exact absurd absent (by decide)
      · rw [findText_skip absent]
        cases token with
        | colon => exact absurd (by decide) absent
        | string pieces =>
            have notInside : ':' ∉ stringText pieces := fun member => absent (by simp [Token.text, member])
            rw [behindColon, if_neg notInside]
            exact later
        | _ => exact later

/-- The scan finds the place it lands on. -/
theorem fieldValue_landing {tokens : List Token} {text : Text} (spells : Spells tokens text)
    (apart : Apart tokens) {key : String} (isWord : isKey key.toList = true) :
    match landing tokens key with
    | none => fieldValue text key = none
    | some landing => ∃ value, fieldValue text key = some value ∧ landing.SpelledBy value := by
  rcases behindKey_cases key.toList tokens with
    ⟨none, absent⟩ | ⟨front, pieces, rest, rfl, behind, carries, absent⟩
  · rw [landing, none]
    exact fieldValue_eq_none isWord spells apart absent
  · obtain ⟨fromString, stringSpells, same⟩ := findText_key_skip isWord spells apart absent
    obtain ⟨after, afterSpells, found⟩ := findText_key_found isWord stringSpells carries
    have colon := findText_colon afterSpells apart.drop.tail
    have noColon : ':' ∉ '"' :: (key.toList ++ ['"']) := by simp [colon_not_mem_key isWord]
    have skipped : findText [':'] ('"' :: (key.toList ++ '"' :: after)) = findText [':'] after := by
      have text : '"' :: (key.toList ++ '"' :: after) = '"' :: (key.toList ++ ['"']) ++ after := by
        simp
      rw [text, findText_skip noColon]
    have value : fieldValue text key = (findText [':'] after).map List.tail := by
      rw [fieldValue, List.cons_append, same, found]
      simp only [Option.bind_eq_bind, Option.bind_some, skipped]
      cases findText [':'] after <;> rfl
    rw [landing, behind, Option.bind_some]
    cases place : behindColon rest with
    | none =>
        rw [place] at colon
        rw [value, colon]
        rfl
    | some landing =>
        rw [place] at colon
        obtain ⟨behindIt, foundColon, spelled⟩ := colon
        exact ⟨behindIt, by rw [value, foundColon]; rfl, spelled⟩

/-! ## Reading there -/

theorem no_digit_of_token {token : Token} (noNumber : ∀ literal, token ≠ .number literal)
    (noString : ∀ pieces, token ≠ .string pieces) : ∀ c ∈ token.text, c.isDigit = false := by
  cases token with
  | number literal => exact absurd rfl (noNumber literal)
  | string pieces => exact absurd rfl (noString pieces)
  | bool b => cases b <;> exact no_digit_of_any rfl
  | _ => exact no_digit_of_any rfl

theorem digitRun_spells {tokens : List Token} {text : Text} (spells : Spells tokens text)
    (apart : Apart tokens) : digitRun text = firstDigits tokens := by
  induction spells with
  | done blanks =>
      rename_i blank
      rw [← List.append_nil blank, digitRun_skip (no_digit_of_blank blanks)]
      rfl
  | next blanks rest ih =>
      rename_i blank text token tokens
      have later := ih apart.tail
      rw [digitRun_skip (no_digit_of_blank blanks)]
      cases token with
      | number literal =>
          have ends : EndsNumber text := rest.endsNumber fun other first => by
            have noNumber := apart.noScalar rfl (.number other) first
            cases noNumber
          have afterFraction := head?_exponent literal.exponent ends
          have afterWhole := head?_fraction literal.fraction fun c first => (afterFraction c first).1
          have noSign : ∀ c ∈ (if literal.negative then ['-'] else []), c.isDigit = false := by
            cases literal.negative <;> exact no_digit_of_any rfl
          rw [Token.text, Literal.text, List.append_assoc, List.append_assoc, List.append_assoc]
          exact digitRun_digits noSign (List.all_eq_true.mp literal.whole.digits)
            literal.whole.nonempty afterWhole
      | string pieces =>
          rw [Token.text, List.cons_append, List.cons_append, digitRun_cons rfl, List.append_assoc,
            List.singleton_append, digitRun_before rfl, later, firstDigits]
      | _ =>
          rw [digitRun_skip (no_digit_of_token (by simp) (by simp))]
          exact later

theorem Landing.digitRun_eq {landing : Landing} {value : Text} (spelled : landing.SpelledBy value) :
    digitRun value = landing.digits := by
  cases landing with
  | outside rest => exact digitRun_spells spelled.1 spelled.2
  | inside left rest =>
      obtain ⟨after, rfl, spells, apart, _⟩ := spelled
      rw [digitRun_before rfl, digitRun_spells spells apart, digits]

/-- The number that is found is the one the tokens show. -/
theorem numberFound_eq {tokens : List Token} {text : Text} (spells : Spells tokens text)
    (apart : Apart tokens) {key : String} (isWord : isKey key.toList = true) :
    numberFound text key = landedNumber tokens key := by
  have place := fieldValue_landing spells apart isWord
  unfold numberFound landedNumber
  cases found : landing tokens key with
  | none =>
      rw [found] at place
      rw [place]
      rfl
  | some landing =>
      rw [found] at place
      obtain ⟨value, isValue, spelled⟩ := place
      rw [isValue, Option.bind_some, Option.bind_some, landing.digitRun_eq spelled]

/-- What stands between the next two quotes. -/
def betweenQuotes (value : Text) : Option Text := do
  let fromQuote ← findText ['"'] value
  let _ ← findText ['"'] fromQuote.tail
  pure (fromQuote.tail.takeWhile (· ≠ '"'))

theorem extractStringField_eq (text : Text) (key : String) :
    extractStringField text key = (fieldValue text key).bind betweenQuotes := rfl

theorem betweenQuotes_behind {front rest : Text} (noQuote : '"' ∉ front) :
    betweenQuotes (front ++ '"' :: rest) =
      if '"' ∈ rest then some (rest.takeWhile (· ≠ '"')) else none := by
  have opening : findText ['"'] (front ++ '"' :: rest) = some ('"' :: rest) := by
    rw [findText_skip noQuote]
    exact findText_of_start (by simp) (by simp)
  simp only [betweenQuotes, opening, Option.bind_eq_bind, Option.bind_some, List.tail_cons]
  by_cases closes : '"' ∈ rest
  · obtain ⟨inside, same, notInside⟩ := split_of_mem closes
    have closing : ∃ found, findText ['"'] rest = some found := by
      rw [same, findText_skip notInside]
      exact ⟨_, findText_of_start (by simp) (by simp)⟩
    obtain ⟨found, closing⟩ := closing
    rw [if_pos closes, closing]
    rfl
  · rw [if_neg closes, findText_eq_none closes]
    rfl

theorem betweenQuotes_skip {front text : Text} (noQuote : '"' ∉ front) :
    betweenQuotes (front ++ text) = betweenQuotes text := by
  rw [betweenQuotes, betweenQuotes, findText_skip noQuote]

/-- The first string is what stands between the next two quotes. -/
theorem betweenQuotes_spells {tokens : List Token} {text : Text} (spells : Spells tokens text) :
    betweenQuotes text = firstString tokens := by
  induction spells with
  | done blanks =>
      rw [betweenQuotes, findText_eq_none (quote_not_mem_blank blanks)]
      rfl
  | next blanks rest ih =>
      rename_i blank text token tokens
      rw [betweenQuotes_skip (quote_not_mem_blank blanks)]
      cases token with
      | string pieces =>
          have whole : (Token.string pieces).text ++ text =
              [] ++ '"' :: (stringText pieces ++ '"' :: text) := by
            simp [Token.text]
          rw [whole, betweenQuotes_behind List.not_mem_nil, if_pos (by simp),
            takeWhile_before (by simp)]
          rfl
      | _ =>
          rw [betweenQuotes_skip (quote_not_mem_token fun pieces => by simp)]
          exact ih

theorem quote_mem_iff {tokens : List Token} {text : Text} (spells : Spells tokens text) :
    '"' ∈ text ↔ (firstString tokens).isSome := by
  induction spells with
  | done blanks => simp [firstString, quote_not_mem_blank blanks]
  | next blanks rest ih =>
      rename_i blank text token tokens
      rw [List.mem_append, List.mem_append, or_iff_right (quote_not_mem_blank blanks)]
      cases token with
      | string pieces => simp [Token.text, firstString]
      | _ =>
          rw [or_iff_right (quote_not_mem_token fun pieces => by simp)]
          exact ih

/-- In a string, the quotes are those of its own escapes where there are any. -/
theorem betweenQuotes_inside {left after : Text} {rest : List Token}
    (escaped : '"' ∈ left) :
    betweenQuotes (left ++ '"' :: after) = (Landing.inside left rest).text := by
  obtain ⟨front, same, notBefore⟩ := split_of_mem escaped
  rw [Landing.text, if_pos escaped]
  generalize (left.dropWhile (· ≠ '"')).tail = back at same ⊢
  have whole : left ++ '"' :: after = front ++ '"' :: (back ++ '"' :: after) := by
    rw [same]
    simp
  rw [whole, betweenQuotes_behind notBefore, if_pos (by simp), takeWhile_before (by simp)]

namespace Landing

variable {landing : Landing} {value : Text} (spelled : landing.SpelledBy value)

include spelled

/-- A word is read where the tokens show it. -/
theorem reads_iff {word : Text} (isWord : isKey word = true) :
    betweenQuotes value = some word ↔ landing.text = some word := by
  cases landing with
  | outside rest => rw [betweenQuotes_spells spelled.1, text]
  | inside left rest =>
      obtain ⟨after, rfl, spells, _, noScalar⟩ := spelled
      by_cases escaped : '"' ∈ left
      · rw [betweenQuotes_inside escaped]
      · obtain ⟨c, more, rfl, letter⟩ := exists_cons_of_isKey isWord
        -- what stands between two strings starts with no letter
        have noWord : ¬ after.takeWhile (· ≠ '"') = c :: more := by
          intro same
          have first : after.head? = some c := by
            cases after with
            | nil => cases same
            | cons d after =>
                rw [List.takeWhile_cons] at same
                split at same
                · exact congrArg some (List.cons.inj same).1
                · cases same
          have notLetter := not_letter_of_spells spells noScalar c first
          rw [letter] at notLetter
          cases notLetter
        rw [betweenQuotes_behind escaped, text, if_neg escaped]
        constructor
        · intro read
          split at read
          · exact absurd (Option.some.inj read) noWord
          · cases read
        · intro shown
          obtain ⟨_, _, empty⟩ := Option.map_eq_some_iff.mp shown
          cases empty

theorem reads_nothing_iff : betweenQuotes value = none ↔ landing.text = none := by
  cases landing with
  | outside rest => rw [betweenQuotes_spells spelled.1, text]
  | inside left rest =>
      obtain ⟨after, rfl, spells, _, noScalar⟩ := spelled
      by_cases escaped : '"' ∈ left
      · rw [betweenQuotes_inside escaped]
      · have absent_iff : '"' ∉ after ↔ firstString rest = none := by
          rw [quote_mem_iff spells, Option.not_isSome_iff_eq_none]
        rw [betweenQuotes_behind escaped, text, if_neg escaped, Option.map_eq_none_iff,
          ← absent_iff]
        simp

end Landing

section Text

variable {tokens : List Token} {text : Text} (spells : Spells tokens text) (apart : Apart tokens)
  {key : String} (isKeyWord : isKey key.toList = true)

include spells apart isKeyWord

theorem extractStringField_iff {word : Text} (isWord : isKey word = true) :
    extractStringField text key = some word ↔ landedText tokens key = some word := by
  have place := fieldValue_landing spells apart isKeyWord
  rw [extractStringField_eq, landedText]
  cases found : landing tokens key with
  | none =>
      rw [found] at place
      rw [place]
      rfl
  | some landing =>
      rw [found] at place
      obtain ⟨value, isValue, spelled⟩ := place
      rw [isValue, Option.bind_some, Option.bind_some, landing.reads_iff spelled isWord]

theorem extractStringField_eq_none_iff :
    extractStringField text key = none ↔ landedText tokens key = none := by
  have place := fieldValue_landing spells apart isKeyWord
  rw [extractStringField_eq, landedText]
  cases found : landing tokens key with
  | none =>
      rw [found] at place
      rw [place]
      rfl
  | some landing =>
      rw [found] at place
      obtain ⟨value, isValue, spelled⟩ := place
      rw [isValue, Option.bind_some, Option.bind_some, landing.reads_nothing_iff spelled]

end Text

/-! ## What the tokens of an object show -/

section Tokens

variable {members : List (List Piece × Value)} {text : Text} (writes : Writes (.object members) text)

/-- The tokens of the object. -/
def objectTokens (members : List (List Piece × Value)) : List Token := (Value.object members).tokens

include writes

theorem numberFound_object {key : String} (isWord : isKey key.toList = true) :
    numberFound text key = landedNumber (objectTokens members) key :=
  numberFound_eq writes (apart_tokens _) isWord

theorem extractStringField_object {key : String} (isKeyWord : isKey key.toList = true)
    {word : Text} (isWord : isKey word = true) :
    extractStringField text key = some word ↔
      landedText (objectTokens members) key = some word :=
  extractStringField_iff writes (apart_tokens _) isKeyWord isWord

/-- The word that counts where there is none is found where the tokens show none. -/
theorem getD_extractStringField_object {key : String} (isKeyWord : isKey key.toList = true)
    (other : Text) {word : Text} (isWord : isKey word = true) :
    (extractStringField text key).getD other = word ↔
      (landedText (objectTokens members) key).getD other = word := by
  have some_iff := extractStringField_object writes isKeyWord isWord
  have none_iff : extractStringField text key = none ↔
      landedText (objectTokens members) key = none :=
    extractStringField_eq_none_iff writes (apart_tokens _) isKeyWord
  cases found : extractStringField text key with
  | none => rw [none_iff.mp found]
  | some read =>
      cases shown : landedText (objectTokens members) key with
      | none =>
          rw [none_iff.mpr shown] at found
          cases found
      | some landed =>
          rw [found, shown] at some_iff
          simpa using some_iff

end Tokens

end OrderBookSimulator
