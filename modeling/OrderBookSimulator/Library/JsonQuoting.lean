import OrderBookSimulator.Library.JsonRecord

/-!
# Text put between quotes

A writer that puts a text between quotes as it is writes JSON if and only if
the text is the inside of a string.  The text is not searched for quotes here;
one that holds none cannot end the string early, but a backslash at its end
makes the string go on.
-/

namespace OrderBookSimulator.Library.Json

/-- A list that does not hold the mark and starts the whole starts what comes before the mark. -/
theorem append_of_not_mem {Item : Type} {front back text after : List Item} {mark : Item}
    (notMark : mark ∉ front) (same : text ++ mark :: after = front ++ back) :
    ∃ rest, text = front ++ rest ∧ back = rest ++ mark :: after := by
  rcases List.append_eq_append_iff.mp same.symm with ⟨rest, texts, backs⟩ | ⟨rest, fronts, marks⟩
  · exact ⟨rest, texts, backs⟩
  · cases rest with
    | nil =>
        rw [List.append_nil] at fronts
        exact ⟨[], by simp [fronts], by simpa using marks.symm⟩
    | cons c rest =>
        obtain rfl := (List.cons.inj marks).1
        exact absurd (by simp [fronts]) notMark

theorem Piece.quote_not_mem_or (piece : Piece) : '"' ∉ piece.text ∨ piece.text = ['\\', '"'] := by
  cases piece with
  | plain c ok =>
      have passes : [c].all isPlain = true := by rw [List.all_cons, ok, List.all_nil]; rfl
      exact Or.inl (not_mem_of_all passes rfl)
  | escape c ok =>
      by_cases quote : c = '"'
      · exact Or.inr (congrArg (fun d => ['\\', d]) quote)
      · exact Or.inl (by simp [Piece.text, Ne.symm quote])
  | unicode a b c d ok =>
      exact Or.inl (List.not_mem_cons_of_ne_of_not_mem (by simp)
        (List.not_mem_cons_of_ne_of_not_mem (by simp) (not_mem_of_all ok rfl)))

/-- A string without a backslash is written as it is. -/
theorem eq_plainPieces {pieces : List Piece} (noBackslash : '\\' ∉ stringText pieces) :
    pieces = plainPieces (stringText pieces) := by
  induction pieces with
  | nil => rfl
  | cons piece pieces ih =>
      have texts : stringText (piece :: pieces) = piece.text ++ stringText pieces := rfl
      rw [texts] at noBackslash ⊢
      have later := ih fun member => noBackslash (List.mem_append_right _ member)
      cases piece with
      | plain c ok =>
          rw [Piece.text, List.singleton_append, plainPieces, List.flatMap_cons, dif_pos ok,
            ← plainPieces, ← later]
          rfl
      | escape c ok => exact absurd (by simp [Piece.text]) noBackslash
      | unicode a b c d ok => exact absurd (by simp [Piece.text]) noBackslash

/--
The string that is opened before a text without quotes ends right behind it, or
the text holds a backslash and the string goes on behind the quote.
-/
theorem stringText_of_quoted {pieces : List Piece} {text after rest : List Char}
    (noQuote : '"' ∉ text) (same : text ++ '"' :: after = stringText pieces ++ '"' :: rest) :
    (stringText pieces = text ∧ rest = after) ∨
      ('\\' ∈ text ∧ ∃ others, after = stringText others ++ '"' :: rest) := by
  induction pieces generalizing text with
  | nil =>
      have empty : stringText [] = [] := rfl
      rw [empty, List.nil_append] at same
      cases text with
      | nil => exact Or.inl ⟨rfl, (List.cons.inj same).2.symm⟩
      | cons c text =>
          obtain rfl := (List.cons.inj same).1
          exact absurd (.head _) noQuote
  | cons piece pieces ih =>
      have texts : stringText (piece :: pieces) = piece.text ++ stringText pieces := rfl
      rw [texts, List.append_assoc] at same
      rcases piece.quote_not_mem_or with notHere | quote
      · obtain ⟨more, rfl, later⟩ := append_of_not_mem notHere same
        have noMore : '"' ∉ more := fun member => noQuote (List.mem_append_right _ member)
        rcases ih noMore later.symm with ⟨inside, ends⟩ | ⟨backslash, goesOn⟩
        · exact Or.inl ⟨by rw [texts, inside], ends⟩
        · exact Or.inr ⟨List.mem_append_right _ backslash, goesOn⟩
      · rw [quote] at same
        have notSlash : '"' ∉ ['\\'] := by decide
        obtain ⟨more, rfl, later⟩ := append_of_not_mem notSlash same
        refine Or.inr ⟨.head _, pieces, ?_⟩
        cases more with
        | nil => exact (List.cons.inj later).2.symm
        | cons c more =>
            obtain rfl := (List.cons.inj later).1
            exact absurd (by simp) noQuote

/-- Behind an escaped quote, what is left of a string is a string. -/
theorem exists_stringText_behind {pieces : List Piece} {front back : List Char}
    (same : stringText pieces = front ++ '"' :: back) : ∃ rest, back = stringText rest := by
  induction pieces generalizing front with
  | nil => cases front <;> cases same
  | cons piece pieces ih =>
      have texts : stringText (piece :: pieces) = piece.text ++ stringText pieces := rfl
      rw [texts] at same
      rcases piece.quote_not_mem_or with notHere | quote
      · obtain ⟨more, rfl, later⟩ := append_of_not_mem notHere same.symm
        exact ih later
      · rw [quote] at same
        cases front with
        | nil => cases (List.cons.inj same).1
        | cons c front =>
            have tails := (List.cons.inj same).2
            cases front with
            | nil => exact ⟨pieces, (List.cons.inj tails).2.symm⟩
            | cons d front => exact ih (List.cons.inj tails).2

/-! ## The front of a text -/

/-- What a token starts with. -/
def Token.StartsWith (c : Char) : Token → Prop
  | .openObject => c = '\x7b'
  | .closeObject => c = '\x7d'
  | .openArray => c = '['
  | .closeArray => c = ']'
  | .colon => c = ':'
  | .comma => c = ','
  | .null => c = 'n'
  | .bool true => c = 't'
  | .bool false => c = 'f'
  | .number _ => c = '-' ∨ c.isDigit = true
  | .string _ => c = '"'

theorem Spells.front {tokens : List Token} {c : Char} {text : List Char}
    (spells : Spells tokens (c :: text)) (notBlank : isBlank c = false) :
    ∃ token others rest, tokens = token :: others ∧ token.StartsWith c ∧
      c :: text = token.text ++ rest ∧ Spells others rest := by
  generalize whole : c :: text = all at spells
  cases spells with
  | done blanks =>
      have blank := blanks c (whole ▸ .head _)
      rw [notBlank] at blank
      cases blank
  | next blanks spells =>
      rename_i blank rest token others
      cases blank with
      | cons b blank =>
          obtain rfl := (List.cons.inj whole).1
          have isBlank := blanks c (.head _)
          rw [notBlank] at isBlank
          cases isBlank
      | nil =>
          refine ⟨token, others, rest, rfl, ?_, rfl, spells⟩
          rw [List.nil_append] at whole
          cases token with
          | number literal =>
              obtain ⟨d, more, starts, first⟩ := head?_number literal
              rw [Token.text, starts] at whole
              rw [(List.cons.inj whole).1]
              exact first
          | bool b => cases b <;> exact (List.cons.inj whole).1
          | _ => exact (List.cons.inj whole).1

/-- The string that starts a text. -/
theorem Spells.frontString {tokens : List Token} {text : List Char}
    (spells : Spells tokens ('"' :: text)) :
    ∃ pieces others rest, text = stringText pieces ++ '"' :: rest ∧ Spells others rest := by
  obtain ⟨token, others, rest, _, starts, same, spells⟩ := spells.front rfl
  cases token with
  | string pieces =>
      refine ⟨pieces, others, rest, ?_, spells⟩
      rw [Token.text, List.cons_append, List.cons_append, List.append_assoc] at same
      exact (List.cons.inj same).2
  | number literal => exact absurd starts (by simp [Token.StartsWith])
  | bool b => cases b <;> exact absurd starts (by simp [Token.StartsWith])
  | _ => exact absurd starts (by simp [Token.StartsWith])

/-- What follows a brace or a colon in front of a text. -/
theorem Spells.frontMark {tokens : List Token} {c : Char} {text : List Char}
    (spells : Spells tokens (c :: text)) (mark : c = '\x7b' ∨ c = ':') :
    ∃ others, Spells others text := by
  have notBlank : isBlank c = false := by rcases mark with rfl | rfl <;> rfl
  obtain ⟨token, others, rest, _, starts, same, spells⟩ := spells.front notBlank
  have single : token.text = [c] := by
    rcases mark with rfl | rfl
    all_goals
      cases token with
      | number literal => exact absurd starts (by simp [Token.StartsWith])
      | bool b => cases b <;> exact absurd starts (by simp [Token.StartsWith])
      | _ => first | rfl | exact absurd starts (by simp [Token.StartsWith])
  rw [single] at same
  exact ⟨others, (List.cons.inj same).2 ▸ spells⟩

/--
Where the first value of an object is a text without quotes put between quotes,
and the name behind it starts like no token, the text is the inside of a string.
-/
theorem inside_of_spells {name raw more : List Char} {c : Char} {tokens : List Token}
    (plainName : ∀ d ∈ name, isPlain d = true) (noQuote : '"' ∉ raw) (notBlank : isBlank c = false)
    (noToken : ∀ token : Token, ¬ token.StartsWith c)
    (spells : Spells tokens ('\x7b' :: '"' :: (name ++ '"' :: ':' :: '"' ::
      (raw ++ '"' :: ',' :: '"' :: c :: more)))) :
    ∃ pieces, stringText pieces = raw := by
  obtain ⟨_, spells⟩ := spells.frontMark (Or.inl rfl)
  obtain ⟨namePieces, _, rest, same, spells⟩ := spells.frontString
  rcases stringText_of_quoted (not_mem_of_plain plainName rfl) same with ⟨_, rfl⟩ | ⟨backslash, _⟩
  · obtain ⟨_, spells⟩ := spells.frontMark (Or.inr rfl)
    obtain ⟨pieces, _, rest, same, spells⟩ := spells.frontString
    rcases stringText_of_quoted noQuote same with ⟨inside, _⟩ | ⟨_, others, goesOn⟩
    · exact ⟨pieces, inside⟩
    · -- the string goes on over the comma, and the name behind it starts no token
      have comma : [','] ++ '"' :: c :: more = stringText others ++ '"' :: rest := goesOn
      rcases stringText_of_quoted (by decide) comma with ⟨_, rfl⟩ | ⟨backslash, _⟩
      · obtain ⟨token, _, _, _, starts, _⟩ := spells.front notBlank
        exact absurd starts (noToken token)
      · exact absurd backslash (by decide)
  · exact absurd backslash (not_mem_of_plain plainName rfl)

end OrderBookSimulator.Library.Json
