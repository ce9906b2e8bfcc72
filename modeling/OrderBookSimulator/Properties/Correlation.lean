import OrderBookSimulator.Properties.ClientMessages
import OrderBookSimulator.Server.Landing
import OrderBookSimulator.Server.Responding

/-!
# Replies to messages

A reply is JSON, tells what was answered and names the request it answers,
if and only if the scan for the request id lands, on the tokens of the message,
where a string stands for it.  The scanner stops at the next quote, an escaped
one too.
-/

namespace OrderBookSimulator

open Library Json

/-- The message has this string, which is not empty, under `requestId`. -/
def NamesRequest (members : List (List Piece × Value)) (own : List Piece) : Prop :=
  ∃ name, (name, .string own) ∈ members ∧ stringValue name = "requestId".toList ∧
    stringValue own ≠ []

/-- A reply is returned: a JSON object that tells the answer and names the request. -/
def WellAnswered (host : Host) (server : Server) (userId : Int)
    (members : List (List Piece × Value)) (msg : Text) : Prop :=
  ∃ next answer text replied, server.respond host userId msg = .ok (next, answer) ∧
    server.reply host userId msg = .ok (next, text) ∧ Writes (.object replied) text ∧
    AnswerDocument.read (.object replied) = some answer.document ∧
    ∀ own, NamesRequest members own →
      (Value.object replied).textAt? "requestId" = some (stringValue own)

/-- What the scanner takes for the request id is a string, and each request id of the message. -/
def Echoes (members : List (List Piece × Value)) (msg : Text) : Prop :=
  ∃ pieces, stringText pieces = (extractStringField msg "requestId").getD [] ∧
    ∀ own, NamesRequest members own → stringValue pieces = stringValue own

theorem quote_not_mem_extractStringField {msg found : Text} {key : String}
    (extracted : extractStringField msg key = some found) : '"' ∉ found := by
  simp only [extractStringField, Option.bind_eq_bind, Option.bind_eq_some_iff] at extracted
  obtain ⟨value, _, fromQuote, _, closing, _, isFound⟩ := extracted
  rw [← Option.some.inj isFound]
  intro member
  have notQuote := List.mem_takeWhile_imp member
  simp at notQuote

section Replies

variable {host : Host} {server : Server} {userId : Int} {members : List (List Piece × Value)}
  {msg : Text}

theorem reply_eq {next : Server} {answer : Answer}
    (responds : server.respond host userId msg = .ok (next, answer)) :
    server.reply host userId msg =
      .ok (next, withRequestId ((extractStringField msg "requestId").getD []) answer.json) := by
  rw [Server.reply, responds, ← answer.written_eq]

theorem wellAnswered_of_echoes (returns : ∃ answered, server.respond host userId msg = .ok answered)
    (echoes : Echoes members msg) : WellAnswered host server userId members msg := by
  obtain ⟨⟨next, answer⟩, responds⟩ := returns
  obtain ⟨pieces, found, same⟩ := echoes
  have plain := Server.plain_of_respond host server userId msg responds
  have text := Answer.withRequestId_stringText plain pieces
  rw [found] at text
  have written : Writes (answer.value pieces) _ := writes_written _
  rw [← text] at written
  have told := Answer.read_value pieces plain
  have echoed := Answer.requestId_value pieces answer
  obtain ⟨replied, isObject⟩ : ∃ replied, answer.value pieces = .object replied := ⟨_, rfl⟩
  rw [isObject] at written told echoed
  refine ⟨next, answer, _, replied, responds, reply_eq responds, written, told,
    fun own names => ?_⟩
  have nonempty : pieces ≠ [] := by
    rintro rfl
    obtain ⟨_, _, _, notEmpty⟩ := id names
    exact notEmpty (same own names).symm
  rw [echoed, if_neg nonempty, same own names]

theorem echoes_of_wellAnswered (answered : WellAnswered host server userId members msg) :
    Echoes members msg := by
  obtain ⟨next, answer, text, replied, responds, replies, writes, _, named⟩ := answered
  have plain := Server.plain_of_respond host server userId msg responds
  rw [reply_eq responds] at replies
  obtain ⟨_, rfl⟩ := Prod.mk.inj (Except.ok.inj replies)
  have noQuote : '"' ∉ (extractStringField msg "requestId").getD [] := by
    cases extracted : extractStringField msg "requestId" with
    | none => exact List.not_mem_nil
    | some found => exact quote_not_mem_extractStringField extracted
  obtain ⟨pieces, found⟩ := Answer.inside_of_withRequestId noQuote writes
  rw [← found, Answer.withRequestId_stringText plain pieces] at writes
  refine ⟨pieces, found, fun own names => ?_⟩
  have isValue : Value.object replied = answer.value pieces := writes.unique (writes_written _)
  have echoed := named own names
  rw [isValue, Answer.requestId_value] at echoed
  by_cases empty : pieces = []
  · rw [if_pos empty] at echoed
    cases echoed
  · rw [if_neg empty] at echoed
    exact Option.some.inj echoed

end Replies

/-! ## Where the scan for the request id lands -/

/-- The first string among the tokens. -/
def firstPieces : List Token → Option (List Piece)
  | [] => none
  | .string pieces :: _ => some pieces
  | _ :: rest => firstPieces rest

theorem firstString_eq (tokens : List Token) : firstString tokens =
    (firstPieces tokens).map fun pieces => (stringText pieces).takeWhile (· ≠ '"') := by
  induction tokens with
  | nil => rfl
  | cons token tokens ih =>
      cases token with
      | string pieces => rfl
      | _ => exact ih

section Names

variable (members : List (List Piece × Value))

/-- The message has no request id. -/
def Unnamed : Prop := ∀ own, ¬ NamesRequest members own

/-- Each request id of the message says what the string says. -/
def NamedBy (pieces : List Piece) : Prop :=
  ∀ own, NamesRequest members own → stringValue pieces = stringValue own

end Names

/--
Where the scan for `requestId` lands on the tokens of the message, a string
stands for every request id it has; or nothing stands there, and it has none.
-/
def RequestIdStands (members : List (List Piece × Value)) (msg : Text) : Prop :=
  match landing (objectTokens members) "requestId" with
  | none => Unnamed members
  | some (.outside rest) =>
      match firstPieces rest with
      | none => Unnamed members
      | some pieces => '"' ∉ stringText pieces ∧ NamedBy members pieces
  | some (.inside left rest) =>
      -- the rest of the string in which the colon stands, behind its one escaped quote
      (∃ front pieces, left = front ++ '"' :: stringText pieces ∧ '"' ∉ front ∧
        '"' ∉ stringText pieces ∧ NamedBy members pieces) ∨
      -- or else what stands between that string and the next one
      '"' ∉ left ∧ (firstPieces rest = none ∧ Unnamed members ∨
        ∃ pieces after, '"' ∉ stringText pieces ∧ Spells rest (stringText pieces ++ '"' :: after) ∧
          '"' :: (stringText pieces ++ '"' :: after) <:+ msg ∧ NamedBy members pieces)

theorem findText_suffix {needle text found : Text} (finds : findText needle text = some found) :
    found <:+ text := by
  induction text with
  | nil =>
      rw [findText] at finds
      split at finds
      · cases finds
        exact List.suffix_refl []
      · cases finds
  | cons c text ih =>
      rw [findText] at finds
      split at finds
      · cases finds
        exact List.suffix_refl _
      · exact (ih finds).trans (List.suffix_cons c text)

theorem fieldValue_suffix {msg value : Text} {key : String}
    (found : fieldValue msg key = some value) : value <:+ msg := by
  simp only [fieldValue, Option.bind_eq_bind, Option.bind_eq_some_iff] at found
  obtain ⟨fromKey, foundKey, fromColon, foundColon, isValue⟩ := found
  rw [← Option.some.inj isValue]
  exact ((List.tail_suffix fromColon).trans (findText_suffix foundColon)).trans
    (findText_suffix foundKey)

/-- How many quotes a text holds is settled by its tokens. -/
theorem count_quote_spells {tokens : List Token} {text other : Text} (spells : Spells tokens text)
    (spells' : Spells tokens other) : text.count '"' = other.count '"' := by
  induction spells generalizing other with
  | done blanks =>
      cases spells' with
      | done blanks' =>
          rw [List.count_eq_zero_of_not_mem (quote_not_mem_blank blanks),
            List.count_eq_zero_of_not_mem (quote_not_mem_blank blanks')]
  | next blanks rest ih =>
      cases spells' with
      | next blanks' rest' =>
          rw [List.count_append, List.count_append, List.count_append, List.count_append,
            List.count_eq_zero_of_not_mem (quote_not_mem_blank blanks),
            List.count_eq_zero_of_not_mem (quote_not_mem_blank blanks'), ih rest']

/-- Behind a quote of the text, tokens are spelled at one place only. -/
theorem spelled_behind_unique {tokens : List Token} {msg first second : Text}
    (spells : Spells tokens first) (spells' : Spells tokens second)
    (stands : '"' :: first <:+ msg) (stands' : '"' :: second <:+ msg) : first = second := by
  have counts := count_quote_spells spells spells'
  rcases List.suffix_or_suffix_of_suffix stands stands' with shorter | shorter
  · rcases List.suffix_cons_iff.mp shorter with same | inside
    · exact (List.cons.inj same).2
    · have more := inside.sublist.count_le '"'
      rw [List.count_cons_self] at more
      omega
  · rcases List.suffix_cons_iff.mp shorter with same | inside
    · exact (List.cons.inj same).2.symm
    · have more := inside.sublist.count_le '"'
      rw [List.count_cons_self] at more
      omega

/-- A colon inside a string leaves the end of that string. -/
theorem exists_string_of_inside {tokens rest : List Token} {left : Text}
    (lands : behindColon tokens = some (.inside left rest)) :
    ∃ pieces front, stringText pieces = front ++ ':' :: left := by
  induction tokens with
  | nil => cases lands
  | cons token tokens ih =>
      cases token with
      | colon => cases lands
      | string pieces =>
          rw [behindColon] at lands
          split at lands
          · rename_i inside
            cases lands
            obtain ⟨front, same, _⟩ := split_of_mem inside
            exact ⟨pieces, front, same⟩
          · exact ih lands
      | _ => exact ih lands

/-- Behind an escaped quote that is left of a string, there is the rest of the string. -/
theorem exists_rest_of_inside {tokens rest : List Token} {key : String} {left : Text}
    (lands : landing tokens key = some (.inside left rest)) (escaped : '"' ∈ left) :
    ∃ front pieces, left = front ++ '"' :: stringText pieces ∧ '"' ∉ front := by
  obtain ⟨behind, _, landsThere⟩ := Option.bind_eq_some_iff.mp lands
  obtain ⟨pieces, before, whole⟩ := exists_string_of_inside landsThere
  obtain ⟨front, same, notBefore⟩ := split_of_mem escaped
  generalize (left.dropWhile (· ≠ '"')).tail = back at same
  have behindQuote : stringText pieces = (before ++ ':' :: front) ++ '"' :: back := by
    rw [whole, same]
    simp
  obtain ⟨more, rfl⟩ := exists_stringText_behind behindQuote
  exact ⟨front, more, same, notBefore⟩

section Echoes

variable {members : List (List Piece × Value)} {msg : Text}

theorem echoes_iff_of_empty (empty : (extractStringField msg "requestId").getD [] = []) :
    Echoes members msg ↔ Unnamed members := by
  unfold Echoes
  rw [empty]
  constructor
  · rintro ⟨pieces, none, named⟩ own names
    obtain rfl : pieces = [] := stringText_inj none
    obtain ⟨_, _, _, nonempty⟩ := id names
    exact nonempty (named own names).symm
  · exact fun unnamed => ⟨[], rfl, fun own names => absurd names (unnamed own)⟩

/-- A string is taken up to its first quote; so it must not have any. -/
theorem echoes_iff_of_string {pieces : List Piece}
    (found : extractStringField msg "requestId" =
      some ((stringText pieces).takeWhile (· ≠ '"'))) :
    Echoes members msg ↔ '"' ∉ stringText pieces ∧ NamedBy members pieces := by
  unfold Echoes
  rw [found, Option.getD_some]
  constructor
  · rintro ⟨taken, isTaken, named⟩
    have noQuote : '"' ∉ stringText pieces := by
      intro escaped
      obtain ⟨front, same, notBefore⟩ := split_of_mem escaped
      rw [same, takeWhile_before (by simp), takeWhile_of_not_mem notBefore] at isTaken
      rw [← isTaken] at same
      exact stringText_ne_quoted _ _ _ same
    rw [takeWhile_of_not_mem noQuote] at isTaken
    obtain rfl := stringText_inj isTaken
    exact ⟨noQuote, named⟩
  · exact fun ⟨noQuote, named⟩ => ⟨pieces, (takeWhile_of_not_mem noQuote).symm, named⟩

/-- What is taken for the request id is what stands behind the landing place. -/
theorem requestId_landing (writes : Writes (.object members) msg) :
    match landing (objectTokens members) "requestId" with
    | none => extractStringField msg "requestId" = none
    | some (.outside rest) => extractStringField msg "requestId" = firstString rest
    | some (.inside left rest) => ∃ after, '"' :: after <:+ msg ∧ Spells rest after ∧
        extractStringField msg "requestId" = betweenQuotes (left ++ '"' :: after) := by
  have spells : Spells (objectTokens members) msg := writes
  have place := fieldValue_landing spells (apart_tokens (.object members))
    (by decide : isKey "requestId".toList = true)
  rw [extractStringField_eq]
  cases lands : landing (objectTokens members) "requestId" with
  | none =>
      have absent : fieldValue msg "requestId" = none := by simpa only [lands] using place
      simp only [absent, Option.bind_none]
  | some place' =>
      obtain ⟨value, isValue, spelled⟩ : ∃ value, fieldValue msg "requestId" = some value ∧
          place'.SpelledBy value := by simpa only [lands] using place
      rw [isValue]
      cases place' with
      | outside rest => exact betweenQuotes_spells spelled.1
      | inside left rest =>
          obtain ⟨after, rfl, behind, _, _⟩ := spelled
          exact ⟨after, (List.suffix_append left _).trans (fieldValue_suffix isValue), behind, rfl⟩

/-- Behind the first quote, the same text stands. -/
theorem behind_quote_unique {front front' back back' : Text} (noQuote : '"' ∉ front)
    (noQuote' : '"' ∉ front') (same : front ++ '"' :: back = front' ++ '"' :: back') :
    back = back' := by
  obtain ⟨more, rfl, later⟩ := append_of_not_mem noQuote' same
  cases more with
  | nil => exact (List.cons.inj later).2.symm
  | cons c more =>
      obtain rfl := (List.cons.inj later).1
      exact absurd (by simp) noQuote

section Inside

variable {left after : Text} {rest : List Token} (spells : Spells rest after)
  (stands : '"' :: after <:+ msg)
  (found : extractStringField msg "requestId" = betweenQuotes (left ++ '"' :: after))

include found

/-- What is taken is the rest of the string, if that has but one escaped quote. -/
theorem echoes_iff_of_escaped {front : Text} {pieces : List Piece}
    (isLeft : left = front ++ '"' :: stringText pieces) (notBefore : '"' ∉ front) :
    Echoes members msg ↔ ∃ front pieces, left = front ++ '"' :: stringText pieces ∧ '"' ∉ front ∧
      '"' ∉ stringText pieces ∧ NamedBy members pieces := by
  rw [isLeft, List.append_assoc, List.cons_append, betweenQuotes_behind notBefore,
    if_pos (by simp), takeWhile_before (by simp)] at found
  rw [echoes_iff_of_string found]
  constructor
  · exact fun ⟨noQuote, named⟩ => ⟨front, pieces, isLeft, notBefore, noQuote, named⟩
  · rintro ⟨front', pieces', isLeft', notBefore', noQuote, named⟩
    obtain rfl := stringText_inj (behind_quote_unique notBefore notBefore' (isLeft.symm.trans isLeft'))
    exact ⟨noQuote, named⟩

include spells stands

/-- What is taken stands between the string and the next one. -/
theorem echoes_iff_of_between (escapes : '"' ∉ left) :
    Echoes members msg ↔ firstPieces rest = none ∧ Unnamed members ∨
      ∃ pieces after, '"' ∉ stringText pieces ∧ Spells rest (stringText pieces ++ '"' :: after) ∧
        '"' :: (stringText pieces ++ '"' :: after) <:+ msg ∧ NamedBy members pieces := by
  have some_iff := quote_mem_iff spells
  rw [firstString_eq, Option.isSome_map] at some_iff
  rw [betweenQuotes_behind escapes] at found
  by_cases closes : '"' ∈ after
  · obtain ⟨inside, same, notInside⟩ := split_of_mem closes
    generalize (after.dropWhile (· ≠ '"')).tail = behind at same
    subst same
    rw [if_pos closes, takeWhile_before (by simp), takeWhile_of_not_mem notInside] at found
    constructor
    · rintro ⟨pieces, isTaken, named⟩
      rw [found, Option.getD_some] at isTaken
      subst isTaken
      exact .inr ⟨pieces, behind, notInside, spells, stands, named⟩
    · rintro (⟨none, _⟩ | ⟨pieces, other, plain, spells', stands', named⟩)
      · rw [none] at some_iff
        exact absurd (some_iff.mp closes) (by simp)
      · have same := congrArg (List.takeWhile (· ≠ '"'))
          (spelled_behind_unique spells spells' stands stands')
        rw [takeWhile_before (by simp), takeWhile_before (by simp),
          takeWhile_of_not_mem notInside, takeWhile_of_not_mem plain] at same
        exact ⟨pieces, by rw [found, same]; rfl, named⟩
  · have none : firstPieces rest = none := by simpa using some_iff.not.mp closes
    rw [if_neg closes] at found
    rw [echoes_iff_of_empty (by rw [found]; rfl)]
    constructor
    · exact fun unnamed => .inl ⟨none, unnamed⟩
    · rintro (⟨_, unnamed⟩ | ⟨pieces, other, _, spells', _⟩)
      · exact unnamed
      · have some := (quote_mem_iff spells').mp (by simp)
        rw [firstString_eq, none] at some
        cases some

end Inside

/-- What is taken for the request id stands for it where the tokens say so. -/
theorem echoes_iff (writes : Writes (.object members) msg) :
    Echoes members msg ↔ RequestIdStands members msg := by
  have taken := requestId_landing writes
  unfold RequestIdStands
  cases lands : landing (objectTokens members) "requestId" with
  | none =>
      rw [lands] at taken
      exact echoes_iff_of_empty (by rw [taken]; rfl)
  | some place =>
      rw [lands] at taken
      cases place with
      | outside rest =>
          simp only [firstString_eq] at taken ⊢
          cases first : firstPieces rest with
          | none => exact echoes_iff_of_empty (by rw [taken, first]; rfl)
          | some pieces => exact echoes_iff_of_string (by rw [taken, first]; rfl)
      | inside left rest =>
          obtain ⟨after, stands, spells, found⟩ := taken
          by_cases escaped : '"' ∈ left
          · obtain ⟨front, pieces, isLeft, notBefore⟩ := exists_rest_of_inside lands escaped
            rw [echoes_iff_of_escaped found isLeft notBefore]
            exact ⟨Or.inl, fun either => either.resolve_right fun between => between.1 escaped⟩
          · rw [echoes_iff_of_between spells stands found escaped]
            refine ⟨fun between => .inr ⟨escaped, between⟩, ?_⟩
            rintro (⟨front, pieces, rfl, _⟩ | ⟨_, between⟩)
            · exact absurd (by simp) escaped
            · exact between

end Echoes

/-! ## Replies that are correlated -/

section Tokens

variable {members : List (List Piece × Value)} {msg : Text} (writes : Writes (.object members) msg)

include writes

theorem numbersFit_object : NumbersFit (extractStringField msg) (numberFound msg) ↔
    NumbersFit (landedText (objectTokens members)) (landedNumber (objectTokens members)) := by
  have side := (extractStringField_eq_none_iff writes (apart_tokens _)
    (by decide : isKey "side".toList = true)).not
  have buy := extractStringField_object writes (by decide : isKey "side".toList = true)
    (by decide : isKey "BUY".toList = true)
  have sell := extractStringField_object writes (by decide : isKey "side".toList = true)
    (by decide : isKey "SELL".toList = true)
  have type := getD_extractStringField_object writes (by decide : isKey "type".toList = true)
    "LIMIT".toList (by decide : isKey "LIMIT".toList = true)
  have order := extractStringField_object writes (by decide : isKey "action".toList = true)
    (by decide : isKey "order".toList = true)
  have cancel := extractStringField_object writes (by decide : isKey "action".toList = true)
    (by decide : isKey "cancel".toList = true)
  unfold NumbersFit OrderNumbersFit
  rw [numberFound_object writes (by decide : isKey "qty".toList = true),
    numberFound_object writes (by decide : isKey "price".toList = true),
    numberFound_object writes (by decide : isKey "id".toList = true), ne_eq, side, buy, sell, type,
    order, cancel]
  rfl

theorem cancelsOwn_object (server : Server) (userId orderId : Int) :
    CancelsOwn (extractStringField msg) (numberFound msg) server userId orderId ↔
      CancelsOwn (landedText (objectTokens members)) (landedNumber (objectTokens members)) server
        userId orderId := by
  unfold CancelsOwn
  rw [numberFound_object writes (by decide : isKey "id".toList = true),
    extractStringField_object writes (by decide : isKey "action".toList = true)
      (by decide : isKey "cancel".toList = true)]

end Tokens

/--
A message that is a JSON object is answered well if and only if, by what its
tokens show, every number that parsing comes to fits a `long long`, no cancel by
the owner follows an erased node, and a string stands for the request id where
the scan lands.
-/
theorem replies_correlated_iff (host : Host) (server : Server) (userId : Int)
    (members : List (List Piece × Value)) (msg : Text) (writes : Writes (.object members) msg) :
    WellAnswered host server userId members msg ↔
      NumbersFit (landedText (objectTokens members)) (landedNumber (objectTokens members)) ∧
      (∀ orderId, CancelsOwn (landedText (objectTokens members))
          (landedNumber (objectTokens members)) server userId orderId →
        server.engine.book.Reaches orderId) ∧
      RequestIdStands members msg := by
  have returns_iff := Server.respond_returns_iff host server userId msg
  rw [numbersFit_object writes] at returns_iff
  simp only [cancelsOwn_object writes] at returns_iff
  rw [← and_assoc, ← returns_iff, ← echoes_iff writes]
  constructor
  · intro answered
    have echoes := echoes_of_wellAnswered answered
    obtain ⟨next, answer, _, _, responds, _⟩ := answered
    exact ⟨⟨_, responds⟩, echoes⟩
  · exact fun ⟨returns, echoes⟩ => wellAnswered_of_echoes returns echoes

/-- A message that is answered with an error and names its request. -/
theorem replies_correlated_sample :
    WellAnswered (.exact fun _ => 0) {} 7
      [(plainPieces "action".toList, .word "x"), (plainPieces "requestId".toList, .word "9b-2f")]
      "\x7b\"action\":\"x\",\"requestId\":\"9b-2f\"\x7d".toList := by
  have action : landedText (objectTokens [(plainPieces "action".toList, .word "x"),
      (plainPieces "requestId".toList, .word "9b-2f")]) "action" = some "x".toList := by rfl
  refine (replies_correlated_iff _ _ _ _
    "\x7b\"action\":\"x\",\"requestId\":\"9b-2f\"\x7d".toList (writes_written _)).mpr
    ⟨⟨?_, ?_⟩, ?_, ?_⟩
  · rw [action]
    exact fun isOrder => absurd isOrder (by decide)
  · rw [action]
    exact fun isCancel => absurd isCancel (by decide)
  · rintro orderId ⟨isCancel, _⟩
    rw [action] at isCancel
    exact absurd isCancel (by decide)
  · refine (⟨by decide, ?_⟩ : '"' ∉ stringText (plainPieces "9b-2f".toList) ∧ NamedBy _ _)
    rintro own ⟨name, member, named, _⟩
    simp only [List.mem_cons, List.not_mem_nil, or_false, Prod.mk.injEq] at member
    rcases member with ⟨rfl, _⟩ | ⟨_, isOwn⟩
    · exact absurd named (by decide)
    · rw [Value.string.inj isOwn]

/-- The request id `a"b` is cut at its quote, and the reply is no JSON. -/
theorem reply_cut_at_quote :
    Writes (.object [(plainPieces "action".toList, .word "x"),
        (plainPieces "requestId".toList, .string [.plain 'a' rfl, .escape '"' rfl, .plain 'b' rfl])])
      "\x7b\"action\":\"x\",\"requestId\":\"a\\\"b\"\x7d".toList ∧
    ¬ WellAnswered (.exact fun _ => 0) {} 7
      [(plainPieces "action".toList, .word "x"),
        (plainPieces "requestId".toList, .string [.plain 'a' rfl, .escape '"' rfl, .plain 'b' rfl])]
      "\x7b\"action\":\"x\",\"requestId\":\"a\\\"b\"\x7d".toList := by
  refine ⟨writes_written _, ?_⟩
  rintro ⟨next, answer, text, replied, _, replies, writes, _⟩
  have returned : Server.reply (.exact fun _ => 0) {} 7
      "\x7b\"action\":\"x\",\"requestId\":\"a\\\"b\"\x7d".toList = .ok ({},
        ("\x7b\"requestId\":\"a\\\",\"error\":\"Unknown action. Use 'order' or 'cancel'\"\x7d").toList) := by
    rfl
  rw [returned] at replies
  obtain ⟨_, rfl⟩ := Prod.mk.inj (Except.ok.inj replies)
  exact not_writes_of_decode (by rfl) _ writes

end OrderBookSimulator
