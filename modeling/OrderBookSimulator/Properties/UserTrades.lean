import OrderBookSimulator.Properties.JournalTails
import OrderBookSimulator.Server.Scanning

/-!
# A user's trades

`GET /user/trades` looks for `"maker_user":` or `"taker_user":` followed by the
id in each line.  Nothing is asked of what follows the id, so a trade is also
taken for that of every user whose id starts with the same digits.
-/

namespace OrderBookSimulator

open Library Json

/-! ## Searching a record -/

section Search

variable {key digits : Text}

theorem startsWith_of_separator (text : Text) (noComma : ',' ∉ digits) (noBrace : '\x7d' ∉ digits)
    (fields : List (String × Value)) :
    digits <+: text ++ (fields.flatMap (',' :: fieldText ·) ++ ['\x7d']) ↔ digits <+: text := by
  cases fields with
  | nil => exact prefix_before noBrace
  | cons field fields =>
      rw [List.flatMap_cons, List.cons_append, List.cons_append]
      exact prefix_before noComma

/-- A quoted key is found at the field of that name, if the value goes on as it should. -/
theorem isSome_findText_fields (plain : '"' ∉ key) (named : key.head? ≠ some ':')
    (noComma : ',' ∉ digits) (noBrace : '\x7d' ∉ digits) {fields : List (String × Value)}
    (names : PlainNames (fields.map (·.1))) (values : ∀ field ∈ fields, '"' ∉ field.2.written) :
    (findText ('"' :: (key ++ '"' :: ':' :: digits))
      (fields.flatMap (',' :: fieldText ·) ++ ['\x7d'])).isSome ↔
        ∃ field ∈ fields, field.1.toList = key ∧ digits <+: field.2.written := by
  induction fields with
  | nil =>
      rw [List.flatMap_nil, List.nil_append, findText_eq_none (by decide)]
      simp
  | cons field fields ih =>
      have later := ih (fun name member => names name (.tail _ member))
        fun other member => values other (.tail _ member)
      have plainName : '"' ∉ field.1.toList := not_mem_of_all (names field.1 (.head _)) rfl
      have here := startsWith_of_separator field.2.written noComma noBrace fields
      -- the quote behind the name is followed by a colon, which starts no key
      have notBehind : ¬ key ++ '"' :: ':' :: digits <+:
          ':' :: (field.2.written ++ (fields.flatMap (',' :: fieldText ·) ++ ['\x7d'])) := by
        intro found
        cases key with
        | nil => exact absurd (List.cons_prefix_cons.mp found).1 (by decide)
        | cons k key => exact named (congrArg some (List.cons_prefix_cons.mp found).1)
      have text : (field :: fields).flatMap (',' :: fieldText ·) ++ ['\x7d'] =
          ',' :: '"' :: (field.1.toList ++ '"' :: ':' :: (field.2.written ++
            (fields.flatMap (',' :: fieldText ·) ++ ['\x7d']))) := by
        simp [fieldText]
      rw [text, findText_cons_of_ne (by decide)]
      have named_iff : key ++ '"' :: ':' :: digits <+: field.1.toList ++ '"' :: ':' ::
          (field.2.written ++ (fields.flatMap (',' :: fieldText ·) ++ ['\x7d'])) ↔
            field.1.toList = key ∧ digits <+: field.2.written := by
        rw [prefix_quoted plain plainName, List.cons_prefix_cons, here, eq_comm]
        simp
      by_cases found : field.1.toList = key ∧ digits <+: field.2.written
      · rw [findText_of_start (List.cons_prefix_cons.mpr ⟨rfl, named_iff.mpr found⟩) (by simp)]
        exact ⟨fun _ => ⟨field, .head _, found⟩, fun _ => rfl⟩
      · rw [findText_cons_of_mismatch fun reached =>
            found (named_iff.mp (List.cons_prefix_cons.mp reached).2),
          findText_skip plainName,
          findText_cons_of_mismatch fun reached => notBehind (List.cons_prefix_cons.mp reached).2,
          findText_cons_of_ne (by decide), findText_skip (values field (.head _)), later]
        simp [found]

theorem isSome_findText_record (plain : '"' ∉ key) (named : key.head? ≠ some ':')
    (noComma : ',' ∉ digits) (noBrace : '\x7d' ∉ digits) {fields : List (String × Value)}
    (nonempty : fields ≠ []) (names : PlainNames (fields.map (·.1)))
    (values : ∀ field ∈ fields, '"' ∉ field.2.written) :
    (findText ('"' :: (key ++ '"' :: ':' :: digits)) (Value.record fields).written).isSome ↔
      ∃ field ∈ fields, field.1.toList = key ∧ digits <+: field.2.written := by
  rw [← isSome_findText_fields plain named noComma noBrace names values, written_record names]
  -- the brace in front is skipped as a comma would be
  obtain ⟨first, more, rfl⟩ := List.exists_cons_of_ne_nil nonempty
  rw [List.map_cons, commas_cons, List.flatMap_map, List.flatMap_cons, List.cons_append,
    List.cons_append, List.cons_append, findText_cons_of_ne (by decide),
    findText_cons_of_ne (by decide)]

end Search

/-! ## Which lines are taken -/

/-- The decimal notation of the id starts that of one of the trade's users. -/
def Trade.Matches (uid : Int) (t : Trade) : Prop :=
  number uid <+: number t.makerUserId ∨ number uid <+: number t.takerUserId

instance (uid : Int) (t : Trade) : Decidable (t.Matches uid) :=
  inferInstanceAs (Decidable (_ ∨ _))

/-- The user is the maker or the taker of the trade. -/
def Trade.Involves (uid : Int) (t : Trade) : Prop := t.makerUserId = uid ∨ t.takerUserId = uid

instance (uid : Int) (t : Trade) : Decidable (t.Involves uid) :=
  inferInstanceAs (Decidable (_ ∨ _))

theorem Trade.Involves.matches {uid : Int} {t : Trade} (involves : t.Involves uid) :
    t.Matches uid :=
  involves.imp (fun maker => by rw [maker]) fun taker => by rw [taker]

theorem matches_of_involves (uid : Int) (t : Trade) (involves : decide (t.Involves uid) = true) :
    decide (t.Matches uid) = true :=
  decide_eq_true (of_decide_eq_true involves).matches

/-- A number is written with digits and perhaps a sign. -/
theorem not_mem_number {c : Char} (other : c ≠ '-') (noDigit : c.isDigit = false) (n : Int) :
    c ∉ number n := by
  intro member
  rw [number, ← Literal.text_ofInt] at member
  simp only [Literal.text, Literal.ofInt, Option.elim, List.append_nil, List.mem_append] at member
  rcases member with sign | digit
  · by_cases negative : n < 0
    · exact other (List.mem_singleton.mp (by simpa [negative] using sign))
    · simp [negative] at sign
  · exact not_mem_of_all (Digits.ofNat n.natAbs).digits noDigit digit

/-- What the handler finds in a line is whether the trade matches. -/
theorem findText_tradeLine (uid : Int) (t : Trade) :
    ((findText ("\"maker_user\":".toList ++ number uid) t.value.written).isSome ||
      (findText ("\"taker_user\":".toList ++ number uid) t.value.written).isSome) =
        decide (t.Matches uid) := by
  have noComma : ',' ∉ number uid := not_mem_number (by decide) rfl uid
  have noBrace : '\x7d' ∉ number uid := not_mem_number (by decide) rfl uid
  have noQuote : ∀ n : Int, '"' ∉ (Value.int n).written := fun n => by
    rw [← congrFun numbers_eq n]
    exact not_mem_number (by decide) rfl n
  have makerKey : "\"maker_user\":".toList ++ number uid =
      '"' :: ("maker_user".toList ++ '"' :: ':' :: number uid) := by simp
  have takerKey : "\"taker_user\":".toList ++ number uid =
      '"' :: ("taker_user".toList ++ '"' :: ':' :: number uid) := by simp
  have nonempty : t.fields ≠ [] := by simp [Trade.fields]
  have values : ∀ field ∈ t.fields, '"' ∉ field.2.written := by
    simp [Trade.fields, noQuote]
  rw [Bool.eq_iff_iff, Bool.or_eq_true, decide_eq_true_iff, makerKey, takerKey, Trade.value,
    isSome_findText_record (by decide) (by decide) noComma noBrace nonempty t.names values,
    isSome_findText_record (by decide) (by decide) noComma noBrace nonempty t.names values,
    Trade.Matches, numbers_eq]
  simp [Trade.fields]

/-! ## What is returned -/

/-- The lines taken are the last matching ones. -/
theorem decodes_getUserTrades (runs : List (List Trade)) (uid : Int) {n : Nat} (positive : 1 ≤ n)
    (small : n ≤ 1000) :
    Decodes (readArray Trade.read)
      (getUserTrades (journalFile JournalTradeSink.onTrade runs) uid (some n))
      (lastRecords n (Trade.Matches uid ·) runs.flatten) := by
  have limit : limitParam (some n) = n := by
    simp only [limitParam, if_neg (show ¬ n = 0 by omega), if_neg (show ¬ 1000 < n by omega)]
  have decodes := decodes_tailJson JournalTradeSink.onTrade_eq Trade.read_value n
    (fun line => (findText ("\"maker_user\":".toList ++ number uid) line).isSome ||
      (findText ("\"taker_user\":".toList ++ number uid) line).isSome) runs
  rw [funext (findText_tradeLine uid)] at decodes
  unfold getUserTrades
  rw [limit]
  exact decodes

/-- The handler returns the user's own last trades, newest first. -/
def ReturnsOwnTrades (runs : List (List Trade)) (uid : Int) (n : Nat) : Prop :=
  Decodes (readArray Trade.read)
    (getUserTrades (journalFile JournalTradeSink.onTrade runs) uid (some n))
    (lastRecords n (Trade.Involves uid ·) runs.flatten)

/--
The handler returns exactly the user's own last trades if and only if every
trade whose user ids only start like the user's is followed by enough matching
trades to have left the window.
-/
theorem user_trades_exact_iff (runs : List (List Trade)) (uid : Int) {n : Nat} (positive : 1 ≤ n)
    (small : n ≤ 1000) :
    ReturnsOwnTrades runs uid n ↔
      ∀ earlier trade later, runs.flatten = earlier ++ trade :: later →
        trade.Matches uid → ¬ trade.Involves uid →
          n ≤ later.countP (Trade.Matches uid ·) := by
  have decodes := decodes_getUserTrades runs uid positive small
  have returns_iff : ReturnsOwnTrades runs uid n ↔
      lastRecords n (Trade.Matches uid ·) runs.flatten =
        lastRecords n (Trade.Involves uid ·) runs.flatten := by
    refine ⟨fun returns => decodes.unique returns, fun same => ?_⟩
    rw [same] at decodes
    exact decodes
  rw [returns_iff, lastRecords, lastRecords, reverse_take_filter_eq_iff (matches_of_involves uid)]
  simp only [decide_eq_true_iff, decide_eq_false_iff_not]

/-- A trade of users 10 and 12 has left the window of one trade that user 1 is shown. -/
theorem user_trades_exact_sample :
    ReturnsOwnTrades
      [[{ makerId := 1, takerId := 2, makerUserId := 10, takerUserId := 12, price := 5, qty := 1 },
        { makerId := 3, takerId := 4, makerUserId := 1, takerUserId := 10, price := 6, qty := 2 }]]
      1 1 := by
  refine (user_trades_exact_iff _ 1 (by decide) (by decide)).mpr ?_
  intro earlier trade later split isMatch notInvolved
  exact (reverse_take_filter_eq_iff (matches_of_involves 1) 1 _).mp (by decide) earlier trade later
    split (decide_eq_true isMatch) (decide_eq_false notInvolved)

/-- User 1 is shown a trade of users 10 and 12. -/
theorem user_trades_of_others :
    ¬ ReturnsOwnTrades
      [[{ makerId := 1, takerId := 2, makerUserId := 10, takerUserId := 12, price := 5, qty := 1 }]]
      1 100 := by
  intro returns
  have decodes := decodes_getUserTrades
    [[{ makerId := 1, takerId := 2, makerUserId := 10, takerUserId := 12, price := 5, qty := 1 }]]
    1 (n := 100) (by decide) (by decide)
  exact absurd (decodes.unique returns) (by decide)

end OrderBookSimulator
