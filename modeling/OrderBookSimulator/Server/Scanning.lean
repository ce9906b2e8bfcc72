import Mathlib.Data.List.Infix
import OrderBookSimulator.Server.Requests

/-!
# What the scanners find

A search for a text that starts with a quote skips everything up to the next
quote, and there it compares what stands between two quotes with the key.
-/

namespace OrderBookSimulator

variable {first c : Char} {needle key word rest more text : Text}

theorem findText_of_start (found : needle <+: text) (nonempty : needle ≠ []) :
    findText needle text = some text := by
  cases text with
  | nil => exact absurd (List.prefix_nil.mp found) nonempty
  | cons first rest => rw [findText, if_pos (List.isPrefixOf_iff_prefix.mpr found)]

theorem findText_cons_of_mismatch (other : ¬ needle <+: c :: rest) :
    findText needle (c :: rest) = findText needle rest := by
  rw [findText, if_neg (fun found => other (List.isPrefixOf_iff_prefix.mp found))]

theorem findText_cons_of_ne (different : first ≠ c) :
    findText (first :: needle) (c :: rest) = findText (first :: needle) rest :=
  findText_cons_of_mismatch fun found => different (List.cons_prefix_cons.mp found).1

/-- What does not hold the first character of the needle is skipped. -/
theorem findText_skip (skipped : first ∉ more) :
    findText (first :: needle) (more ++ rest) = findText (first :: needle) rest := by
  induction more with
  | nil => rfl
  | cons c more ih =>
      obtain ⟨notHere, notLater⟩ := not_or.mp fun found => skipped (List.mem_cons.mpr found)
      rw [List.cons_append, findText_cons_of_ne notHere, ih notLater]

theorem findText_eq_none (absent : first ∉ text) : findText (first :: needle) text = none := by
  rw [← List.append_nil text, findText_skip absent]
  rfl

/-- A quoted key followed by something, against a quoted word followed by something. -/
theorem prefix_quoted (plainKey : '"' ∉ key) (plainWord : '"' ∉ word) :
    key ++ '"' :: needle <+: word ++ '"' :: rest ↔ key = word ∧ needle <+: rest := by
  induction key generalizing word with
  | nil =>
      cases word with
      | nil => simp
      | cons c word =>
          have different : '"' ≠ c := fun same => plainWord (same ▸ .head _)
          simp [different]
  | cons k key ih =>
      obtain ⟨notHere, notLater⟩ := not_or.mp fun found => plainKey (List.mem_cons.mpr found)
      cases word with
      | nil => simp [Ne.symm notHere]
      | cons c word =>
          have plainRest : '"' ∉ word := fun found => plainWord (.tail _ found)
          rw [List.cons_append, List.cons_append, List.cons_prefix_cons, ih notLater plainRest,
            List.cons.injEq, and_assoc]

/-- What cannot reach over a separator ends before it. -/
theorem prefix_before {separator : Char} (absent : separator ∉ needle) :
    needle <+: word ++ separator :: rest ↔ needle <+: word := by
  constructor
  · intro reaches
    by_cases short : needle.length ≤ word.length
    · exact List.prefix_of_prefix_length_le reaches (List.prefix_append _ _) short
    · have longer : word ++ [separator] <+: word ++ separator :: rest := by simp
      have whole := List.prefix_of_prefix_length_le longer reaches (by simp; omega)
      exact absurd (whole.subset (by simp)) absent
  · exact fun inside => inside.trans (List.prefix_append _ _)

/-! ## Numbers -/

/-- The first run of digits. -/
def digitRun (text : Text) : Text := (text.dropWhile (!·.isDigit)).takeWhile (·.isDigit)

/-- The number that digits write, if there are any. -/
def numberOf (num : Text) : Option Int := if num = [] then none else some (readDigits num)

/-- The number that stands behind the key, whatever its size. -/
def numberFound (msg : Text) (key : String) : Option Int :=
  (fieldValue msg key).bind fun value => numberOf (digitRun value)

/-- The number behind the key can be read, if there is one. -/
def Fits (msg : Text) (key : String) : Prop := ∀ n ∈ numberFound msg key, n ≤ longLongMax

theorem no_digit_of_any {text : Text} (none : text.any Char.isDigit = false) :
    ∀ c ∈ text, c.isDigit = false := by
  intro c member
  simpa using List.any_eq_false.mp none c member

theorem takeWhile_before {check : Char → Bool} {text rest : Text} {c : Char}
    (stops : check c = false) : (text ++ c :: rest).takeWhile check = text.takeWhile check := by
  have none : (c :: rest).takeWhile check = [] := List.takeWhile_cons_of_neg (by simp [stops])
  rw [List.takeWhile_append, none, List.append_nil]
  split
  · rename_i whole
    exact ((List.takeWhile_prefix check).eq_of_length whole).symm
  · rfl

/-- The first digits stand behind what holds none, and end where no digit follows. -/
theorem digitRun_digits {front digits after : Text} (noDigit : ∀ c ∈ front, c.isDigit = false)
    (all : ∀ c ∈ digits, c.isDigit = true) (nonempty : digits ≠ [])
    (ends : ∀ c ∈ after.head?, c.isDigit = false) :
    digitRun (front ++ (digits ++ after)) = digits := by
  obtain ⟨c, rest, rfl⟩ := List.exists_cons_of_ne_nil nonempty
  have digit : c.isDigit = true := all c (.head _)
  have dropped : (c :: rest ++ after).dropWhile (!·.isDigit) = c :: rest ++ after := by
    rw [List.cons_append, List.dropWhile_cons_of_neg (by simp [digit])]
  have stops : after.takeWhile (·.isDigit) = [] := by
    cases after with
    | nil => rfl
    | cons d after => rw [List.takeWhile_cons_of_neg (by simp [ends d rfl])]
  rw [digitRun, List.dropWhile_append_of_pos fun d member => by simp [noDigit d member], dropped,
    List.takeWhile_append_of_pos all, stops, List.append_nil]

theorem digitRun_skip {front text : Text} (noDigit : ∀ c ∈ front, c.isDigit = false) :
    digitRun (front ++ text) = digitRun text := by
  rw [digitRun, digitRun, List.dropWhile_append_of_pos fun d member => by simp [noDigit d member]]

theorem digitRun_cons {c : Char} (noDigit : c.isDigit = false) (text : Text) :
    digitRun (c :: text) = digitRun text := by
  rw [digitRun, List.dropWhile_cons_of_pos (by simp [noDigit])]
  rfl

/-- Where a text ends before something that is no digit, its digits are found first. -/
theorem digitRun_before {text rest : Text} {c : Char} (noDigit : c.isDigit = false) :
    digitRun (text ++ c :: rest) = if digitRun text = [] then digitRun rest else digitRun text := by
  induction text with
  | nil =>
      exact digitRun_cons noDigit rest
  | cons d text ih =>
      by_cases digit : d.isDigit = true
      · have run : ∀ more, digitRun (d :: more) = (d :: more).takeWhile (·.isDigit) := fun more => by
          rw [digitRun, List.dropWhile_cons_of_neg (by simp [digit])]
        have nonempty : (d :: text).takeWhile (·.isDigit) ≠ [] := by simp [digit]
        rw [List.cons_append, run, run, if_neg nonempty, ← List.cons_append,
          takeWhile_before noDigit]
      · have other : d.isDigit = false := by simpa using digit
        rw [List.cons_append, digitRun_cons other, digitRun_cons other, ih]

theorem extractIntField_eq (msg : Text) (key : String) :
    extractIntField msg key =
      match numberFound msg key with
      | none => .ok none
      | some n => if n ≤ longLongMax then .ok (some n) else .error .outOfRange := by
  unfold extractIntField numberFound
  cases fieldValue msg key with
  | none => rfl
  | some value =>
      rw [Option.bind_some, numberOf, digitRun]
      dsimp only
      generalize (value.dropWhile (!·.isDigit)).takeWhile (·.isDigit) = num
      by_cases noDigits : num = []
      · rw [if_pos noDigits, if_pos noDigits]
      · rw [if_neg noDigits, if_neg noDigits, stoll]
        by_cases fits : readDigits num ≤ longLongMax
        · simp [fits]
        · simp [fits]

theorem extractIntField_of_fits {msg : Text} {key : String} (fits : Fits msg key) :
    extractIntField msg key = .ok (numberFound msg key) := by
  rw [extractIntField_eq]
  cases found : numberFound msg key with
  | none => rfl
  | some n => exact if_pos (fits n found)

theorem extractIntField_of_not_fits {msg : Text} {key : String} (large : ¬ Fits msg key) :
    extractIntField msg key = .error .outOfRange := by
  rw [extractIntField_eq]
  cases found : numberFound msg key with
  | none => simp [Fits, found] at large
  | some n =>
      have tooLarge : ¬ n ≤ longLongMax := by simpa [Fits, found] using large
      exact if_neg tooLarge

theorem extractIntField_returns_iff (msg : Text) (key : String) :
    (∃ found, extractIntField msg key = .ok found) ↔ Fits msg key := by
  by_cases fits : Fits msg key
  · rw [extractIntField_of_fits fits]
    simp [fits]
  · rw [extractIntField_of_not_fits fits]
    simp [fits]

end OrderBookSimulator
