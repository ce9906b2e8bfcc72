import OrderBookSimulator.Journal.JournalSinks

/-!
# Reading the end of a journal

Whatever the runs of a server wrote, the text read back from the file is a JSON
array of the last records, newest first, with every field as it was.
-/

namespace OrderBookSimulator

open Library Json

/-- A JSON array of records. -/
def readArray {Record : Type} (read : Value → Option Record) (value : Value) :
    Option (List Record) :=
  value.items?.bind (·.mapM read)

section Tail

variable {Record : Type} {write : Text → Record → Text} {value : Record → Value}
  {read : Value → Option Record}
  (writes : ∀ out record, write out record = out ++ ((value record).written ++ ['\n']))
  (readsBack : ∀ record, read (value record) = some record)

include writes readsBack

theorem decodes_tailJson (limit : Nat) (wanted : Text → Bool) (runs : List (List Record)) :
    Decodes (readArray read) (tailJson limit wanted (journalFile write runs))
      (lastRecords limit (fun record => wanted (value record).written) runs.flatten) :=
  decodes_written (tailJson_eq writes limit wanted runs) (mapM_read readsBack _)

/-- Without a filter the last records are the last of all. -/
theorem decodes_readLastTradesJsonl (limit : Nat) (runs : List (List Record)) :
    Decodes (readArray read) (readLastTradesJsonl (journalFile write runs) limit)
      (runs.flatten.reverse.take limit) := by
  have decodes := decodes_tailJson writes readsBack limit (fun _ => true) runs
  rw [lastRecords, List.filter_true] at decodes
  exact decodes

end Tail

/-- Both journals, over any number of runs and for any limit. -/
theorem journal_tail_round_trip (limit : Nat) :
    (∀ runs : List (List Trade),
      Decodes (readArray Trade.read)
        (readLastTradesJsonl (journalFile JournalTradeSink.onTrade runs) limit)
        (runs.flatten.reverse.take limit)) ∧
    ∀ runs : List (List OrderEvent),
      Decodes (readArray OrderEvent.read)
        (readLastTradesJsonl (journalFile JournalOrderSink.onOrderEvent runs) limit)
        (runs.flatten.reverse.take limit) :=
  ⟨decodes_readLastTradesJsonl JournalTradeSink.onTrade_eq Trade.read_value limit,
    decodes_readLastTradesJsonl JournalOrderSink.onOrderEvent_eq OrderEvent.read_value limit⟩

end OrderBookSimulator
