import OrderBookSimulator.Journal.Journalled

/-!
# The order events of a session

Sequence numbers increase along the whole journal, and each call's events stand
together under a batch id of their own.  With the stories of `Journalled` this
is what a reader of the journal can rely on.
-/

namespace OrderBookSimulator

open Library

/-- The events an attached sink received during a call. -/
def Entry.events (entry : Entry) : List OrderEvent :=
  (entry.after.orderSink.getD []).drop (entry.before.orderSink.getD []).length

/-- Every event so far, call by call. -/
def Log.events (log : Log) : List OrderEvent := log.flatMap Entry.events

/-- No event of the two calls has the same batch id. -/
def ApartBatches (first second : Entry) : Prop :=
  ∀ event ∈ first.events, ∀ other ∈ second.events, event.batchId ≠ other.batchId

namespace MatchingEngine

/-- The journal is the calls' events one after the other, numbered and batched. -/
structure Batched (log : Log) (state : MatchingEngine) : Prop where
  sink : state.orderSink = some log.events
  increasing : log.events.Pairwise fun earlier later => earlier.seq < later.seq
  below : ∀ event ∈ log.events, event.seq < state.eventSeq
  together : ∀ entry ∈ log, ∀ event ∈ entry.events, event.batchId = entry.before.batchSeq
  past : ∀ event ∈ log.events, event.batchId < state.batchSeq
  apart : log.Pairwise ApartBatches

theorem Emitted.events {batchId : Int} {first last : MatchingEngine} {chunk earlier : List OrderEvent}
    (emitted : Emitted batchId first last chunk) (sink : first.orderSink = some earlier)
    (call : Call) (reply : Reply) :
    last.orderSink = some (earlier ++ chunk) ∧ Entry.events ⟨first, call, reply, last⟩ = chunk := by
  have after : last.orderSink = some (earlier ++ chunk) := by
    rw [emitted.sink, sink]
    rfl
  exact ⟨after, by simp [Entry.events, after, sink]⟩

theorem Batched.step {host : Host} {state next : MatchingEngine} {log : Log} {call : Call}
    {reply : Reply} (batched : Batched log state)
    (answered : Answered host state call reply next) :
    Batched (log ++ [⟨state, call, reply, next⟩]) next := by
  obtain ⟨chunk, emitted, batch⟩ := answered.emitted
  obtain ⟨sink, events⟩ := emitted.events batched.sink call reply
  have all : Log.events (log ++ [⟨state, call, reply, next⟩]) = log.events ++ chunk := by
    simp [Log.events, events]
  have later : ∀ event ∈ log.events, event.seq < next.eventSeq := fun event member =>
    Int.lt_of_lt_of_le (batched.below event member) emitted.advances
  have batchLe : state.batchSeq ≤ next.batchSeq := by
    rcases batch with ⟨_, same⟩ | ⟨_, next⟩ <;> omega
  exact {
    sink := by rw [all, sink]
    increasing := by
      rw [all]
      refine List.pairwise_append.mpr ⟨batched.increasing, emitted.increasing, ?_⟩
      intro event member new inChunk
      exact Int.lt_of_lt_of_le (batched.below event member) (emitted.above new inChunk)
    below := by
      rw [all]
      exact List.forall_mem_append.mpr ⟨later, emitted.below⟩
    together := by
      refine List.forall_mem_append.mpr ⟨batched.together, ?_⟩
      intro entry member
      obtain rfl := List.mem_singleton.mp member
      rw [events]
      exact emitted.batch
    past := by
      rw [all]
      refine List.forall_mem_append.mpr ⟨fun event member => ?_, fun event inChunk => ?_⟩
      · exact Int.lt_of_lt_of_le (batched.past event member) batchLe
      · have own := emitted.batch event inChunk
        rcases batch with ⟨none, _⟩ | ⟨_, next⟩
        · rw [none] at inChunk
          cases inChunk
        · omega
    apart := by
      refine List.pairwise_append.mpr ⟨batched.apart, List.pairwise_singleton _ _, ?_⟩
      intro entry member last isLast event inEntry other inLast
      obtain rfl := List.mem_singleton.mp isLast
      rw [events] at inLast
      have before := batched.past event (List.mem_flatMap.mpr ⟨entry, member, inEntry⟩)
      have own := emitted.batch other inLast
      omega }

theorem Batched.nil {start : MatchingEngine} (sink : start.orderSink = some []) :
    Batched [] start where
  sink := sink
  increasing := .nil
  below := by simp [Log.events]
  together := by simp
  past := by simp [Log.events]
  apart := .nil

theorem batched_of_session {host : Host} {start state : MatchingEngine} {log : Log}
    (sound : start.book.Sound) (sink : start.orderSink = some [])
    (session : Session host start log state) : Batched log state := by
  refine session.invariant Batched (.nil sink) ?_
  intro log state call reply next earlier batched allowed answer
  exact batched.step (answered_of_exec (tracked_of_session sound earlier).sound answer)

/--
Along every ordinary session from an empty book with an order sink, sequence
numbers increase, each call's events stand together under a batch id no other
call uses, the events of each submitted order tell one lifecycle of its
quantity, an id never submitted has none, and fill events add up to the trades.
-/
theorem order_events_reconcile {host : Host} {engine state : MatchingEngine}
    {onChange : Option (List Snapshot)} {log : Log} (sink : engine.orderSink = some [])
    (session : Session host (engine.onEmptyBook onChange) log state) :
    state.orderSink = some log.events ∧
    (log.events.Pairwise fun earlier later => earlier.seq < later.seq) ∧
    (∀ entry ∈ log, ∃ batchId, ∀ event ∈ entry.events, event.batchId = batchId) ∧
    log.Pairwise ApartBatches ∧
    (∀ order ∈ log.submitted, ∃ stage, Lifecycle order.qty (history log.events order.id) stage) ∧
    (∀ orderId, orderId ∉ log.submittedIds → history log.events orderId = []) ∧
    ∀ orderId, filledQty log.events orderId =
      makerQty log.trades orderId + takerQty log.trades orderId := by
  have sound : (engine.onEmptyBook onChange).book.Sound := OrderBook.sound_empty onChange
  have batched := batched_of_session sound sink session
  obtain ⟨events, journalled⟩ := journalled_of_session sink session
  obtain rfl : log.events = events := Option.some.inj (batched.sink.symm.trans journalled.sink)
  refine ⟨batched.sink, batched.increasing, ?_, batched.apart, ?_, journalled.silent,
    journalled.filled⟩
  · exact fun entry member => ⟨entry.before.batchSeq, batched.together entry member⟩
  · intro order member
    obtain ⟨stage, story, _, _⟩ := journalled.stories order member
    exact ⟨stage, story⟩

/--
Order 2 first takes and is then filled as a maker, order 4 is refused, and
order 5 is cancelled while it rests.
-/
theorem order_events_reconcile_sample :
    ∃ log state, Session (Host.exact (·)) (onEmptyBook { orderSink := some [] } none) log state ∧
      (history log.events 2).map (·.status) = [.new, .partiallyFilled, .filled] ∧
      (history log.events 4).map (·.status) = [.rejected] ∧
      (history log.events 5).map (·.status) = [.new, .canceled] ∧
      (∀ order ∈ log.submitted, ∃ stage,
        Lifecycle order.qty (history log.events order.id) stage) ∧
      (log.events.Pairwise fun earlier later => earlier.seq < later.seq) ∧
      filledQty log.events 2 = makerQty log.trades 2 + takerQty log.trades 2 := by
  have run := Run.of_isSome (exec (Host.exact (·))) (Ordinary (onEmptyBook { orderSink := some [] } none))
    (onEmptyBook { orderSink := some [] } none)
    [.processOrder ⟨1, 0, .sell, 100, 5, .limit⟩, .processOrder ⟨2, 0, .buy, 101, 9, .limit⟩,
      .processOrder ⟨3, 0, .sell, 0, 4, .market⟩, .processOrder ⟨4, 0, .buy, 100, 0, .limit⟩,
      .processOrder ⟨5, 0, .buy, 90, 3, .limit⟩, .cancelOrder 5, .cancelOrder 7] (by decide)
  obtain ⟨_, increasing, _, _, stories, _, filled⟩ := order_events_reconcile rfl run
  exact ⟨_, _, run, by decide, by decide, by decide, stories, increasing, filled 2⟩

end MatchingEngine

end OrderBookSimulator
