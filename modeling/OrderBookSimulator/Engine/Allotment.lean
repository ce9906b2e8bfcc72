import OrderBookSimulator.Engine.Tracked

/-!
# Where order ids come from

`nextOrderId` allots ids from a counter that no other call moves.  Callers that
spend each allotted id on one order therefore submit every order under a fresh
id: they are ordinary callers.
-/

namespace OrderBookSimulator

open Library

namespace MatchingEngine

/-! ## The counter -/

section Counter

variable (host : Host) (engine : MatchingEngine)

@[simp] theorem nextId_emitOrderEvent (batchId orderId userId : Int) (status : OrderStatus)
    (side : Side) (price qty remaining : Int) :
    (engine.emitOrderEvent host batchId orderId userId status side price qty remaining).nextId =
      engine.nextId := by
  unfold emitOrderEvent
  split <;> rfl

theorem nextId_emitEach (timestamp : Int) (trades : List Trade) :
    (emitEach timestamp engine trades).1.nextId = engine.nextId := by
  induction trades generalizing engine with
  | nil => rfl
  | cons trade rest ih => exact ih _

@[simp] theorem nextId_emitTrades (trades : List Trade) :
    (engine.emitTrades host trades).1.nextId = engine.nextId := by
  unfold emitTrades
  split
  · rfl
  · exact nextId_emitEach _ _ _

@[simp] theorem nextId_restRemainder (sweep : Sweep) :
    (restRemainder host sweep).nextId = sweep.engine.nextId := by
  unfold restRemainder
  by_cases rests : sweep.taker.type = .limit ∧ 0 < sweep.taker.qty <;>
    by_cases traded : sweep.trades = [] <;> simp [rests, traded, updateBook, updateUsers]

@[simp] theorem nextId_concluded (incoming : Order) (batchId : Int) (sweep : Sweep) :
    (concluded host incoming batchId sweep).nextId = sweep.engine.nextId := by
  unfold concluded
  by_cases none : incoming.qty - sweep.taker.qty = 0 <;> simp [none]

theorem nextId_callSweep (incoming : Order) :
    (engine.callSweep host incoming).engine.nextId = engine.nextId := by
  refine (callSweep_settles host engine incoming).invariant
    (fun sweep => sweep.engine.nextId = engine.nextId) ?_ ?_
  · intro sweep next same moves
    obtain ⟨price, maker, rest, _, rfl⟩ := fillStep_cases moves
    simpa [afterFill, updateBook, updateUsers] using same
  · simp [startSweep, opened, updateUsers]

/-- Only `nextOrderId` moves the counter. -/
theorem Answered.nextId {host : Host} {engine next : MatchingEngine} {call : Call} {reply : Reply}
    (answered : Answered host engine call reply next) :
    next.nextId = engine.nextId + if call = .nextOrderId then 1 else 0 := by
  cases answered with
  | allotted => rfl
  | added order => simp [updateBook]
  | refused order status => simp [MatchingEngine.refused, opened, updateUsers]
  | accepted order ok swept => simp [nextId_callSweep]
  | unknown => simp
  | withdrawn node queued => simp [cancelled, updateBook, updateUsers]

end Counter

end MatchingEngine

/-! ## Callers that spend allotted ids -/

/-- The id a call allotted. -/
def Entry.allotted (entry : Entry) : Option Int :=
  match entry.call, entry.reply with
  | .nextOrderId, .orderId orderId => some orderId
  | _, _ => none

namespace Log

def allotted (log : Log) : List Int := log.filterMap Entry.allotted

/-- The allotted ids that no submission has spent yet. -/
def unspent (log : Log) : List Int := log.allotted.diff log.submittedIds

theorem allotted_append (log : Log) (entry : Entry) :
    allotted (log ++ [entry]) = log.allotted ++ entry.allotted.toList := by
  unfold allotted
  rw [List.filterMap_append]
  cases allotted : entry.allotted <;> simp [allotted]

end Log

/-- The calls of callers that take the id of each order from `nextOrderId`. -/
def Allotting (start : MatchingEngine) (log : Log) : Call → Prop
  | .nextOrderId => True
  | .addRestingOrder _ => False
  | .processOrder order => order.id ∈ log.unspent
  | .cancelOrder orderId => ¬ FullyFilled start log orderId

instance (start : MatchingEngine) (log : Log) : (call : Call) → Decidable (Allotting start log call)
  | .nextOrderId => .isTrue trivial
  | .addRestingOrder _ => .isFalse id
  | .processOrder order => inferInstanceAs (Decidable (order.id ∈ log.unspent))
  | .cancelOrder orderId => inferInstanceAs (Decidable (¬ FullyFilled start log orderId))

namespace MatchingEngine

/-- No id is allotted twice. -/
theorem Answered.allotted_nodup {host : Host} {state next : MatchingEngine} {log : Log}
    {call : Call} {reply : Reply} (answered : Answered host state call reply next)
    (nodup : log.allotted.Nodup) (below : ∀ orderId ∈ log.allotted, orderId < state.nextId) :
    (Log.allotted (log ++ [⟨state, call, reply, next⟩])).Nodup ∧
      ∀ orderId ∈ Log.allotted (log ++ [⟨state, call, reply, next⟩]), orderId < next.nextId := by
  have counter := answered.nextId
  rw [Log.allotted_append]
  have idle : Entry.allotted ⟨state, call, reply, next⟩ = none → state.nextId ≤ next.nextId →
      (log.allotted ++ (Entry.allotted ⟨state, call, reply, next⟩).toList).Nodup ∧
        ∀ orderId ∈ log.allotted ++ (Entry.allotted ⟨state, call, reply, next⟩).toList,
          orderId < next.nextId := by
    intro none advances
    rw [none, Option.toList_none, List.append_nil]
    exact ⟨nodup, fun orderId member => Int.lt_of_lt_of_le (below orderId member) advances⟩
  cases answered with
  | allotted =>
      refine ⟨List.nodup_append.mpr ⟨nodup, List.nodup_singleton _, ?_⟩, ?_⟩
      · intro earlier member last isLast
        obtain rfl := List.mem_singleton.mp isLast
        exact Int.ne_of_lt (below earlier member)
      · refine List.forall_mem_append.mpr ⟨fun orderId member => ?_, ?_⟩
        · have before := below orderId member
          omega
        · intro orderId isLast
          rw [List.mem_singleton.mp isLast, counter]
          exact Int.lt_succ _
  | added order => exact idle rfl (by omega)
  | refused order status => exact idle rfl (by omega)
  | accepted order ok swept => exact idle rfl (by omega)
  | unknown => exact idle rfl (by omega)
  | withdrawn node queued => exact idle rfl (by omega)

section Callers

variable {host : Host} {engine state : MatchingEngine} {onChange : Option (List Snapshot)}
  {log : Log}

/-- An allotted id that is not spent yet was not used before. -/
theorem ordinary_of_unspent (nodup : log.allotted.Nodup) {call : Call}
    (allowed : Allotting (engine.onEmptyBook onChange) log call) :
    Ordinary (engine.onEmptyBook onChange) log call := by
  cases call with
  | nextOrderId => trivial
  | addRestingOrder order => exact allowed
  | processOrder order =>
      rintro (found | submitted)
      · simp [onEmptyBook] at found
      · exact ((nodup.mem_sdiff_iff).mp allowed).2 submitted
  | cancelOrder orderId => exact allowed

theorem allotted_of_allotting
    (run : Run (exec host) (Allotting (engine.onEmptyBook onChange)) (engine.onEmptyBook onChange)
      log state) :
    Session host (engine.onEmptyBook onChange) log state ∧ log.allotted.Nodup ∧
      ∀ orderId ∈ log.allotted, orderId < state.nextId := by
  have sound : (engine.onEmptyBook onChange).book.Sound := OrderBook.sound_empty onChange
  refine run.invariant (fun (log : Log) state =>
    Session host (engine.onEmptyBook onChange) log state ∧
      log.allotted.Nodup ∧ ∀ orderId ∈ log.allotted, orderId < state.nextId)
    ⟨.nil, .nil, by simp [Log.allotted]⟩ ?_
  rintro log state call reply next _ ⟨session, nodup, below⟩ allowed answer
  have answered := answered_of_exec (tracked_of_session sound session).sound answer
  exact ⟨.snoc session (ordinary_of_unspent nodup allowed) answer,
    answered.allotted_nodup nodup below⟩

/-- Callers that spend allotted ids are ordinary callers. -/
theorem session_of_allotting
    (run : Run (exec host) (Allotting (engine.onEmptyBook onChange)) (engine.onEmptyBook onChange)
      log state) :
    Session host (engine.onEmptyBook onChange) log state :=
  (allotted_of_allotting run).1

theorem ordinary_of_allotting
    (run : Run (exec host) (Allotting (engine.onEmptyBook onChange)) (engine.onEmptyBook onChange)
      log state) {call : Call} (allowed : Allotting (engine.onEmptyBook onChange) log call) :
    Ordinary (engine.onEmptyBook onChange) log call :=
  ordinary_of_unspent (allotted_of_allotting run).2.1 allowed

end Callers

end MatchingEngine

end OrderBookSimulator
