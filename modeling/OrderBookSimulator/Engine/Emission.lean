import OrderBookSimulator.Engine.Answer

/-!
# The events of one call

Each call appends a chunk of events to the order sink, all under the batch id
it found, with sequence numbers above every earlier one.  Chunks of successive
stages of a call compose.
-/

namespace OrderBookSimulator

open Library

namespace MatchingEngine

/-- From `first` to `last`, `chunk` was handed to the order sink under one batch id. -/
structure Emitted (batchId : Int) (first last : MatchingEngine) (chunk : List OrderEvent) :
    Prop where
  sink : last.orderSink = first.orderSink.map (· ++ chunk)
  batch : ∀ event ∈ chunk, event.batchId = batchId
  increasing : chunk.Pairwise fun earlier later => earlier.seq < later.seq
  above : ∀ event ∈ chunk, first.eventSeq ≤ event.seq
  below : ∀ event ∈ chunk, event.seq < last.eventSeq
  advances : first.eventSeq ≤ last.eventSeq

/-- From `first` to `last`, one chunk of events was emitted. -/
def Emits (batchId : Int) (first last : MatchingEngine) : Prop :=
  ∃ chunk, Emitted batchId first last chunk

/-- From `first` to `last`, an attached order sink was handed some event. -/
def EmitsSome (batchId : Int) (first last : MatchingEngine) : Prop :=
  ∃ chunk, Emitted batchId first last chunk ∧ (first.orderSink.isSome → chunk ≠ [])

section Compose

variable {batchId : Int} {first middle last : MatchingEngine}

theorem Emitted.idle (sink : last.orderSink = first.orderSink)
    (seq : last.eventSeq = first.eventSeq) : Emitted batchId first last [] where
  sink := by rw [sink]; cases first.orderSink <;> simp
  batch := by simp
  increasing := .nil
  above := by simp
  below := by simp
  advances := by omega

theorem Emitted.trans {chunk chunk' : List OrderEvent} (before : Emitted batchId first middle chunk)
    (after : Emitted batchId middle last chunk') :
    Emitted batchId first last (chunk ++ chunk') where
  sink := by rw [after.sink, before.sink]; cases first.orderSink <;> simp
  batch := List.forall_mem_append.mpr ⟨before.batch, after.batch⟩
  increasing := by
    refine List.pairwise_append.mpr ⟨before.increasing, after.increasing, ?_⟩
    intro earlier inChunk later inChunk'
    exact Int.lt_of_lt_of_le (before.below earlier inChunk) (after.above later inChunk')
  above := by
    refine List.forall_mem_append.mpr ⟨before.above, fun event member => ?_⟩
    exact Int.le_trans before.advances (after.above event member)
  below := by
    refine List.forall_mem_append.mpr ⟨fun event member => ?_, after.below⟩
    exact Int.lt_of_lt_of_le (before.below event member) after.advances
  advances := Int.le_trans before.advances after.advances

theorem Emits.idle (sink : last.orderSink = first.orderSink)
    (seq : last.eventSeq = first.eventSeq) : Emits batchId first last := ⟨[], .idle sink seq⟩

theorem Emits.trans (before : Emits batchId first middle) (after : Emits batchId middle last) :
    Emits batchId first last := by
  obtain ⟨chunk, before⟩ := before
  obtain ⟨chunk', after⟩ := after
  exact ⟨chunk ++ chunk', before.trans after⟩

theorem EmitsSome.emits (emits : EmitsSome batchId first last) : Emits batchId first last := by
  obtain ⟨chunk, emitted, _⟩ := emits
  exact ⟨chunk, emitted⟩

theorem EmitsSome.trans (before : EmitsSome batchId first middle)
    (after : Emits batchId middle last) : EmitsSome batchId first last := by
  obtain ⟨chunk, before, some⟩ := before
  obtain ⟨chunk', after⟩ := after
  exact ⟨chunk ++ chunk', before.trans after, fun attached none =>
    some attached (List.append_eq_nil_iff.mp none).1⟩

theorem Emits.trans_some (before : Emits batchId first middle)
    (after : EmitsSome batchId middle last) : EmitsSome batchId first last := by
  obtain ⟨chunk, before⟩ := before
  obtain ⟨chunk', after, some⟩ := after
  refine ⟨chunk ++ chunk', before.trans after, fun attached none => ?_⟩
  have stillAttached : middle.orderSink.isSome := by
    rw [before.sink]
    simpa using attached
  exact some stillAttached (List.append_eq_nil_iff.mp none).2

end Compose

section Stages

variable (host : Host) (engine : MatchingEngine) (batchId : Int)

theorem emits_emitOrderEvent (orderId userId : Int) (status : OrderStatus) (side : Side)
    (price qty remaining : Int) :
    EmitsSome batchId engine
      (engine.emitOrderEvent host batchId orderId userId status side price qty remaining) := by
  cases sink : engine.orderSink with
  | none => exact ⟨[], .idle (by simp [sink]) (by simp [emitOrderEvent, sink]), by simp [sink]⟩
  | some events =>
      have seq := engine.eventSeq_emitOrderEvent host batchId orderId userId status side price qty
        remaining sink
      refine ⟨[engine.orderEvent host batchId orderId userId status side price qty remaining], ?_,
        fun _ => List.cons_ne_nil _ _⟩
      exact {
        sink := by simp
        batch := by simp [orderEvent]
        increasing := List.pairwise_singleton _ _
        above := by simp [orderEvent]
        below := by simp [orderEvent, seq]
        advances := by omega }

variable {host batchId}

theorem emits_fillStep {takerSide : Side} {sweep next : Sweep}
    (moves : fillStep host takerSide batchId sweep = some next) :
    Emits batchId sweep.engine next.engine := by
  obtain ⟨price, maker, rest, _, rfl⟩ := fillStep_cases moves
  have users : Emits batchId sweep.engine (sweep.engine.updateUsers fun users =>
      users.onFill host maker.order.id sweep.taker.id price (fillQty sweep.taker maker.order)
        takerSide) := .idle rfl rfl
  exact (users.trans (emits_emitOrderEvent host _ batchId _ _ _ _ _ _ _).emits).trans
    (.idle rfl rfl)

variable (host)

theorem emits_concluded (incoming : Order) (sweep : Sweep) :
    Emits batchId sweep.engine (concluded host incoming batchId sweep) := by
  have announced : Emits batchId sweep.engine
      ((restRemainder host sweep).emitTrades host sweep.trades).1 :=
    .idle (by simp) (by simp)
  unfold concluded
  by_cases none : incoming.qty - sweep.taker.qty = 0
  · simpa only [if_pos none] using announced
  · simpa only [if_neg none] using
      announced.trans (emits_emitOrderEvent host _ batchId _ _ _ _ _ _ _).emits

theorem emits_callSweep (incoming : Order) :
    EmitsSome engine.batchSeq engine (engine.callSweep host incoming).engine ∧
      (engine.callSweep host incoming).engine.batchSeq = engine.batchSeq + 1 := by
  have opened : Emits engine.batchSeq engine (engine.opened incoming) := .idle rfl rfl
  have start : EmitsSome engine.batchSeq engine
      (startSweep host (engine.opened incoming) engine.batchSeq incoming).engine :=
    opened.trans_some (emits_emitOrderEvent host _ _ _ _ _ _ _ _ _)
  refine (callSweep_settles host engine incoming).invariant
    (fun sweep => EmitsSome engine.batchSeq engine sweep.engine ∧
      sweep.engine.batchSeq = engine.batchSeq + 1) ?_ ⟨start, by simp [startSweep]⟩
  rintro sweep next ⟨soFar, batch⟩ moves
  refine ⟨soFar.trans (emits_fillStep moves), ?_⟩
  obtain ⟨price, maker, rest, _, rfl⟩ := fillStep_cases moves
  rw [batchSeq_afterFill, batch]

end Stages

/--
What each call emits, and that no other call will use its batch id.  A call that
uses its batch id hands an attached sink some event.
-/
theorem Answered.emitted {host : Host} {engine next : MatchingEngine} {call : Call} {reply : Reply}
    (answered : Answered host engine call reply next) :
    ∃ chunk, Emitted engine.batchSeq engine next chunk ∧
      (chunk = [] ∧ next.batchSeq = engine.batchSeq ∨
        (engine.orderSink.isSome → chunk ≠ []) ∧ next.batchSeq = engine.batchSeq + 1) := by
  cases answered with
  | allotted => exact ⟨[], .idle rfl rfl, Or.inl ⟨rfl, rfl⟩⟩
  | added order => exact ⟨[], .idle rfl rfl, Or.inl ⟨rfl, rfl⟩⟩
  | refused order status =>
      have opened : Emits engine.batchSeq engine (engine.opened order) := .idle rfl rfl
      obtain ⟨chunk, emitted, some⟩ := opened.trans_some
        (emits_emitOrderEvent host (engine.opened order) engine.batchSeq _ _ _ _ _ _ _)
      exact ⟨chunk, emitted, Or.inr ⟨some, by simp [MatchingEngine.refused]⟩⟩
  | accepted order ok swept =>
      obtain ⟨sweeping, batch⟩ := emits_callSweep host engine order
      obtain ⟨chunk, emitted, some⟩ := sweeping.trans (emits_concluded host order _)
      exact ⟨chunk, emitted, Or.inr ⟨some, by rw [batchSeq_concluded, batch]⟩⟩
  | unknown => exact ⟨[], .idle rfl rfl, Or.inl ⟨rfl, rfl⟩⟩
  | withdrawn node queued =>
      have taken : Emits engine.batchSeq engine { engine with
          book := engine.book.withdrawn node.order, batchSeq := engine.batchSeq + 1 } :=
        .idle rfl rfl
      have all : EmitsSome engine.batchSeq engine (engine.cancelled host node.order) :=
        (taken.trans_some (emits_emitOrderEvent host _ engine.batchSeq _ _ _ _ _ _ _)).trans
          (.idle rfl rfl)
      obtain ⟨chunk, emitted, some⟩ := all
      exact ⟨chunk, emitted, Or.inr ⟨some, by simp⟩⟩

end MatchingEngine

end OrderBookSimulator
