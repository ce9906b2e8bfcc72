import OrderBookSimulator.Engine.Alike
import OrderBookSimulator.Library.Numbering

/-!
# What the trade sink is told

A call hands the trades of its reply to the sink, one by one, and numbers them
on from where the two counters stood.  Nothing else touches sink or counters.
-/

namespace OrderBookSimulator

open Library

namespace MatchingEngine

/-- The sink has been told `trades`, and the counters have moved past them. -/
structure ToldSink (engine : MatchingEngine) (trades : List Trade) (next : MatchingEngine) : Prop where
  sink : next.tradeSink = engine.tradeSink.map (· ++ trades)
  seqs : engine.tradeSink.isSome → Numbered (·.seq) engine.globalSeq trades ∧
    next.globalSeq = engine.globalSeq + trades.length
  tradeIds : engine.tradeSink.isSome → Numbered (·.tradeId) engine.globalTradeId trades ∧
    next.globalTradeId = engine.globalTradeId + trades.length

namespace ToldSink

variable {engine next last : MatchingEngine} {first second : List Trade}

/-- Sink and counters are as they were. -/
theorem nothing (sink : next.tradeSink = engine.tradeSink)
    (seq : next.globalSeq = engine.globalSeq)
    (tradeId : next.globalTradeId = engine.globalTradeId) : ToldSink engine [] next where
  sink := by cases told : engine.tradeSink <;> simp [sink, told]
  seqs := fun _ => ⟨.nil, by simp [seq]⟩
  tradeIds := fun _ => ⟨.nil, by simp [tradeId]⟩

theorem trans (told : ToldSink engine first next) (later : ToldSink next second last) :
    ToldSink engine (first ++ second) last where
  sink := by
    rw [later.sink, told.sink, Option.map_map]
    cases engine.tradeSink <;> simp
  seqs := by
    intro listening
    have listeningNext : next.tradeSink.isSome := by simpa [told.sink] using listening
    obtain ⟨numbered, moved⟩ := told.seqs listening
    obtain ⟨numberedLater, movedLater⟩ := later.seqs listeningNext
    rw [moved] at numberedLater movedLater
    refine ⟨Numbered.append_iff.mpr ⟨numbered, numberedLater⟩, ?_⟩
    rw [movedLater, List.length_append]
    omega
  tradeIds := by
    intro listening
    have listeningNext : next.tradeSink.isSome := by simpa [told.sink] using listening
    obtain ⟨numbered, moved⟩ := told.tradeIds listening
    obtain ⟨numberedLater, movedLater⟩ := later.tradeIds listeningNext
    rw [moved] at numberedLater movedLater
    refine ⟨Numbered.append_iff.mpr ⟨numbered, numberedLater⟩, ?_⟩
    rw [movedLater, List.length_append]
    omega

theorem thenNothing (told : ToldSink engine first next) (later : ToldSink next [] last) :
    ToldSink engine first last := by
  simpa using told.trans later

end ToldSink

section Stages

variable (host : Host) (engine : MatchingEngine)

theorem toldSink_emitOrderEvent (batchId orderId userId : Int) (status : OrderStatus) (side : Side)
    (price qty remaining : Int) : ToldSink engine []
      (engine.emitOrderEvent host batchId orderId userId status side price qty remaining) := by
  unfold emitOrderEvent
  split <;> exact .nothing rfl rfl rfl

theorem toldSink_updateBook (update : OrderBook → OrderBook) :
    ToldSink engine [] (engine.updateBook update) := .nothing rfl rfl rfl

theorem toldSink_updateUsers (update : UserManager → UserManager) :
    ToldSink engine [] (engine.updateUsers update) := .nothing rfl rfl rfl

theorem toldSink_opened (incoming : Order) : ToldSink engine [] (engine.opened incoming) :=
  .nothing rfl rfl rfl

theorem toldSink_afterFill (takerSide : Side) (batchId : Int) (sweep : Sweep) (price : Int)
    (maker : Node) (rest : OrderList) :
    ToldSink sweep.engine [] (afterFill host takerSide batchId sweep price maker rest).engine := by
  unfold afterFill
  dsimp only
  exact ((toldSink_updateUsers _ _).trans (toldSink_emitOrderEvent host _ _ _ _ _ _ _ _ _)).trans
    (toldSink_updateBook _ _)

/-- A sweep collects its trades and tells the sink nothing yet. -/
theorem toldSink_callSweep (order : Order) : ToldSink engine [] (engine.callSweep host order).engine := by
  refine (callSweep_settles host engine order).invariant (fun sweep => ToldSink engine [] sweep.engine)
    ?_ ((toldSink_opened engine order).trans (toldSink_emitOrderEvent host _ _ _ _ _ _ _ _ _))
  intro sweep next soFar moves
  obtain ⟨price, maker, rest, _, rfl⟩ := fillStep_cases moves
  exact soFar.trans (toldSink_afterFill host _ _ sweep price maker rest)

theorem toldSink_restRemainder (sweep : Sweep) : ToldSink sweep.engine [] (restRemainder host sweep) := by
  unfold restRemainder
  by_cases rests : sweep.taker.type = .limit ∧ 0 < sweep.taker.qty <;>
    by_cases traded : sweep.trades = [] <;> simp only [rests, traded, if_true, if_false]
  all_goals exact .nothing rfl rfl rfl

theorem toldSink_emitEach (timestamp : Int) (listening : engine.tradeSink.isSome)
    (trades : List Trade) : ToldSink engine (emitEach timestamp engine trades).2
      (emitEach timestamp engine trades).1 := by
  induction trades generalizing engine with
  | nil => exact .nothing rfl rfl rfl
  | cons trade rest ih =>
      have handed : ToldSink engine [engine.stamped timestamp trade]
          (engine.handOver (engine.stamped timestamp trade)) := ⟨rfl, fun _ => ⟨⟨rfl, trivial⟩, rfl⟩,
            fun _ => ⟨⟨rfl, trivial⟩, rfl⟩⟩
      rw [emitEach_cons]
      exact handed.trans (ih _ (by simpa [handOver] using listening))

theorem toldSink_emitTrades (trades : List Trade) : ToldSink engine
    (engine.emitTrades host trades).2 (engine.emitTrades host trades).1 := by
  rw [emitTrades_eq]
  split
  · rename_i listening
    have clocked : ToldSink engine [] { engine with clockReads := engine.clockReads + 1 } :=
      .nothing rfl rfl rfl
    exact clocked.trans (toldSink_emitEach { engine with clockReads := engine.clockReads + 1 } _
      listening trades)
  · rename_i silent
    have none : engine.tradeSink = none := by simpa using silent
    exact ⟨by simp [none], fun listening => by simp [none] at listening,
      fun listening => by simp [none] at listening⟩

end Stages

/-- Every call tells the sink the trades of its reply. -/
theorem Answered.told {host : Host} {engine next : MatchingEngine} {call : Call} {reply : Reply}
    (answered : Answered host engine call reply next) :
    ToldSink engine (Entry.trades ⟨engine, call, reply, next⟩) next := by
  cases answered with
  | allotted => exact .nothing rfl rfl rfl
  | added order => exact toldSink_updateBook _ _
  | refused order status =>
      exact (toldSink_opened engine order).trans (toldSink_emitOrderEvent host _ _ _ _ _ _ _ _ _)
  | accepted order ok swept =>
      have emitted := ((toldSink_callSweep host engine order).trans
        (toldSink_restRemainder host (engine.callSweep host order))).trans
          (toldSink_emitTrades host _ (engine.callSweep host order).trades)
      unfold concluded
      dsimp only
      split
      · exact emitted
      · exact emitted.thenNothing (toldSink_emitOrderEvent host _ _ _ _ _ _ _ _ _)
  | unknown => exact .nothing rfl rfl rfl
  | withdrawn node queued =>
      unfold cancelled
      have opened : ToldSink engine [] { engine with
          book := engine.book.withdrawn node.order, batchSeq := engine.batchSeq + 1 } :=
        .nothing rfl rfl rfl
      exact ((opened.trans (toldSink_emitOrderEvent host _ _ _ _ _ _ _ _ _)).trans
        (toldSink_updateUsers _ _)).trans (toldSink_updateBook _ _)

end MatchingEngine

end OrderBookSimulator
