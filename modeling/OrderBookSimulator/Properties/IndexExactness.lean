import OrderBookSimulator.Engine.Answer

/-!
# How exact the index is

`index_` is written when an order rests and erased when it is cancelled.  A
fill that uses up its maker pops the node and leaves the entry behind, so the
index is exact as long as no fill has done that, and inexact ever after.
-/

namespace OrderBookSimulator

open Library

namespace MatchingEngine

/-- The index names exactly the resting orders, and every lookup and cancel goes by it. -/
structure IndexExact (host : Host) (engine : MatchingEngine) : Prop where
  keys : ∀ orderId, (engine.book.index.find? orderId).isSome ↔
    (engine.book.resting.filter (·.id = orderId)).length = 1
  locators : ∀ orderId loc, engine.book.index.find? orderId = some loc →
    ∃ node ∈ engine.book.level loc.side loc.price,
      node.address = loc.it ∧ node.order.id = orderId ∧
      node.order.side = loc.side ∧ node.order.price = loc.price
  lookups : ∀ orderId,
    (engine.book.findOrder orderId = .ok none ∧ ¬ engine.book.Resting orderId) ∨
    ∃ order ∈ engine.book.resting, order.id = orderId ∧
      engine.book.findOrder orderId = .ok (some order)
  cancels : ∀ orderId,
    (engine.book.Resting orderId ∧
      (∃ book, engine.book.cancelOrder orderId = .ok (book, true)) ∧
      ∃ next, engine.cancelOrder host orderId = .ok (next, true)) ∨
    (¬ engine.book.Resting orderId ∧
      engine.book.cancelOrder orderId = .ok (engine.book, false) ∧
      engine.cancelOrder host orderId = .ok (engine, false))

/-- In a sound book an id is queued once or not at all. -/
theorem length_filter_eq_one_iff {book : OrderBook} (sound : book.Sound) (orderId : Int) :
    (book.resting.filter (·.id = orderId)).length = 1 ↔ book.Resting orderId := by
  constructor
  · intro single
    obtain ⟨order, filterEq⟩ := List.length_eq_one_iff.mp single
    have member : order ∈ book.resting.filter (·.id = orderId) := by simp [filterEq]
    obtain ⟨inResting, same⟩ := List.mem_filter.mp member
    exact ⟨order, inResting, by simpa using same⟩
  · rintro ⟨order, member, rfl⟩
    obtain ⟨lead, tail, restingEq⟩ := List.append_of_mem member
    have nodup := sound.resting_nodup
    rw [restingEq, List.map_append, List.map_cons] at nodup
    have apart := (List.nodup_cons.mp (List.nodup_middle.mp nodup)).1
    have dropped : ∀ others : List Order, (∀ other ∈ others, other ∈ lead ++ tail) →
        others.filter (·.id = order.id) = [] := by
      intro others sub
      refine List.filter_eq_nil_iff.mpr fun other inOthers same => apart ?_
      rw [← List.map_append]
      exact List.mem_map.mpr ⟨other, sub other inOthers, by simpa using same⟩
    have dropLead := dropped lead fun _ => List.mem_append_left _
    have dropTail := dropped tail fun _ => List.mem_append_right _
    rw [restingEq, List.filter_append, List.filter_cons_of_pos (by simp), dropLead, dropTail]
    rfl

/-- For a sound book, being exact is having no stale entry. -/
theorem indexExact_iff (host : Host) {engine : MatchingEngine} (sound : engine.book.Sound) :
    IndexExact host engine ↔ ∀ orderId, ¬ engine.book.Stale orderId := by
  constructor
  · rintro exact' orderId ⟨known, notResting⟩
    exact notResting ((length_filter_eq_one_iff sound orderId).mp ((exact'.keys orderId).mp known))
  · intro noStale
    have known_iff : ∀ orderId,
        (engine.book.index.find? orderId).isSome ↔ engine.book.Resting orderId := by
      intro orderId
      constructor
      · intro known
        by_contra notResting
        exact noStale orderId ⟨known, notResting⟩
      · intro resting
        obtain ⟨node, _, _, found⟩ := sound.index_of_resting resting
        simp [found]
    have unknown : ∀ {orderId}, ¬ engine.book.Resting orderId →
        engine.book.index.find? orderId = none := by
      intro orderId notResting
      rw [← Option.not_isSome_iff_eq_none, known_iff]
      exact notResting
    exact {
      keys := fun orderId => (known_iff orderId).trans (length_filter_eq_one_iff sound orderId).symm
      locators := by
        intro orderId loc found
        obtain ⟨node, queued, rfl, foundNode⟩ :=
          sound.index_of_resting ((known_iff orderId).mp (by simp [found]))
        obtain rfl : (⟨node.order.side, node.order.price, node.address⟩ : Locator) = loc :=
          Option.some.inj (foundNode.symm.trans found)
        exact ⟨node, (sound.located_of_mem queued).2, rfl, rfl, rfl, rfl⟩
      lookups := by
        intro orderId
        by_cases resting : engine.book.Resting orderId
        · obtain ⟨node, queued, rfl, _⟩ := sound.index_of_resting resting
          exact Or.inr ⟨node.order, List.mem_map_of_mem queued, rfl, sound.findOrder_of_mem queued⟩
        · exact Or.inl ⟨by simp only [OrderBook.findOrder, unknown resting], resting⟩
      cancels := by
        intro orderId
        by_cases resting : engine.book.Resting orderId
        · obtain ⟨node, queued, rfl, _⟩ := sound.index_of_resting resting
          exact Or.inl ⟨resting, ⟨_, sound.cancelOrder_of_mem queued⟩,
            ⟨_, cancelOrder_of_queued host sound queued⟩⟩
        · exact Or.inr ⟨resting, by simp only [OrderBook.cancelOrder, unknown resting],
            cancelOrder_of_unknown host (unknown resting)⟩ }

/-! ## Fills that use up their maker -/

/-- The order passes preflight and uses up the first order of the best level it admits. -/
def emptiesMaker (host : Host) (engine : MatchingEngine) (incoming : Order) : Bool :=
  (engine.preflightCheck host incoming).isOk &&
    match (engine.book.levels incoming.side.opposite).first? with
    | some (price, maker :: _) =>
        !(incoming.type = .limit ∧ beyondLimit incoming.side price incoming.price : Bool) &&
          decide (maker.order.qty ≤ incoming.qty)
    | _ => false

section Sweep

variable {host : Host} {takerSide : Side} {batchId : Int} {sweep next : Sweep}

/-- No fill brings a stale entry back to life. -/
theorem stale_fillStep {orderId : Int} (stale : sweep.engine.book.Stale orderId)
    (moves : fillStep host takerSide batchId sweep = some next) :
    next.engine.book.Stale orderId := by
  obtain ⟨price, maker, rest, fillable, rfl⟩ := fillStep_cases moves
  obtain ⟨others, was, becomes⟩ := resting_afterFill host batchId fillable
  refine ⟨by simpa using stale.1, ?_⟩
  rintro ⟨order, member, rfl⟩
  apply stale.2
  rcases List.mem_append.mp (becomes.mem_iff.mp member) with left | other
  · refine ⟨maker.order, fillable.mem_resting, ?_⟩
    rw [eq_of_mem_leftOver left]
  · exact ⟨order, was.mem_iff.mpr (.tail _ other), rfl⟩

/-- A fill that uses up its maker leaves a stale entry. -/
theorem stale_maker {price : Int} {maker : Node} {rest : OrderList}
    (sound : sweep.engine.book.Sound) (fillable : Fillable takerSide sweep price maker rest)
    (usedUp : maker.order.qty - fillQty sweep.taker maker.order = 0) :
    (afterFill host takerSide batchId sweep price maker rest).engine.book.Stale maker.order.id := by
  obtain ⟨others, was, becomes⟩ := resting_afterFill host batchId fillable
  refine ⟨?_, ?_⟩
  · simp [(sound.located_of_mem fillable.queued).1]
  · rintro ⟨order, member, same⟩
    rw [leftOver, if_pos usedUp] at becomes
    have nodup := (was.map (·.id)).nodup_iff.mp sound.resting_nodup
    exact (List.nodup_cons.mp nodup).1
      (List.mem_map.mpr ⟨order, becomes.mem_iff.mp member, same⟩)

/-- A fill that leaves something of its maker makes no entry stale. -/
theorem stale_of_leftOver {price : Int} {maker : Node} {rest : OrderList}
    (fillable : Fillable takerSide sweep price maker rest)
    (leaves : maker.order.qty - fillQty sweep.taker maker.order ≠ 0) {orderId : Int}
    (stale : (afterFill host takerSide batchId sweep price maker rest).engine.book.Stale orderId) :
    sweep.engine.book.Stale orderId := by
  obtain ⟨others, was, becomes⟩ := resting_afterFill host batchId fillable
  rw [leftOver, if_neg leaves] at becomes
  refine ⟨by simpa using stale.1, ?_⟩
  rintro ⟨order, member, rfl⟩
  apply stale.2
  rcases List.mem_cons.mp (was.mem_iff.mp member) with rfl | other
  · exact ⟨_, becomes.mem_iff.mpr (.head _), rfl⟩
  · exact ⟨order, becomes.mem_iff.mpr (.tail _ other), rfl⟩

end Sweep

section Call

variable (host : Host) {engine : MatchingEngine} {incoming : Order}

/-- Resting the remainder makes no entry stale and repairs none. -/
theorem stale_restRemainder (sweep : Sweep) (orderId : Int) :
    (restRemainder host sweep).book.Stale orderId ↔ sweep.engine.book.Stale orderId := by
  have announced : (announcedBook sweep).Stale orderId ↔ sweep.engine.book.Stale orderId := by
    unfold announcedBook
    split <;> simp
  rw [book_restRemainder]
  split
  · rw [OrderBook.stale_addRestingOrder, announced]
  · exact announced

theorem emptiesMaker_iff :
    emptiesMaker host engine incoming = true ↔
      (engine.preflightCheck host incoming).isOk = true ∧ ∃ price maker rest,
        (engine.book.levels incoming.side.opposite).first? = some (price, maker :: rest) ∧
        ¬ (incoming.type = .limit ∧ beyondLimit incoming.side price incoming.price) ∧
        maker.order.qty ≤ incoming.qty := by
  unfold emptiesMaker
  rw [Bool.and_eq_true]
  refine and_congr_right fun _ => ?_
  split
  · rename_i price maker rest best
    simp [best, imp_iff_not_or, and_assoc]
  · rename_i others
    constructor
    · intro impossible
      cases impossible
    · rintro ⟨price, maker, rest, best, _⟩
      exact absurd best (others price maker rest)

section Accepted

variable (ok : (engine.preflightCheck host incoming).isOk = true)

include ok

/-- A sweep that first uses up a maker ends with that maker's entry stale. -/
theorem stale_callSweep (sound : engine.book.Sound)
    (empties : emptiesMaker host engine incoming = true) :
    ∃ orderId, (engine.callSweep host incoming).engine.book.Stale orderId := by
  obtain ⟨_, price, maker, rest, best, admits, usedUp⟩ := (emptiesMaker_iff host).mp empties
  have fillable : Fillable incoming.side
      (startSweep host (engine.opened incoming) engine.batchSeq incoming) price maker rest :=
    ⟨(passed_of_isOk ok).qty_pos, by simpa [startSweep] using best, admits⟩
  have startSound : (startSweep host (engine.opened incoming) engine.batchSeq
      incoming).engine.book.Sound := by simpa [startSweep] using sound
  refine ⟨maker.order.id, ?_⟩
  apply ((callSweep_settles host engine incoming).tail (fillStep_of_fillable fillable)).invariant
    (fun sweep => sweep.engine.book.Stale maker.order.id) (fun _ _ stale moves => stale_fillStep stale moves)
  exact stale_maker startSound fillable ((usedUp_iff _ _).mpr usedUp)

/-- A sweep that does not start by using up a maker makes at most one fill. -/
theorem stale_of_callSweep (spares : emptiesMaker host engine incoming = false) {orderId : Int}
    (stale : (engine.callSweep host incoming).engine.book.Stale orderId) :
    engine.book.Stale orderId := by
  have settles := callSweep_settles host engine incoming
  cases moves : fillStep host incoming.side engine.batchSeq
      (startSweep host (engine.opened incoming) engine.batchSeq incoming) with
  | none =>
      rw [settles.eq_of_none moves] at stale
      simpa [startSweep] using stale
  | some next =>
      obtain ⟨price, maker, rest, fillable, rfl⟩ := fillStep_cases moves
      have larger : ¬ maker.order.qty ≤ incoming.qty := by
        intro usedUp
        have empties := (emptiesMaker_iff host).mpr
          ⟨ok, price, maker, rest, by simpa [startSweep] using fillable.best,
            by simpa [startSweep] using fillable.admits, usedUp⟩
        rw [empties] at spares
        cases spares
      have leaves : maker.order.qty - fillQty incoming maker.order ≠ 0 :=
        fun usedUp => larger ((usedUp_iff _ _).mp usedUp)
      have sated : ¬ 0 < incoming.qty - fillQty incoming maker.order :=
        fun wants => leaves (usedUp_of_wants wants)
      rw [(settles.tail moves).eq_of_none (fillStep_of_sated sated)] at stale
      simpa [startSweep] using stale_of_leftOver fillable leaves stale

end Accepted

variable (incoming) in
/-- A call keeps the stale entries, and adds to them exactly when it uses up a maker. -/
theorem stale_processOrder (sound : engine.book.Sound) :
    (∀ orderId, engine.book.Stale orderId →
      (engine.processOrder host incoming).1.book.Stale orderId) ∧
    (emptiesMaker host engine incoming = true →
      ∃ orderId, (engine.processOrder host incoming).1.book.Stale orderId) ∧
    (emptiesMaker host engine incoming = false → ∀ orderId,
      (engine.processOrder host incoming).1.book.Stale orderId → engine.book.Stale orderId) := by
  cases ok : (engine.preflightCheck host incoming).isOk with
  | false =>
      obtain ⟨status, _, answered⟩ := processOrder_of_refused host engine incoming ok
      rw [answered]
      simp [emptiesMaker, ok]
  | true =>
      rw [processOrder_of_accepted host engine incoming ok]
      simp only [book_concluded, stale_restRemainder]
      refine ⟨fun orderId stale => ?_, stale_callSweep host ok sound,
        fun spares orderId => stale_of_callSweep host ok spares⟩
      apply (callSweep_settles host engine incoming).invariant
        (fun sweep => sweep.engine.book.Stale orderId) (fun _ _ held moves => stale_fillStep held moves)
      simpa [startSweep] using stale

end Call

/-! ## Runs -/

section Runs

variable {host : Host} {engine : MatchingEngine}

/-- Stale entries appear only with a call that uses up a maker. -/
theorem stale_exec {call : Call} {reply : Reply} {next : MatchingEngine}
    (sound : engine.book.Sound) (answered : exec host engine call = .ok (next, reply)) :
    (∀ orderId, ¬ next.book.Stale orderId) ↔
      (∀ orderId, ¬ engine.book.Stale orderId) ∧
        ∀ order ∈ call.submitted, emptiesMaker host engine order = false := by
  cases answered_of_exec sound answered with
  | allotted => simp [Call.submitted]
  | added order => simp [OrderBook.stale_addRestingOrder, Call.submitted]
  | refused order status notOk => simp [Call.submitted, emptiesMaker, notOk]
  | accepted order ok swept =>
      obtain ⟨keeps, adds, nothingElse⟩ := stale_processOrder host order sound
      rw [processOrder_of_accepted host engine order ok] at keeps adds nothingElse
      constructor
      · intro noStale
        refine ⟨fun orderId stale => noStale orderId (keeps orderId stale), ?_⟩
        intro other submitted
        obtain rfl : order = other := by simpa [Call.submitted] using submitted
        cases empties : emptiesMaker host engine order with
        | false => rfl
        | true =>
            obtain ⟨orderId, stale⟩ := adds empties
            exact absurd stale (noStale orderId)
      · rintro ⟨noStale, spares⟩ orderId stale
        exact noStale orderId (nothingElse (spares order rfl) orderId stale)
  | unknown => simp [Call.submitted]
  | withdrawn node queued => simp [sound.stale_withdrawn queued, Call.submitted]

/--
From an empty book, after any calls with any ids: the index is exact if and
only if no call so far has used up a resting order.
-/
theorem indexExact_iff_no_maker_emptied {onChange : Option (List Snapshot)} {log : Log}
    {state : MatchingEngine} (run : AnySession host (engine.onEmptyBook onChange) log state) :
    IndexExact host state ↔ ∀ entry ∈ log, ∀ order ∈ entry.call.submitted,
      emptiesMaker host entry.before order = false := by
  have sound : (engine.onEmptyBook onChange).book.Sound := OrderBook.sound_empty onChange
  rw [indexExact_iff host (sound_of_anySession sound run)]
  refine run.invariant (fun log state => (∀ orderId, ¬ state.book.Stale orderId) ↔
    ∀ entry ∈ log, ∀ order ∈ entry.call.submitted,
      emptiesMaker host entry.before order = false) (by simp [onEmptyBook, OrderBook.Stale]) ?_
  intro log state call reply next earlier soFar _ answered
  rw [stale_exec (sound_of_anySession sound earlier) answered, soFar]
  simp only [List.forall_mem_append, List.forall_mem_singleton]

/-- A maker that is only partly filled, and then cancelled, leaves the index exact. -/
theorem indexExact_after_partial_fill :
    ∃ log state, AnySession (Host.exact (·)) (onEmptyBook {} none) log state ∧
      log.length = 3 ∧ IndexExact (Host.exact (·)) state := by
  have run := Run.of_isSome (exec (Host.exact (·))) (fun _ _ => True) (onEmptyBook {} none)
    [.processOrder ⟨1, 0, .sell, 100, 5, .limit⟩, .processOrder ⟨2, 0, .buy, 100, 3, .limit⟩,
      .cancelOrder 1] (by decide)
  exact ⟨_, _, run, by decide, (indexExact_iff_no_maker_emptied run).mpr (by decide)⟩

/-- A filled maker's id stays in the index, and cancelling it follows an erased node. -/
theorem not_indexExact_after_complete_fill :
    ∃ log state, AnySession (Host.exact (·)) (onEmptyBook {} none) log state ∧
      ¬ IndexExact (Host.exact (·)) state ∧
      state.book.resting = [] ∧ (state.book.index.find? 1).isSome ∧
      state.book.findOrder 1 = .error .erasedNode ∧
      state.cancelOrder (Host.exact (·)) 1 = .error .erasedNode := by
  have run := Run.of_isSome (exec (Host.exact (·))) (fun _ _ => True) (onEmptyBook {} none)
    [.processOrder ⟨1, 0, .sell, 100, 5, .limit⟩, .processOrder ⟨2, 0, .buy, 100, 5, .limit⟩]
    (by decide)
  refine ⟨_, _, run, fun exact' => ?_, by decide, by decide, by decide, by decide⟩
  have keys := exact'.keys 1
  revert keys
  decide

end Runs

end MatchingEngine

end OrderBookSimulator
