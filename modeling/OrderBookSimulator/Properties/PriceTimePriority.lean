import Mathlib.Data.List.Find
import OrderBookSimulator.Engine.Allotment
import OrderBookSimulator.Reference.FlatBook

/-!
# Price-time priority

The engine refines the flat reference book.  The levels of the book are what
the flat list looks like side by side and price by price, the first order of the
best level is the reference's best order, and each fill is one reference trade.
-/

namespace OrderBookSimulator

open Library

/-- Submitting or cancelling an order. -/
def Call.isRequest : Call → Bool
  | .processOrder _ => true
  | .cancelOrder _ => true
  | _ => false

/-- The levels of one side as `bids()` and `asks()` show them. -/
def OrderBook.shown (book : OrderBook) (side : Side) : List (Int × List Order) :=
  (book.levels side).entries.map fun level => (level.1, level.2.map (·.order))

/-- A sound book whose queues are the flat list, taken apart by side and price. -/
structure Mirrors (orders : List Order) (book : OrderBook) : Prop where
  sound : book.Sound
  level_eq : ∀ side price,
    (book.level side price).map (·.order) = Reference.level orders side price

/-! ## Prices -/

section Prices

variable {side : Side} {first second : Int}

theorem notWorse_iff :
    Reference.NotWorse side first second ↔ first = second ∨ Ahead side first second := by
  cases side <;> simp only [Reference.NotWorse, Ahead] <;> omega

theorem not_notWorse_of_ahead (ahead : Ahead side first second) :
    ¬ Reference.NotWorse side second first := by
  cases side <;> simp only [Reference.NotWorse, Ahead] at * <;> omega

theorem admits_iff {takerSide : Side} {taker : Order} (same : taker.side = takerSide) (price : Int) :
    Reference.Admits taker price ↔
      ¬ (taker.type = .limit ∧ MatchingEngine.beyondLimit takerSide price taker.price) := by
  subst same
  unfold Reference.Admits
  cases taker.type <;> cases taker.side <;>
    simp [Reference.NotWorse, MatchingEngine.beyondLimit, Side.opposite]

theorem admits_of_notWorse {taker : Order} (admits : Reference.Admits taker second)
    (better : Reference.NotWorse taker.side.opposite first second) :
    Reference.Admits taker first := by
  rcases admits with market | within
  · exact Or.inl market
  · exact Or.inr (IsTrans.trans _ _ _ better within)

end Prices

/-! ## The flat list and the levels -/

/-- The ids within one level are distinct. -/
theorem OrderBook.Sound.level_ids_nodup {book : OrderBook} (sound : book.Sound) (side : Side)
    (price : Int) : ((book.level side price).map (·.order.id)).Nodup :=
  sound.ids_nodup.sublist ((book.level_sublist side price).map _)

namespace Mirrors

theorem empty (onChange : Option (List Snapshot)) : Mirrors [] { onChange } where
  sound := OrderBook.sound_empty onChange
  level_eq := by intro side price; cases side <;> rfl

variable {orders : List Order} {book : OrderBook} (mirrors : Mirrors orders book)

include mirrors

theorem mem_level_iff {order : Order} {side : Side} {price : Int} :
    order ∈ Reference.level orders side price ↔
      ∃ node ∈ book.level side price, node.order = order := by
  rw [← mirrors.level_eq, List.mem_map]

theorem mem_iff {order : Order} : order ∈ orders ↔ order ∈ book.resting := by
  have own : order ∈ orders ↔ order ∈ Reference.level orders order.side order.price := by
    simp [Reference.mem_level]
  rw [own, mirrors.mem_level_iff, OrderBook.resting, List.mem_map]
  constructor
  · rintro ⟨node, atLevel, same⟩
    exact ⟨node, OrderBook.mem_nodes_iff.mpr ⟨_, _, atLevel⟩, same⟩
  · rintro ⟨node, queued, rfl⟩
    exact ⟨node, (mirrors.sound.located_of_mem queued).2, rfl⟩

theorem level_nonempty_iff {side : Side} {price : Int} :
    Reference.level orders side price ≠ [] ↔
      price ∈ (book.levels side).entries.map (·.1) := by
  rw [← mirrors.level_eq, List.mem_map]
  constructor
  · intro nonempty
    cases found : (book.levels side).find? price with
    | none => simp [OrderBook.level, SortedMap.findD, found] at nonempty
    | some queue => exact ⟨(price, queue), SortedMap.mem_entries_iff.mpr found, rfl⟩
  · rintro ⟨⟨_, queue⟩, member, rfl⟩
    have found := SortedMap.mem_entries_iff.mp member
    intro none
    rw [List.map_eq_nil_iff, OrderBook.level, SortedMap.findD, found] at none
    obtain rfl : queue = [] := none
    exact mirrors.sound.noEmptyLevel side _ found

/-- The levels of a side stand at the prices of the flat list, best first. -/
theorem prices_eq (side : Side) :
    (book.levels side).entries.map (·.1) = Reference.prices orders side := by
  have sorted : ((book.levels side).entries.map (·.1)).Pairwise (Ahead side) :=
    List.pairwise_map.mpr (book.levels side).sorted
  have distinct : ((book.levels side).entries.map (·.1)).Nodup := by
    refine sorted.imp ?_
    rintro first _ ahead rfl
    exact irrefl_of (Ahead side) _ ahead
  have nodup : (Reference.prices orders side).Nodup :=
    (List.perm_insertionSort _ _).nodup_iff.mpr (List.nodup_dedup _)
  have members : ∀ price, price ∈ (book.levels side).entries.map (·.1) ↔
      price ∈ Reference.prices orders side := by
    intro price
    rw [Reference.mem_prices, mirrors.level_nonempty_iff]
  have perm := (List.perm_ext_iff_of_nodup distinct nodup).mpr members
  -- Both lists are sorted, and no two different prices are level with each other.
  refine perm.eq_of_pairwise ?_ (sorted.imp fun ahead => notWorse_iff.mpr (Or.inr ahead))
    (List.pairwise_insertionSort (Reference.NotWorse side) _)
  intro first second _ _ here there
  rcases notWorse_iff.mp here with same | ahead
  · exact same
  · exact absurd there (not_notWorse_of_ahead ahead)

/-- The book shows the flat list grouped by price. -/
theorem shown (side : Side) : book.shown side = Reference.levels orders side := by
  unfold OrderBook.shown Reference.levels
  rw [← mirrors.prices_eq, List.map_map]
  refine List.map_congr_left fun entry member => ?_
  have found := SortedMap.mem_entries_iff.mp member
  have levelEq : book.level side entry.1 = entry.2 := by
    rw [OrderBook.level, SortedMap.findD, found]
    rfl
  simp only [Function.comp_apply, ← mirrors.level_eq, levelEq]

theorem notifyChange : Mirrors orders book.notifyChange where
  sound := mirrors.sound.notifyChange
  level_eq := by
    intro side price
    rw [OrderBook.level_notifyChange]
    exact mirrors.level_eq side price

/-- A new order arrives last, in the list and in its queue. -/
theorem add {order : Order} (positive : 0 < order.qty)
    (new : book.index.find? order.id = none) :
    Mirrors (orders ++ [order]) (book.addRestingOrder order) where
  sound := mirrors.sound.addRestingOrder positive new
  level_eq := by
    intro side price
    rw [OrderBook.level_addRestingOrder positive new, Reference.level_append,
      ← mirrors.level_eq]
    by_cases here : side = order.side ∧ price = order.price
    · obtain ⟨rfl, rfl⟩ := here
      simp
    · rw [if_neg here, if_neg fun same => here ⟨same.1.symm, same.2.symm⟩, List.append_nil]

theorem withdraw {node : Node}
    (queued : node ∈ book.nodes) :
    Mirrors (orders.filter (·.id ≠ node.order.id)) (book.withdrawn node.order) where
  sound := mirrors.sound.withdrawn queued
  level_eq := by
    intro side price
    rw [mirrors.sound.level_withdrawn queued, Reference.level_cancel, ← mirrors.level_eq,
      List.filter_map]
    rfl

/-- No order rests on a side exactly if that side has no best price. -/
theorem bestPrice_eq_none_iff (side : Side) :
    book.bestPrice side = none ↔ ∀ order ∈ orders, order.side ≠ side := by
  rw [OrderBook.bestPrice, Option.map_eq_none_iff]
  constructor
  · rintro none order member rfl
    obtain ⟨node, atLevel, _⟩ := mirrors.mem_level_iff.mp
      ((Reference.mem_level orders order.side order.price).mpr ⟨member, rfl, rfl⟩)
    rw [OrderBook.level_eq_nil_of_first? none] at atLevel
    cases atLevel
  · intro absent
    by_contra some
    obtain ⟨price, maker, rest, best⟩ := mirrors.sound.exists_front some
    have atLevel := mirrors.mem_level_iff.mpr
      ⟨maker, OrderBook.Sound.mem_level_of_first? best, rfl⟩
    obtain ⟨member, here, _⟩ := (Reference.mem_level orders side price).mp atLevel
    exact absent maker.order member here

end Mirrors

namespace MatchingEngine

/-! ## One fill is one reference trade -/

section Fill

variable {host : Host} {takerSide : Side} {batchId : Int} {sweep : Sweep} {orders : List Order}
  {price : Int} {maker : Node} {rest : OrderList}

/-- The first order of the best level is the reference's best order. -/
theorem best?_of_fillable (mirrors : Mirrors orders sweep.engine.book)
    (same : sweep.taker.side = takerSide) (fillable : Fillable takerSide sweep price maker rest) :
    Reference.best? sweep.taker orders = some maker.order := by
  subst same
  obtain ⟨levelEq, ahead⟩ := OrderBook.level_of_first? fillable.best
  have admits := (admits_iff rfl price).mpr fillable.admits
  have flat := mirrors.level_eq sweep.taker.side.opposite price
  rw [levelEq] at flat
  have makerAt : maker.order ∈ Reference.level orders sweep.taker.side.opposite price := by
    rw [← flat]
    exact .head _
  obtain ⟨makerMember, makerSide, makerPrice⟩ := (Reference.mem_level orders _ _).mp makerAt
  have notBeaten : ∀ order ∈ orders, order.side = sweep.taker.side.opposite →
      order.price = price ∨ Ahead sweep.taker.side.opposite price order.price := by
    intro order member side
    refine ahead order.price ?_
    obtain ⟨node, atLevel, _⟩ := mirrors.mem_level_iff.mp
      ((Reference.mem_level orders _ _).mpr ⟨member, side, rfl⟩)
    exact List.ne_nil_of_mem atLevel
  have chosen : ∀ order ∈ orders, decide (Reference.Opposes sweep.taker order ∧
      ∀ other ∈ orders, Reference.Opposes sweep.taker other →
        Reference.NotWorse order.side order.price other.price) =
      decide (order.side = sweep.taker.side.opposite ∧ order.price = price) := by
    intro order member
    refine decide_eq_decide.mpr ⟨?_, ?_⟩
    · rintro ⟨⟨side, _⟩, unbeaten⟩
      refine ⟨side, ?_⟩
      have notWorse := unbeaten maker.order makerMember ⟨makerSide, makerPrice ▸ admits⟩
      rw [side, makerPrice] at notWorse
      rcases notBeaten order member side with here | behind
      · exact here
      · exact absurd notWorse (not_notWorse_of_ahead behind)
    · rintro ⟨side, rfl⟩
      refine ⟨⟨side, admits⟩, fun other otherMember opposes => ?_⟩
      rw [side, notWorse_iff]
      rcases notBeaten other otherMember opposes.1 with here | behind
      · exact Or.inl here.symm
      · exact Or.inr behind
  rw [Reference.best?, List.find?_congr chosen, ← List.head?_filter]
  exact congrArg List.head? flat.symm

/-- Where nothing can be filled, the reference has no best order either. -/
theorem best?_of_not_fillable (mirrors : Mirrors orders sweep.engine.book)
    (same : sweep.taker.side = takerSide) (wants : 0 < sweep.taker.qty)
    (notFillable : ∀ price maker rest, ¬ Fillable takerSide sweep price maker rest) :
    Reference.best? sweep.taker orders = none := by
  subst same
  refine List.find?_eq_none.mpr fun order member chosen => ?_
  obtain ⟨⟨side, admits⟩, _⟩ := of_decide_eq_true chosen
  have nonempty : sweep.engine.book.level sweep.taker.side.opposite order.price ≠ [] := by
    obtain ⟨node, atLevel, _⟩ := mirrors.mem_level_iff.mp
      ((Reference.mem_level orders _ _).mpr ⟨member, side, rfl⟩)
    exact List.ne_nil_of_mem atLevel
  obtain ⟨price, maker, rest, best⟩ := mirrors.sound.exists_front fun none =>
    nonempty (OrderBook.level_eq_nil_of_first? none order.price)
  refine notFillable price maker rest ⟨wants, best, (admits_iff rfl price).mp ?_⟩
  refine admits_of_notWorse admits (notWorse_iff.mpr ?_)
  rcases (OrderBook.level_of_first? best).2 order.price nonempty with here | behind
  · exact Or.inl here.symm
  · exact Or.inr behind

theorem reduce_cons_self (maker : Order) (qty : Int) (rest : List Order) :
    Reference.reduce maker.id qty (maker :: rest) =
      leftOver qty maker ++ Reference.reduce maker.id qty rest := by
  unfold Reference.reduce leftOver
  by_cases usedUp : maker.qty - qty = 0 <;> simp [usedUp]

/-- The flat list keeps up with a fill. -/
theorem mirrors_afterFill (mirrors : Mirrors orders sweep.engine.book)
    (fillable : Fillable takerSide sweep price maker rest) :
    Mirrors (Reference.reduce maker.order.id (fillQty sweep.taker maker.order) orders)
      (afterFill host takerSide batchId sweep price maker rest).engine.book where
  sound := sound_afterFill mirrors.sound fillable
  level_eq := by
    intro side otherPrice
    have sound := mirrors.sound
    rw [book_afterFill, Reference.level_reduce, OrderBook.level_setLevel, ← mirrors.level_eq]
    by_cases here : side = takerSide.opposite ∧ otherPrice = price
    · obtain ⟨rfl, rfl⟩ := here
      have nodup := sound.level_ids_nodup takerSide.opposite otherPrice
      rw [fillable.levelEq, List.map_cons, List.nodup_cons] at nodup
      rw [if_pos ⟨rfl, rfl⟩, map_queueAfterFill, fillable.levelEq, List.map_cons,
        reduce_cons_self]
      rw [Reference.reduce_of_absent]
      intro order member same
      obtain ⟨node, inRest, rfl⟩ := List.mem_map.mp member
      exact nodup.1 (List.mem_map.mpr ⟨node, inRest, same⟩)
    · rw [if_neg here, Reference.reduce_of_absent]
      intro order member same
      obtain ⟨node, atLevel, rfl⟩ := List.mem_map.mp member
      obtain rfl := sound.eq_of_id_eq (OrderBook.mem_nodes_iff.mpr ⟨_, _, atLevel⟩)
        fillable.queued same
      obtain ⟨rfl, rfl⟩ := sound.placed _ _ _ atLevel
      exact here ⟨fillable.maker_side sound, fillable.maker_price sound⟩

end Fill

/-- What the reference says of a trade. -/
def fillOf (trade : Trade) : Reference.Fill :=
  ⟨trade.makerId, trade.takerId, trade.price, trade.qty⟩

/-! ## A sweep is the reference's matching -/

structure MirrorsSweep (takerSide : Side) (matching : Reference.Matching) (sweep : Sweep) :
    Prop where
  book : Mirrors matching.orders sweep.engine.book
  taker : matching.taker = sweep.taker
  side : sweep.taker.side = takerSide
  fills : matching.fills = sweep.trades.map fillOf

section Sweeping

variable {host : Host} {takerSide : Side} {batchId : Int} {sweep : Sweep}
  {matching : Reference.Matching}

/-- Both sides trade once and alike, or neither trades. -/
theorem MirrorsSweep.step (mirrors : MirrorsSweep takerSide matching sweep) :
    (fillStep host takerSide batchId sweep = none ∧ Reference.trade matching = none) ∨
    ∃ next matchingNext, fillStep host takerSide batchId sweep = some next ∧
      Reference.trade matching = some matchingNext ∧ MirrorsSweep takerSide matchingNext next := by
  by_cases wants : 0 < sweep.taker.qty
  · by_cases some : ∃ price maker rest, Fillable takerSide sweep price maker rest
    · obtain ⟨price, maker, rest, fillable⟩ := some
      have best := best?_of_fillable mirrors.book mirrors.side fillable
      have trades : Reference.trade matching = some
          { orders := Reference.reduce maker.order.id (fillQty sweep.taker maker.order)
              matching.orders
            taker := { sweep.taker with qty := sweep.taker.qty - fillQty sweep.taker maker.order }
            fills := matching.fills ++ [⟨maker.order.id, sweep.taker.id, maker.order.price,
              fillQty sweep.taker maker.order⟩] } := by
        rw [Reference.trade, mirrors.taker, if_pos wants, best, fillQty_eq_min]
        rfl
      refine Or.inr ⟨_, _, fillStep_of_fillable fillable, trades, ?_⟩
      exact {
        book := mirrors_afterFill mirrors.book fillable
        taker := rfl
        side := mirrors.side
        fills := by
          rw [trades_afterFill, List.map_append, ← mirrors.fills,
            fillable.maker_price mirrors.book.sound]
          rfl }
    · have notFillable : ∀ price maker rest, ¬ Fillable takerSide sweep price maker rest :=
        fun price maker rest fillable => some ⟨price, maker, rest, fillable⟩
      refine Or.inl ⟨fillStep_of_not_fillable notFillable, ?_⟩
      rw [Reference.trade, mirrors.taker, if_pos wants,
        best?_of_not_fillable mirrors.book mirrors.side wants notFillable]
      rfl
  · exact Or.inl ⟨fillStep_of_sated wants, by rw [Reference.trade, mirrors.taker, if_neg wants]⟩

variable (host) in
theorem mirrorsSweep_callSweep {engine : MatchingEngine} {orders : List Order}
    (mirrors : Mirrors orders engine.book) (incoming : Order) :
    MirrorsSweep incoming.side (Reference.matchAll orders incoming)
      (engine.callSweep host incoming) := by
  refine Settles.simulate (fun sweep matching => MirrorsSweep incoming.side matching sweep)
    (fun _ _ mirrors => mirrors.step) ?_ (callSweep_settles host engine incoming)
    (Reference.matchAll_settles orders incoming)
  exact {
    book := by simpa [startSweep] using mirrors
    taker := rfl
    side := rfl
    fills := rfl }

end Sweeping

/-! ## One call -/

/-- What the reference would tell the caller of a result. -/
def outcomeOf (result : OrderResult) : Reference.Outcome :=
  .processed result.status result.filledQty result.remainingQty (result.trades.map fillOf)

/-- The reference was asked the same and answered the same. -/
inductive SameReply : Call → Reply → Reference.Request → Reference.Outcome → Prop where
  | processed (order : Order) (result : OrderResult) :
      SameReply (.processOrder order) (.result result) (.process order) (outcomeOf result)
  | cancelled (orderId : Int) (ok : Bool) :
      SameReply (.cancelOrder orderId) (.cancelled ok) (.cancel orderId) (.cancelled ok)

section Calls

variable {host : Host} {engine next : MatchingEngine} {orders : List Order} {order : Order}

/-- Preflight without users, past its checks of quantity and price. -/
theorem preflightCheck_noUsers (noUsers : engine.userManager = none) (qty : ¬ order.qty ≤ 0)
    (price : ¬ (order.type = .limit ∧ order.price ≤ 0)) :
    (engine.preflightCheck host order).status =
      if order.type = .market ∧ engine.book.bestPrice order.side.opposite = none then .cancelled
      else .ok := by
  unfold preflightCheck OrderBook.bestAsk OrderBook.bestBid
  rw [if_neg qty, if_neg price, noUsers]
  by_cases market : order.type = .market
  · cases side : order.side <;>
      simp only [market, Side.opposite, true_and, false_and, if_false, reduceCtorEq] <;>
      split <;> rfl
  · simp only [market, false_and, if_false]
    rfl

variable (host order) in
/-- Without users, preflight refuses what the reference refuses. -/
theorem refusal?_eq (mirrors : Mirrors orders engine.book) (noUsers : engine.userManager = none) :
    Reference.refusal? orders order =
      if (engine.preflightCheck host order).isOk then none
      else some (refusalStatus (engine.preflightCheck host order).status) := by
  have liquidity := mirrors.bestPrice_eq_none_iff order.side.opposite
  unfold Reference.refusal? PreflightResult.isOk
  by_cases qty : order.qty ≤ 0
  · rw [if_pos qty, preflightCheck, if_pos qty]
    rfl
  by_cases price : order.type = .limit ∧ order.price ≤ 0
  · rw [if_neg qty, if_pos price, preflightCheck, if_neg qty, if_pos price]
    rfl
  have dry : (order.type = .market ∧ ∀ resting ∈ orders, resting.side ≠ order.side.opposite) ↔
      order.type = .market ∧ engine.book.bestPrice order.side.opposite = none := by
    rw [liquidity]
  rw [if_neg qty, if_neg price, preflightCheck_noUsers noUsers qty price]
  by_cases none : order.type = .market ∧ engine.book.bestPrice order.side.opposite = none
  · rw [if_pos none, if_pos (dry.mpr none)]
    rfl
  · rw [if_neg none, if_neg (mt dry.mp none)]
    rfl

variable (host) in
theorem mirrors_concluded (mirrors : Mirrors orders engine.book)
    (new : engine.book.index.find? order.id = none)
    (swept : Swept engine.book order (engine.callSweep host order)) (batchId : Int) :
    Mirrors (Reference.settled (Reference.matchAll orders order))
      (concluded host order batchId (engine.callSweep host order)).book := by
  have mirrorsSweep := mirrorsSweep_callSweep host mirrors order
  have announced : Mirrors (Reference.matchAll orders order).orders
      (announcedBook (engine.callSweep host order)) := by
    unfold announcedBook
    split
    · exact mirrorsSweep.book
    · exact mirrorsSweep.book.notifyChange
  rw [book_concluded, book_restRemainder, Reference.settled, mirrorsSweep.taker]
  split
  · rename_i rests
    refine announced.add rests.2 ?_
    rw [swept.announced.2, swept.taker]
    exact new
  · exact announced

variable (host) in
theorem outcomeOf_report (mirrors : Mirrors orders engine.book) :
    outcomeOf (report host order (engine.callSweep host order)) =
      Reference.outcome order (Reference.matchAll orders order) := by
  have mirrorsSweep := mirrorsSweep_callSweep host mirrors order
  have plain : ∀ trades : List Trade, trades.map fillOf = (trades.map Trade.unstamped).map fillOf := by
    intro trades
    rw [List.map_map]
    rfl
  rw [outcomeOf, plain, unstamped_report, ← plain, Reference.outcome, mirrorsSweep.taker,
    mirrorsSweep.fills]
  rfl

/-- Submitting and cancelling are requests the reference knows; both answer them alike. -/
theorem mirrors_step {call : Call} {reply : Reply} (mirrors : Mirrors orders engine.book)
    (noUsers : engine.userManager = none) (isRequest : call.isRequest = true)
    (fresh : ∀ order, call = .processOrder order → engine.book.index.find? order.id = none)
    (answer : exec host engine call = .ok (next, reply)) :
    ∃ request, SameReply call reply request (Reference.answer orders request).2 ∧
      Mirrors (Reference.answer orders request).1 next.book := by
  cases call with
  | nextOrderId => cases isRequest
  | addRestingOrder order => cases isRequest
  | processOrder order =>
      cases answer
      refine ⟨.process order, ?_⟩
      have refusal := refusal?_eq host order mirrors noUsers
      cases ok : (engine.preflightCheck host order).isOk with
      | false =>
          obtain ⟨status, _, answered⟩ := processOrder_of_refused host engine order ok
          rw [ok, if_neg (by decide)] at refusal
          have result := result_of_refused host ok
          simp only [Reference.answer, refusal]
          constructor
          · rw [result]
            exact .processed order _
          · rw [answered]
            simpa using mirrors
      | true =>
          rw [ok, if_pos rfl] at refusal
          have swept := swept_callSweep host mirrors.sound
            (Int.le_of_lt (passed_of_isOk ok).qty_pos)
          rw [processOrder_of_accepted host engine order ok]
          simp only [Reference.answer, refusal]
          constructor
          · rw [← outcomeOf_report host mirrors]
            exact .processed order _
          · exact mirrors_concluded host mirrors (fresh order rfl) swept _
  | cancelOrder orderId =>
      refine ⟨.cancel orderId, ?_⟩
      cases answered_of_exec mirrors.sound answer with
      | unknown _ notFound =>
          have absent : ¬ ∃ order ∈ orders, order.id = orderId := by
            rintro ⟨order, member, same⟩
            exact mirrors.sound.not_resting_of_unknown notFound
              ⟨order, mirrors.mem_iff.mp member, same⟩
          rw [Reference.answer, if_neg absent]
          exact ⟨.cancelled orderId false, mirrors⟩
      | withdrawn node queued =>
          have present : ∃ order ∈ orders, order.id = node.order.id :=
            ⟨node.order, mirrors.mem_iff.mpr (List.mem_map_of_mem queued), rfl⟩
          rw [Reference.answer, if_pos present, book_cancelled]
          exact ⟨.cancelled node.order.id true, (mirrors.withdraw queued).notifyChange⟩

end Calls

/-! ## Sessions -/

/-- The engine's call and the reference's agree in what they answer and what they leave. -/
structure Refines (entry : Entry)
    (reference : Transition (List Order) Reference.Request Reference.Outcome) : Prop where
  reply : SameReply entry.call entry.reply reference.call reference.reply
  shown : ∀ side, entry.after.book.shown side = Reference.levels reference.after side

/-- Every ordinary session without users is a session of the flat reference. -/
theorem refines_of_session {host : Host} {start state : MatchingEngine} {log : Log}
    {orders : List Order} (mirrors : Mirrors orders start.book)
    (noUsers : start.userManager = none) (session : Session host start log state) :
    ∃ referenceLog ordersNow,
      Run Reference.exec (fun _ _ => True) orders referenceLog ordersNow ∧
      Mirrors ordersNow state.book ∧
      List.Forall₂ Refines (log.filter (·.call.isRequest)) referenceLog := by
  obtain ⟨referenceLog, ordersNow, run, ⟨mirrorsNow, _⟩, matched⟩ :=
    session.replay Reference.exec (fun entry : Entry => entry.call.isRequest)
      (fun _ state orders => Mirrors orders state.book ∧ state.userManager = none) Refines
      ⟨mirrors, noUsers⟩
      (fun log state call reply next orders earlier ⟨soFar, noUsersYet⟩ allowed answer kept => by
        have tracked := tracked_of_session mirrors.sound earlier
        have answered := answered_of_exec tracked.sound answer
        obtain ⟨request, same, mirrorsNext⟩ := mirrors_step soFar noUsersYet kept
          (by rintro order rfl; exact tracked.unknown_of_fresh allowed) answer
        exact ⟨request, _, _, rfl, ⟨mirrorsNext, answered.noUsers noUsersYet⟩,
          ⟨same, mirrorsNext.shown⟩⟩)
      (fun log state call reply next orders earlier ⟨soFar, noUsersYet⟩ allowed answer dropped => by
        cases call with
        | nextOrderId =>
            cases answer
            exact ⟨soFar, noUsersYet⟩
        | addRestingOrder order => exact allowed.elim
        | processOrder order => cases dropped
        | cancelOrder orderId => cases dropped)
  exact ⟨referenceLog, ordersNow, run, mirrorsNow, matched⟩

/--
Price-time priority.  However often callers submit orders under ids from
`nextOrderId` and cancel orders that are not fully filled, no call fails, each
is answered as by the flat reference, and after each the bids and asks are the
reference's orders grouped by price, best first, in order of arrival.
-/
theorem price_time_priority {host : Host} {engine state : MatchingEngine}
    {onChange : Option (List Snapshot)} {log : Log} (noUsers : engine.userManager = none)
    (run : Run (exec host) (Allotting (engine.onEmptyBook onChange)) (engine.onEmptyBook onChange)
      log state) :
    (∀ call, Allotting (engine.onEmptyBook onChange) log call →
      ∃ next reply, exec host state call = .ok (next, reply)) ∧
    ∃ referenceLog orders,
      Run Reference.exec (fun _ _ => True) [] referenceLog orders ∧
      (∀ side, state.book.shown side = Reference.levels orders side) ∧
      List.Forall₂ Refines (log.filter (·.call.isRequest)) referenceLog := by
  have sound : (engine.onEmptyBook onChange).book.Sound := OrderBook.sound_empty onChange
  have session := session_of_allotting run
  have mirrors : Mirrors [] (engine.onEmptyBook onChange).book := Mirrors.empty onChange
  refine ⟨fun call allowed => ?_, ?_⟩
  · exact ordinary_answered sound session (ordinary_of_allotting run allowed)
  · obtain ⟨referenceLog, orders, referenceRun, mirrorsNow, matched⟩ :=
      refines_of_session mirrors noUsers session
    exact ⟨referenceLog, orders, referenceRun, mirrorsNow.shown, matched⟩

/-- A sweep over two prices that leaves the later of two equal orders partly filled. -/
theorem price_time_priority_sample :
    ∃ (log : Log) (state : MatchingEngine) (referenceLog : _) (orders : List Order),
      Run (exec (Host.exact (·))) (Allotting (onEmptyBook {} none)) (onEmptyBook {} none) log state ∧
      log.trades.map fillOf = [⟨1001, 1003, 100, 2⟩, ⟨1000, 1003, 101, 5⟩, ⟨1002, 1003, 101, 1⟩] ∧
      Run Reference.exec (fun _ _ => True) [] referenceLog orders ∧
      (∀ side, state.book.shown side = Reference.levels orders side) ∧
      List.Forall₂ Refines (log.filter (·.call.isRequest)) referenceLog := by
  have run := Run.of_isSome (exec (Host.exact (·))) (Allotting (onEmptyBook {} none))
    (onEmptyBook {} none)
    [.nextOrderId, .processOrder ⟨1000, 0, .sell, 101, 5, .limit⟩,
      .nextOrderId, .processOrder ⟨1001, 0, .sell, 100, 2, .limit⟩,
      .nextOrderId, .processOrder ⟨1002, 0, .sell, 101, 4, .limit⟩,
      .nextOrderId, .processOrder ⟨1003, 0, .buy, 101, 8, .limit⟩, .cancelOrder 1002] (by decide)
  obtain ⟨_, referenceLog, orders, referenceRun, shown, matched⟩ := price_time_priority rfl run
  exact ⟨_, _, referenceLog, orders, run, by decide, referenceRun, shown, matched⟩

end MatchingEngine

end OrderBookSimulator
