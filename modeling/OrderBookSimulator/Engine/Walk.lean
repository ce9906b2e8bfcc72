import OrderBookSimulator.Engine.Effects

/-!
# A sweep is a walk along the queue

The opposing orders an incoming order may trade with stand in one queue, best
price first and earliest first within a price.  A sweep takes from each in
turn until its order is filled, so everything it trades is a function of that
queue and of the quantity.
-/

namespace OrderBookSimulator

open Library

/-- What an order for `qty` takes from each order of a queue. -/
def takes (qty : Int) : List Order → List (Order × Int)
  | [] => []
  | maker :: rest =>
      if 0 < qty then (maker, min qty maker.qty) :: takes (qty - min qty maker.qty) rest
      else []

/-- The incoming order's limit, if it has one, admits the maker's price. -/
def admitsMaker (incoming maker : Order) : Bool :=
  ¬ (incoming.type = .limit ∧ MatchingEngine.beyondLimit incoming.side maker.price incoming.price)

/-- The orders that `incoming` may trade with, in the order in which it would. -/
def OrderBook.opposing (book : OrderBook) (incoming : Order) : List Order :=
  ((book.queue incoming.side.opposite).map (·.order)).takeWhile (admitsMaker incoming)

/-- Only resting orders are traded with. -/
theorem OrderBook.mem_resting_of_mem_opposing {book : OrderBook} {incoming maker : Order}
    (member : maker ∈ book.opposing incoming) : maker ∈ book.resting := by
  obtain ⟨node, queued, rfl⟩ := List.mem_map.mp ((List.takeWhile_sublist _).subset member)
  obtain ⟨price, atLevel⟩ := OrderBook.mem_queue_iff.mp queued
  exact List.mem_map_of_mem (OrderBook.mem_nodes_iff.mpr ⟨_, price, atLevel⟩)

section Takes

theorem mem_of_mem_takes {qty : Int} {queue : List Order} {taken : Order × Int}
    (member : taken ∈ takes qty queue) : taken.1 ∈ queue := by
  induction queue generalizing qty with
  | nil => cases member
  | cons maker rest ih =>
      rw [takes] at member
      split at member
      · rcases List.mem_cons.mp member with rfl | later
        · exact .head _
        · exact .tail _ (ih later)
      · cases member

/-- Something is taken from each order that is reached. -/
theorem pos_of_mem_takes {qty : Int} {queue : List Order} {taken : Order × Int}
    (positive : ∀ maker ∈ queue, 0 < maker.qty) (member : taken ∈ takes qty queue) :
    0 < taken.2 := by
  induction queue generalizing qty with
  | nil => cases member
  | cons maker rest ih =>
      rw [takes] at member
      split at member
      · rcases List.mem_cons.mp member with rfl | later
        · have makerPos := positive maker (.head _)
          simp only
          omega
        · exact ih (fun other inRest => positive other (.tail _ inRest)) later
      · cases member

theorem takes_of_nonpos {qty : Int} (sated : ¬ 0 < qty) (queue : List Order) :
    takes qty queue = [] := by
  cases queue with
  | nil => rfl
  | cons maker rest => rw [takes, if_neg sated]

/-- An order takes all it wants, or all there is. -/
theorem sum_takes {qty : Int} (nonneg : 0 ≤ qty) {queue : List Order}
    (positive : ∀ maker ∈ queue, 0 < maker.qty) :
    ((takes qty queue).map (·.2)).sum = min qty (queue.map (·.qty)).sum := by
  induction queue generalizing qty with
  | nil => simpa [takes] using nonneg
  | cons maker rest ih =>
      have makerPos := positive maker (.head _)
      have left : 0 ≤ qty - min qty maker.qty := by omega
      have rest' := ih left fun other member => positive other (.tail _ member)
      have restNonneg : 0 ≤ (rest.map (·.qty)).sum := by
        refine List.sum_nonneg fun amount member => ?_
        obtain ⟨other, inRest, rfl⟩ := List.mem_map.mp member
        exact Int.le_of_lt (positive other (.tail _ inRest))
      by_cases wants : 0 < qty
      · rw [takes, if_pos wants, List.map_cons, List.sum_cons, rest', List.map_cons, List.sum_cons]
        omega
      · rw [takes_of_nonpos wants, List.map_nil, List.sum_nil, List.map_cons, List.sum_cons]
        omega

end Takes

namespace MatchingEngine

/-- The trade of an order with a maker, before it is stamped. -/
def tradeWith (engine : MatchingEngine) (incoming : Order) (taken : Order × Int) : Trade :=
  { makerId := taken.1.id, takerId := incoming.id
    makerUserId := engine.makerUser taken.1, takerUserId := incoming.userId
    price := taken.1.price, qty := taken.2 }

section Walk

variable {host : Host} {batchId : Int} {engine : MatchingEngine} {incoming : Order}

/-- Part of the way along the queue: what has been traded and what would still be taken. -/
structure Walked (engine : MatchingEngine) (incoming : Order) (sweep : Sweep) : Prop where
  swept : Swept engine.book incoming sweep
  owners : ∀ maker, sweep.engine.makerUser maker = engine.makerUser maker
  trades : sweep.trades ++
      (takes sweep.taker.qty (sweep.engine.book.opposing sweep.taker)).map
        (engine.tradeWith incoming) =
    (takes incoming.qty (engine.book.opposing incoming)).map (engine.tradeWith incoming)

variable (host batchId) in
/-- A fill takes from the first order of the walk and leaves the rest of it as it was. -/
theorem opposing_of_fillable {sweep : Sweep} {price : Int} {maker : Node} {rest : OrderList}
    (sound : sweep.engine.book.Sound)
    (fillable : Fillable sweep.taker.side sweep price maker rest) :
    ∃ tail, sweep.engine.book.opposing sweep.taker = maker.order :: tail ∧
      (afterFill host sweep.taker.side batchId sweep price maker rest).engine.book.opposing
          (afterFill host sweep.taker.side batchId sweep price maker rest).taker =
        leftOver (fillQty sweep.taker maker.order) maker.order ++ tail := by
  obtain ⟨behind, was, becomes⟩ := OrderBook.queue_of_first? fillable.best
  have atPrice := fillable.maker_price sound
  have admits : ∀ left, admitsMaker sweep.taker { maker.order with qty := left } = true := by
    intro left
    have unbeaten := fillable.admits
    rw [← fillable.maker_price sound] at unbeaten
    exact decide_eq_true unbeaten
  refine ⟨_, by rw [OrderBook.opposing, was, List.cons_append, List.map_cons,
    List.takeWhile_cons_of_pos (admits maker.order.qty)], ?_⟩
  have sameLimit : admitsMaker { sweep.taker with
      qty := sweep.taker.qty - fillQty sweep.taker maker.order } = admitsMaker sweep.taker := rfl
  rw [OrderBook.opposing, book_afterFill]
  simp only [afterFill]
  rw [becomes, List.map_append, map_queueAfterFill, List.append_assoc, ← List.map_append, sameLimit]
  unfold leftOver
  split
  · rfl
  · rw [List.singleton_append, List.takeWhile_cons_of_pos (admits _)]
    rfl

theorem Walked.step {sweep next : Sweep} (walked : Walked engine incoming sweep)
    (moves : fillStep host incoming.side batchId sweep = some next) :
    Walked engine incoming next := by
  have sweptNext := walked.swept.step moves
  obtain ⟨price, maker, rest, fillable, rfl⟩ := fillStep_cases moves
  have side : incoming.side = sweep.taker.side := by rw [walked.swept.taker]
  rw [side] at fillable sweptNext ⊢
  obtain ⟨tail, was, becomes⟩ :=
    opposing_of_fillable host batchId walked.swept.sound fillable
  refine ⟨sweptNext, ?_, ?_⟩
  · intro other
    rw [← walked.owners other]
    unfold makerUser
    rw [userManager_afterFill]
    cases sweep.engine.userManager with
    | none => rfl
    | some users => exact UserManager.getUserForOrder_congr (by simp) other.id
  · have soFar := walked.trades
    have takerIs : sweep.taker = { incoming with qty := sweep.taker.qty } := walked.swept.taker
    have trade : fillTrade sweep price maker =
        engine.tradeWith incoming (maker.order, fillQty sweep.taker maker.order) := by
      rw [fillTrade, tradeWith, walked.owners, fillable.maker_price walked.swept.sound, takerIs]
    rw [was, takes, if_pos fillable.wants, List.map_cons, ← fillQty_eq_min, ← trade] at soFar
    rw [becomes, trades_afterFill, List.append_assoc, List.singleton_append, ← soFar]
    congr 3
    -- a maker that is not used up has filled the taker
    unfold leftOver
    split
    · rfl
    · rename_i spared
      have sated : ¬ 0 < sweep.taker.qty - fillQty sweep.taker maker.order :=
        fun wants => spared (usedUp_of_wants wants)
      simp only [afterFill]
      rw [takes_of_nonpos sated, takes_of_nonpos sated]

/-- Where a sweep ends, nothing is left to take. -/
theorem takes_of_stopped {sweep : Sweep} (sound : sweep.engine.book.Sound)
    (stopped : fillStep host sweep.taker.side batchId sweep = none) :
    takes sweep.taker.qty (sweep.engine.book.opposing sweep.taker) = [] := by
  by_cases wants : 0 < sweep.taker.qty
  · cases best : (sweep.engine.book.levels sweep.taker.side.opposite).first? with
    | none =>
        have empty : (sweep.engine.book.levels sweep.taker.side.opposite).entries = [] :=
          List.head?_eq_none_iff.mp best
        rw [OrderBook.opposing, OrderBook.queue, empty]
        rfl
    | some entry =>
        obtain ⟨price, maker, rest, front⟩ := sound.exists_front (by rw [best]; simp)
        have beyond : sweep.taker.type = .limit ∧
            beyondLimit sweep.taker.side price sweep.taker.price := by
          by_contra admits
          rw [fillStep_of_fillable ⟨wants, front, admits⟩] at stopped
          cases stopped
        obtain ⟨tail, queueEq, _⟩ := OrderBook.queue_of_first? front
        have atPrice := (sound.placed _ _ maker (OrderBook.Sound.mem_level_of_first? front)).2
        rw [← atPrice] at beyond
        rw [OrderBook.opposing, queueEq, List.cons_append, List.map_cons,
          List.takeWhile_cons_of_neg (by simp [admitsMaker, beyond])]
        rfl
  · exact takes_of_nonpos wants _

variable (host) in
/-- The trades of a sweep are what its order takes along the queue. -/
theorem trades_callSweep (sound : engine.book.Sound) (nonneg : 0 ≤ incoming.qty) :
    (engine.callSweep host incoming).trades =
      (takes incoming.qty (engine.book.opposing incoming)).map
        ((engine.opened incoming).tradeWith incoming) := by
  have settles := callSweep_settles host engine incoming
  have walked := settles.invariant (Walked (engine.opened incoming) incoming)
    (fun _ _ soFar moves => soFar.step moves)
    ⟨.start (engine.opened incoming) sound nonneg,
      fun maker => by simp [startSweep, makerUser],
      by simp [startSweep]⟩
  have same : (engine.callSweep host incoming).taker.side = incoming.side := by
    rw [walked.swept.taker]
  have stopped := settles.stopped
  rw [← same] at stopped
  have done := walked.trades
  rw [takes_of_stopped walked.swept.sound stopped, List.map_nil, List.append_nil] at done
  exact done

variable (host) in
/-- An order is left with what the orders it may trade with do not cover. -/
theorem left_callSweep (sound : engine.book.Sound) (nonneg : 0 ≤ incoming.qty) :
    (engine.callSweep host incoming).taker.qty =
      incoming.qty - min incoming.qty ((engine.book.opposing incoming).map (·.qty)).sum := by
  have swept := swept_callSweep host sound nonneg
  have positive : ∀ maker ∈ engine.book.opposing incoming, 0 < maker.qty :=
    fun maker member => sound.qty_pos (OrderBook.mem_resting_of_mem_opposing member)
  have taken := sum_takes nonneg positive
  have filled := swept.filled
  rw [trades_callSweep host sound nonneg, tally_map] at filled
  simp only [tally, tradeWith, decide_true, List.filter_true] at filled
  omega

end Walk

end MatchingEngine

end OrderBookSimulator
