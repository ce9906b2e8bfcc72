import OrderBookSimulator.Engine.Answer

/-!
# Queues in order of arrival

List nodes get their addresses in the order in which the book pushes them, so
the addresses say which of two resting orders came first.  No call reorders a
level.
-/

namespace OrderBookSimulator

open Library

namespace OrderBook

/-- In every level the order that arrived earlier stands in front. -/
def InArrivalOrder (book : OrderBook) : Prop :=
  ∀ side price, (book.level side price).Pairwise fun first second => first.address < second.address

variable {book : OrderBook}

theorem inArrivalOrder_empty (onChange : Option (List Snapshot)) :
    ({ onChange } : OrderBook).InArrivalOrder := by
  intro side price
  cases side <;> exact List.Pairwise.nil

theorem InArrivalOrder.notifyChange (arrived : book.InArrivalOrder) :
    book.notifyChange.InArrivalOrder := fun side price => by
  rw [level_notifyChange]
  exact arrived side price

/-- Only what becomes of one level has to be looked at. -/
theorem InArrivalOrder.setLevel (arrived : book.InArrivalOrder) {side : Side} {price : Int}
    {queue : OrderList}
    (ordered : queue.Pairwise fun first second => first.address < second.address) :
    (book.setLevel side price queue).InArrivalOrder := by
  intro other otherPrice
  rw [level_setLevel]
  split
  · exact ordered
  · exact arrived other otherPrice

theorem InArrivalOrder.afterAdd (arrived : book.InArrivalOrder) (sound : book.Sound)
    (order : Order) : (book.addRestingOrder order).InArrivalOrder := by
  by_cases positive : 0 < order.qty
  · cases found : book.index.find? order.id with
    | none =>
        intro side price
        rw [level_addRestingOrder positive found]
        split
        · refine List.pairwise_append.mpr ⟨arrived side price, List.pairwise_singleton _ _, ?_⟩
          intro earlier queued last isLast
          obtain rfl := List.mem_singleton.mp isLast
          exact sound.allocated _ _ (sound.located side price earlier queued)
        · exact arrived side price
    | some loc =>
        rw [addRestingOrder_of_known found]
        exact arrived
  · rw [addRestingOrder_of_nonpos (by omega)]
    exact arrived

theorem InArrivalOrder.withdrawn (arrived : book.InArrivalOrder) (sound : book.Sound) {node : Node}
    (queued : node ∈ book.nodes) : (book.withdrawn node.order).InArrivalOrder := by
  intro side price
  rw [sound.level_withdrawn queued]
  exact (arrived side price).filter _

end OrderBook

namespace MatchingEngine

variable {host : Host} {engine next : MatchingEngine} {call : Call} {reply : Reply}

/-- A fill takes the front order away or makes it smaller where it stands. -/
theorem inArrivalOrder_callSweep (arrived : engine.book.InArrivalOrder) (incoming : Order) :
    (engine.callSweep host incoming).engine.book.InArrivalOrder := by
  refine (callSweep_settles host engine incoming).invariant
    (fun sweep => sweep.engine.book.InArrivalOrder) ?_ (by simpa [startSweep] using arrived)
  intro sweep next soFar moves
  obtain ⟨price, maker, rest, fillable, rfl⟩ := fillStep_cases moves
  have front := soFar incoming.side.opposite price
  rw [fillable.levelEq] at front
  obtain ⟨first, behind⟩ := List.pairwise_cons.mp front
  rw [book_afterFill]
  refine soFar.setLevel ?_
  unfold queueAfterFill
  split
  · exact behind
  · exact List.pairwise_cons.mpr ⟨first, behind⟩

theorem Answered.inArrivalOrder (answered : Answered host engine call reply next)
    (sound : engine.book.Sound) (arrived : engine.book.InArrivalOrder) :
    next.book.InArrivalOrder := by
  cases answered with
  | allotted => exact arrived
  | added order => exact arrived.afterAdd sound order
  | refused order status => simpa using arrived
  | accepted order ok swept =>
      have announced : (announcedBook (engine.callSweep host order)).InArrivalOrder := by
        unfold announcedBook
        split
        · exact inArrivalOrder_callSweep arrived order
        · exact (inArrivalOrder_callSweep arrived order).notifyChange
      simp only [book_concluded, book_restRemainder]
      split
      · exact announced.afterAdd (sound_announcedBook swept.sound) _
      · exact announced
  | unknown => exact arrived
  | withdrawn node queued => simpa using (arrived.withdrawn sound queued).notifyChange

theorem inArrivalOrder_of_anySession {start state : MatchingEngine} {log : Log}
    (sound : start.book.Sound) (arrived : start.book.InArrivalOrder)
    (run : AnySession host start log state) : state.book.InArrivalOrder :=
  run.invariant (fun _ state => state.book.InArrivalOrder) arrived
    fun _ _ _ _ _ earlier soFar _ answer =>
      (answered_of_exec (sound_of_anySession sound earlier) answer).inArrivalOrder
        (sound_of_anySession sound earlier) soFar

end MatchingEngine

end OrderBookSimulator
