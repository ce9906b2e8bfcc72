import OrderBookSimulator.Engine.CancelOrder
import OrderBookSimulator.Engine.Effects

/-!
# Every answer to a call

On a sound book each call is answered in one of six ways.  `Answered` lists
them with what is known in each; the run invariants are proved by going
through the list.
-/

namespace OrderBookSimulator

open Library

namespace MatchingEngine

/-- The engine after an order that preflight refused. -/
def refused (host : Host) (engine : MatchingEngine) (order : Order) (status : OrderStatus) :
    MatchingEngine :=
  (engine.opened order).emitOrderEvent host engine.batchSeq order.id order.userId status
    order.side order.price 0 0

/-- What a refused order is answered. -/
def refusal (host : Host) (engine : MatchingEngine) (order : Order) (status : OrderStatus) :
    OrderResult :=
  { id := order.id, status, originalQty := order.qty, filledQty := 0, remainingQty := 0
    trades := [], reason := (engine.preflightCheck host order).reason }

/-- The order status that tells of a refusal. -/
def refusalStatus : PreflightStatus → OrderStatus
  | .cancelled => .canceled
  | _ => .rejected

theorem result_of_refused (host : Host) {engine : MatchingEngine} {order : Order}
    (notOk : (engine.preflightCheck host order).isOk = false) :
    (engine.processOrder host order).2 =
      engine.refusal host order (refusalStatus (engine.preflightCheck host order).status) := by
  have same := preflightCheck_opened engine order host order
  unfold processOrder refusal
  simp only [same]
  cases status : (engine.preflightCheck host order).status with
  | ok => simp [PreflightResult.isOk, status] at notOk
  | rejected => rfl
  | cancelled => rfl

inductive Answered (host : Host) (engine : MatchingEngine) :
    Call → Reply → MatchingEngine → Prop where
  | allotted : Answered host engine .nextOrderId (.orderId engine.nextId) engine.nextOrderId.1
  | added (order : Order) :
      Answered host engine (.addRestingOrder order) .done
        (engine.updateBook (·.addRestingOrder order))
  | refused (order : Order) (status : OrderStatus)
      (notOk : (engine.preflightCheck host order).isOk = false)
      (final : status = .rejected ∨ status = .canceled) :
      Answered host engine (.processOrder order) (.result (engine.refusal host order status))
        (engine.refused host order status)
  | accepted (order : Order) (ok : (engine.preflightCheck host order).isOk = true)
      (swept : Swept engine.book order (engine.callSweep host order)) :
      Answered host engine (.processOrder order)
        (.result (report host order (engine.callSweep host order)))
        (concluded host order engine.batchSeq (engine.callSweep host order))
  | unknown (orderId : Int) (notFound : engine.book.index.find? orderId = none) :
      Answered host engine (.cancelOrder orderId) (.cancelled false) engine
  | withdrawn (node : Node) (queued : node ∈ engine.book.nodes) :
      Answered host engine (.cancelOrder node.order.id) (.cancelled true)
        (engine.cancelled host node.order)

section Answers

variable {host : Host} {engine next : MatchingEngine} {call : Call} {reply : Reply}

theorem answered_of_exec (sound : engine.book.Sound)
    (answer : exec host engine call = .ok (next, reply)) :
    Answered host engine call reply next := by
  cases call with
  | nextOrderId =>
      cases answer
      exact .allotted
  | addRestingOrder order =>
      cases answer
      exact .added order
  | processOrder order =>
      cases answer
      cases ok : (engine.preflightCheck host order).isOk with
      | false =>
          obtain ⟨status, final, result⟩ := processOrder_of_refused host engine order ok
          rw [result]
          exact .refused order status ok final
      | true =>
          rw [processOrder_of_accepted host engine order ok]
          exact .accepted order ok
            (swept_callSweep host sound (Int.le_of_lt (passed_of_isOk ok).qty_pos))
  | cancelOrder orderId =>
      obtain ⟨ok, cancels, rfl⟩ := cancelOrder_of_exec answer
      rcases cancelOrder_cases host sound cancels with
        ⟨notFound, rfl, rfl⟩ | ⟨node, queued, rfl, rfl, rfl⟩
      · exact .unknown orderId notFound
      · exact .withdrawn node queued

/-- Nothing but a cancel of a stale id can fail. -/
theorem exec_ok (sound : engine.book.Sound)
    (current : ∀ orderId, call = .cancelOrder orderId → ¬ engine.book.Stale orderId) :
    ∃ next reply, exec host engine call = .ok (next, reply) := by
  cases call with
  | nextOrderId => exact ⟨_, _, rfl⟩
  | addRestingOrder order => exact ⟨_, _, rfl⟩
  | processOrder order => exact ⟨_, _, rfl⟩
  | cancelOrder orderId =>
      rcases engine.book.unknown_or_resting_or_stale orderId with ⟨notFound, _⟩ | resting | stale
      · exact ⟨engine, .cancelled false, exec_cancelOrder (cancelOrder_of_unknown host notFound)⟩
      · obtain ⟨node, queued, rfl, _⟩ := sound.index_of_resting resting
        exact ⟨engine.cancelled host node.order, .cancelled true,
          exec_cancelOrder (cancelOrder_of_queued host sound queued)⟩
      · exact absurd stale (current orderId rfl)

@[simp] theorem book_refused (order : Order) (status : OrderStatus) :
    (engine.refused host order status).book = engine.book := by
  simp [refused]

@[simp] theorem book_nextOrderId : engine.nextOrderId.1.book = engine.book := rfl

theorem Answered.sound (answered : Answered host engine call reply next)
    (sound : engine.book.Sound) : next.book.Sound := by
  cases answered with
  | allotted => exact sound
  | added order => exact sound.afterAdd order
  | refused order status => simpa using sound
  | accepted order ok swept =>
      have after := sound_processOrder host sound order
      rw [processOrder_of_accepted host engine order ok] at after
      exact after
  | unknown => exact sound
  | withdrawn node queued => simpa using (sound.withdrawn queued).notifyChange

/-- Whatever is called under whatever ids, a sound book stays sound. -/
theorem sound_of_anySession {start state : MatchingEngine} {log : Log} (sound : start.book.Sound)
    (run : AnySession host start log state) : state.book.Sound :=
  run.invariant (fun _ state => state.book.Sound) sound
    fun _ _ _ _ _ _ soFar _ answer => (answered_of_exec soFar answer).sound soFar

/-- An engine without a user manager never gets one. -/
theorem Answered.noUsers (answered : Answered host engine call reply next)
    (noUsers : engine.userManager = none) : next.userManager = none := by
  cases answered with
  | allotted => exact noUsers
  | added order => exact noUsers
  | refused order status => simp [MatchingEngine.refused, noUsers]
  | accepted order ok swept =>
      have sweepNoUsers : (engine.callSweep host order).engine.userManager = none := by
        refine (callSweep_settles host engine order).invariant
          (fun sweep => sweep.engine.userManager = none) ?_ (by simp [startSweep, noUsers])
        intro sweep next soFar moves
        obtain ⟨price, maker, rest, _, rfl⟩ := fillStep_cases moves
        simp [soFar]
      rw [userManager_concluded, userManager_restRemainder, sweepNoUsers]
      split <;> rfl
  | unknown => exact noUsers
  | withdrawn node queued => simp [noUsers]

theorem noUsers_of_anySession {start state : MatchingEngine} {log : Log}
    (sound : start.book.Sound) (noUsers : start.userManager = none)
    (run : AnySession host start log state) : state.userManager = none :=
  run.invariant (fun _ state => state.userManager = none) noUsers
    fun _ _ _ _ _ earlier soFar _ answer =>
      (answered_of_exec (sound_of_anySession sound earlier) answer).noUsers soFar

/-- What every callback keeps, every call keeps. -/
theorem Answered.users {users : UserManager} {Keeps : UserManager → Prop}
    (kept : UserManager.Kept host Keeps) (answered : Answered host engine call reply next)
    (hasUsers : engine.userManager = some users) (keeps : Keeps users) :
    ∃ users', next.userManager = some users' ∧ Keeps users' := by
  cases answered with
  | allotted => exact ⟨users, hasUsers, keeps⟩
  | added order => exact ⟨users, hasUsers, keeps⟩
  | refused order status =>
      exact ⟨users.registerOrder order.id order.userId, by simp [MatchingEngine.refused, hasUsers],
        kept.registerOrder _ _ _ keeps⟩
  | accepted order ok swept =>
      obtain ⟨users', hasUsers', keeps'⟩ := callSweep_users host Keeps kept.onFill hasUsers
        (kept.registerOrder _ order.id order.userId keeps)
      rw [userManager_concluded, userManager_restRemainder, hasUsers']
      split
      · exact ⟨_, rfl, kept.onOrderResting _ _ _ _ _ keeps'⟩
      · exact ⟨users', rfl, keeps'⟩
  | unknown => exact ⟨users, hasUsers, keeps⟩
  | withdrawn node queued =>
      exact ⟨_, by rw [userManager_cancelled, hasUsers, Option.map_some],
        kept.onCancel _ _ _ _ _ keeps⟩

/-- What every callback keeps holds of the users of every reachable engine. -/
theorem users_of_anySession {start state : MatchingEngine} {log : Log} {users : UserManager}
    {Keeps : UserManager → Prop} (kept : UserManager.Kept host Keeps) (sound : start.book.Sound)
    (hasUsers : start.userManager = some users) (keeps : Keeps users)
    (run : AnySession host start log state) :
    ∃ users', state.userManager = some users' ∧ Keeps users' := by
  refine run.invariant (fun _ state => ∃ users', state.userManager = some users' ∧ Keeps users')
    ⟨users, hasUsers, keeps⟩ ?_
  rintro log state call reply next earlier ⟨users', hasUsers', keeps'⟩ _ answer
  exact (answered_of_exec (sound_of_anySession sound earlier) answer).users kept hasUsers' keeps'

end Answers

/-! ## The remainder of an accepted order -/

section Remainder

variable {before : OrderBook} {incoming : Order} {sweep : Sweep}

/-- What an accepted order leaves resting. -/
def remainder (sweep : Sweep) : List Order :=
  if sweep.taker.type = .limit ∧ 0 < sweep.taker.qty then [sweep.taker] else []

/-- Only a limit order with something left has a remainder. -/
theorem eq_of_mem_remainder {order : Order} (rests : order ∈ remainder sweep) :
    order = sweep.taker ∧ sweep.taker.type = .limit ∧ 0 < sweep.taker.qty := by
  unfold remainder at rests
  split at rests
  · rename_i limit
    exact ⟨List.mem_singleton.mp rests, limit⟩
  · cases rests

theorem Swept.announced (swept : Swept before incoming sweep) :
    (announcedBook sweep).resting = sweep.engine.book.resting ∧
      (announcedBook sweep).index = before.index := by
  unfold announcedBook
  split
  · exact ⟨rfl, swept.index⟩
  · exact ⟨rfl, swept.index⟩

/-- Whatever its id, an accepted order adds at most its remainder to what the sweep left. -/
theorem mem_resting_concluded {host : Host} {batchId : Int} {order : Order}
    (member : order ∈ (concluded host incoming batchId sweep).book.resting) :
    order ∈ remainder sweep ∨ order ∈ sweep.engine.book.resting := by
  have announced : (announcedBook sweep).resting = sweep.engine.book.resting := by
    unfold announcedBook
    split <;> rfl
  rw [book_concluded, book_restRemainder] at member
  unfold remainder
  split at member
  · rename_i rests
    rw [if_pos rests]
    cases found : (announcedBook sweep).index.find? sweep.taker.id with
    | some loc =>
        rw [OrderBook.addRestingOrder_of_known found, announced] at member
        exact Or.inr member
    | none =>
        rw [(OrderBook.resting_addRestingOrder rests.2 found).mem_iff, announced] at member
        rcases List.mem_cons.mp member with rfl | old
        · exact Or.inl (.head _)
        · exact Or.inr old
  · rw [announced] at member
    exact Or.inr member

/-- With a fresh id, the remainder joins what the sweep left resting. -/
theorem Swept.resting_concluded (host : Host) (swept : Swept before incoming sweep)
    (fresh : before.index.find? incoming.id = none) (batchId : Int) :
    (concluded host incoming batchId sweep).book.resting.Perm
      (remainder sweep ++ sweep.engine.book.resting) := by
  obtain ⟨resting, index⟩ := swept.announced
  rw [book_concluded, book_restRemainder]
  unfold remainder
  split
  · rename_i rests
    have new : (announcedBook sweep).index.find? sweep.taker.id = none := by
      rw [index, swept.taker]
      exact fresh
    rw [← resting]
    exact OrderBook.resting_addRestingOrder rests.2 new
  · rw [← resting]
    exact .refl _

theorem Swept.index_concluded (host : Host) (swept : Swept before incoming sweep)
    (fresh : before.index.find? incoming.id = none) (batchId orderId : Int) :
    ((concluded host incoming batchId sweep).book.index.find? orderId).isSome ↔
      (before.index.find? orderId).isSome ∨ (remainder sweep ≠ [] ∧ orderId = incoming.id) := by
  obtain ⟨_, index⟩ := swept.announced
  rw [book_concluded, book_restRemainder]
  unfold remainder
  split
  · rename_i rests
    have new : (announcedBook sweep).index.find? sweep.taker.id = none := by
      rw [index, swept.taker]
      exact fresh
    have takerId : sweep.taker.id = incoming.id := by rw [swept.taker]
    rw [OrderBook.index_addRestingOrder rests.2 new, SortedMap.find?_insert, index, takerId]
    by_cases same : orderId = incoming.id <;> simp [same]
  · simp [index]

end Remainder

/-- Requests only ever leave orders resting at positive prices. -/
theorem priced_of_requests {host : Host} {start state : MatchingEngine} {log : Log}
    (sound : start.book.Sound) (priced : ∀ order ∈ start.book.resting, 0 < order.price)
    (run : Requests host start log state) : ∀ order ∈ state.book.resting, 0 < order.price := by
  refine run.invariant (fun _ state => ∀ order ∈ state.book.resting, 0 < order.price) priced ?_
  intro log state call reply next earlier soFar requested answer
  have soundNow := sound_of_anySession sound (earlier.mono fun _ _ _ => trivial)
  cases answered_of_exec soundNow answer with
  | allotted => exact soFar
  | added order => exact requested.elim
  | refused order status => simpa using soFar
  | accepted incoming ok swept =>
      intro order member
      rcases mem_resting_concluded member with rests | old
      · obtain ⟨rfl, limit, _⟩ := eq_of_mem_remainder rests
        rw [swept.taker] at limit ⊢
        exact (passed_of_isOk ok).price_pos limit
      · obtain ⟨before, beforeMember, same⟩ := swept.kept order old
        rw [same]
        exact soFar before beforeMember
  | unknown => exact soFar
  | withdrawn node queued =>
      intro order member
      rw [book_cancelled] at member
      exact soFar order ((soundNow.resting_withdrawn queued).mem_iff.mpr (.tail _ member))

end MatchingEngine

end OrderBookSimulator
