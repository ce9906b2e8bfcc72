import OrderBookSimulator.Engine.Answer

/-!
# The ledger of an ordinary session

Every quantity that entered the book is, at any later time, traded, resting,
cancelled or dropped.  This is the invariant behind all runs of ordinary calls:
an id without a resting order is either unknown or fully filled, so ordinary
callers never reach a stale entry and none of their calls fails.
-/

namespace OrderBookSimulator

open Library

namespace MatchingEngine

section Report

variable (host : Host) (incoming : Order) (sweep : Sweep) (orderId : Int)

@[simp] theorem makerQty_report :
    makerQty (report host incoming sweep).trades orderId = makerQty sweep.trades orderId :=
  tally_of_unstamped (fun _ => ⟨.rfl, rfl⟩) (unstamped_report host incoming sweep)

@[simp] theorem takerQty_report :
    takerQty (report host incoming sweep).trades orderId = takerQty sweep.trades orderId :=
  tally_of_unstamped (fun _ => ⟨.rfl, rfl⟩) (unstamped_report host incoming sweep)

end Report

/-! ## The invariant -/

structure Tracked (start : MatchingEngine) (log : Log) (state : MatchingEngine) : Prop where
  sound : state.book.Sound
  known : ∀ orderId, (state.book.index.find? orderId).isSome → Used start log orderId
  mentioned : ∀ trade ∈ log.trades, Used start log trade.makerId ∧ Used start log trade.takerId
  ledger : ∀ order ∈ start.book.resting ++ log.acceptedOrders,
    order.qty = makerQty log.trades order.id + takerQty log.trades order.id +
      state.book.restingQty order.id + log.cancelledQty order.id + log.droppedQty order.id
  entered : ∀ order ∈ start.book.resting ++ log.acceptedOrders, Used start log order.id
  untouched : ∀ orderId, ¬ Used start log orderId →
    log.cancelledQty orderId = 0 ∧ log.droppedQty orderId = 0
  live : ∀ orderId, (state.book.index.find? orderId).isSome → start.book.Stale orderId ∨
    ∃ order ∈ start.book.resting ++ log.acceptedOrders, order.id = orderId ∧
      log.cancelledQty orderId = 0 ∧ log.droppedQty orderId = 0

namespace Tracked

variable {start state : MatchingEngine} {log : Log}

theorem initial (sound : start.book.Sound) : Tracked start [] start where
  sound := sound
  known := fun _ found => Or.inl found
  mentioned := by simp [Log.trades]
  ledger := by
    intro order member
    have resting : order ∈ start.book.resting := by simpa [Log.acceptedOrders] using member
    rw [sound.restingQty_of_mem resting]
    simp [Log.trades, makerQty, takerQty, Log.cancelledQty, Log.droppedQty]
  entered := by
    intro order member
    have resting : order ∈ start.book.resting := by simpa [Log.acceptedOrders] using member
    obtain ⟨node, _, _, found⟩ := sound.index_of_resting ⟨order, resting, rfl⟩
    exact Or.inl (by simp [found])
  untouched := by simp [Log.cancelledQty, Log.droppedQty]
  live := by
    intro orderId found
    rcases start.book.unknown_or_resting_or_stale orderId with ⟨unknown, _⟩ | resting | stale
    · simp [unknown] at found
    · obtain ⟨order, member, same⟩ := resting
      exact Or.inr ⟨order, by simp [member], same, rfl, rfl⟩
    · exact Or.inl stale

variable (tracked : Tracked start log state)

include tracked

theorem unknown_of_fresh {orderId : Int} (fresh : ¬ Used start log orderId) :
    state.book.index.find? orderId = none := by
  rw [← Option.not_isSome_iff_eq_none]
  exact fun found => fresh (tracked.known orderId found)

theorem used_of_resting {order : Order} (member : order ∈ state.book.resting) :
    Used start log order.id := by
  obtain ⟨node, _, _, found⟩ := tracked.sound.index_of_resting ⟨order, member, rfl⟩
  exact tracked.known order.id (by simp [found])

theorem not_resting_of_fresh {orderId : Int} (fresh : ¬ Used start log orderId) :
    ∀ order ∈ state.book.resting, order.id ≠ orderId := by
  rintro order member rfl
  exact fresh (tracked.used_of_resting member)

/-- An id no call has used has not been traded. -/
theorem untraded {orderId : Int} (fresh : ¬ Used start log orderId) :
    makerQty log.trades orderId = 0 ∧ takerQty log.trades orderId = 0 :=
  ⟨tally_eq_zero fun trade member same => fresh (same ▸ (tracked.mentioned trade member).1),
    tally_eq_zero fun trade member same => fresh (same ▸ (tracked.mentioned trade member).2)⟩

/-- A stale entry belongs to an order that has been traded completely. -/
theorem fullyFilled_of_stale {orderId : Int} (stale : state.book.Stale orderId) :
    FullyFilled start log orderId := by
  rcases tracked.live orderId stale.1 with before | ⟨order, member, rfl, uncancelled, undropped⟩
  · exact Or.inl before
  · have ledger := tracked.ledger order member
    rw [OrderBook.restingQty_of_not_resting stale.2, uncancelled, undropped] at ledger
    exact Or.inr ⟨order, member, rfl, by omega⟩

end Tracked

/-! ## One call -/

/-- What an accepted order leaves is either resting or dropped. -/
theorem Swept.remainder_add_dropped {before : OrderBook} {incoming : Order} {sweep : Sweep}
    (swept : Swept before incoming sweep) (orderId : Int) :
    tally (fun order : Order => order.id = orderId) (·.qty) (remainder sweep) +
      (if incoming.id = orderId ∧ incoming.type = .market then sweep.taker.qty else 0) =
        if incoming.id = orderId then sweep.taker.qty else 0 := by
  have nonneg := swept.left_nonneg
  have takerId : sweep.taker.id = incoming.id := by rw [swept.taker]
  have takerType : sweep.taker.type = incoming.type := by rw [swept.taker]
  unfold remainder
  rw [takerType]
  cases incoming.type with
  | limit =>
      by_cases left : 0 < sweep.taker.qty
      · simp [left, takerId]
      · have none : sweep.taker.qty = 0 := by omega
        simp [none]
  | market => simp

theorem Swept.restingQty_concluded (host : Host) {before : OrderBook} {incoming : Order}
    {sweep : Sweep} (swept : Swept before incoming sweep)
    (fresh : before.index.find? incoming.id = none) (batchId orderId : Int) :
    (concluded host incoming batchId sweep).book.restingQty orderId =
      tally (fun order : Order => order.id = orderId) (·.qty) (remainder sweep) +
        sweep.engine.book.restingQty orderId := by
  rw [OrderBook.restingQty, tally_perm (swept.resting_concluded host fresh batchId), tally_append]
  rfl

/-- The log entry of an accepted order, from the sweep it caused. -/
def acceptance (host : Host) (engine : MatchingEngine) (order : Order) (sweep : Sweep) : Entry :=
  ⟨engine, .processOrder order, .result (report host order sweep),
    concluded host order engine.batchSeq sweep⟩

section Acceptance

variable (host : Host) (engine : MatchingEngine) (order : Order) (sweep : Sweep)

@[simp] theorem submitted_acceptance :
    (acceptance host engine order sweep).call.submitted = some order := rfl

@[simp] theorem accepted_acceptance :
    (acceptance host engine order sweep).accepted = some order := by
  simp [acceptance, Entry.accepted, report, fillStatus_not_final]

@[simp] theorem trades_acceptance :
    (acceptance host engine order sweep).trades = (report host order sweep).trades := rfl

@[simp] theorem cancelledQty_acceptance (orderId : Int) :
    (acceptance host engine order sweep).cancelledQty orderId = 0 := rfl

@[simp] theorem droppedQty_acceptance (orderId : Int) :
    (acceptance host engine order sweep).droppedQty orderId =
      if order.id = orderId ∧ order.type = .market then sweep.taker.qty else 0 := rfl

end Acceptance

/-- The orders that count as accepted are those that passed preflight. -/
theorem Answered.accepted_iff {host : Host} {engine next : MatchingEngine} {order : Order}
    {result : OrderResult}
    (answered : Answered host engine (.processOrder order) (.result result) next) :
    Entry.accepted ⟨engine, .processOrder order, .result result, next⟩ = some order ↔
      (engine.preflightCheck host order).isOk = true := by
  cases answered with
  | refused order status notOk final => simp [Entry.accepted, refusal, final, notOk]
  | accepted order ok swept =>
      exact iff_of_true (accepted_acceptance host engine order (engine.callSweep host order)) ok

namespace Tracked

variable {host : Host} {start state next : MatchingEngine} {log : Log}

/-- A call that moves no quantity. -/
theorem idle (tracked : Tracked start log state) (entry : Entry) (sameBook : next.book = state.book)
    (noOrder : entry.accepted = none) (noTrade : entry.trades = [])
    (noCancel : ∀ orderId, entry.cancelledQty orderId = 0)
    (noDrop : ∀ orderId, entry.droppedQty orderId = 0) :
    Tracked start (log ++ [entry]) next where
  sound := sameBook ▸ tracked.sound
  known := fun orderId found => (tracked.known orderId (sameBook ▸ found)).append entry
  mentioned := by
    intro trade member
    rw [Log.trades_append, noTrade, List.append_nil] at member
    obtain ⟨maker, taker⟩ := tracked.mentioned trade member
    exact ⟨maker.append entry, taker.append entry⟩
  ledger := by
    intro order member
    rw [Log.acceptedOrders_append, noOrder, Option.toList_none, List.append_nil] at member
    have ledger := tracked.ledger order member
    rw [Log.trades_append, Log.cancelledQty_append, Log.droppedQty_append, noTrade, noCancel,
      noDrop, sameBook, List.append_nil, ledger]
    omega
  entered := by
    intro order member
    rw [Log.acceptedOrders_append, noOrder, Option.toList_none, List.append_nil] at member
    exact (tracked.entered order member).append entry
  untouched := by
    intro orderId fresh
    have before := tracked.untouched orderId fun used => fresh (used.append entry)
    rw [Log.cancelledQty_append, Log.droppedQty_append, noCancel, noDrop, before.1, before.2]
    exact ⟨rfl, rfl⟩
  live := by
    intro orderId found
    rw [Log.acceptedOrders_append, noOrder, Option.toList_none, List.append_nil]
    simp only [Log.cancelledQty_append, Log.droppedQty_append, noCancel, noDrop, add_zero]
    exact tracked.live orderId (sameBook ▸ found)

theorem accept (tracked : Tracked start log state) {order : Order}
    (fresh : ¬ Used start log order.id) {sweep : Sweep} (swept : Swept state.book order sweep)
    (sound : (concluded host order state.batchSeq sweep).book.Sound) :
    Tracked start (log ++ [acceptance host state order sweep])
      (concluded host order state.batchSeq sweep) := by
  have unknown := tracked.unknown_of_fresh fresh
  have usedNow : Used start (log ++ [acceptance host state order sweep]) order.id :=
    Or.inr (by simp)
  have different : ∀ {orderId}, Used start log orderId → order.id ≠ orderId := by
    rintro orderId used rfl
    exact fresh used
  exact {
    sound := sound
    known := by
      intro orderId found
      rcases (swept.index_concluded host unknown state.batchSeq orderId).mp found with
        before | ⟨_, rfl⟩
      · exact (tracked.known orderId before).append _
      · exact usedNow
    mentioned := by
      intro trade member
      rw [Log.trades_append, trades_acceptance] at member
      rcases List.mem_append.mp member with earlier | now
      · obtain ⟨maker, taker⟩ := tracked.mentioned trade earlier
        exact ⟨maker.append _, taker.append _⟩
      · obtain ⟨plain, plainMember, same⟩ :=
          exists_of_unstamped (unstamped_report host order sweep) now
        obtain ⟨_, takerId, makerOrder, makerMember, makerId⟩ := swept.trades plain plainMember
        have sameMaker : plain.makerId = trade.makerId :=
          show plain.unstamped.makerId = trade.unstamped.makerId by rw [same]
        have sameTaker : plain.takerId = trade.takerId :=
          show plain.unstamped.takerId = trade.unstamped.takerId by rw [same]
        rw [← sameMaker, ← sameTaker, takerId, ← makerId]
        exact ⟨(tracked.used_of_resting makerMember).append _, usedNow⟩
    ledger := by
      intro old member
      rw [Log.acceptedOrders_append, accepted_acceptance, ← List.append_assoc] at member
      have left := swept.remainder_add_dropped old.id
      have taken := swept.taker_qty old.id
      have made := swept.maker_qty old.id
      rw [Log.trades_append, Log.cancelledQty_append, Log.droppedQty_append, trades_acceptance,
        makerQty_append, takerQty_append, makerQty_report, takerQty_report,
        cancelledQty_acceptance, droppedQty_acceptance,
        swept.restingQty_concluded host unknown state.batchSeq]
      rcases List.mem_append.mp member with before | now
      · have other := different (tracked.entered old before)
        have ledger := tracked.ledger old before
        rw [if_neg other] at left
        rw [if_neg (Ne.symm other)] at taken
        omega
      · obtain rfl := List.mem_singleton.mp now
        have untraded := tracked.untraded fresh
        have untouched := tracked.untouched old.id fresh
        have notBefore : state.book.restingQty old.id = 0 :=
          OrderBook.restingQty_of_not_resting (tracked.sound.not_resting_of_unknown unknown)
        rw [if_pos rfl] at left taken
        omega
    entered := by
      intro old member
      rw [Log.acceptedOrders_append, accepted_acceptance, ← List.append_assoc] at member
      rcases List.mem_append.mp member with before | now
      · exact (tracked.entered old before).append _
      · obtain rfl := List.mem_singleton.mp now
        exact usedNow
    untouched := by
      intro orderId stillFresh
      have before := tracked.untouched orderId fun used => stillFresh (used.append _)
      have other : order.id ≠ orderId := by
        rintro rfl
        exact stillFresh usedNow
      rw [Log.cancelledQty_append, Log.droppedQty_append, cancelledQty_acceptance,
        droppedQty_acceptance, before.1, before.2, if_neg fun same => other same.1]
      exact ⟨rfl, rfl⟩
    live := by
      intro orderId found
      rw [Log.acceptedOrders_append, accepted_acceptance, ← List.append_assoc,
        Log.cancelledQty_append, Log.droppedQty_append, cancelledQty_acceptance,
        droppedQty_acceptance]
      rcases (swept.index_concluded host unknown state.batchSeq orderId).mp found with
        before | ⟨rests, rfl⟩
      · have other := different (tracked.known orderId before)
        rcases tracked.live orderId before with stale | ⟨old, member, same, settled⟩
        · exact Or.inl stale
        · refine Or.inr ⟨old, List.mem_append_left _ member, same, ?_⟩
          rw [settled.1, settled.2, if_neg fun same => other same.1]
          exact ⟨rfl, rfl⟩
      · have untouched := tracked.untouched order.id fresh
        have notMarket : order.type ≠ .market := by
          intro market
          have takerType : sweep.taker.type = order.type := by rw [swept.taker]
          exact rests (by simp [remainder, takerType, market])
        refine Or.inr ⟨order, by simp, rfl, ?_⟩
        rw [untouched.1, untouched.2, if_neg fun both => notMarket both.2]
        exact ⟨rfl, rfl⟩ }

theorem withdraw (tracked : Tracked start log state) {node : Node}
    (queued : node ∈ state.book.nodes) :
    Tracked start (log ++ [⟨state, .cancelOrder node.order.id, .cancelled true,
      state.cancelled host node.order⟩]) (state.cancelled host node.order) := by
  have sound := tracked.sound
  have cancelledQty : ∀ orderId, Entry.cancelledQty ⟨state, .cancelOrder node.order.id,
      .cancelled true, state.cancelled host node.order⟩ orderId =
        if node.order.id = orderId then state.book.restingQty orderId else 0 := fun _ => rfl
  have droppedQty : ∀ orderId, Entry.droppedQty ⟨state, .cancelOrder node.order.id,
      .cancelled true, state.cancelled host node.order⟩ orderId = 0 := fun _ => rfl
  have usedNode := tracked.used_of_resting (List.mem_map_of_mem queued)
  exact {
    sound := by simpa using (sound.withdrawn queued).notifyChange
    known := by
      intro orderId found
      rw [book_cancelled, OrderBook.index_notifyChange, OrderBook.index_withdrawn,
        SortedMap.find?_erase] at found
      split at found
      · cases found
      · exact (tracked.known orderId found).append _
    mentioned := by
      intro trade member
      obtain ⟨maker, taker⟩ := tracked.mentioned trade (by simpa [Entry.trades] using member)
      exact ⟨maker.append _, taker.append _⟩
    ledger := by
      intro order member
      have ledger := tracked.ledger order (by simpa [Entry.accepted] using member)
      have resting : (state.cancelled host node.order).book.restingQty order.id =
          state.book.restingQty order.id -
            if node.order.id = order.id then state.book.restingQty order.id else 0 := by
        rw [book_cancelled]
        exact sound.restingQty_withdrawn queued order.id
      rw [Log.trades_append, Log.cancelledQty_append, Log.droppedQty_append, cancelledQty,
        droppedQty, resting, show Entry.trades _ = [] from rfl, List.append_nil]
      omega
    entered := fun order member =>
      (tracked.entered order (by simpa [Entry.accepted] using member)).append _
    untouched := by
      intro orderId fresh
      have before := tracked.untouched orderId fun used => fresh (used.append _)
      have other : node.order.id ≠ orderId := by
        rintro rfl
        exact fresh (usedNode.append _)
      rw [Log.cancelledQty_append, Log.droppedQty_append, cancelledQty, droppedQty, before.1,
        before.2, if_neg other]
      exact ⟨rfl, rfl⟩
    live := by
      intro orderId found
      rw [book_cancelled, OrderBook.index_notifyChange, OrderBook.index_withdrawn,
        SortedMap.find?_erase] at found
      split at found
      · cases found
      · rename_i other
        rw [Log.cancelledQty_append, Log.droppedQty_append, cancelledQty, droppedQty,
          if_neg (Ne.symm other), add_zero, add_zero]
        simpa [Entry.accepted] using tracked.live orderId found }

/-- An ordinary call keeps the ledger. -/
theorem step (tracked : Tracked start log state) {call : Call} {reply : Reply}
    (allowed : Ordinary start log call) (answered : Answered host state call reply next) :
    Tracked start (log ++ [⟨state, call, reply, next⟩]) next := by
  have sound := answered.sound tracked.sound
  cases answered with
  | allotted => exact tracked.idle _ rfl rfl rfl (fun _ => rfl) fun _ => rfl
  | added order => exact allowed.elim
  | refused order status notOk final =>
      refine tracked.idle _ (by simp) ?_ rfl (fun _ => rfl) fun orderId => ?_
      · simp [Entry.accepted, refusal, final]
      · simp [Entry.droppedQty, refusal]
  | accepted order ok swept => exact tracked.accept allowed swept sound
  | unknown orderId notFound => exact tracked.idle _ rfl rfl rfl (fun _ => rfl) fun _ => rfl
  | withdrawn node queued => exact tracked.withdraw queued

end Tracked

/-! ## Sessions -/

section Sessions

variable {host : Host} {start state : MatchingEngine} {log : Log}

/-- Every ordinary session from a sound book keeps the ledger. -/
theorem tracked_of_session (sound : start.book.Sound) (session : Session host start log state) :
    Tracked start log state :=
  session.invariant (Tracked start) (Tracked.initial sound)
    fun _ _ _ _ _ _ tracked allowed answer =>
      tracked.step allowed (answered_of_exec tracked.sound answer)

/--
What holds of the orders a session starts with and of every limit order that
preflight lets through, whatever their quantity, holds of all resting orders.
-/
theorem resting_of_session (Good : Order → Prop)
    (blind : ∀ order qty, Good order → Good { order with qty })
    (initially : ∀ order ∈ start.book.resting, Good order)
    (accepted : ∀ order, order.type = .limit → 0 < order.price → Good order)
    (sound : start.book.Sound) (session : Session host start log state) :
    ∀ order ∈ state.book.resting, Good order := by
  refine session.invariant (fun _ state => ∀ order ∈ state.book.resting, Good order) initially ?_
  intro log state call reply next earlier good allowed answer
  have tracked := tracked_of_session sound earlier
  cases answered_of_exec tracked.sound answer with
  | allotted => exact good
  | added order => exact allowed.elim
  | refused order status => simpa using good
  | accepted incoming ok swept =>
      have perm := swept.resting_concluded host (tracked.unknown_of_fresh allowed) state.batchSeq
      intro order member
      rcases List.mem_append.mp (perm.mem_iff.mp member) with rests | old
      · obtain ⟨rfl, limit, _⟩ := eq_of_mem_remainder rests
        rw [swept.taker] at limit ⊢
        exact blind _ _ (accepted incoming limit ((passed_of_isOk ok).price_pos limit))
      · obtain ⟨before, beforeMember, same⟩ := swept.kept order old
        rw [same]
        exact blind _ _ (good before beforeMember)
  | unknown => exact good
  | withdrawn node queued =>
      intro order member
      rw [book_cancelled] at member
      exact good order ((tracked.sound.resting_withdrawn queued).mem_iff.mpr (.tail _ member))

/-- No ordinary call of an ordinary session fails. -/
theorem ordinary_answered (sound : start.book.Sound) (session : Session host start log state)
    {call : Call} (allowed : Ordinary start log call) :
    ∃ next reply, exec host state call = .ok (next, reply) := by
  have tracked := tracked_of_session sound session
  refine exec_ok tracked.sound ?_
  rintro orderId rfl stale
  exact allowed (tracked.fullyFilled_of_stale stale)

end Sessions

end MatchingEngine

end OrderBookSimulator
