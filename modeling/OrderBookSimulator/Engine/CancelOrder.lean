import OrderBookSimulator.Book.Changes
import OrderBookSimulator.Engine.Sweep

/-!
# What a cancel can do

On a sound book a cancel of an unknown id answers `false`, a cancel of a
resting id withdraws its order, and a cancel of a stale id follows an erased
node.  There is no fourth case.
-/

namespace OrderBookSimulator

open Library

namespace MatchingEngine

/-- The user a cancel event is attributed to. -/
def canceller (engine : MatchingEngine) (orderId : Int) : Int :=
  match engine.userManager with
  | some users => users.getUserForOrder orderId
  | none => 0

/-- The engine after the resting order `order` has been cancelled. -/
def cancelled (host : Host) (engine : MatchingEngine) (order : Order) : MatchingEngine :=
  let engine' : MatchingEngine :=
    { engine with book := engine.book.withdrawn order, batchSeq := engine.batchSeq + 1 }
  ((engine'.emitOrderEvent host engine.batchSeq order.id (engine.canceller order.id)
    .canceled .buy 0 0 0).updateUsers fun users =>
      users.onCancel host order.id order.side order.price order.qty).updateBook (·.notifyChange)

section Cases

variable (host : Host) {engine : MatchingEngine}

theorem cancelOrder_of_unknown {orderId : Int}
    (unknown : engine.book.index.find? orderId = none) :
    engine.cancelOrder host orderId = .ok (engine, false) := by
  simp only [cancelOrder, OrderBook.findOrder, OrderBook.cancelOrder, unknown, bind, Except.bind,
    pure, Except.pure]
  rfl

theorem cancelOrder_of_stale (sound : engine.book.Sound) {orderId : Int}
    (stale : engine.book.Stale orderId) :
    engine.cancelOrder host orderId = .error .erasedNode := by
  simp only [cancelOrder, sound.findOrder_of_stale stale, bind, Except.bind]

theorem cancelOrder_of_queued (sound : engine.book.Sound) {node : Node}
    (queued : node ∈ engine.book.nodes) :
    engine.cancelOrder host node.order.id = .ok (engine.cancelled host node.order, true) := by
  simp only [cancelOrder, sound.findOrder_of_mem queued, sound.cancelOrder_of_mem queued, bind,
    Except.bind, pure, Except.pure, if_true]
  rfl

/-- Every answer a cancel can give. -/
theorem cancelOrder_cases (sound : engine.book.Sound) {orderId : Int} {next : MatchingEngine}
    {ok : Bool} (answered : engine.cancelOrder host orderId = .ok (next, ok)) :
    (engine.book.index.find? orderId = none ∧ next = engine ∧ ok = false) ∨
    ∃ node ∈ engine.book.nodes, node.order.id = orderId ∧
      next = engine.cancelled host node.order ∧ ok = true := by
  rcases engine.book.unknown_or_resting_or_stale orderId with ⟨unknown, _⟩ | resting | stale
  · rw [cancelOrder_of_unknown host unknown] at answered
    cases answered
    exact Or.inl ⟨unknown, rfl, rfl⟩
  · obtain ⟨node, queued, rfl, _⟩ := sound.index_of_resting resting
    rw [cancelOrder_of_queued host sound queued] at answered
    cases answered
    exact Or.inr ⟨node, queued, rfl, rfl, rfl⟩
  · rw [cancelOrder_of_stale host sound stale] at answered
    cases answered

end Cases

/-- On any book, a cancel that succeeds makes at most one call to the user manager. -/
theorem userManager_of_cancelOrder {host : Host} {engine next : MatchingEngine} {orderId : Int}
    {ok : Bool} (answered : engine.cancelOrder host orderId = .ok (next, ok)) :
    next.userManager = engine.userManager ∨
      ∃ order : Order, next.userManager = engine.userManager.map fun users =>
        users.onCancel host orderId order.side order.price order.qty := by
  unfold cancelOrder at answered
  cases looked : engine.book.findOrder orderId with
  | error fault =>
      rw [looked] at answered
      cases answered
  | ok order =>
      cases cancelled : engine.book.cancelOrder orderId with
      | error fault =>
          rw [looked, cancelled] at answered
          cases answered
      | ok result =>
          obtain ⟨book, done⟩ := result
          rw [looked, cancelled] at answered
          cases done with
          | false =>
              cases answered
              exact Or.inl rfl
          | true =>
              cases order with
              | none =>
                  cases answered
                  exact Or.inl (by simp)
              | some order =>
                  cases answered
                  exact Or.inr ⟨order, by simp⟩

section Fields

variable (host : Host) (engine : MatchingEngine) (order : Order)

@[simp] theorem book_cancelled :
    (engine.cancelled host order).book = (engine.book.withdrawn order).notifyChange := by
  simp [cancelled]

@[simp] theorem userManager_cancelled :
    (engine.cancelled host order).userManager = engine.userManager.map fun users =>
      users.onCancel host order.id order.side order.price order.qty := by
  simp [cancelled]

@[simp] theorem batchSeq_cancelled :
    (engine.cancelled host order).batchSeq = engine.batchSeq + 1 := by
  simp [cancelled]

end Fields

end MatchingEngine

end OrderBookSimulator
