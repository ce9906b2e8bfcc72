import OrderBookSimulator.Engine.MatchingEngine
import OrderBookSimulator.Book.Changes
import OrderBookSimulator.Library.Run
import OrderBookSimulator.Library.Tally

/-!
# Sessions

A session is a run of calls on one engine.  What callers do is a discipline on
the log so far: ordinary callers submit each order under an id that was not
used before and never cancel an order that is already fully filled.
-/

namespace OrderBookSimulator

open Library

inductive Call where
  | nextOrderId
  | addRestingOrder (order : Order)
  | processOrder (order : Order)
  | cancelOrder (orderId : Int)
  deriving DecidableEq, Repr

inductive Reply where
  | orderId (orderId : Int)
  | done
  | result (result : OrderResult)
  | cancelled (ok : Bool)
  deriving DecidableEq, Repr

/-- Answer one call; following an erased node is the only way to fail. -/
def exec (host : Host) (engine : MatchingEngine) : Call → Except Fault (MatchingEngine × Reply)
  | .nextOrderId => .ok (engine.nextOrderId.1, .orderId engine.nextOrderId.2)
  | .addRestingOrder order => .ok (engine.updateBook (·.addRestingOrder order), .done)
  | .processOrder order =>
      .ok ((engine.processOrder host order).1, .result (engine.processOrder host order).2)
  | .cancelOrder orderId => do
      let (engine, ok) ← engine.cancelOrder host orderId
      pure (engine, .cancelled ok)

section Cancels

variable {host : Host} {engine next : MatchingEngine} {orderId : Int} {ok : Bool} {reply : Reply}

theorem exec_cancelOrder (cancels : engine.cancelOrder host orderId = .ok (next, ok)) :
    exec host engine (.cancelOrder orderId) = .ok (next, .cancelled ok) := by
  rw [exec, cancels]
  rfl

theorem cancelOrder_of_exec
    (answer : exec host engine (.cancelOrder orderId) = .ok (next, reply)) :
    ∃ ok, engine.cancelOrder host orderId = .ok (next, ok) ∧ reply = .cancelled ok := by
  obtain ⟨⟨cancelled, ok⟩, cancels, made⟩ := exists_of_bind answer
  cases made
  exact ⟨ok, cancels, rfl⟩

end Cancels

/-- The engine with an empty book behind it. -/
def MatchingEngine.onEmptyBook (engine : MatchingEngine) (onChange : Option (List Snapshot)) :
    MatchingEngine :=
  { engine with book := { onChange } }

abbrev Entry := Transition MatchingEngine Call Reply

abbrev Log := List Entry

/-- The order a call submits. -/
def Call.submitted : Call → Option Order
  | .processOrder order => some order
  | _ => none

namespace Entry

/-- The order a call submitted and preflight let through. -/
def accepted (entry : Entry) : Option Order :=
  match entry.call, entry.reply with
  | .processOrder order, .result result =>
      if result.status = .rejected ∨ result.status = .canceled then none else some order
  | _, _ => none

def trades (entry : Entry) : List Trade :=
  match entry.reply with
  | .result result => result.trades
  | _ => []

/-- The quantity of an id that the call took out of the book by cancelling. -/
def cancelledQty (entry : Entry) (orderId : Int) : Int :=
  match entry.call, entry.reply with
  | .cancelOrder cancelledId, .cancelled true =>
      if cancelledId = orderId then entry.before.book.restingQty orderId else 0
  | _, _ => 0

/-- The quantity of an id that the call left neither traded nor resting. -/
def droppedQty (entry : Entry) (orderId : Int) : Int :=
  match entry.call, entry.reply with
  | .processOrder order, .result result =>
      if order.id = orderId ∧ order.type = .market then result.remainingQty else 0
  | _, _ => 0

end Entry

namespace Log

def submitted (log : Log) : List Order := log.filterMap (·.call.submitted)

def submittedIds (log : Log) : List Int := log.submitted.map (·.id)

def acceptedOrders (log : Log) : List Order := log.filterMap Entry.accepted

/-- Every trade returned so far, oldest first. -/
def trades (log : Log) : List Trade := log.flatMap Entry.trades

def cancelledQty (log : Log) (orderId : Int) : Int :=
  (log.map (·.cancelledQty orderId)).sum

def droppedQty (log : Log) (orderId : Int) : Int :=
  (log.map (·.droppedQty orderId)).sum

section Append

variable (log : Log) (entry : Entry) (orderId : Int)

@[simp] theorem submitted_append :
    submitted (log ++ [entry]) = log.submitted ++ entry.call.submitted.toList := by
  unfold submitted
  rw [List.filterMap_append]
  cases submitted : entry.call.submitted <;> simp [submitted]

@[simp] theorem submittedIds_append :
    submittedIds (log ++ [entry]) =
      log.submittedIds ++ (entry.call.submitted.map (·.id)).toList := by
  rw [submittedIds, submitted_append, List.map_append]
  cases entry.call.submitted <;> rfl

@[simp] theorem acceptedOrders_append :
    acceptedOrders (log ++ [entry]) = log.acceptedOrders ++ entry.accepted.toList := by
  unfold acceptedOrders
  rw [List.filterMap_append]
  cases accepted : entry.accepted <;> simp [accepted]

@[simp] theorem trades_append : trades (log ++ [entry]) = log.trades ++ entry.trades := by
  simp [trades]

@[simp] theorem cancelledQty_append :
    cancelledQty (log ++ [entry]) orderId =
      log.cancelledQty orderId + entry.cancelledQty orderId := by
  simp [cancelledQty]

@[simp] theorem droppedQty_append :
    droppedQty (log ++ [entry]) orderId = log.droppedQty orderId + entry.droppedQty orderId := by
  simp [droppedQty]

end Append

end Log

/-- What an order traded as the resting side. -/
def makerQty (trades : List Trade) (orderId : Int) : Int :=
  tally (fun trade : Trade => trade.makerId = orderId) (·.qty) trades

/-- What an order traded as the incoming side. -/
def takerQty (trades : List Trade) (orderId : Int) : Int :=
  tally (fun trade : Trade => trade.takerId = orderId) (·.qty) trades

section Traded

variable (first second : List Trade) (orderId : Int)

@[simp] theorem makerQty_append :
    makerQty (first ++ second) orderId = makerQty first orderId + makerQty second orderId :=
  tally_append _ _

@[simp] theorem takerQty_append :
    takerQty (first ++ second) orderId = takerQty first orderId + takerQty second orderId :=
  tally_append _ _

end Traded

/-- The order's quantity, submitted or resting at the start, has been traded completely. -/
def FullyFilled (start : MatchingEngine) (log : Log) (orderId : Int) : Prop :=
  start.book.Stale orderId ∨
    ∃ order ∈ start.book.resting ++ log.acceptedOrders, order.id = orderId ∧
      order.qty = makerQty log.trades orderId + takerQty log.trades orderId

instance (start : MatchingEngine) (log : Log) (orderId : Int) :
    Decidable (FullyFilled start log orderId) :=
  inferInstanceAs (Decidable (_ ∨ _))

/-- The id occurs in the book a session starts from or in an earlier submission. -/
def Used (start : MatchingEngine) (log : Log) (orderId : Int) : Prop :=
  (start.book.index.find? orderId).isSome ∨ orderId ∈ log.submittedIds

instance (start : MatchingEngine) (log : Log) (orderId : Int) :
    Decidable (Used start log orderId) :=
  inferInstanceAs (Decidable (_ ∨ _))

theorem Used.append {start : MatchingEngine} {log : Log} {orderId : Int}
    (used : Used start log orderId) (entry : Entry) : Used start (log ++ [entry]) orderId := by
  rcases used with found | submitted
  · exact Or.inl found
  · exact Or.inr (by simp [submitted])

/-- The calls ordinary callers make. -/
def Ordinary (start : MatchingEngine) (log : Log) : Call → Prop
  | .nextOrderId => True
  | .addRestingOrder _ => False
  | .processOrder order => ¬ Used start log order.id
  | .cancelOrder orderId => ¬ FullyFilled start log orderId

instance (start : MatchingEngine) (log : Log) (call : Call) :
    Decidable (Ordinary start log call) := by
  cases call <;> unfold Ordinary <;> infer_instance

/-- Runs of ordinary calls. -/
abbrev Session (host : Host) (start : MatchingEngine) : Log → MatchingEngine → Prop :=
  Run (exec host) (Ordinary start) start

/-- Runs of arbitrary calls with arbitrary ids. -/
abbrev AnySession (host : Host) (start : MatchingEngine) : Log → MatchingEngine → Prop :=
  Run (exec host) (fun _ _ => True) start

/-- A call that a request or a tick makes; only seeding adds to the book directly. -/
def Call.Requested : Call → Prop
  | .addRestingOrder _ => False
  | _ => True

instance : DecidablePred Call.Requested := by
  intro call
  cases call <;> unfold Call.Requested <;> infer_instance

/-- Runs of requests with arbitrary ids. -/
abbrev Requests (host : Host) (start : MatchingEngine) : Log → MatchingEngine → Prop :=
  Run (exec host) (fun _ call => call.Requested) start

end OrderBookSimulator
