import OrderBookSimulator.Library.Tally
import OrderBookSimulator.Types

/-!
# The lifecycle told by the order events

The events of one id tell the life of its order: opened, partly filled any
number of times, then filled or cancelled and nothing after that.  While the
story is open it ends in the quantity that is still to be traded.
-/

namespace OrderBookSimulator

open Library

/-- The events of one id, in order. -/
def history (events : List OrderEvent) (orderId : Int) : List OrderEvent :=
  events.filter (·.orderId = orderId)

def OrderEvent.isFill (event : OrderEvent) : Prop :=
  event.status = .partiallyFilled ∨ event.status = .filled

instance (event : OrderEvent) : Decidable event.isFill :=
  inferInstanceAs (Decidable (_ ∨ _))

/-- The quantity of the fill events of one id. -/
def filledQty (events : List OrderEvent) (orderId : Int) : Int :=
  tally (fun event : OrderEvent => event.orderId = orderId ∧ event.isFill) (·.qty) events

/--
The stories an order of quantity `original` can leave, with the quantity still
open.  A story that is over, with nothing open, has no continuation.
-/
inductive Lifecycle (original : Int) : List OrderEvent → Option Int → Prop where
  | refused {event : OrderEvent} (final : event.status = .rejected ∨ event.status = .canceled)
      (nothing : event.remainingQty = 0) : Lifecycle original [event] none
  | opened {event : OrderEvent} (new : event.status = .new) (qty : event.qty = original)
      (remaining : event.remainingQty = original) : Lifecycle original [event] (some original)
  | partiallyFilled {events : List OrderEvent} {event : OrderEvent} {left : Int}
      (soFar : Lifecycle original events (some left)) (fill : event.status = .partiallyFilled)
      (remaining : event.remainingQty = left - event.qty) (more : event.remainingQty ≠ 0) :
      Lifecycle original (events ++ [event]) (some event.remainingQty)
  | filled {events : List OrderEvent} {event : OrderEvent} {left : Int}
      (soFar : Lifecycle original events (some left)) (fill : event.status = .filled)
      (remaining : event.remainingQty = left - event.qty) (nothing : event.remainingQty = 0) :
      Lifecycle original (events ++ [event]) none
  | canceled {events : List OrderEvent} {event : OrderEvent} {left : Int}
      (soFar : Lifecycle original events (some left)) (cancel : event.status = .canceled)
      (nothing : event.remainingQty = 0) : Lifecycle original (events ++ [event]) none

/-- The last event of a story says what is still open. -/
theorem Lifecycle.last {original : Int} {events : List OrderEvent} {stage : Option Int}
    (story : Lifecycle original events stage) :
    ∃ earlier last, events = earlier ++ [last] ∧ last.remainingQty = stage.getD 0 := by
  cases story with
  | refused final nothing => exact ⟨[], _, rfl, nothing⟩
  | opened new qty remaining => exact ⟨[], _, rfl, remaining⟩
  | partiallyFilled soFar fill remaining more => exact ⟨_, _, rfl, rfl⟩
  | filled soFar fill remaining nothing => exact ⟨_, _, rfl, nothing⟩
  | canceled soFar cancel nothing => exact ⟨_, _, rfl, nothing⟩

section Append

variable (events : List OrderEvent) (event : OrderEvent) (orderId : Int)

theorem history_append_self :
    history (events ++ [event]) event.orderId = history events event.orderId ++ [event] := by
  simp [history]

theorem history_append_of_ne (other : event.orderId ≠ orderId) :
    history (events ++ [event]) orderId = history events orderId := by
  simp [history, other]

theorem filledQty_append :
    filledQty (events ++ [event]) orderId =
      filledQty events orderId +
        if event.orderId = orderId ∧ event.isFill then event.qty else 0 := by
  rw [filledQty, tally_append, tally_cons, tally_nil, add_zero]
  rfl

end Append

/-! ## The stories of many orders -/

/-- Every order has its story, open at the quantity `openQty` says. -/
def Lifecycles (events : List OrderEvent) (orders : List Order) (openQty : Int → Int) : Prop :=
  ∀ order ∈ orders, ∃ stage, Lifecycle order.qty (history events order.id) stage ∧
    stage.getD 0 = openQty order.id ∧ ∀ left, stage = some left → 0 < left

namespace Lifecycles

variable {events : List OrderEvent} {orders : List Order} {openQty openQty' : Int → Int}

theorem congr (stories : Lifecycles events orders openQty)
    (same : ∀ order ∈ orders, openQty' order.id = openQty order.id) :
    Lifecycles events orders openQty' := by
  intro order member
  obtain ⟨stage, story, left, positive⟩ := stories order member
  exact ⟨stage, story, left.trans (same order member).symm, positive⟩

/-- A story with something open has not ended. -/
theorem story_of_open (stories : Lifecycles events orders openQty) {order : Order}
    (member : order ∈ orders) (isOpen : 0 < openQty order.id) :
    Lifecycle order.qty (history events order.id) (some (openQty order.id)) := by
  obtain ⟨stage, story, left, _⟩ := stories order member
  cases stage with
  | none =>
      rw [← left] at isOpen
      exact absurd isOpen (by decide)
  | some left' =>
      obtain rfl : left' = openQty order.id := left
      exact story

/-- Events of one id leave the stories of the others alone. -/
theorem frame (stories : Lifecycles events orders openQty) {event : OrderEvent} {order : Order}
    (member : order ∈ orders) (other : event.orderId ≠ order.id)
    (same : openQty' order.id = openQty order.id) :
    ∃ stage, Lifecycle order.qty (history (events ++ [event]) order.id) stage ∧
      stage.getD 0 = openQty' order.id ∧ ∀ left, stage = some left → 0 < left := by
  obtain ⟨stage, story, left, positive⟩ := stories order member
  rw [history_append_of_ne events event order.id other]
  exact ⟨stage, story, left.trans same.symm, positive⟩

/-- A fill event continues or ends an open story. -/
theorem fill (stories : Lifecycles events orders openQty) {event : OrderEvent}
    (isOpen : 0 < openQty event.orderId)
    (remaining : event.remainingQty = openQty event.orderId - event.qty)
    (nonneg : 0 ≤ event.remainingQty)
    (status : event.status = if event.remainingQty = 0 then .filled else .partiallyFilled)
    (moved : ∀ orderId, openQty' orderId =
      if event.orderId = orderId then event.remainingQty else openQty orderId) :
    Lifecycles (events ++ [event]) orders openQty' := by
  intro order member
  have now := moved order.id
  by_cases own : event.orderId = order.id
  · rw [if_pos own] at now
    rw [own] at isOpen remaining
    have story := stories.story_of_open member isOpen
    rw [← own] at story ⊢
    rw [history_append_self, own, now]
    rw [own] at story
    by_cases finished : event.remainingQty = 0
    · rw [if_pos finished] at status
      exact ⟨none, .filled story status remaining finished, finished.symm, by simp⟩
    · rw [if_neg finished] at status
      refine ⟨_, .partiallyFilled story status remaining finished, rfl, ?_⟩
      rintro left ⟨rfl⟩
      omega
  · rw [if_neg own] at now
    exact stories.frame member own now

/-- A cancel event ends an open story. -/
theorem cancel (stories : Lifecycles events orders openQty) {event : OrderEvent}
    (isOpen : 0 < openQty event.orderId) (status : event.status = .canceled)
    (nothing : event.remainingQty = 0)
    (moved : ∀ orderId, openQty' orderId =
      if event.orderId = orderId then 0 else openQty orderId) :
    Lifecycles (events ++ [event]) orders openQty' := by
  intro order member
  have now := moved order.id
  by_cases own : event.orderId = order.id
  · rw [if_pos own] at now
    rw [own] at isOpen
    have story := stories.story_of_open member isOpen
    rw [← own, history_append_self, own, now]
    exact ⟨none, .canceled story status nothing, rfl, by simp⟩
  · rw [if_neg own] at now
    exact stories.frame member own now

/-- The first event of an id begins its story. -/
theorem enter (stories : Lifecycles events orders openQty) {order : Order} {event : OrderEvent}
    {stage : Option Int} (own : event.orderId = order.id)
    (unmentioned : history events order.id = [])
    (fresh : ∀ old ∈ orders, old.id ≠ order.id) (story : Lifecycle order.qty [event] stage)
    (left : stage.getD 0 = openQty' order.id) (positive : ∀ left, stage = some left → 0 < left)
    (others : ∀ old ∈ orders, openQty' old.id = openQty old.id) :
    Lifecycles (events ++ [event]) (orders ++ [order]) openQty' := by
  intro other member
  rcases List.mem_append.mp member with old | new
  · exact stories.frame old (by rw [own]; exact (fresh other old).symm) (others other old)
  · obtain rfl := List.mem_singleton.mp new
    refine ⟨stage, ?_, left, positive⟩
    rw [← own, history_append_self, own, unmentioned]
    exact story

end Lifecycles

end OrderBookSimulator
