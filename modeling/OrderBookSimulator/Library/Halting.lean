import Mathlib.Algebra.BigOperators.Group.List.Basic
import Mathlib.Algebra.Ring.Nat
import Mathlib.Data.Prod.Lex
import Mathlib.Order.WellFounded
import OrderBookSimulator.Library.Run

/-!
# Machines that come to a halt

Some of the calls a machine answers may be made again and again only so often:
each of them brings down a measure in a well-founded order.  Then there is no
endless sequence of such calls, and from every state the machine can be brought
to one in which none of them is answered.
-/

namespace OrderBookSimulator.Library

universe u

variable {State Call Reply Fault : Type u} {step : State → Call → Except Fault (State × Reply)}
  {Own : Call → Prop}

/-- The machine answers none of these calls. -/
def Halted (step : State → Call → Except Fault (State × Reply)) (Own : Call → Prop)
    (state : State) : Prop :=
  ∀ call, Own call → ∀ next reply, step state call ≠ .ok (next, reply)

/-- States without end, each from the last by one of these calls. -/
def Endless (step : State → Call → Except Fault (State × Reply)) (Own : Call → Prop)
    (states : Nat → State) : Prop :=
  ∀ n, ∃ call reply, Own call ∧ step (states n) call = .ok (states (n + 1), reply)

section Measure

variable {Measure : Type*} [LT Measure] [WellFoundedLT Measure] {measure : State → Measure}

variable (measure) in
/-- What brings down a measure in the states it passes cannot be done for ever. -/
theorem not_endless_within (Within : State → Prop)
    (falls : ∀ state call next reply, Within state → Own call →
      step state call = .ok (next, reply) → measure next < measure state)
    (states : Nat → State) (within : ∀ n, Within (states n)) : ¬ Endless step Own states := by
  intro endless
  obtain ⟨n, notLess⟩ := WellFounded.not_rel_apply_succ (r := (· < ·)) fun n => measure (states n)
  obtain ⟨call, reply, own, answered⟩ := endless n
  exact notLess (falls _ call _ reply (within n) own answered)

/-- What always brings down a measure cannot be done for ever. -/
theorem not_endless
    (falls : ∀ state call next reply, Own call → step state call = .ok (next, reply) →
      measure next < measure state)
    (states : Nat → State) : ¬ Endless step Own states :=
  not_endless_within measure (fun _ => True)
    (fun state call next reply _ => falls state call next reply) states fun _ => trivial

variable (measure) in
/-- Where something can be done that brings the machine closer, it can be run until it is there. -/
theorem reaches (Within There : State → Prop)
    (moves : ∀ state, Within state → ¬ There state → ∃ call next reply, Own call ∧
      step state call = .ok (next, reply) ∧ Within next ∧ measure next < measure state)
    {start : State} (within : Within start) :
    ∃ log last, Run step (fun _ => Own) start log last ∧ There last := by
  -- Of the states that can be reached, one has the least measure.
  let Reached : Set State := fun state => Within state ∧
    ∃ log, Run step (fun _ => Own) start log state
  obtain ⟨last, ⟨withinLast, log, run⟩, least⟩ :=
    (InvImage.wf measure wellFounded_lt).has_min Reached ⟨start, within, [], .nil⟩
  refine ⟨log, last, run, by_contra fun away => ?_⟩
  obtain ⟨call, next, reply, own, answered, withinNext, less⟩ := moves last withinLast away
  exact least next ⟨withinNext, _, .snoc run own answered⟩ less

/-- The machine can be run until it halts. -/
theorem halts
    (falls : ∀ state call next reply, Own call → step state call = .ok (next, reply) →
      measure next < measure state)
    (start : State) :
    ∃ log last, Run step (fun _ => Own) start log last ∧ Halted step Own last := by
  refine reaches measure (fun _ => True) (Halted step Own) (fun state _ awake => ?_) trivial
  unfold Halted at awake
  push Not at awake
  obtain ⟨call, own, next, reply, answered⟩ := awake
  exact ⟨call, next, reply, own, answered, trivial, falls state call next reply own answered⟩

end Measure

/-- A sum over the parts of a state, when one part is replaced. -/
theorem sum_map_set {Part : Type*} (weigh : Part → Nat) {parts : List Part} {index : Nat}
    {part : Part} (found : parts[index]? = some part) (other : Part) :
    ((parts.set index other).map weigh).sum + weigh part =
      (parts.map weigh).sum + weigh other := by
  induction parts generalizing index with
  | nil => cases found
  | cons first rest ih =>
      cases index with
      | zero =>
          obtain rfl := Option.some.inj found
          simp only [List.set_cons_zero, List.map_cons, List.sum_cons]
          omega
      | succ index =>
          have later := ih (List.getElem?_cons_succ.symm.trans found)
          simp only [List.set_cons_succ, List.map_cons, List.sum_cons]
          omega

end OrderBookSimulator.Library
