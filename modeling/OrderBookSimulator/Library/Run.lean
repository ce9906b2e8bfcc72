import Mathlib.Data.List.Forall2

/-!
# Runs of a called machine

A machine answers calls: in each state a call either fails or gives a reply and
the next state.  A run is a sequence of answered calls, kept as a log.  Which
calls the caller may make next is a predicate of the log so far.
-/

namespace OrderBookSimulator.Library

universe u v

variable {State Call Reply Fault : Type u} {OtherState OtherCall OtherReply OtherFault : Type v}

/-- A step made of two succeeds where both of them do. -/
theorem exists_of_bind {Middle : Type u} {first : Except Fault Middle}
    {rest : Middle → Except Fault State} {result : State} (both : first >>= rest = .ok result) :
    ∃ middle, first = .ok middle ∧ rest middle = .ok result := by
  cases first with
  | error fault => cases both
  | ok middle => exact ⟨middle, rfl, both⟩

/-- One answered call, with the states around it. -/
structure Transition (State Call Reply : Type u) where
  before : State
  call : Call
  reply : Reply
  after : State

/-- The logs a caller can produce from `start` within `Allowed`, and where they end. -/
inductive Run (step : State → Call → Except Fault (State × Reply))
    (Allowed : List (Transition State Call Reply) → Call → Prop) (start : State) :
    List (Transition State Call Reply) → State → Prop where
  | nil : Run step Allowed start [] start
  | snoc {log : List (Transition State Call Reply)} {state next : State} {call : Call}
      {reply : Reply} (past : Run step Allowed start log state) (allowed : Allowed log call)
      (answered : step state call = .ok (next, reply)) :
      Run step Allowed start (log ++ [⟨state, call, reply, next⟩]) next

/-- Make a list of calls; `none` where one is not allowed or fails. -/
def drive (step : State → Call → Except Fault (State × Reply))
    (Allowed : List (Transition State Call Reply) → Call → Prop)
    [∀ log call, Decidable (Allowed log call)] :
    List (Transition State Call Reply) → State → List Call →
      Option (List (Transition State Call Reply) × State)
  | log, state, [] => some (log, state)
  | log, state, call :: rest =>
      if Allowed log call then
        match step state call with
        | .error _ => none
        | .ok (next, reply) => drive step Allowed (log ++ [⟨state, call, reply, next⟩]) next rest
      else none

namespace Run

variable {step : State → Call → Except Fault (State × Reply)}
  {Allowed : List (Transition State Call Reply) → Call → Prop} {start : State}

/-- A property of log and state that every allowed call preserves holds after every run. -/
theorem invariant (Inv : List (Transition State Call Reply) → State → Prop)
    (initial : Inv [] start)
    (preserved : ∀ log state call reply next, Run step Allowed start log state →
      Inv log state → Allowed log call → step state call = .ok (next, reply) →
      Inv (log ++ [⟨state, call, reply, next⟩]) next)
    {log : List (Transition State Call Reply)} {state : State}
    (run : Run step Allowed start log state) : Inv log state := by
  induction run with
  | nil => exact initial
  | snoc past allowed answered ih => exact preserved _ _ _ _ _ past ih allowed answered

/-- A caller who is allowed less makes runs of one who is allowed more. -/
theorem mono {More : List (Transition State Call Reply) → Call → Prop}
    (more : ∀ log call, Allowed log call → More log call)
    {log : List (Transition State Call Reply)} {state : State}
    (run : Run step Allowed start log state) : Run step More start log state := by
  induction run with
  | nil => exact .nil
  | snoc past allowed answered ih => exact .snoc ih (more _ _ allowed) answered

/-- Driving a machine produces a run. -/
theorem of_drive [∀ log call, Decidable (Allowed log call)]
    {log log' : List (Transition State Call Reply)} {state state' : State} {calls : List Call}
    (past : Run step Allowed start log state)
    (drives : drive step Allowed log state calls = some (log', state')) :
    Run step Allowed start log' state' := by
  induction calls generalizing log state with
  | nil =>
      cases drives
      exact past
  | cons call rest ih =>
      rw [drive] at drives
      split at drives
      · rename_i allowed
        split at drives
        · cases drives
        · rename_i next reply answered
          exact ih (.snoc past allowed answered) drives
      · cases drives

/-- A list of calls that can be made in full produces a run. -/
theorem of_isSome (step : State → Call → Except Fault (State × Reply))
    (Allowed : List (Transition State Call Reply) → Call → Prop)
    [∀ log call, Decidable (Allowed log call)] (start : State) (calls : List Call)
    (completes : (drive step Allowed [] start calls).isSome = true) :
    Run step Allowed start ((drive step Allowed [] start calls).get completes).1
      ((drive step Allowed [] start calls).get completes).2 :=
  of_drive .nil (Option.some_get completes).symm

/-- A log of one call is that call, made in the state the run starts from. -/
theorem of_singleton {entry : Transition State Call Reply} {state : State}
    (run : Run step Allowed start [entry] state) :
    entry.before = start ∧ step start entry.call = .ok (state, entry.reply) ∧
      entry.after = state := by
  generalize logEq : [entry] = log at run
  cases run with
  | nil => cases logEq
  | snoc past allowed answered =>
      obtain ⟨rfl, sameEntry⟩ := List.append_inj' ((List.nil_append [entry]).trans logEq) rfl
      cases sameEntry
      generalize emptyLog : ([] : List (Transition State Call Reply)) = log at past
      cases past with
      | nil => exact ⟨rfl, answered, rfl⟩
      | snoc => simp at emptyLog

/-- Each logged call was made at the end of a shorter run. -/
theorem of_mem {log : List (Transition State Call Reply)} {state : State}
    (run : Run step Allowed start log state) {entry : Transition State Call Reply}
    (member : entry ∈ log) :
    ∃ past, Run step Allowed start past entry.before ∧ Allowed past entry.call ∧
      step entry.before entry.call = .ok (entry.after, entry.reply) ∧
      past ++ [entry] <+: log := by
  induction run with
  | nil => cases member
  | snoc past allowed answered ih =>
      rcases List.mem_append.mp member with earlier | last
      · obtain ⟨shorter, run, allowedThen, answeredThen, isPrefix⟩ := ih earlier
        exact ⟨shorter, run, allowedThen, answeredThen,
          isPrefix.trans (List.prefix_append _ _)⟩
      · obtain rfl := List.mem_singleton.mp last
        exact ⟨_, past, allowed, answered, List.prefix_rfl⟩

/-- What a log begins with was a run, and what came next was answered at its end. -/
theorem of_prefix {log : List (Transition State Call Reply)} {state : State}
    (run : Run step Allowed start log state) {past : List (Transition State Call Reply)}
    {entry : Transition State Call Reply} (isPrefix : past ++ [entry] <+: log) :
    Run step Allowed start past entry.before ∧
      step entry.before entry.call = .ok (entry.after, entry.reply) := by
  induction run with
  | nil => simp at isPrefix
  | snoc earlier allowed answered ih =>
      rcases List.prefix_concat_iff.mp isPrefix with whole | shorter
      · obtain ⟨rfl, sameEntry⟩ := List.append_inj' whole rfl
        cases sameEntry
        exact ⟨earlier, answered⟩
      · exact ih shorter

/--
Replay on a second machine.  If every kept call is answered there by a
transition that matches, and every dropped call leaves the second machine
related where it stands, then the kept part of the log is a log of the second
machine, transition by transition.
-/
theorem replay (stepOther : OtherState → OtherCall → Except OtherFault (OtherState × OtherReply))
    {startOther : OtherState} (keep : Transition State Call Reply → Bool)
    (Rel : List (Transition State Call Reply) → State → OtherState → Prop)
    (Match : Transition State Call Reply → Transition OtherState OtherCall OtherReply → Prop)
    (initial : Rel [] start startOther)
    (kept : ∀ log state call reply next other, Run step Allowed start log state →
      Rel log state other → Allowed log call → step state call = .ok (next, reply) →
      keep ⟨state, call, reply, next⟩ = true →
      ∃ callOther replyOther nextOther,
        stepOther other callOther = .ok (nextOther, replyOther) ∧
        Rel (log ++ [⟨state, call, reply, next⟩]) next nextOther ∧
        Match ⟨state, call, reply, next⟩ ⟨other, callOther, replyOther, nextOther⟩)
    (dropped : ∀ log state call reply next other, Run step Allowed start log state →
      Rel log state other → Allowed log call → step state call = .ok (next, reply) →
      keep ⟨state, call, reply, next⟩ = false →
      Rel (log ++ [⟨state, call, reply, next⟩]) next other)
    {log : List (Transition State Call Reply)} {state : State}
    (run : Run step Allowed start log state) :
    ∃ logOther other,
      Run stepOther (fun _ _ => True) startOther logOther other ∧
      Rel log state other ∧ List.Forall₂ Match (log.filter keep) logOther := by
  induction run with
  | nil => exact ⟨[], startOther, .nil, initial, .nil⟩
  | @snoc log state next call reply past allowed answered ih =>
      obtain ⟨logOther, other, runOther, related, matched⟩ := ih
      cases hkeep : keep ⟨state, call, reply, next⟩ with
      | false =>
          refine ⟨logOther, other, runOther,
            dropped log state call reply next other past related allowed answered hkeep, ?_⟩
          simpa [hkeep] using matched
      | true =>
          obtain ⟨callOther, replyOther, nextOther, answeredOther, relatedNext, matchedNext⟩ :=
            kept log state call reply next other past related allowed answered hkeep
          refine ⟨_, nextOther, .snoc runOther trivial answeredOther, relatedNext, ?_⟩
          rw [List.filter_append]
          simpa [hkeep] using List.rel_append matched (.cons matchedNext .nil)

end Run

end OrderBookSimulator.Library
