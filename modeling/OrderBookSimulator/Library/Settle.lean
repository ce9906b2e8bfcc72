/-!
# Repeating a partial step until it stops

A loop whose body may decline to run is a partial step `State → Option State`.
The loop's result is the state where the step first declines.  Invariants of
one step are invariants of the result, and two loops whose steps match one for
one end in matching states.
-/

namespace OrderBookSimulator.Library

universe u v

variable {State : Type u} {Other : Type v}

/-- Take at most `fuel` steps, stopping early where the step declines. -/
def iterate (step : State → Option State) : Nat → State → State
  | 0, state => state
  | fuel + 1, state =>
      match step state with
      | none => state
      | some next => iterate step fuel next

/-- Repeating `step` from `first` comes to rest in `last`. -/
def Settles (step : State → Option State) (first last : State) : Prop :=
  (∃ fuel, iterate step fuel first = last) ∧ step last = none

section Iterate

variable {step : State → Option State}

theorem iterate_of_none {state : State} (stopped : step state = none) (fuel : Nat) :
    iterate step fuel state = state := by
  cases fuel with
  | zero => rfl
  | succ fuel => simp only [iterate, stopped]

theorem iterate_succ_of_some {state next : State} (moves : step state = some next) (fuel : Nat) :
    iterate step (fuel + 1) state = iterate step fuel next := by
  simp only [iterate, moves]

/-- What one step preserves, any number of steps preserves. -/
theorem iterate_invariant {Inv : State → Prop}
    (preserved : ∀ state next, Inv state → step state = some next → Inv next)
    {state : State} (initial : Inv state) (fuel : Nat) : Inv (iterate step fuel state) := by
  induction fuel generalizing state with
  | zero => exact initial
  | succ fuel ih =>
      cases moves : step state with
      | none =>
          rw [iterate_of_none moves]
          exact initial
      | some next =>
          rw [iterate_succ_of_some moves]
          exact ih (preserved state next initial moves)

/-- Once the step has declined, more fuel changes nothing. -/
theorem iterate_of_le {state : State} {fuel more : Nat}
    (stopped : step (iterate step fuel state) = none) (enough : fuel ≤ more) :
    iterate step more state = iterate step fuel state := by
  induction fuel generalizing state more with
  | zero => exact iterate_of_none stopped more
  | succ fuel ih =>
      cases moves : step state with
      | none => rw [iterate_of_none moves, iterate_of_none moves]
      | some next =>
          cases more with
          | zero => cases enough
          | succ more =>
              rw [iterate_succ_of_some moves, iterate_succ_of_some moves]
              rw [iterate_succ_of_some moves] at stopped
              exact ih stopped (Nat.le_of_succ_le_succ enough)

end Iterate

namespace Settles

variable {step : State → Option State}

theorem refl {state : State} (stopped : step state = none) : Settles step state state :=
  ⟨⟨0, rfl⟩, stopped⟩

/-- Fuel that bounds a measure each step lowers is enough. -/
theorem of_measure (measure : State → Nat)
    (lowers : ∀ state next, step state = some next → measure next < measure state)
    {state : State} {fuel : Nat} (enough : measure state ≤ fuel) :
    Settles step state (iterate step fuel state) := by
  refine ⟨⟨fuel, rfl⟩, ?_⟩
  induction fuel generalizing state with
  | zero =>
      cases moves : step state with
      | none => exact moves
      | some next =>
          have lower := lowers state next moves
          omega
  | succ fuel ih =>
      cases moves : step state with
      | none =>
          rw [iterate_of_none moves]
          exact moves
      | some next =>
          have lower := lowers state next moves
          rw [iterate_succ_of_some moves]
          exact ih (by omega)

theorem head {first next last : State} (moves : step first = some next)
    (rest : Settles step next last) : Settles step first last := by
  obtain ⟨⟨fuel, reached⟩, stopped⟩ := rest
  refine ⟨⟨fuel + 1, ?_⟩, stopped⟩
  rw [iterate_succ_of_some moves, reached]

theorem tail {first next last : State} (settles : Settles step first last)
    (moves : step first = some next) : Settles step next last := by
  obtain ⟨⟨fuel, reached⟩, stopped⟩ := settles
  cases fuel with
  | zero =>
      obtain rfl : first = last := reached
      rw [moves] at stopped
      cases stopped
  | succ fuel =>
      rw [iterate_succ_of_some moves] at reached
      exact ⟨⟨fuel, reached⟩, stopped⟩

theorem stopped {first last : State} (settles : Settles step first last) : step last = none :=
  settles.2

theorem invariant (Inv : State → Prop) {first last : State} (settles : Settles step first last)
    (preserved : ∀ state next, Inv state → step state = some next → Inv next)
    (initial : Inv first) : Inv last := by
  obtain ⟨⟨fuel, rfl⟩, _⟩ := settles
  exact iterate_invariant preserved initial fuel

/-- Enough fuel computes the state of rest. -/
theorem exists_fuel {first last : State} (settles : Settles step first last) :
    ∃ fuel, ∀ more, fuel ≤ more → iterate step more first = last := by
  obtain ⟨⟨fuel, rfl⟩, stopped⟩ := settles
  exact ⟨fuel, fun _ enough => iterate_of_le stopped enough⟩

theorem unique {first last other : State} (settles : Settles step first last)
    (settlesOther : Settles step first other) : last = other := by
  obtain ⟨fuel, reaches⟩ := settles.exists_fuel
  obtain ⟨fuel', reaches'⟩ := settlesOther.exists_fuel
  rw [← reaches (max fuel fuel') (Nat.le_max_left _ _),
    reaches' (max fuel fuel') (Nat.le_max_right _ _)]

/-- A step that declines at once leaves the loop where it was. -/
theorem eq_of_none {first last : State} (settles : Settles step first last)
    (stopped : step first = none) : last = first :=
  settles.unique (.refl stopped)

/-- Two loops whose steps stay matched, and decline together, end matched. -/
theorem simulate {stepOther : Other → Option Other} (Rel : State → Other → Prop)
    (matched : ∀ state other, Rel state other →
      (step state = none ∧ stepOther other = none) ∨
      ∃ next nextOther, step state = some next ∧ stepOther other = some nextOther ∧
        Rel next nextOther)
    {first last : State} {firstOther lastOther : Other} (related : Rel first firstOther)
    (settles : Settles step first last)
    (settlesOther : Settles stepOther firstOther lastOther) : Rel last lastOther := by
  obtain ⟨fuel, reaches⟩ := settles.exists_fuel
  obtain ⟨fuel', reaches'⟩ := settlesOther.exists_fuel
  rw [← reaches (max fuel fuel') (Nat.le_max_left _ _),
    ← reaches' (max fuel fuel') (Nat.le_max_right _ _)]
  generalize max fuel fuel' = bound
  clear settles settlesOther reaches reaches'
  induction bound generalizing first firstOther with
  | zero => exact related
  | succ bound ih =>
      rcases matched first firstOther related with
        ⟨stops, stopsOther⟩ | ⟨next, nextOther, moves, movesOther, relatedNext⟩
      · rw [iterate_of_none stops, iterate_of_none stopsOther]
        exact related
      · rw [iterate_succ_of_some moves, iterate_succ_of_some movesOther]
        exact ih relatedNext

end Settles

end OrderBookSimulator.Library
