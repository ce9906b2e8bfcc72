import OrderBookSimulator.User.Connecting

/-!
# Fresh user ids

`next_user_id` takes the counter and adds one; `reconnect_user` raises the
counter above the id it is asked for.  Whatever the interleaving, every id that
a call has settled on lies below the counter, until the counter overflows.
-/

namespace OrderBookSimulator

open Library

/-- The step is to store `2 ^ 63` in `next_id_`. -/
def Connecting.Overflows (spurious : Bool) (ids : UserIds) : Connecting → Prop
  | .fetchAdd => ids.nextId = longLongMax
  | .exchange uid expected => ids.nextId = expected ∧ spurious = false ∧ uid = longLongMax
  | .assign _ | .load _ | .emplace _ | .returned _ => False

instance (spurious : Bool) (ids : UserIds) (stage : Connecting) :
    Decidable (stage.Overflows spurious ids) :=
  match stage with
  | .fetchAdd => inferInstanceAs (Decidable (_ = _))
  | .exchange _ _ => inferInstanceAs (Decidable (_ ∧ _ ∧ _))
  | .assign _ | .load _ | .emplace _ | .returned _ => inferInstanceAs (Decidable False)

/-- The step is to be taken by a call that overflows. -/
def Connects.Overflows (state : Connects) : ConnectStep → Prop
  | .called _ => False
  | .advance call spurious =>
      ∃ stage ∈ state.calls[call]?, stage.Overflows spurious state.ids

instance (state : Connects) (step : ConnectStep) : Decidable (state.Overflows step) :=
  match step with
  | .called _ => inferInstanceAs (Decidable False)
  | .advance call spurious =>
      inferInstanceAs (Decidable (∃ stage ∈ state.calls[call]?,
        stage.Overflows spurious state.ids))

abbrev ConnectEntry := Transition Connects ConnectStep Unit

namespace ConnectEntry

/-- The id a `fetch_add` hands to its call. -/
def drawn (entry : ConnectEntry) : Option Int :=
  match entry.call with
  | .called _ => none
  | .advance call _ =>
      if entry.before.calls[call]? = some .fetchAdd then
        entry.after.calls[call]?.bind Connecting.settled
      else none

/-- A new id is positive, no call has settled on it, and the counter does not fall. -/
structure Fresh (entry : ConnectEntry) : Prop where
  positive : ∀ id, entry.drawn = some id → 0 < id
  unused : ∀ id, entry.drawn = some id →
    ∀ call ∈ entry.before.calls, call.settled ≠ some id
  monotone : entry.before.ids.nextId ≤ entry.after.ids.nextId

end ConnectEntry

namespace Connecting

/-- Where a call may stand when the counter has come to `nextId`. -/
def Behind (nextId : Int) : Connecting → Prop
  | .fetchAdd => True
  | .load uid => 0 < uid ∧ uid ≤ longLongMax
  | .exchange uid expected =>
      0 < uid ∧ uid ≤ longLongMax ∧ expected ≤ uid ∧ expected ≤ nextId
  | .assign id | .emplace id | .returned id => 0 < id ∧ id < nextId

theorem Behind.mono {nextId later : Int} (le : nextId ≤ later) {stage : Connecting}
    (behind : stage.Behind nextId) : stage.Behind later := by
  cases stage <;> simp only [Behind] at behind ⊢ <;> omega

theorem Behind.settled {nextId id : Int} {stage : Connecting} (behind : stage.Behind nextId)
    (settled : stage.settled = some id) : 0 < id ∧ id < nextId := by
  cases stage <;> cases settled <;> exact behind

theorem behind_called {nextId : Int} {reclaimUid : Option Int}
    (fits : (ConnectStep.called reclaimUid).Fits) : (called reclaimUid).Behind nextId := by
  cases reclaimUid with
  | none => exact trivial
  | some uid =>
      unfold called
      dsimp only
      split
      · exact trivial
      · rename_i positive
        exact ⟨Int.not_le.mp positive, fits.2⟩

theorem behind_whileBelow {uid expected : Int} (positive : 0 < uid) (fits : uid ≤ longLongMax) :
    (whileBelow uid expected).Behind expected := by
  unfold whileBelow
  split
  · rename_i below
    exact ⟨positive, fits, below, Int.le_refl _⟩
  · rename_i above
    exact ⟨positive, Int.not_le.mp above⟩

end Connecting

/-- Every call stands behind a counter that is a positive `long long`. -/
structure Connects.Orderly (state : Connects) : Prop where
  positive : 1 ≤ state.ids.nextId
  fits : state.ids.nextId ≤ longLongMax
  behind : ∀ call ∈ state.calls, call.Behind state.ids.nextId

section Step

variable {now : Nat → Int}

theorem longLong_succ {value : Int} (positive : 0 ≤ value) (below : value < longLongMax) :
    (Host.twosComplement now).longLong (value + 1) = value + 1 :=
  bmod_of_fits ⟨by omega, by omega⟩

theorem longLong_succ_max (now : Nat → Int) :
    (Host.twosComplement now).longLong (longLongMax + 1) = -longLongMax - 1 := rfl

section Stage

variable {stage : Connecting} {spurious : Bool} {ids : UserIds} {users : UserManager}

variable (now users) in
/-- What one step that does not overflow leaves behind. -/
theorem Connecting.Behind.step (behind : stage.Behind ids.nextId) (positive : 1 ≤ ids.nextId)
    (fits : ids.nextId ≤ longLongMax) (within : ¬ stage.Overflows spurious ids) :
    let moved := stage.step (Host.twosComplement now) spurious ids users
    ids.nextId ≤ moved.1.nextId ∧ moved.1.nextId ≤ longLongMax ∧
      moved.2.2.Behind moved.1.nextId := by
  cases stage with
  | fetchAdd =>
      have notMax : ids.nextId ≠ longLongMax := within
      simp only [Connecting.step]
      rw [longLong_succ (by omega) (by omega)]
      exact ⟨by omega, by omega, by omega, by omega⟩
  | load uid => exact ⟨Int.le_refl _, fits, behind_whileBelow behind.1 behind.2⟩
  | exchange uid expected =>
      obtain ⟨uidPos, uidFits, expectedLe, _⟩ := behind
      simp only [Connecting.step]
      split
      · rename_i swaps
        have notMax : uid ≠ longLongMax := fun isMax => within ⟨swaps.1, swaps.2, isMax⟩
        dsimp only
        rw [longLong_succ (by omega) (by omega)]
        exact ⟨by omega, by omega, by omega, by omega⟩
      · exact ⟨Int.le_refl _, fits, behind_whileBelow uidPos uidFits⟩
  | assign | emplace | returned => exact ⟨Int.le_refl _, fits, behind⟩

variable (now users) in
/-- A step that overflows makes the counter negative. -/
theorem Connecting.Overflows.step (overflows : stage.Overflows spurious ids) :
    (stage.step (Host.twosComplement now) spurious ids users).1.nextId = -longLongMax - 1 := by
  cases stage with
  | fetchAdd =>
      have isMax : ids.nextId = longLongMax := overflows
      rw [Connecting.step, isMax]
      exact longLong_succ_max now
  | exchange uid expected =>
      obtain ⟨sees, real, isMax⟩ := overflows
      rw [Connecting.step, if_pos ⟨sees, real⟩, isMax]
      exact longLong_succ_max now
  | assign | load | emplace | returned => exact overflows.elim

end Stage

variable {host : Host} {state next : Connects} {reply : Unit}

/-- A call takes its next step. -/
theorem advance_eq {call : Nat} {spurious : Bool}
    (moves : state.step host (.advance call spurious) = .ok (next, reply)) :
    ∃ stage, state.calls[call]? = some stage ∧
      next = ⟨(stage.step host spurious state.ids state.users).1,
        (stage.step host spurious state.ids state.users).2.1,
        state.calls.set call (stage.step host spurious state.ids state.users).2.2⟩ := by
  unfold Connects.step at moves
  dsimp only at moves
  split at moves
  · cases moves
  · rename_i stage found
    cases moves
    exact ⟨stage, found, rfl⟩

/-- What a `fetch_add` hands out is the value it found. -/
theorem ConnectEntry.eq_nextId_of_drawn {step : ConnectStep} {id : Int}
    (moves : state.step host step = .ok (next, reply))
    (drawn : ConnectEntry.drawn ⟨state, step, reply, next⟩ = some id) : id = state.ids.nextId := by
  cases step with
  | called reclaimUid => cases drawn
  | advance call spurious =>
      obtain ⟨stage, found, rfl⟩ := advance_eq moves
      have inRange : call < state.calls.length := (List.getElem?_eq_some_iff.mp found).1
      simp only [ConnectEntry.drawn, found] at drawn
      split at drawn
      · rename_i draws
        cases draws
        simpa [inRange, Connecting.step, Connecting.settled, eq_comm] using drawn
      · cases drawn

/-- A step that does not overflow draws a fresh id, if any, and keeps the calls behind. -/
theorem Connects.Orderly.step {step : ConnectStep} (orderly : state.Orderly) (fits : step.Fits)
    (moves : state.step (Host.twosComplement now) step = .ok (next, reply))
    (within : ¬ state.Overflows step) :
    next.Orderly ∧ ConnectEntry.Fresh ⟨state, step, reply, next⟩ := by
  cases step with
  | called reclaimUid =>
      cases moves
      refine ⟨⟨orderly.positive, orderly.fits, ?_⟩, ?_⟩
      · intro call member
        rcases List.mem_append.mp member with old | new
        · exact orderly.behind call old
        · cases List.mem_singleton.mp new
          exact Connecting.behind_called fits
      · exact {
          positive := fun _ drawn => by cases drawn
          unused := fun _ drawn => by cases drawn
          monotone := Int.le_refl _ }
  | advance call spurious =>
      obtain ⟨stage, found, rfl⟩ := advance_eq moves
      have stays : ¬ stage.Overflows spurious state.ids :=
        fun spills => within ⟨stage, found, spills⟩
      obtain ⟨rises, fits', behind⟩ :=
        (orderly.behind stage (List.mem_of_getElem? found)).step now state.users orderly.positive
          orderly.fits stays
      refine ⟨⟨Int.le_trans orderly.positive rises, fits', ?_⟩, ?_, ?_, rises⟩
      · intro other member
        rcases List.mem_or_eq_of_mem_set member with old | rfl
        · exact (orderly.behind other old).mono rises
        · exact behind
      · intro id drawn
        rw [ConnectEntry.eq_nextId_of_drawn moves drawn]
        exact orderly.positive
      · intro id drawn other member settled
        have below := ((orderly.behind other member).settled settled).2
        rw [ConnectEntry.eq_nextId_of_drawn moves drawn] at below
        exact Int.lt_irrefl _ below

/-- A step that overflows makes the counter fall. -/
theorem ConnectEntry.not_fresh_of_overflows {step : ConnectStep} (orderly : state.Orderly)
    (moves : state.step (Host.twosComplement now) step = .ok (next, reply))
    (overflows : state.Overflows step) :
    ¬ ConnectEntry.Fresh ⟨state, step, reply, next⟩ := by
  cases step with
  | called reclaimUid => exact overflows.elim
  | advance call spurious =>
      obtain ⟨stage, found, spills⟩ := overflows
      obtain ⟨other, found', rfl⟩ := advance_eq moves
      cases found.symm.trans found'
      intro fresh
      have rises := fresh.monotone
      have falls := spills.step now state.users
      have positive := orderly.positive
      unfold longLongMax at falls
      dsimp only at rises
      omega

end Step

/--
In every run of calls, cut into their steps in any order, every id drawn is
fresh and the counter never falls if and only if no step has overflowed.
-/
theorem user_ids_fresh_iff {now : Nat → Int} {start state : Connects} {log : List ConnectEntry}
    (idle : start.calls = []) (positive : 1 ≤ start.ids.nextId)
    (fits : start.ids.nextId ≤ longLongMax)
    (run : Run (Connects.step (Host.twosComplement now)) (fun _ step => step.Fits) start log state) :
    (∀ entry ∈ log, ConnectEntry.Fresh entry) ↔
      ∀ entry ∈ log, ¬ entry.before.Overflows entry.call := by
  refine (run.invariant (fun log state => ((∀ entry ∈ log, ConnectEntry.Fresh entry) ↔
    ∀ entry ∈ log, ¬ entry.before.Overflows entry.call) ∧
    ((∀ entry ∈ log, ¬ entry.before.Overflows entry.call) → state.Orderly)) ?_ ?_).1
  · exact ⟨by simp, fun _ => ⟨positive, fits, by simp [idle]⟩⟩
  · intro log state step reply next _ ⟨same, orderly⟩ fits moves
    simp only [List.forall_mem_append, List.forall_mem_singleton]
    refine ⟨⟨fun ⟨past, last⟩ => ?_, fun ⟨past, last⟩ => ?_⟩, fun ⟨past, last⟩ => ?_⟩
    · exact ⟨same.mp past, fun overflows =>
        ConnectEntry.not_fresh_of_overflows (orderly (same.mp past)) moves overflows last⟩
    · exact ⟨same.mpr past, ((orderly past).step fits moves last).2⟩
    · exact ((orderly past).step fits moves last).1

/-- Two new users and two reclaimed ids, with a compare-exchange that fails twice. -/
theorem user_ids_fresh_in_contention :
    ∃ log state, Run (Connects.step (Host.twosComplement (·))) (fun _ step => step.Fits) {}
        log state ∧
      log.filterMap ConnectEntry.drawn = [1, 8] ∧ state.ids.nextId = 9 ∧
      ∀ entry ∈ log, ConnectEntry.Fresh entry := by
  have run := Run.of_isSome (Connects.step (Host.twosComplement (·))) (fun _ step => step.Fits) {}
    [.called (some 7), .called none, .called (some 3), .advance 0 false, .advance 1 false,
      .advance 0 false, .advance 0 true, .advance 2 false, .advance 0 false, .advance 2 false,
      .called none, .advance 3 false, .advance 3 false, .advance 0 false] (by decide)
  exact ⟨_, _, run, by decide, by decide,
    (user_ids_fresh_iff rfl (by decide) (by decide) run).mpr (by decide)⟩

/--
Users 1 and 2 are handed out; a client asks for id `2 ^ 63 - 2`, the next new
user wraps the counter around, and another client that asks for id 1 brings it
back to 2, which is handed out again.
-/
theorem user_id_handed_out_twice :
    ∃ log state, Run (Connects.step (Host.twosComplement (·))) (fun _ step => step.Fits) {}
        log state ∧
      log.filterMap ConnectEntry.drawn = [1, 2, 9223372036854775807, 2] ∧
      ¬ ∀ entry ∈ log, ConnectEntry.Fresh entry := by
  have run := Run.of_isSome (Connects.step (Host.twosComplement (·))) (fun _ step => step.Fits) {}
    [.called none, .advance 0 false, .advance 0 false, .called none, .advance 1 false,
      .advance 1 false, .called (some 9223372036854775806), .advance 2 false, .advance 2 false,
      .advance 2 false, .called none, .advance 3 false, .advance 3 false, .called (some 1),
      .advance 4 false, .advance 4 false, .advance 4 false, .called none, .advance 5 false]
    (by decide)
  exact ⟨_, _, run, by decide, fun fresh =>
    (fresh _ (List.getLast_mem (by decide))).unused 2 (by decide) (.returned 2) (by decide) rfl⟩

end OrderBookSimulator
