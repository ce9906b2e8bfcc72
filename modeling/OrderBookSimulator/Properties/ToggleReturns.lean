import OrderBookSimulator.Library.Halting
import OrderBookSimulator.Properties.Toggling

/-!
# Calls of `toggle` return

`stop` joins the two threads, so a call of `toggle` may have to wait for the
loops.  It never waits in vain.
-/

namespace OrderBookSimulator

open Library

namespace MarketMaker

/-! ## Coming to the end of a call -/

/-- What the market maker's own threads and the calls under way do, once they are scheduled. -/
def SwitchStep.Own : SwitchStep → Prop
  | .advance _ | .loop _ => True
  | .toggle | .other _ => False

instance : DecidablePred SwitchStep.Own
  | .advance _ | .loop _ => instDecidableTrue
  | .toggle | .other _ => instDecidableFalse

theorem SwitchStep.Own.ne_toggle {call : SwitchStep} (own : call.Own) : call ≠ .toggle := by
  rintro rfl
  exact own

def Toggle.rank : Toggle → Nat
  | .load => 40
  | .storeTrue | .storeFalse => 30
  | .spawnMaker | .joinMaker => 20
  | .spawnTaker | .joinTaker => 10
  | .returned _ => 0

def Switch.ahead (switch : Switch) : Nat :=
  (switch.toggles.map (·.rank)).sum + (Loop.ahead switch.makerThread + Loop.ahead switch.takerThread)

namespace Switch

variable {switch next : Switch} {index : Nat} {toggle : Toggle} {reply : Option Bool}

theorem ahead_lt {now : Toggle} (found : switch.toggles[index]? = some toggle)
    (replaced : next.toggles = switch.toggles.set index now)
    (less : now.rank + (Loop.ahead next.makerThread + Loop.ahead next.takerThread) <
      toggle.rank + (Loop.ahead switch.makerThread + Loop.ahead switch.takerThread)) :
    next.ahead < switch.ahead := by
  have sums := sum_map_set (·.rank) found now
  unfold ahead
  rw [replaced]
  omega

theorem advance_falls (found : switch.toggles[index]? = some toggle)
    (advances : switch.advance index toggle = .ok (next, reply)) : next.ahead < switch.ahead := by
  cases toggle with
  | load =>
      cases advances
      refine ahead_lt found rfl (Nat.add_lt_add_right ?_ _)
      cases switch.running <;> decide
  | storeTrue | storeFalse =>
      cases advances
      exact ahead_lt found rfl (Nat.add_lt_add_right (by decide) _)
  | spawnMaker | spawnTaker =>
      obtain ⟨spawned, spawns, made⟩ := exists_of_bind advances
      obtain ⟨absent, rfl⟩ := spawn_cases spawns
      cases made
      refine ahead_lt found rfl ?_
      simp only [thread] at absent
      simp only [goTo, setThread, absent, Loop.ahead, Toggle.rank]
      omega
  | joinMaker | joinTaker =>
      obtain ⟨joined, joins, made⟩ := exists_of_bind advances
      cases made
      obtain ⟨rfl, _⟩ | ⟨rfl, ended⟩ := join_cases joins
      · exact ahead_lt found rfl (Nat.add_lt_add_right (by decide) _)
      · refine ahead_lt found rfl ?_
        simp only [thread] at ended
        simp only [goTo, setThread, ended, Loop.ahead, Toggle.rank]
        omega
  | returned => cases advances

theorem runLoop_falls {host : Host} {bot : Bot} (stopped : switch.running = false)
    (runs : switch.runLoop host bot = .ok next) : next.ahead < switch.ahead := by
  obtain ⟨market, loop, rfl, _, _, closer⟩ := runLoop_cases runs
  have less := closer stopped
  unfold ahead
  cases bot with
  | maker => exact Nat.add_lt_add_left (Nat.add_lt_add_right less _) _
  | taker => exact Nat.add_lt_add_left (Nat.add_lt_add_left less _) _

/-- A loop that has not ended is never held up. -/
theorem exists_runLoop (host : Host) (switch : Switch) {bot : Bot} {loop : Loop}
    (standing : switch.thread bot = some loop) (going : loop ≠ .ended) :
    ∃ next, switch.runLoop host bot = .ok next := by
  unfold runLoop
  rw [standing]
  cases loop with
  | test | sleep => exact ⟨_, rfl⟩
  | turn => cases bot <;> exact ⟨_, rfl⟩
  | ended => exact (going rfl).elim

theorem exists_own_of_advance (host : Host) (found : switch.toggles[index]? = some toggle)
    (goes : ∃ made, switch.advance index toggle = .ok made) :
    ∃ call next reply, SwitchStep.Own call ∧ switch.step host call = .ok (next, reply) ∧
      next.ahead < switch.ahead := by
  obtain ⟨⟨next, reply⟩, advances⟩ := goes
  refine ⟨.advance index, next, reply, trivial, ?_, advance_falls found advances⟩
  rw [step, found]
  exact advances

/-- A call that waits in `join` waits for a loop that comes closer to its end. -/
theorem exists_own_of_join (host : Host) (bot : Bot)
    (found : switch.toggles[index]? = some toggle)
    (goes : ∀ joined, switch.join bot = .ok joined →
      ∃ made, switch.advance index toggle = .ok made)
    (stopped : switch.running = false) (present : switch.thread bot ≠ none) :
    ∃ call next reply, SwitchStep.Own call ∧ switch.step host call = .ok (next, reply) ∧
      next.ahead < switch.ahead := by
  cases standing : switch.thread bot with
  | none => exact (present standing).elim
  | some loop =>
      by_cases ended : loop = .ended
      · subst ended
        have joined : switch.join bot = .ok (switch.setThread bot none) := by rw [join, standing]
        exact exists_own_of_advance host found (goes _ joined)
      · obtain ⟨next, runs⟩ := exists_runLoop host switch standing ended
        refine ⟨.loop bot, next, none, trivial, ?_, runLoop_falls stopped runs⟩
        rw [step, runs]

end Switch

/-- As long as a call is under way, it or a loop it waits for can take a step. -/
theorem Serially.exists_own {log : List SwitchEntry} {switch : Switch} {count : Nat}
    {toggle : Toggle} (host : Host) (serially : Serially log switch count (some toggle)) :
    ∃ call next reply, SwitchStep.Own call ∧ switch.step host call = .ok (next, reply) ∧
      next.ahead < switch.ahead := by
  have found : switch.toggles[count]? = some toggle := by
    rw [serially.toggles]
    simp
  obtain ⟨running, maker, taker, stage, flag, makerShown, takerShown⟩ := serially.fits
  generalize decide (count % 2 = 1) = wasOn at stage
  cases stage with
  | loadOff | loadOn | storeTrue | storeFalse =>
      exact Switch.exists_own_of_advance host found ⟨_, rfl⟩
  | spawnMaker =>
      refine Switch.exists_own_of_advance host found ?_
      rw [Switch.advance, Switch.spawn_of_absent .maker makerShown]
      exact ⟨_, rfl⟩
  | spawnTaker =>
      refine Switch.exists_own_of_advance host found ?_
      rw [Switch.advance, Switch.spawn_of_absent .taker takerShown]
      exact ⟨_, rfl⟩
  | joinMaker =>
      refine Switch.exists_own_of_join host .maker found (fun joined joins => ?_) flag makerShown
      rw [Switch.advance, joins]
      exact ⟨_, rfl⟩
  | joinTaker =>
      refine Switch.exists_own_of_join host .taker found (fun joined joins => ?_) flag takerShown
      rw [Switch.advance, joins]
      exact ⟨_, rfl⟩

/-! ## Switching off -/

/-- Whoever is switching the market maker, is switching it off. -/
structure Switch.Stopping (switch : Switch) : Prop where
  running : switch.running = false
  toggles : ∀ toggle ∈ switch.toggles,
    toggle = .joinMaker ∨ toggle = .joinTaker ∨ ∃ said, toggle = .returned said

section Stopping

variable {host : Host} {switch next : Switch} {call : SwitchStep} {reply : Option Bool}

/-- What a step can do to the loops while the market maker is being switched off. -/
structure Switch.Calmer (switch next : Switch) (call : SwitchStep) : Prop where
  stopping : next.Stopping
  turning : ∀ bot, next.thread bot = some .turn →
    switch.thread bot = some .turn ∧ call ≠ .loop bot

theorem Switch.Stopping.joins (stopping : switch.Stopping) {bot : Bot} {joined : Switch}
    {index : Nat} {now : Toggle} (joins : switch.join bot = .ok joined)
    (allowed : now = .joinMaker ∨ now = .joinTaker ∨ ∃ said, now = .returned said) :
    Switch.Calmer switch (joined.goTo index now) (.advance index) := by
  have replaced : ∀ toggle ∈ switch.toggles.set index now,
      toggle = .joinMaker ∨ toggle = .joinTaker ∨ ∃ said, toggle = .returned said := by
    intro toggle member
    rcases List.mem_or_eq_of_mem_set member with old | rfl
    · exact stopping.toggles toggle old
    · exact allowed
  obtain ⟨rfl, _⟩ | ⟨rfl, _⟩ := Switch.join_cases joins
  · exact ⟨⟨stopping.running, replaced⟩, fun other turns => ⟨turns, SwitchStep.noConfusion⟩⟩
  · refine ⟨⟨?_, ?_⟩, fun other turns => ⟨?_, SwitchStep.noConfusion⟩⟩
    · simpa [Switch.goTo] using stopping.running
    · simpa [Switch.goTo] using replaced
    · cases bot <;> cases other <;> first | exact turns | cases turns

theorem Switch.Stopping.advances (stopping : switch.Stopping) {index : Nat} {toggle : Toggle}
    (found : switch.toggles[index]? = some toggle)
    (advances : switch.advance index toggle = .ok (next, reply)) :
    Switch.Calmer switch next (.advance index) := by
  rcases stopping.toggles toggle (List.mem_of_getElem? found) with rfl | rfl | ⟨said, rfl⟩
  · obtain ⟨joined, joins, made⟩ := exists_of_bind advances
    cases made
    exact stopping.joins joins (by simp)
  · obtain ⟨joined, joins, made⟩ := exists_of_bind advances
    cases made
    exact stopping.joins joins (by simp)
  · cases advances

theorem Switch.Stopping.loops (stopping : switch.Stopping) {bot : Bot}
    (runs : switch.runLoop host bot = .ok next) : Switch.Calmer switch next (.loop bot) := by
  obtain ⟨market, loop, rfl, present, _, closer⟩ := Switch.runLoop_cases runs
  have notTurning : loop ≠ .turn := by
    rintro rfl
    have less := closer stopping.running
    have most : ∀ thread, Loop.ahead thread ≤ 3 := by
      rintro (_ | loop)
      · decide
      · cases loop <;> decide
    exact absurd less (Nat.not_lt.mpr (most _))
  refine ⟨⟨by simpa using stopping.running, by simpa using stopping.toggles⟩, ?_⟩
  intro other turns
  by_cases same : other = bot
  · subst same
    cases other <;> exact (notTurning (Option.some.inj turns)).elim
  · refine ⟨?_, fun equal => same (SwitchStep.loop.inj equal).symm⟩
    cases bot <;> cases other <;> first | exact turns | exact (same rfl).elim

theorem Switch.Stopping.step (stopping : switch.Stopping) (noCall : call ≠ .toggle)
    (steps : switch.step host call = .ok (next, reply)) : Switch.Calmer switch next call := by
  cases Switch.steps_of_step steps with
  | called => exact (noCall rfl).elim
  | advanced index toggle _ _ found advances => exact stopping.advances found advances
  | looped bot _ runs => exact stopping.loops runs
  | acted activity market results acts =>
      exact ⟨⟨stopping.running, stopping.toggles⟩,
        fun bot turns => ⟨turns, SwitchStep.noConfusion⟩⟩

theorem Switch.Stopping.falls (stopping : switch.Stopping) (own : call.Own)
    (steps : switch.step host call = .ok (next, reply)) : next.ahead < switch.ahead := by
  cases Switch.steps_of_step steps with
  | called | acted => exact own.elim
  | advanced index toggle _ _ found advances => exact Switch.advance_falls found advances
  | looped bot _ runs => exact Switch.runLoop_falls stopping.running runs

/-- A turn of a loop's own. -/
def turned (bot : Bot) (entry : SwitchEntry) : Bool :=
  decide (entry.call = .loop bot ∧ entry.before.thread bot = some .turn)

/-- A loop that is told to end finishes the turn it is in, and begins no other. -/
theorem Switch.Stopping.turns_le {log : List SwitchEntry} {last : Switch}
    (stopping : switch.Stopping)
    (run : Run (Switch.step host) (fun _ call => call ≠ .toggle) switch log last) :
    last.Stopping ∧ ∀ bot,
      log.countP (turned bot) + (if last.thread bot = some .turn then 1 else 0) ≤ 1 := by
  induction run with
  | nil =>
      refine ⟨stopping, fun bot => ?_⟩
      split <;> simp
  | @snoc log state next call reply past noCall answered ih =>
      obtain ⟨stoppingThen, atMost⟩ := ih
      obtain ⟨stoppingNow, turning⟩ := stoppingThen.step noCall answered
      refine ⟨stoppingNow, fun bot => ?_⟩
      have before := atMost bot
      rw [List.countP_append, List.countP_singleton]
      by_cases standing : state.thread bot = some .turn
      · rw [if_pos standing] at before
        by_cases turns : next.thread bot = some .turn
        · have still : turned bot ⟨state, call, reply, next⟩ = false := by
            simp [turned, (turning bot turns).2]
          rw [still, if_pos turns]
          exact before
        · rw [if_neg turns]
          split <;> omega
      · have still : turned bot ⟨state, call, reply, next⟩ = false := by simp [turned, standing]
        have calm : next.thread bot ≠ some .turn := fun turns => standing (turning bot turns).1
        rw [still, if_neg calm]
        rw [if_neg standing] at before
        exact before

end Stopping

/-! ## Every call returns -/

/-- Between storing `false` and returning, a call of `toggle` is switching off. -/
theorem Serially.stopping {log : List SwitchEntry} {switch : Switch} {count : Nat}
    {current : Option Toggle} (serially : Serially log switch count current)
    (wasOn : saysOn log = true) (down : switch.running = false) : switch.Stopping := by
  have joining : ∀ toggle ∈ current.toList, toggle = .joinMaker ∨ toggle = .joinTaker := by
    obtain ⟨running, maker, taker, stage, flag, _⟩ := serially.fits
    rw [saysOn, serially.answers, getLast?_verdicts] at wasOn
    rw [wasOn] at stage
    rw [down] at flag
    subst flag
    cases stage with
    | joinMaker | joinTaker => simp
  refine ⟨down, fun toggle member => ?_⟩
  rw [serially.toggles] at member
  rcases List.mem_append.mp member with old | last
  · obtain ⟨said, _, rfl⟩ := List.mem_map.mp old
    exact .inr (.inr ⟨said, rfl⟩)
  · rcases joining toggle last with rfl | rfl
    · exact .inl rfl
    · exact .inr (.inl rfl)

/--
No call of `toggle` waits in vain: with the loops and the call scheduled, it can
always be brought to its return.  Once it has stored `false`, no schedule of them
goes on for ever, and each loop makes at most the turn that it is in.
-/
theorem toggle_returns {host : Host} {market : Market} {log : List SwitchEntry} {switch : Switch}
    (run : SerialRun host market log switch) :
    (∃ more last, Run (Switch.step host) (fun _ call => call.Own) switch more last ∧
      ∀ toggle ∈ last.toggles, ∃ said, toggle = .returned said) ∧
    (saysOn log = true → switch.running = false →
      (∀ switches, switches 0 = switch → ¬ Endless (Switch.step host) SwitchStep.Own switches) ∧
      ∀ more last, Run (Switch.step host) (fun _ call => call ≠ .toggle) switch more last →
        ∀ bot, more.countP (turned bot) ≤ 1) := by
  obtain ⟨count, current, serially⟩ := exists_serially run
  refine ⟨?_, fun wasOn down => ⟨fun switches start endless => ?_, fun more last goes bot => ?_⟩⟩
  · refine reaches Switch.ahead
      (fun switch => ∃ log count current, Serially log switch count current)
      (fun switch => ∀ toggle ∈ switch.toggles, ∃ said, toggle = .returned said)
      ?_ ⟨log, count, current, serially⟩
    rintro state ⟨log, count, current, serially⟩ notThere
    cases current with
    | none =>
        refine (notThere fun toggle member => ?_).elim
        rw [serially.toggles] at member
        rw [Option.toList_none, List.append_nil] at member
        obtain ⟨said, _, rfl⟩ := List.mem_map.mp member
        exact ⟨said, rfl⟩
    | some toggle =>
        obtain ⟨call, next, reply, own, steps, less⟩ := serially.exists_own host
        have serial : Serial log call := fun called => (own.ne_toggle called).elim
        exact ⟨call, next, reply, own, steps, ⟨_, serially.step serial steps⟩, less⟩
  · have stopping : ∀ n, (switches n).Stopping := by
      intro n
      induction n with
      | zero => exact start ▸ serially.stopping wasOn down
      | succ n ih =>
          obtain ⟨call, reply, own, steps⟩ := endless n
          exact (ih.step own.ne_toggle steps).stopping
    exact not_endless_within Switch.ahead Switch.Stopping
      (fun _ _ _ _ stopping own steps => stopping.falls own steps) switches stopping endless
  · have atMost := ((serially.stopping wasOn down).turns_le goes).2 bot
    omega

theorem toggle_returns_sample :
    ∃ (market : Market) (log : List SwitchEntry) (switch : Switch),
      SerialRun (Host.exact (·)) market log switch ∧ ¬ Settled log ∧
        switch.toggles.getLast? = some .joinMaker ∧ switch.thread .taker = some .turn ∧
        (∃ more last, Run (Switch.step (Host.exact (·))) (fun _ call => call.Own) switch more last ∧
          ∀ toggle ∈ last.toggles, ∃ said, toggle = .returned said) ∧
        ∀ more last, Run (Switch.step (Host.exact (·))) (fun _ call => call ≠ .toggle) switch more last →
          ∀ bot, more.countP (turned bot) ≤ 1 := by
  have run := Run.of_isSome (Switch.step (Host.exact (·))) Serial { market := { engine := {} } }
    [.toggle, .advance 0, .advance 0, .advance 0, .advance 0, .loop .maker, .loop .taker,
      .loop .maker, .toggle, .advance 1, .advance 1] (by decide)
  obtain ⟨returns, ends⟩ := toggle_returns run
  exact ⟨_, _, _, run, by decide, by decide, by decide, returns,
    (ends (by decide) (by decide)).2⟩

end MarketMaker

end OrderBookSimulator
