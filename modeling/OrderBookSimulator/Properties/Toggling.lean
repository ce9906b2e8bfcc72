import OrderBookSimulator.MarketMaker.Toggle

/-!
# Calls of `toggle` one after another

Where no call of `toggle` begins before the last has returned, each one starts
what the one before it ended: the flag, the two thread objects and the answers
go together.  Two calls that overlap can end the program.
-/

namespace OrderBookSimulator

open Library

namespace MarketMaker

abbrev SwitchEntry := Transition Switch SwitchStep (Option Bool)

def begun (log : List SwitchEntry) : Nat := log.countP fun entry => decide (entry.call = .toggle)

/-- What the calls of `toggle` have returned. -/
def answers (log : List SwitchEntry) : List Bool := log.filterMap (·.reply)

/-- No call of `toggle` is under way. -/
def Settled (log : List SwitchEntry) : Prop := begun log = (answers log).length

/-- The caller waits for the answer before the next call. -/
def Serial (log : List SwitchEntry) (call : SwitchStep) : Prop := call = .toggle → Settled log

/-- What the last call said; the market maker is constructed switched off. -/
def saysOn (log : List SwitchEntry) : Bool := (answers log).getLast?.getD false

/-- On, off, on, off. -/
def verdicts (count : Nat) : List Bool := (List.range count).map fun i => decide (i % 2 = 0)

instance (log : List SwitchEntry) : Decidable (Settled log) :=
  inferInstanceAs (Decidable (_ = _))

instance (log : List SwitchEntry) (call : SwitchStep) : Decidable (Serial log call) :=
  inferInstanceAs (Decidable (_ → _))

@[simp]
theorem length_verdicts (count : Nat) : (verdicts count).length = count := by simp [verdicts]

theorem verdicts_succ (count : Nat) :
    verdicts (count + 1) = verdicts count ++ [decide (count % 2 = 0)] := by
  simp [verdicts, List.range_succ]

theorem getLast?_verdicts (count : Nat) :
    (verdicts count).getLast?.getD false = decide (count % 2 = 1) := by
  cases count with
  | zero => rfl
  | succ count =>
      rw [verdicts_succ, List.getLast?_concat, Option.getD_some]
      exact decide_eq_decide.mpr (by omega)

/-! ## The stages of a call -/

/-- What a thread object holds. -/
inductive Presence where
  | absent
  | alive
  /-- A loop that may have ended. -/
  | present
  deriving DecidableEq, Repr

def Presence.Of : Presence → Option Loop → Prop
  | .absent, thread => thread = none
  | .alive, thread => thread ≠ none ∧ thread ≠ some .ended
  | .present, thread => thread ≠ none

theorem Presence.alive_of_test : Presence.alive.Of (some .test) :=
  ⟨Option.some_ne_none _, fun ended => Loop.noConfusion (Option.some.inj ended)⟩

/-- How far a loop is from its end when it is told to end. -/
def Loop.ahead : Option Loop → Nat
  | some .turn => 3
  | some .sleep => 2
  | some .test => 1
  | some .ended | none => 0

structure Switch.Shows (switch : Switch) (running : Bool) (maker taker : Presence) : Prop where
  running : switch.running = running
  maker : maker.Of switch.makerThread
  taker : taker.Of switch.takerThread

/-- The flag and the threads, by what they were before the call and how far the call has come. -/
inductive Stage : Bool → Option Toggle → Bool → Presence → Presence → Prop where
  | off : Stage false none false .absent .absent
  | loadOff : Stage false (some .load) false .absent .absent
  | storeTrue : Stage false (some .storeTrue) false .absent .absent
  | spawnMaker : Stage false (some .spawnMaker) true .absent .absent
  | spawnTaker : Stage false (some .spawnTaker) true .alive .absent
  | on : Stage true none true .alive .alive
  | loadOn : Stage true (some .load) true .alive .alive
  | storeFalse : Stage true (some .storeFalse) true .alive .alive
  | joinMaker : Stage true (some .joinMaker) false .present .present
  | joinTaker : Stage true (some .joinTaker) false .absent .present

def Switch.Fits (switch : Switch) (wasOn : Bool) (current : Option Toggle) : Prop :=
  ∃ running maker taker, Stage wasOn current running maker taker ∧
    switch.Shows running maker taker

namespace Switch

variable {host : Host} {switch next : Switch} {index : Nat} {wasOn : Bool} {reply : Option Bool}

/-- A step of a loop replaces its own thread by a living one, or ends it when told to. -/
theorem runLoop_cases {bot : Bot} (runs : switch.runLoop host bot = .ok next) :
    ∃ market loop, next = { switch with market }.setThread bot (some loop) ∧
      switch.thread bot ≠ none ∧ (loop = .ended → switch.running = false) ∧
      (switch.running = false → Loop.ahead (some loop) < Loop.ahead (switch.thread bot)) := by
  unfold runLoop at runs
  cases standing : switch.thread bot with
  | none =>
      rw [standing] at runs
      cases runs
  | some loop =>
      rw [standing] at runs
      cases loop with
      | test =>
          cases runs
          refine ⟨switch.market, _, rfl, Option.some_ne_none _, ?_, ?_⟩
          · intro ended
            cases flag : switch.running with
            | false => rfl
            | true => simp [flag] at ended
          · intro stopped
            simp [stopped, Loop.ahead]
      | turn =>
          simp only at runs
          split at runs
          · cases runs
          · rename_i market _ _
            cases runs
            exact ⟨market, _, rfl, Option.some_ne_none _, fun ended => Loop.noConfusion ended,
              fun _ => (by decide : 2 < 3)⟩
      | sleep =>
          cases runs
          exact ⟨switch.market, _, rfl, Option.some_ne_none _, fun ended => Loop.noConfusion ended,
            fun _ => (by decide : 1 < 2)⟩
      | ended => cases runs

/-- A loop that runs is one that the stage knows of, and the stage allows what it does. -/
theorem Shows.runLoop {running : Bool} {maker taker : Presence}
    (shows : switch.Shows running maker taker)
    (makerStable : maker = .alive → running = true) (takerStable : taker = .alive → running = true)
    {bot : Bot} (runs : switch.runLoop host bot = .ok next) :
    next.Shows running maker taker ∧ next.toggles = switch.toggles := by
  obtain ⟨market, loop, rfl, present, ends, _⟩ := runLoop_cases runs
  have keeps : ∀ {presence : Presence} {thread : Option Loop}, presence.Of thread →
      thread ≠ none → (presence = .alive → running = true) → presence.Of (some loop) := by
    intro presence thread was present stable
    cases presence with
    | absent => exact (present was).elim
    | alive =>
        refine ⟨Option.some_ne_none _, fun ended => ?_⟩
        have stopped := ends (Option.some.inj ended)
        rw [shows.running, stable rfl] at stopped
        cases stopped
    | present => exact Option.some_ne_none _
  cases bot with
  | maker => exact ⟨⟨shows.running, keeps shows.maker present makerStable, shows.taker⟩, rfl⟩
  | taker => exact ⟨⟨shows.running, shows.maker, keeps shows.taker present takerStable⟩, rfl⟩

theorem Fits.runLoop {current : Option Toggle} (fits : switch.Fits wasOn current) {bot : Bot}
    (runs : switch.runLoop host bot = .ok next) :
    next.Fits wasOn current ∧ next.toggles = switch.toggles := by
  obtain ⟨running, maker, taker, stage, shows⟩ := fits
  obtain ⟨makerStable, takerStable⟩ :
      (maker = .alive → running = true) ∧ (taker = .alive → running = true) := by
    cases stage <;> simp
  obtain ⟨showsNext, same⟩ := shows.runLoop makerStable takerStable runs
  exact ⟨⟨running, maker, taker, stage, showsNext⟩, same⟩

/-- A step of the call under way reaches the next stage, or returns the opposite of what was. -/
theorem Fits.advance {toggle : Toggle} (fits : switch.Fits wasOn (some toggle))
    (advances : switch.advance index toggle = .ok (next, reply)) :
    (∃ now, reply = none ∧ next.toggles = switch.toggles.set index now ∧
        next.Fits wasOn (some now)) ∨
      reply = some (!wasOn) ∧ next.toggles = switch.toggles.set index (.returned (!wasOn)) ∧
        next.Fits (!wasOn) none := by
  obtain ⟨running, maker, taker, stage, shows⟩ := fits
  obtain ⟨flag, makerShown, takerShown⟩ := shows
  cases stage with
  | loadOff =>
      rw [Switch.advance, flag] at advances
      cases advances
      exact .inl ⟨_, rfl, rfl, _, _, _, .storeTrue, flag, makerShown, takerShown⟩
  | storeTrue =>
      cases advances
      exact .inl ⟨_, rfl, rfl, _, _, _, .spawnMaker, rfl, makerShown, takerShown⟩
  | spawnMaker =>
      rw [Switch.advance, spawn_of_absent .maker makerShown] at advances
      cases advances
      exact .inl ⟨_, rfl, rfl, _, _, _, .spawnTaker, flag, Presence.alive_of_test, takerShown⟩
  | spawnTaker =>
      rw [Switch.advance, spawn_of_absent .taker takerShown] at advances
      cases advances
      exact .inr ⟨rfl, rfl, _, _, _, .on, flag, makerShown, Presence.alive_of_test⟩
  | loadOn =>
      rw [Switch.advance, flag] at advances
      cases advances
      exact .inl ⟨_, rfl, rfl, _, _, _, .storeFalse, flag, makerShown, takerShown⟩
  | storeFalse =>
      cases advances
      exact .inl ⟨_, rfl, rfl, _, _, _, .joinMaker, rfl, makerShown.1, takerShown.1⟩
  | joinMaker =>
      obtain ⟨joined, joins, made⟩ := exists_of_bind advances
      cases made
      obtain ⟨_, absent⟩ | ⟨rfl, _⟩ := join_cases joins
      · exact (makerShown absent).elim
      · exact .inl ⟨_, rfl, rfl, _, _, _, .joinTaker, flag, rfl, takerShown⟩
  | joinTaker =>
      obtain ⟨joined, joins, made⟩ := exists_of_bind advances
      cases made
      obtain ⟨_, absent⟩ | ⟨rfl, _⟩ := join_cases joins
      · exact (takerShown absent).elim
      · exact .inr ⟨rfl, rfl, _, _, _, .off, flag, makerShown, rfl⟩

theorem Fits.advance_ne_terminate {toggle : Toggle} (fits : switch.Fits wasOn (some toggle)) :
    switch.advance index toggle ≠ .error .terminate := by
  obtain ⟨running, maker, taker, stage, _, makerShown, takerShown⟩ := fits
  intro terminates
  cases stage with
  | loadOff | loadOn | storeTrue | storeFalse => cases terminates
  | spawnMaker =>
      rw [Switch.advance, spawn_of_absent .maker makerShown] at terminates
      cases terminates
  | spawnTaker =>
      rw [Switch.advance, spawn_of_absent .taker takerShown] at terminates
      cases terminates
  | joinMaker | joinTaker =>
      simp only [Switch.advance, join, bind, Except.bind, pure, Except.pure] at terminates
      split at terminates
      · rename_i joined
        split at joined
        · cases joined
        · cases joined
        · cases joined
          cases terminates
      · cases terminates

/-- What a step does, and when. -/
inductive Steps (host : Host) (switch : Switch) : SwitchStep → Option Bool → Switch → Prop where
  | called : Steps host switch .toggle none { switch with toggles := switch.toggles ++ [.load] }
  | advanced (index : Nat) (toggle : Toggle) (reply : Option Bool) (next : Switch)
      (found : switch.toggles[index]? = some toggle)
      (advances : switch.advance index toggle = .ok (next, reply)) :
      Steps host switch (.advance index) reply next
  | looped (bot : Bot) (next : Switch) (runs : switch.runLoop host bot = .ok next) :
      Steps host switch (.loop bot) none next
  | acted (activity : Activity) (market : Market) (results : List OrderResult)
      (acts : act host switch.market activity = .ok (market, results)) :
      Steps host switch (.other activity) none { switch with market }

theorem steps_of_step {call : SwitchStep} (steps : switch.step host call = .ok (next, reply)) :
    switch.Steps host call reply next := by
  cases call with
  | toggle =>
      cases steps
      exact .called
  | advance index =>
      rw [step] at steps
      split at steps
      · cases steps
      · rename_i toggle found
        exact .advanced index toggle reply next found steps
  | loop bot =>
      rw [step] at steps
      split at steps
      · cases steps
      · rename_i runs
        cases steps
        exact .looped bot next runs
  | other activity =>
      rw [step] at steps
      split at steps
      · cases steps
      · rename_i market results acts
        cases steps
        exact .acted activity market results acts

end Switch

/-! ## The calls of a run -/

/-- So many calls have returned, and one more may be under way. -/
structure Serially (log : List SwitchEntry) (switch : Switch) (count : Nat)
    (current : Option Toggle) : Prop where
  toggles : switch.toggles = (verdicts count).map .returned ++ current.toList
  answers : answers log = verdicts count
  begun : begun log = count + current.toList.length
  fits : switch.Fits (decide (count % 2 = 1)) current

variable {host : Host} {log : List SwitchEntry} {switch next : Switch} {count : Nat}
  {current : Option Toggle} {call : SwitchStep} {reply : Option Bool}

theorem answers_concat (log : List SwitchEntry) (entry : SwitchEntry) :
    answers (log ++ [entry]) = answers log ++ entry.reply.toList := by
  cases said : entry.reply <;> simp [answers, said]

theorem begun_concat (log : List SwitchEntry) (entry : SwitchEntry) :
    begun (log ++ [entry]) = begun log + if entry.call = .toggle then 1 else 0 := by
  simp [begun]

theorem not_decide_odd (count : Nat) :
    (!decide (count % 2 = 1)) = decide (count % 2 = 0) := by
  rw [← decide_not]
  exact decide_eq_decide.mpr (by omega)

namespace Serially

variable (serially : Serially log switch count current)

include serially

theorem settled_iff : Settled log ↔ current = none := by
  unfold Settled
  rw [serially.begun, serially.answers, length_verdicts]
  cases current <;> simp

/-- Only the call under way can take a step. -/
theorem toggle_at {index : Nat} {toggle : Toggle} (found : switch.toggles[index]? = some toggle) :
    (∃ said, toggle = .returned said) ∨ index = count ∧ current = some toggle := by
  rw [serially.toggles, List.getElem?_append] at found
  simp only [List.length_map, length_verdicts] at found
  split at found
  · obtain ⟨said, _, rfl⟩ := List.mem_map.mp (List.mem_of_getElem? found)
    exact .inl ⟨said, rfl⟩
  · rename_i late
    cases current with
    | none => cases found
    | some current =>
        have last : index - count = 0 := by
          have inside := (List.getElem?_eq_some_iff.mp found).1
          simpa using inside
        rw [last] at found
        exact .inr ⟨by omega, congrArg some (Option.some.inj found)⟩

theorem advance {toggle : Toggle} (underWay : current = some toggle)
    (advances : switch.advance count toggle = .ok (next, reply)) :
    ∃ countNow currentNow,
      Serially (log ++ [⟨switch, .advance count, reply, next⟩]) next countNow currentNow := by
  subst underWay
  obtain ⟨toggles, said, calls, fits⟩ := serially
  have replaced : ∀ now, switch.toggles.set count now =
      (verdicts count).map .returned ++ [now] := by
    intro now
    rw [toggles, List.set_append_right _ _ (by simp)]
    simp
  have begunStill :
      MarketMaker.begun (log ++ [⟨switch, .advance count, reply, next⟩]) = count + 1 := by
    rw [begun_concat]
    simpa using calls
  rcases fits.advance advances with ⟨now, rfl, togglesNow, fitsNow⟩ | ⟨rfl, togglesNow, fitsNow⟩
  · exact ⟨count, some now, togglesNow.trans (replaced now),
      by simpa [answers_concat] using said, begunStill, fitsNow⟩
  · refine ⟨count + 1, none, ?_, ?_, begunStill, ?_⟩
    · rw [togglesNow, replaced, verdicts_succ, not_decide_odd]
      simp
    · rw [answers_concat, said, verdicts_succ, not_decide_odd]
      rfl
    · rw [not_decide_odd] at fitsNow
      rwa [decide_eq_decide.mpr (by omega : (count + 1) % 2 = 1 ↔ count % 2 = 0)]

/-- Whatever leaves the calls alone leaves the run where it is. -/
theorem still (other : call ≠ .toggle) (same : next.toggles = switch.toggles)
    (fits : next.Fits (decide (count % 2 = 1)) current) :
    Serially (log ++ [⟨switch, call, none, next⟩]) next count current where
  toggles := same.trans serially.toggles
  answers := by simpa [answers_concat] using serially.answers
  begun := by simpa [begun_concat, other] using serially.begun
  fits := fits

/-- What one step keeps, whoever takes it. -/
theorem step (serial : Serial log call)
    (steps : switch.step host call = .ok (next, reply)) :
    ∃ countNow currentNow,
      Serially (log ++ [⟨switch, call, reply, next⟩]) next countNow currentNow := by
  cases Switch.steps_of_step steps with
  | called =>
      obtain rfl := serially.settled_iff.mp (serial rfl)
      refine ⟨count, some .load, ?_, ?_, ?_, ?_⟩
      · simp [serially.toggles]
      · simpa [answers_concat] using serially.answers
      · simpa [begun_concat] using serially.begun
      · obtain ⟨running, maker, taker, stage, shows⟩ := serially.fits
        generalize decide (count % 2 = 1) = wasOn at stage ⊢
        cases stage with
        | off => exact ⟨_, _, _, .loadOff, shows.running, shows.maker, shows.taker⟩
        | on => exact ⟨_, _, _, .loadOn, shows.running, shows.maker, shows.taker⟩
  | advanced index toggle _ _ found advances =>
      rcases serially.toggle_at found with ⟨said, rfl⟩ | ⟨rfl, underWay⟩
      · cases advances
      · exact serially.advance underWay advances
  | looped bot _ runs =>
      obtain ⟨fits, same⟩ := serially.fits.runLoop runs
      exact ⟨count, current, serially.still (by simp) same fits⟩
  | acted activity market results acts =>
      obtain ⟨running, maker, taker, stage, shows⟩ := serially.fits
      exact ⟨count, current, serially.still (by simp) rfl
        ⟨_, _, _, stage, shows.running, shows.maker, shows.taker⟩⟩

theorem ne_terminate (serial : Serial log call) : switch.step host call ≠ .error .terminate := by
  intro terminates
  cases call with
  | toggle => cases terminates
  | advance index =>
      rw [Switch.step] at terminates
      split at terminates
      · cases terminates
      · rename_i toggle found
        rcases serially.toggle_at found with ⟨said, rfl⟩ | ⟨rfl, rfl⟩
        · cases terminates
        · exact serially.fits.advance_ne_terminate terminates
  | loop bot =>
      rw [Switch.step] at terminates
      split at terminates
      · rename_i halt runs
        cases terminates
        unfold Switch.runLoop at runs
        split at runs
        · cases runs
        · cases runs
        · split at runs
          · cases runs
          · cases runs
        · cases runs
        · cases runs
      · cases terminates
  | other activity =>
      rw [Switch.step] at terminates
      split at terminates
      · cases terminates
      · cases terminates

end Serially

/-! ## What the market sees -/

/-- What an entry of the log does to the market. -/
def acted (entry : SwitchEntry) : Option Activity :=
  match entry.call with
  | .toggle | .advance _ => none
  | .loop bot => if entry.before.thread bot = some .turn then some bot.activity else none
  | .other activity => some activity

theorem market_advance {index : Nat} {toggle : Toggle}
    (advances : switch.advance index toggle = .ok (next, reply)) : next.market = switch.market := by
  cases toggle with
  | load | storeTrue | storeFalse =>
      cases advances
      rfl
  | spawnMaker | spawnTaker =>
      obtain ⟨spawned, spawns, made⟩ := exists_of_bind advances
      obtain ⟨_, rfl⟩ := Switch.spawn_cases spawns
      cases made
      rfl
  | joinMaker | joinTaker =>
      obtain ⟨joined, joins, made⟩ := exists_of_bind advances
      cases made
      obtain ⟨rfl, _⟩ | ⟨rfl, _⟩ := Switch.join_cases joins
      · rfl
      · rfl
  | returned => cases advances

/-- A step leaves the market alone, or is one activity on it. -/
theorem acted_cases (steps : switch.step host call = .ok (next, reply)) :
    acted ⟨switch, call, reply, next⟩ = none ∧ next.market = switch.market ∨
      ∃ activity results, acted ⟨switch, call, reply, next⟩ = some activity ∧
        act host switch.market activity = .ok (next.market, results) := by
  cases Switch.steps_of_step steps with
  | called => exact .inl ⟨rfl, rfl⟩
  | advanced index toggle _ _ found advances => exact .inl ⟨rfl, market_advance advances⟩
  | looped bot _ runs =>
      unfold Switch.runLoop at runs
      split at runs
      · cases runs
      · rename_i standing
        cases runs
        exact .inl ⟨by simp [acted, standing], by simp⟩
      · rename_i standing
        split at runs
        · cases runs
        · rename_i market results acts
          cases runs
          exact .inr ⟨bot.activity, results, by simp [acted, standing], by simpa using acts⟩
      · rename_i standing
        cases runs
        exact .inl ⟨by simp [acted, standing], by simp⟩
      · cases runs
  | acted activity market results acts => exact .inr ⟨activity, results, rfl, acts⟩

/-- The market goes through one run of its own, whoever switches what. -/
theorem exists_marketRun {Allowed : List SwitchEntry → SwitchStep → Prop} {start : Switch}
    (run : Run (Switch.step host) Allowed start log switch) :
    ∃ turns, Run (act host) (fun _ _ => True) start.market turns switch.market ∧
      turns.map (·.call) = log.filterMap acted := by
  induction run with
  | nil => exact ⟨[], .nil, rfl⟩
  | snoc past allowed answered ih =>
      obtain ⟨turns, runs, same⟩ := ih
      rcases acted_cases answered with ⟨nothing, still⟩ | ⟨activity, results, something, acts⟩
      · refine ⟨turns, still ▸ runs, ?_⟩
        rw [List.filterMap_append, same]
        simp [nothing]
      · refine ⟨_, .snoc runs trivial acts, ?_⟩
        rw [List.map_append, List.filterMap_append, same]
        simp [something]

/-! ## Calls that overlap -/

/-- Reached by whatever happens, with so many calls of `toggle`. -/
def Reaches (host : Host) (start : Switch) (calls : Nat) (switch : Switch) : Prop :=
  ∃ log, Run (Switch.step host) (fun _ _ => True) start log switch ∧
    log.countP (·.call = .toggle) = calls

theorem Reaches.step {start : Switch} {calls : Nat} (reached : Reaches host start calls switch)
    (steps : switch.step host call = .ok (next, reply)) :
    Reaches host start (calls + if call = .toggle then 1 else 0) next := by
  obtain ⟨log, run, rfl⟩ := reached
  refine ⟨_, .snoc run trivial steps, ?_⟩
  rw [List.countP_append, List.countP_singleton]
  simp

/-- The same market maker, somewhere within two calls made after all others. -/
def Switch.within (switch : Switch) (running : Bool) (makerThread : Option Loop)
    (one other : Toggle) : Switch :=
  { switch with running, makerThread, toggles := switch.toggles ++ [one, other] }

section Two

variable {running runningNow : Bool} {makerThread makerNow : Option Loop} {one other now : Toggle}

theorem step_one
    (advances : (switch.within running makerThread one other).advance switch.toggles.length one =
      .ok ((switch.within runningNow makerNow one other).goTo switch.toggles.length now, none)) :
    (switch.within running makerThread one other).step host (.advance switch.toggles.length) =
      .ok (switch.within runningNow makerNow now other, none) := by
  have found : (switch.within running makerThread one other).toggles[switch.toggles.length]? =
      some one := by simp [Switch.within]
  have gone : (switch.within runningNow makerNow one other).goTo switch.toggles.length now =
      switch.within runningNow makerNow now other := by simp [Switch.goTo, Switch.within]
  rw [Switch.step, found, ← gone]
  exact advances

theorem found_other :
    (switch.within running makerThread one other).toggles[switch.toggles.length + 1]? =
      some other := by
  simp [Switch.within]

theorem step_other
    (advances :
      (switch.within running makerThread one other).advance (switch.toggles.length + 1) other =
        .ok ((switch.within runningNow makerNow one other).goTo (switch.toggles.length + 1) now,
          none)) :
    (switch.within running makerThread one other).step host
        (.advance (switch.toggles.length + 1)) =
      .ok (switch.within runningNow makerNow one now, none) := by
  have gone : (switch.within runningNow makerNow one other).goTo (switch.toggles.length + 1) now =
      switch.within runningNow makerNow one now := by simp [Switch.goTo, Switch.within]
  rw [Switch.step, found_other, ← gone]
  exact advances

end Two

/-- Of two calls that both find it off, one starts it and the other ends the program. -/
theorem overlap_terminates (host : Host) (down : switch.running = false)
    (absent : switch.makerThread = none) :
    ∃ last call, Reaches host switch 2 last ∧ last.step host call = .error .terminate := by
  have start : Reaches host switch 0 switch := ⟨[], .nil, rfl⟩
  have oneCalled : Reaches host switch 1 { switch with toggles := switch.toggles ++ [.load] } :=
    start.step (rfl : switch.step host .toggle = _)
  have bothCalled : Reaches host switch 2 (switch.within false none .load .load) := by
    refine oneCalled.step (?_ : Switch.step host _ .toggle = .ok (_, none))
    simp [Switch.step, Switch.within, down, absent]
  have oneLoaded : Reaches host switch 2 (switch.within false none .storeTrue .load) :=
    bothCalled.step (step_one rfl)
  have bothLoaded : Reaches host switch 2 (switch.within false none .storeTrue .storeTrue) :=
    oneLoaded.step (step_other rfl)
  have oneStored : Reaches host switch 2 (switch.within true none .spawnMaker .storeTrue) :=
    bothLoaded.step (step_one rfl)
  have bothStored : Reaches host switch 2 (switch.within true none .spawnMaker .spawnMaker) :=
    oneStored.step (step_other rfl)
  have spawned : Reaches host switch 2 (switch.within true (some .test) .spawnTaker .spawnMaker) :=
    bothStored.step (step_one rfl)
  refine ⟨_, .advance (switch.toggles.length + 1), spawned, ?_⟩
  rw [Switch.step, found_other]
  rfl

/-! ## Runs in which the caller waits -/

/-- The calls of `toggle` from construction on, one after another. -/
abbrev SerialRun (host : Host) (market : Market) : List SwitchEntry → Switch → Prop :=
  Run (Switch.step host) Serial { market }

theorem exists_serially {market : Market} (run : SerialRun host market log switch) :
    ∃ count current, Serially log switch count current := by
  refine run.invariant (fun log switch => ∃ count current, Serially log switch count current) ?_ ?_
  · exact ⟨0, none, rfl, rfl, rfl, _, _, _, .off, rfl, rfl, rfl⟩
  · rintro log switch call reply next _ ⟨count, current, serially⟩ serial steps
    exact serially.step serial steps

namespace Serially

variable (serially : Serially log switch count none)

include serially

theorem saysOn_eq : saysOn log = decide (count % 2 = 1) := by
  rw [saysOn, serially.answers, getLast?_verdicts]

/-- Between the calls the flag and the threads are as the last answer says. -/
theorem between : switch.running = saysOn log ∧
    ∀ bot, (switch.thread bot = none ↔ saysOn log = false) ∧ switch.thread bot ≠ some .ended := by
  obtain ⟨running, maker, taker, stage, flag, makerShown, takerShown⟩ := serially.fits
  rw [← serially.saysOn_eq] at stage
  generalize saysOn log = said at stage
  cases stage with
  | off =>
      refine ⟨flag, fun bot => ?_⟩
      have absent : switch.thread bot = none := by
        cases bot with
        | maker => exact makerShown
        | taker => exact takerShown
      simp [absent]
  | on =>
      refine ⟨flag, fun bot => ?_⟩
      obtain ⟨present, alive⟩ : Presence.alive.Of (switch.thread bot) := by
        cases bot with
        | maker => exact makerShown
        | taker => exact takerShown
      simp [present, alive]

end Serially

/--
Switching with one call at a time never ends the program, and the answers
alternate.  Between the calls the flag and both threads are as the last answer
says, and no loop takes a step while it says off; the market goes through one
run of its own, of the turns of the loops and what others do.  But from off, two
calls that overlap can end the program.
-/
theorem toggles_one_at_a_time {market : Market} (run : SerialRun host market log switch) :
    answers log = verdicts (answers log).length ∧
    (∀ call, Serial log call → switch.step host call ≠ .error .terminate) ∧
    (Settled log → switch.running = saysOn log ∧ ∀ bot,
      (switch.thread bot = none ↔ saysOn log = false) ∧ switch.thread bot ≠ some .ended) ∧
    (∀ past entry bot, past ++ [entry] <+: log → entry.call = .loop bot → Settled past →
      saysOn past = true) ∧
    (∃ turns, Run (act host) (fun _ _ => True) market turns switch.market ∧
      turns.map (·.call) = log.filterMap acted) ∧
    (Settled log → saysOn log = false →
      ∃ last call, Reaches host switch 2 last ∧ last.step host call = .error .terminate) := by
  obtain ⟨count, current, serially⟩ := exists_serially run
  refine ⟨?_, fun call => serially.ne_terminate, ?_, ?_, exists_marketRun run, ?_⟩
  · rw [serially.answers, length_verdicts]
  · intro settled
    obtain rfl := serially.settled_iff.mp settled
    exact serially.between
  · rintro past ⟨before, _, reply, after⟩ bot isPrefix rfl settled
    obtain ⟨earlier, steps⟩ := run.of_prefix isPrefix
    obtain ⟨countThen, currentThen, seriallyThen⟩ := exists_serially earlier
    obtain rfl := seriallyThen.settled_iff.mp settled
    cases Switch.steps_of_step steps with
    | looped _ _ runs =>
        obtain ⟨_, _, _, present, _⟩ := Switch.runLoop_cases runs
        cases said : saysOn past with
        | true => rfl
        | false => exact (present ((seriallyThen.between.2 bot).1.mpr said)).elim
  · intro settled off
    obtain rfl := serially.settled_iff.mp settled
    obtain ⟨flag, threads⟩ := serially.between
    exact overlap_terminates host (flag.trans off) ((threads .maker).1.mpr off)

theorem toggles_one_at_a_time_sample :
    ∃ (market : Market) (log : List SwitchEntry) (switch : Switch),
      SerialRun (Host.exact (·)) market log switch ∧ answers log = verdicts 2 ∧ Settled log ∧
        log.filterMap acted = [.maker] ∧ switch.market.engine.book.resting.length = 2 ∧
        (∀ call, Serial log call → switch.step (Host.exact (·)) call ≠ .error .terminate) ∧
        (∀ bot, switch.thread bot = none) ∧
        ∃ last call, Reaches (Host.exact (·)) switch 2 last ∧
          last.step (Host.exact (·)) call = .error .terminate := by
  have run := Run.of_isSome (Switch.step (Host.exact (·))) Serial { market := { engine := {} } }
    [.toggle, .advance 0, .advance 0, .advance 0, .advance 0, .loop .maker, .loop .maker,
      .toggle, .advance 1, .advance 1, .loop .maker, .loop .maker, .loop .taker, .advance 1,
      .advance 1] (by decide)
  obtain ⟨_, safe, between, _, _, overlap⟩ := toggles_one_at_a_time run
  exact ⟨_, _, _, run, by decide, by decide, by decide, by decide, safe,
    fun bot => ((between (by decide)).2 bot).1.mpr (by decide), overlap (by decide) (by decide)⟩

end MarketMaker

end OrderBookSimulator
