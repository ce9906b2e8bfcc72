import OrderBookSimulator.MarketMaker.Market

/-!
# Switching the market maker

`start`, `stop` and `toggle` of `market_maker/market_maker.cpp`, as
`POST /market_maker/toggle` calls them from any number of threads, and the two
loops they start and end.  Each access to `running_` and to a thread object is
one step; a turn of a loop holds `book_mtx` throughout.
-/

namespace OrderBookSimulator

open Library

namespace MarketMaker

/-- Where a thread stands in `while (running_.load()) { ... sleep_for(...) }`. -/
inductive Loop where
  | test
  | turn
  | sleep
  /-- The function has returned, and the thread waits to be joined. -/
  | ended
  deriving DecidableEq, Repr

/-- What a call of `toggle` does next. -/
inductive Toggle where
  | load
  | storeTrue
  | spawnMaker
  | spawnTaker
  | storeFalse
  | joinMaker
  | joinTaker
  | returned (running : Bool)
  deriving DecidableEq, Repr

inductive Bot where
  | maker
  | taker
  deriving DecidableEq, Repr

def Bot.activity : Bot → Activity
  | .maker => .maker
  | .taker => .taker

/-- The market maker, the calls made to switch it, and the market it acts on. -/
structure Switch where
  market : Market
  running : Bool := false
  /-- `none` where the thread object is not joinable. -/
  makerThread : Option Loop := none
  takerThread : Option Loop := none
  toggles : List Toggle := []

inductive SwitchStep where
  | toggle
  | advance (index : Nat)
  | loop (bot : Bot)
  /-- Somebody else acts on the market. -/
  | other (activity : Activity)
  deriving DecidableEq, Repr

/-- Why something does not happen now. -/
inductive Halt where
  | elsewhere
  | waits
  /-- `std::terminate`: a joinable thread object is assigned to. -/
  | terminate
  | fault (fault : Fault)

namespace Switch

def thread (switch : Switch) : Bot → Option Loop
  | .maker => switch.makerThread
  | .taker => switch.takerThread

def setThread (switch : Switch) (bot : Bot) (thread : Option Loop) : Switch :=
  match bot with
  | .maker => { switch with makerThread := thread }
  | .taker => { switch with takerThread := thread }

def goTo (switch : Switch) (index : Nat) (toggle : Toggle) : Switch :=
  { switch with toggles := switch.toggles.set index toggle }

/-- `thread_ = std::thread(...)` -/
def spawn (switch : Switch) (bot : Bot) : Except Halt Switch :=
  match switch.thread bot with
  | some _ => .error .terminate
  | none => .ok (switch.setThread bot (some .test))

/-- `if (thread_.joinable()) thread_.join();` -/
def join (switch : Switch) (bot : Bot) : Except Halt Switch :=
  match switch.thread bot with
  | none => .ok switch
  | some .ended => .ok (switch.setThread bot none)
  | some _ => .error .waits

/-- The next step of a call of `toggle`, and what the call returns with it. -/
def advance (switch : Switch) (index : Nat) : Toggle → Except Halt (Switch × Option Bool)
  | .load => .ok (switch.goTo index (if switch.running then .storeFalse else .storeTrue), none)
  | .storeTrue => .ok ({ switch with running := true }.goTo index .spawnMaker, none)
  | .spawnMaker => do
      let switch ← switch.spawn .maker
      pure (switch.goTo index .spawnTaker, none)
  | .spawnTaker => do
      let switch ← switch.spawn .taker
      pure (switch.goTo index (.returned true), some true)
  | .storeFalse => .ok ({ switch with running := false }.goTo index .joinMaker, none)
  | .joinMaker => do
      let switch ← switch.join .maker
      pure (switch.goTo index .joinTaker, none)
  | .joinTaker => do
      let switch ← switch.join .taker
      pure (switch.goTo index (.returned false), some false)
  | .returned _ => .error .elsewhere

/-- The next step of a loop. -/
def runLoop (host : Host) (switch : Switch) (bot : Bot) : Except Halt Switch :=
  match switch.thread bot with
  | none => .error .elsewhere
  | some .test => .ok (switch.setThread bot (some (if switch.running then .turn else .ended)))
  | some .turn =>
      match act host switch.market bot.activity with
      | .error fault => .error (.fault fault)
      | .ok (market, _) => .ok ({ switch with market }.setThread bot (some .sleep))
  | some .sleep => .ok (switch.setThread bot (some .test))
  | some .ended => .error .elsewhere

def step (host : Host) (switch : Switch) : SwitchStep → Except Halt (Switch × Option Bool)
  | .toggle => .ok ({ switch with toggles := switch.toggles ++ [.load] }, none)
  | .advance index =>
      match switch.toggles[index]? with
      | none => .error .elsewhere
      | some toggle => switch.advance index toggle
  | .loop bot =>
      match switch.runLoop host bot with
      | .error halt => .error halt
      | .ok next => .ok (next, none)
  | .other activity =>
      match act host switch.market activity with
      | .error fault => .error (.fault fault)
      | .ok (market, _) => .ok ({ switch with market }, none)

/-! ## The thread objects -/

variable {switch next : Switch} {bot : Bot}

@[simp]
theorem toggles_setThread (switch : Switch) (bot : Bot) (thread : Option Loop) :
    (switch.setThread bot thread).toggles = switch.toggles := by cases bot <;> rfl

@[simp]
theorem running_setThread (switch : Switch) (bot : Bot) (thread : Option Loop) :
    (switch.setThread bot thread).running = switch.running := by cases bot <;> rfl

@[simp]
theorem market_setThread (switch : Switch) (bot : Bot) (thread : Option Loop) :
    (switch.setThread bot thread).market = switch.market := by cases bot <;> rfl

theorem spawn_of_absent (bot : Bot) (absent : switch.thread bot = none) :
    switch.spawn bot = .ok (switch.setThread bot (some .test)) := by
  rw [spawn, absent]

theorem spawn_cases (spawns : switch.spawn bot = .ok next) :
    switch.thread bot = none ∧ next = switch.setThread bot (some .test) := by
  unfold spawn at spawns
  split at spawns
  · cases spawns
  · rename_i absent
    cases spawns
    exact ⟨absent, rfl⟩

/-- Joining takes an ended thread away, or nothing. -/
theorem join_cases (joins : switch.join bot = .ok next) :
    next = switch ∧ switch.thread bot = none ∨
      next = switch.setThread bot none ∧ switch.thread bot = some .ended := by
  unfold join at joins
  split at joins
  · rename_i absent
    cases joins
    exact .inl ⟨rfl, absent⟩
  · rename_i ended
    cases joins
    exact .inr ⟨rfl, ended⟩
  · cases joins

end Switch

end MarketMaker

end OrderBookSimulator
