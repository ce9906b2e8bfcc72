import OrderBookSimulator.Engine.TradeSink
import OrderBookSimulator.Properties.AccountsKept
import OrderBookSimulator.Properties.ClientIsolation

/-!
# One order of all calls

Threads interleave at every access to what they share.  Still the engine sees
one call after another, in the order in which `book_mtx` is taken, and each
thread answers what a single caller would have been answered in that order.
The user manager is touched outside `book_mtx` as well, by those who connect;
where connecting resets no account it changes no answer.
-/

namespace OrderBookSimulator

open Library

/-- Each order comes under a new id; any id may be cancelled. -/
def Fresh (start : MatchingEngine) (log : Log) : Call → Prop
  | .nextOrderId => True
  | .addRestingOrder _ => False
  | .processOrder order => ¬ Used start log order.id
  | .cancelOrder _ => True

/-- Runs of a single caller. -/
abbrev SerialRun (host : Host) (start : MatchingEngine) : Log → MatchingEngine → Prop :=
  Run (exec host) (Fresh start) start

/-- An engine call that a step of the server makes, and the reply it passes on to a thread. -/
structure Handed where
  call : Call
  reply : Option Reply := none
  deriving DecidableEq

/-- The single caller makes the same call, and gets the reply that was passed on. -/
structure Handed.Matches (handed : Handed) (entry : Entry) : Prop where
  call : entry.call = handed.call
  reply : ∀ reply ∈ handed.reply, entry.reply = reply

/-- The engine calls of a step, read off what its thread was about to do and does next. -/
def ServerEntry.handed (entry : ServerEntry) : List Handed :=
  match entry.call with
  | .advance index _ =>
      match (entry.before.threads[index]?).map Thread.task,
        (entry.after.threads[index]?).map Thread.task with
      | some (.drawId _), some (.submit order) => [⟨.nextOrderId, some (.orderId order.id)⟩]
      | some (.submit order), some (.answer (.result result)) =>
          [⟨.processOrder order, some (.result result)⟩]
      | some (.withdraw orderId), some (.answer (.ok ok)) =>
          [⟨.cancelOrder orderId, some (.cancelled ok)⟩]
      | _, _ => []
  | .tickOrder =>
      match entry.before.held with
      | some ⟨_, request :: _, _, _⟩ =>
          -- what a bot is answered it does not look at
          [⟨.nextOrderId, none⟩,
            ⟨.processOrder (request.order entry.before.engine.nextId 0), none⟩]
      | _ => []
  | _ => []

/-- The engine calls of a run, in order. -/
def handed (log : List ServerEntry) : List Handed := log.flatMap ServerEntry.handed

/-- The thread is about to call the engine. -/
def Task.Calls : Task → Prop
  | .drawId _ | .submit _ | .withdraw _ => True
  | _ => False

namespace Server

/-- The users once the holder of `book_mtx` has made its calls. -/
def settledUsers (host : Host) (server : Server) : UserManager :=
  (server.held.elim [] (·.callbacks)).foldl (UserManager.apply host) server.users

/-- The engine as the holder of `book_mtx` leaves it. -/
def settled (host : Host) (server : Server) : MatchingEngine :=
  { server.attached with userManager := some (server.settledUsers host) }

section Settled

variable {host : Host} {server next : Server}

theorem settled_of_quiet (quiet : server.held.elim [] (·.callbacks) = []) :
    server.settled host = server.attached := by
  unfold settled settledUsers
  rw [quiet]
  rfl

theorem settled_of_free (free : server.held = none) : server.settled host = server.attached :=
  settled_of_quiet (by rw [free]; rfl)

/-- A step that calls no engine leaves it as it was, if it leaves the users alike. -/
theorem settled_alike (engine : next.engine = server.engine)
    (users : (server.settledUsers host).Agrees (next.settledUsers host)) :
    (server.settled host).Agrees (next.settled host) where
  quiet := by
    unfold settled attached
    rw [engine]
    rfl
  users := ⟨_, _, rfl, rfl, users⟩

end Settled

end Server

/-- After a call under the lock the engine is as its holder will leave it. -/
theorem Locked.settled {host : Host} {server next : Server} {call : Call} {reply : Reply}
    (locked : Locked host server call reply next) (sound : server.engine.book.Sound) :
    next.engine.Agrees (next.settled host) where
  quiet := by
    have told : next.engine.tradeSink = (some []).map (· ++ _) := locked.answered.told.sink
    unfold Server.settled Server.attached MatchingEngine.quiet
    simp [told]
  users := by
    obtain ⟨held, isHeld, users⟩ := locked.users_of_callbacks sound
    refine ⟨_, _, users, rfl, ?_⟩
    unfold Server.settledUsers
    rw [isHeld]
    exact .refl _

/-! ## The calls of one step -/

section Handed

variable {host : Host} {server next : Server}

/-- Where no thread that is about to call the engine goes on, no call is made. -/
theorem ServerEntry.handed_of_same {entry : ServerEntry} (notTick : entry.call ≠ .tickOrder)
    (same : ∀ (index : Nat) (thread : Thread), entry.before.threads[index]? = some thread →
      thread.task.Calls →
        ∃ other, entry.after.threads[index]? = some other ∧ other.task = thread.task) :
    entry.handed = [] := by
  have tasks : ∀ {index : Nat} {task : Task},
      (entry.before.threads[index]?).map Thread.task = some task → task.Calls →
        (entry.after.threads[index]?).map Thread.task = some task := by
    intro index task before calls
    obtain ⟨thread, found, rfl⟩ := Option.map_eq_some_iff.mp before
    obtain ⟨other, foundAfter, sameTask⟩ := same index thread found calls
    rw [foundAfter, Option.map_some, sameTask]
  unfold handed
  split
  · split
    · rename_i before after
      rw [tasks before trivial] at after
      cases after
    · rename_i before after
      rw [tasks before trivial] at after
      cases after
    · rename_i before after
      rw [tasks before trivial] at after
      cases after
    · rfl
  · rename_i tick
    exact absurd tick notTick
  · rfl

/-- A thread that is about to do something else goes on. -/
theorem ServerEntry.handed_of_setThread {action : Action} {index : Nat} {thread after : Thread}
    (notTick : action ≠ .tickOrder) (found : server.threads[index]? = some thread)
    (idle : ¬ thread.task.Calls) :
    ServerEntry.handed ⟨server, action, (), server.setThread index after⟩ = [] := by
  refine ServerEntry.handed_of_same notTick fun place other atPlace calls => ⟨other, ?_, rfl⟩
  rw [Server.setThread, List.getElem?_set_ne ?_]
  · exact atPlace
  · rintro rfl
    rw [found] at atPlace
    cases atPlace
    exact idle calls

theorem Thread.Turns.idle {thread after : Thread} (turns : thread.Turns server after) :
    ¬ thread.task.Calls := by
  cases turns with
  | reads _ task | hangsUp task | registers _ task | checks _ task | finishes _ task =>
      rw [task]
      exact id

theorem Thread.Sends.wasIdle {thread : Thread} {message : Message} {task : Task}
    (sends : thread.Sends host server message task) : ¬ thread.task.Calls := by
  cases sends with
  | greeting _ task | book task | orders task | answer _ task =>
      rw [task]
      exact id

theorem getElem?_setThread {index : Nat} {thread : Thread} (same : next.threads = server.threads)
    (found : server.threads[index]? = some thread) (after : Thread) :
    (next.setThread index after).threads[index]? = some after := by
  rw [Server.setThread, same]
  exact List.getElem?_set_self (List.getElem?_eq_some_iff.mp found).choose

section Called

variable {index : Nat} {thread : Thread} (found : server.threads[index]? = some thread)
  (spurious : Bool)

include found

theorem ServerEntry.handed_of_drew {request : OrderRequest} (task : thread.task = .drawId request) :
    ServerEntry.handed ⟨server, .advance index spurious, (), server.drawn.setThread index
      { thread with task := .submit (request.order server.engine.nextId thread.userId) }⟩ =
        [⟨.nextOrderId, some (.orderId server.engine.nextId)⟩] := by
  have after : (server.drawn.setThread index { thread with
      task := .submit (request.order server.engine.nextId thread.userId) }).threads[index]? =
        some _ := getElem?_setThread rfl found _
  simp only [ServerEntry.handed, found, after, Option.map_some, task]
  rfl

theorem ServerEntry.handed_of_submitted {order : Order} (task : thread.task = .submit order)
    (same : next.threads = server.threads) (result : OrderResult) :
    ServerEntry.handed ⟨server, .advance index spurious, (),
      next.setThread index { thread with task := .answer (.result result) }⟩ =
        [⟨.processOrder order, some (.result result)⟩] := by
  have after := getElem?_setThread same found { thread with task := .answer (.result result) }
  simp only [ServerEntry.handed, found, after, Option.map_some, task]

theorem ServerEntry.handed_of_withdrew {orderId : Int} (task : thread.task = .withdraw orderId)
    (same : next.threads = server.threads) (ok : Bool) :
    ServerEntry.handed ⟨server, .advance index spurious, (),
      next.setThread index { thread with task := .answer (.ok ok) }⟩ =
        [⟨.cancelOrder orderId, some (.cancelled ok)⟩] := by
  have after := getElem?_setThread same found { thread with task := .answer (.ok ok) }
  simp only [ServerEntry.handed, found, after, Option.map_some, task]

end Called

theorem ServerEntry.handed_of_tickOrder {thread : Option Nat} {request : OrderRequest}
    {rest : List OrderRequest} (held : server.held = some ⟨thread, request :: rest, [], []⟩) :
    ServerEntry.handed ⟨server, .tickOrder, (), next⟩ =
      [⟨.nextOrderId, none⟩, ⟨.processOrder (request.order server.engine.nextId 0), none⟩] := by
  simp only [ServerEntry.handed, held]

theorem submits_opened {index : Nat} {order : Order} {thread : Thread} (arrives : thread.Arrives)
    (submits : (server.opened thread).Submits index order) : server.Submits index order := by
  obtain ⟨other, found, task⟩ := submits
  rw [Server.opened, List.getElem?_append] at found
  split at found
  · exact ⟨other, found, task⟩
  · cases List.mem_singleton.mp (List.mem_of_getElem? found)
    exact absurd task (arrives.notSubmitting order)

theorem submits_receive {index : Nat} {order : Order} {message : Message} {held : Option Held}
    (submits : Server.Submits
      { server with threads := server.threads.map (·.receive message), held } index order) :
    server.Submits index order := by
  obtain ⟨receiver, found, task⟩ := submits
  rw [List.getElem?_map] at found
  obtain ⟨thread, foundThread, rfl⟩ := Option.map_eq_some_iff.mp found
  exact ⟨thread, foundThread, by simpa using task⟩

theorem exec_of_cancelOrder {thread : Option Nat} {orderId : Int} {ok : Bool}
    (cancels : server.cancelOrder host thread orderId = .ok (next, ok)) :
    exec host server.attached (.cancelOrder orderId) = .ok (next.engine, .cancelled ok) := by
  obtain ⟨⟨engine, withdrawn⟩, found, made⟩ := exists_of_bind cancels
  cases made
  exact exec_cancelOrder found

theorem moves_of_tickOrder (steps : server.step host .tickOrder = .ok (next, ())) :
    ∃ thread request rest, server.held = some ⟨thread, request :: rest, [], []⟩ ∧
      next =
        (server.drawn.processOrder host thread rest (request.order server.engine.nextId 0)).1 := by
  unfold Server.step at steps
  dsimp only at steps
  split at steps
  · rename_i thread request rest held
    cases steps
    exact ⟨thread, request, rest, held, rfl⟩
  · cases steps

end Handed

/-! ## The single caller -/

theorem used_append_iff {start : MatchingEngine} {log : Log} {entry : Entry} {orderId : Int} :
    Used start (log ++ [entry]) orderId ↔
      Used start log orderId ∨ orderId ∈ entry.call.submitted.map (·.id) := by
  unfold Used
  rw [Log.submittedIds_append, List.mem_append, or_assoc]
  simp

/-- An order may still be submitted under the id. -/
def Server.Awaits (server : Server) (orderId : Int) : Prop :=
  server.engine.nextId ≤ orderId ∨ ∃ index order, server.Submits index order ∧ order.id = orderId

/-- A single caller who has made the calls so far stands where the server does. -/
structure Serialized (host : Host) (start server : Server) (calls : List Handed) (serial : Log)
    (engine : MatchingEngine) : Prop where
  run : SerialRun host start.attached serial engine
  matched : List.Forall₂ Handed.Matches calls serial
  alike : engine.Agrees (server.settled host)
  unused : ∀ orderId, server.Awaits orderId → ¬ Used start.attached serial orderId

/-- The single caller has one more call to make to stand where the server does. -/
def Continues (host : Host) (start server : Server) (made : List Handed) (serial : Log)
    (call : Call) : Prop :=
  ∃ entry engine, entry.call = call ∧
    Serialized host start server made (serial ++ [entry]) engine

namespace Serialized

variable {host : Host} {start server next : Server} {made : List Handed} {serial : Log}
  {engine : MatchingEngine}

theorem initial (free : start.held = none) (seeded : start.Seeded) :
    Serialized host start start [] [] start.attached where
  run := .nil
  matched := .nil
  alike := by
    rw [Server.settled_of_free free]
    exact ⟨rfl, _, _, rfl, rfl, .refl _⟩
  unused := by
    rintro orderId awaits (known | submitted)
    · have below := seeded.ids orderId known
      rcases awaits with later | ⟨index, order, ⟨thread, found, _⟩, _⟩
      · omega
      · rw [seeded.noThreads] at found
        cases found
    · cases submitted

/-- A step in which no call is made. -/
theorem stays (serialized : Serialized host start server made serial engine)
    (settled : (server.settled host).Agrees (next.settled host))
    (fewer : ∀ orderId, next.Awaits orderId → server.Awaits orderId) :
    Serialized host start next made serial engine where
  run := serialized.run
  matched := serialized.matched
  alike := serialized.alike.trans settled
  unused := fun orderId awaits => serialized.unused orderId (fewer orderId awaits)

/-- A step that makes a call: the single caller makes it too, and gets the same reply. -/
theorem calls (serialized : Serialized host start server made serial engine)
    (sound : start.engine.book.Sound) (soundNow : server.engine.book.Sound)
    {call : Call} {reply : Reply} (passedOn : Option Reply) {after : MatchingEngine}
    (fresh : Fresh start.attached serial call)
    (answer : exec host (server.settled host) call = .ok (after, reply))
    (passes : ∀ passed ∈ passedOn, reply = passed) (settled : after.Agrees (next.settled host))
    (fewer : ∀ orderId, next.Awaits orderId →
      server.Awaits orderId ∧ orderId ∉ call.submitted.map (·.id)) :
    Continues host start next (made ++ [⟨call, passedOn⟩]) serial call := by
  have requested : call.Requested := by
    cases call with
    | addRestingOrder order => exact fresh
    | nextOrderId | processOrder | cancelOrder => trivial
  have soundEngine : engine.book.Sound :=
    MatchingEngine.sound_of_anySession (Server.sound_attached sound)
      (serialized.run.mono fun _ _ _ => trivial)
  obtain ⟨other, answerOther, alike⟩ :=
    serialized.alike.symm.exec soundNow.setOnChange soundEngine requested answer
  refine ⟨⟨engine, call, reply, other⟩, other, rfl, ?_⟩
  exact {
    run := .snoc serialized.run fresh answerOther
    matched := List.rel_append serialized.matched (.cons ⟨rfl, passes⟩ .nil)
    alike := alike.symm.trans settled
    unused := by
      intro orderId awaits used
      obtain ⟨awaited, notNow⟩ := fewer orderId awaits
      rcases used_append_iff.mp used with before | now
      · exact serialized.unused orderId awaited before
      · exact notNow now }

/-- Nothing that the calls depend on has changed. -/
theorem idles (serialized : Serialized host start server made serial engine)
    (same : next.engine = server.engine)
    (users : (server.settledUsers host).Agrees (next.settledUsers host))
    (fewer : ∀ index order, next.Submits index order → server.Submits index order) :
    Serialized host start next made serial engine := by
  refine serialized.stays (Server.settled_alike same users) ?_
  rintro orderId (later | ⟨index, order, submits, id⟩)
  · exact Or.inl (same ▸ later)
  · exact Or.inr ⟨index, order, fewer index order submits, id⟩

/-- A thread that is not about to submit anything goes on. -/
theorem turns (serialized : Serialized host start server made serial engine) {index : Nat}
    {after : Thread} (idle : ∀ order, after.task ≠ .submit order) :
    Serialized host start (server.setThread index after) made serial engine :=
  serialized.idles rfl (.refl _) fun _ _ submits => (submits_setThread_of_idle idle submits).2

/-- An id is drawn, under which an order may then be submitted. -/
theorem draws (serialized : Serialized host start server made serial engine)
    (sound : start.engine.book.Sound) (soundNow : server.engine.book.Sound)
    (passedOn : Option Reply) (passes : ∀ passed ∈ passedOn, passed = .orderId server.engine.nextId)
    (same : next.engine = server.drawn.engine) (users : next.users = server.users)
    (held : next.held = server.held)
    (fewer : ∀ orderId, next.Awaits orderId → server.Awaits orderId) :
    Continues host start next (made ++ [⟨.nextOrderId, passedOn⟩]) serial .nextOrderId := by
  have allowed : Fresh start.attached serial .nextOrderId := trivial
  refine serialized.calls sound soundNow passedOn allowed rfl
    (fun passed isPassed => (passes passed isPassed).symm) ?_
    fun orderId awaits => ⟨fewer orderId awaits, by simp [Call.submitted]⟩
  have settled : next.settled host = (server.settled host).nextOrderId.1 := by
    unfold Server.settled Server.settledUsers Server.attached
    rw [same, users, held]
    rfl
  rw [settled]
  exact ⟨rfl, _, _, rfl, rfl, .refl _⟩

/-- A call is made under the lock. -/
theorem locks (serialized : Serialized host start server made serial engine)
    (sound : start.engine.book.Sound) (soundNow : server.engine.book.Sound)
    (quiet : server.held.elim [] (·.callbacks) = []) {locked : Server} {call : Call} {reply : Reply}
    (passedOn : Option Reply) (fresh : Fresh start.attached serial call)
    (answer : exec host server.attached call = .ok (locked.engine, reply))
    (leaves : Locked host server call reply locked) (passes : ∀ passed ∈ passedOn, reply = passed)
    (same : next.settled host = locked.settled host)
    (fewer : ∀ orderId, next.Awaits orderId →
      server.Awaits orderId ∧ orderId ∉ call.submitted.map (·.id)) :
    Continues host start next (made ++ [⟨call, passedOn⟩]) serial call := by
  rw [← Server.settled_of_quiet quiet] at answer
  exact serialized.calls sound soundNow passedOn fresh answer passes
    (by rw [same]; exact leaves.settled soundNow) fewer

/-- A bot draws an id and submits under it, all while it holds the lock. -/
theorem ticks (serialized : Serialized host start server made serial engine) (owned : Owned server)
    (sound : start.engine.book.Sound) (steps : server.step host .tickOrder = .ok (next, ())) :
    ∃ more other, Serialized host start next
      (made ++ ServerEntry.handed ⟨server, .tickOrder, (), next⟩) (serial ++ more) other := by
  obtain ⟨thread, request, rest, held, rfl⟩ := moves_of_tickOrder steps
  have isNew : server.Awaits server.engine.nextId := Or.inl (Int.le_refl _)
  have drawnAwaits : ∀ orderId, server.drawn.Awaits orderId →
      server.Awaits orderId ∧ orderId ≠ server.engine.nextId := by
    rintro orderId (later | ⟨index, order, submits, rfl⟩)
    · have rises : server.drawn.engine.nextId = server.engine.nextId + 1 := rfl
      rw [rises] at later
      exact ⟨Or.inl (by omega), by omega⟩
    · exact ⟨Or.inr ⟨index, order, submits, rfl⟩, Int.ne_of_lt (owned.allotted submits)⟩
  obtain ⟨drawing, afterDraw, isDraw, drawn⟩ : Continues host start server.drawn
      (made ++ [⟨.nextOrderId, none⟩]) serial .nextOrderId :=
    serialized.draws sound owned.sound none (by simp) rfl rfl rfl
      fun orderId awaits => (drawnAwaits orderId awaits).1
  have fresh : Fresh start.attached (serial ++ [drawing])
      (.processOrder (request.order server.engine.nextId 0)) := by
    intro used
    rcases used_append_iff.mp used with before | now
    · exact serialized.unused _ isNew before
    · simp [isDraw, Call.submitted] at now
  have quiet : server.drawn.held.elim [] (·.callbacks) = [] := by
    change server.held.elim [] _ = []
    rw [held]
    rfl
  have locked : Locked host server.drawn _ _ _ := locked_processOrder
    (Server.sound_drawn owned.sound) thread rest (request.order server.engine.nextId 0)
  obtain ⟨submitting, afterSubmit, _, submitted⟩ := drawn.locks sound
    (Server.sound_drawn owned.sound) quiet none fresh rfl locked (by simp) rfl
    fun orderId awaits => by
      have sameAwaits : server.drawn.Awaits orderId := by
        unfold Server.Awaits at awaits ⊢
        rwa [locked.nextId (by simp)] at awaits
      have notNow := (drawnAwaits orderId sameAwaits).2
      exact ⟨sameAwaits, by simpa [Call.submitted, OrderRequest.order] using Ne.symm notNow⟩
  refine ⟨[drawing, submitting], afterSubmit, ?_⟩
  rw [ServerEntry.handed_of_tickOrder held]
  simpa using submitted

/-- A thread draws the id that it is going to submit under. -/
theorem drew (serialized : Serialized host start server made serial engine)
    (owned : Owned server) (sound : start.engine.book.Sound) (index : Nat) (thread : Thread)
    (request : OrderRequest) : Continues host start
      (server.drawn.setThread index
        { thread with task := .submit (request.order server.engine.nextId thread.userId) })
      (made ++ [⟨.nextOrderId, some (.orderId server.engine.nextId)⟩]) serial .nextOrderId := by
  refine serialized.draws sound owned.sound _ (by simp) rfl rfl rfl ?_
  rintro orderId (later | ⟨place, order, submits, rfl⟩)
  · have rises : server.drawn.engine.nextId = server.engine.nextId + 1 := rfl
    change server.drawn.engine.nextId ≤ orderId at later
    exact Or.inl (by omega)
  · rcases submits_setThread submits with ⟨_, new⟩ | ⟨_, old⟩
    · cases new
      exact Or.inl (Int.le_refl _)
    · exact Or.inr ⟨place, order, old, rfl⟩

/-- A thread submits the order it has drawn an id for. -/
theorem submits (serialized : Serialized host start server made serial engine)
    (owned : Owned server) (sound : start.engine.book.Sound) (free : server.held = none)
    {index : Nat} {thread : Thread} {order : Order} (found : server.threads[index]? = some thread)
    (task : thread.task = .submit order) : Continues host start
      ((server.processOrder host (some index) [] order).1.setThread index
        { thread with task := .answer (.result (server.processOrder host (some index) [] order).2) })
      (made ++ [⟨.processOrder order,
        some (.result (server.processOrder host (some index) [] order).2)⟩])
      serial (.processOrder order) := by
  have mine : server.Submits index order := ⟨thread, found, task⟩
  have isNew : ¬ Used start.attached serial order.id :=
    serialized.unused order.id (Or.inr ⟨index, order, mine, rfl⟩)
  have locked : Locked host server (.processOrder order) _ _ :=
    locked_processOrder owned.sound (some index) [] order
  refine serialized.locks sound owned.sound (by rw [free]; rfl) _ isNew rfl locked (by simp) rfl ?_
  rintro orderId (later | ⟨place, another, submits, rfl⟩)
  · have below := owned.allotted mine
    change (server.processOrder host (some index) [] order).1.engine.nextId ≤ orderId at later
    rw [locked.nextId (by simp)] at later
    exact ⟨Or.inl later, by simp [Call.submitted]; omega⟩
  · obtain ⟨elsewhere, before⟩ := submits_setThread_of_idle (by simp) submits
    have beforeSubmit : server.Submits place another := before
    refine ⟨Or.inr ⟨place, another, beforeSubmit, rfl⟩, ?_⟩
    -- two threads never submit orders of one id
    have different : order.id ≠ another.id := fun same =>
      elsewhere (owned.distinct place index another order beforeSubmit mine same.symm)
    simpa [Call.submitted] using different

/-- A thread withdraws an order. -/
theorem withdraws (serialized : Serialized host start server made serial engine)
    (owned : Owned server) (sound : start.engine.book.Sound) (free : server.held = none)
    {index : Nat} (thread : Thread) {orderId : Int} {ok : Bool}
    (cancels : server.cancelOrder host (some index) orderId = .ok (next, ok)) :
    Continues host start (next.setThread index { thread with task := .answer (.ok ok) })
      (made ++ [⟨.cancelOrder orderId, some (.cancelled ok)⟩]) serial (.cancelOrder orderId) := by
  have locked := locked_cancelOrder owned.sound cancels
  have allowed : Fresh start.attached serial (.cancelOrder orderId) := trivial
  refine serialized.locks sound owned.sound (by rw [free]; rfl) _ allowed
    (exec_of_cancelOrder cancels) locked (by simp) rfl ?_
  rintro other awaits
  refine ⟨?_, by simp [Call.submitted]⟩
  rcases awaits with later | ⟨place, order, submits, rfl⟩
  · change next.engine.nextId ≤ other at later
    rw [locked.nextId (by simp)] at later
    exact Or.inl later
  · have before := (submits_setThread_of_idle (by simp) submits).2
    exact Or.inr ⟨place, order, submits_of_threads locked.threads before, rfl⟩

/-- Where connecting resets no account it changes no answer. -/
theorem connects (serialized : Serialized host start server made serial engine) {index : Nat}
    {spurious : Bool} {thread : Thread} {reclaimUid : Option Int} {stage : Connecting}
    (keeps : ∀ user, (server.connected host spurious index thread reclaimUid stage).users.getPosition
      user = server.users.getPosition user) : Serialized host start
      (server.connected host spurious index thread reclaimUid stage) made serial engine := by
  have alike : server.users.Agrees
      (server.connected host spurious index thread reclaimUid stage).users :=
    ⟨Connecting.orderToUser_step .., keeps⟩
  refine serialized.idles rfl (alike.foldl host _) fun place order submits => ?_
  exact (submits_setThread_of_idle (thread.task_connecting _ _).1 submits).2

theorem step (serialized : Serialized host start server made serial engine) (owned : Owned server)
    (sound : start.engine.book.Sound) {action : Action}
    (steps : server.step host action = .ok (next, ()))
    (keeps : ServerEntry.KeepsAccounts ⟨server, action, (), next⟩) :
    ∃ more other, Serialized host start next
      (made ++ ServerEntry.handed ⟨server, action, (), next⟩) (serial ++ more) other := by
  by_cases tick : action = .tickOrder
  · cases tick
    exact serialized.ticks owned sound steps
  have stays : ∀ {after : Server}, ServerEntry.handed ⟨server, action, (), after⟩ = [] →
      Serialized host start after made serial engine →
      ∃ more other, Serialized host start after
        (made ++ ServerEntry.handed ⟨server, action, (), after⟩) (serial ++ more) other := by
    intro after none same
    exact ⟨[], engine, by simpa [none] using same⟩
  cases moves_of_step steps with
  | opened thread arrives =>
      refine stays (ServerEntry.handed_of_same tick fun index other found _ => ⟨other, ?_, rfl⟩)
        (serialized.idles rfl (.refl _) fun index order submits => ?_)
      · exact List.getElem?_append_left (List.getElem?_eq_some_iff.mp found).choose ▸ found
      · exact (submits_opened arrives submits)
  | connected index spurious thread reclaimUid stage found task =>
      refine stays (ServerEntry.handed_of_setThread tick found (by rw [task]; exact id))
        (serialized.connects (keeps ?_))
      simp [ServerEntry.connecting, found, task]
  | turned index thread after found turns =>
      exact stays (ServerEntry.handed_of_setThread tick found turns.idle)
        (serialized.turns turns.cleared.1)
  | sent index thread message task found sends =>
      exact stays (ServerEntry.handed_of_setThread tick found sends.wasIdle)
        (serialized.turns sends.idle.1)
  | drew index spurious thread request found task =>
      obtain ⟨entry, other, _, drawn⟩ := serialized.drew owned sound index thread request
      rw [ServerEntry.handed_of_drew found spurious task]
      exact ⟨[entry], other, drawn⟩
  | submitted index spurious thread order found task free =>
      obtain ⟨entry, other, _, submitted⟩ := serialized.submits owned sound free found task
      have locked : Locked host server (.processOrder order) _ _ :=
        locked_processOrder owned.sound (some index) [] order
      rw [ServerEntry.handed_of_submitted found spurious task locked.threads]
      exact ⟨[entry], other, submitted⟩
  | withdrew index spurious thread orderId withdrawn ok found task free cancels =>
      obtain ⟨entry, other, _, isWithdrawn⟩ := serialized.withdraws owned sound free thread cancels
      have threads := (locked_cancelOrder owned.sound cancels).threads
      rw [ServerEntry.handed_of_withdrew found spurious task threads]
      exact ⟨[entry], other, isWithdrawn⟩
  | ticked requests free =>
      refine stays rfl (serialized.idles rfl ?_ fun _ _ submits => submits)
      unfold Server.settledUsers
      rw [free]
      exact .refl _
  | tickOrdered => exact absurd rfl tick
  | calledBack held call rest holds calls =>
      refine stays rfl (serialized.idles rfl ?_ fun _ _ submits => submits)
      unfold Server.settledUsers
      rw [holds]
      simp only [Option.elim, calls]
      exact .refl _
  | broadcast held message rest holds sends =>
      refine stays rfl (serialized.idles rfl ?_ fun _ _ submits => submits_receive submits)
      unfold Server.settledUsers
      rw [holds]
      exact .refl _
  | unlocked thread held =>
      refine stays rfl (serialized.idles rfl ?_ fun _ _ submits => submits)
      unfold Server.settledUsers
      rw [held]
      exact .refl _

end Serialized

/-! ## Runs -/

section Runs

variable {host : Host} {start state : Server} {log : List ServerEntry}

theorem serialized_of_serverRun (seeded : start.Seeded) (free : start.held = none)
    (run : ServerRun host start log state)
    (keeps : ∀ entry ∈ log, ServerEntry.KeepsAccounts entry) :
    ∃ serial engine, Serialized host start state (handed log) serial engine := by
  induction run with
  | nil => exact ⟨[], _, .initial free seeded⟩
  | snoc past _ steps ih =>
      rw [List.forall_mem_append, List.forall_mem_singleton] at keeps
      obtain ⟨serial, engine, serialized⟩ := ih keeps.1
      obtain ⟨more, other, next⟩ :=
        serialized.step (owned_of_serverRun seeded past) seeded.sound steps keeps.2
      exact ⟨serial ++ more, other, by simpa [handed] using next⟩

/--
In every run of the server in which connecting resets no account: a single
caller who makes the same engine calls one after another, each order under a
new id, gets every reply that a thread of the server was passed, and is left
with the book, the counters and the accounts that the server has once the
holder of `book_mtx` is done.
-/
theorem server_linearizable (seeded : start.Seeded) (free : start.held = none)
    (run : ServerRun host start log state)
    (keeps : ∀ entry ∈ log, ServerEntry.KeepsAccounts entry) :
    ∃ serial engine, SerialRun host start.attached serial engine ∧
      List.Forall₂ Handed.Matches (handed log) serial ∧ engine.Agrees (state.settled host) := by
  obtain ⟨serial, engine, serialized⟩ := serialized_of_serverRun seeded free run keeps
  exact ⟨serial, engine, serialized.run, serialized.matched, serialized.alike⟩

/-- Two orders whose ids are drawn in one order and submitted in the other; the second trades. -/
theorem server_linearizable_sample :
    ∃ log state, ServerRun (Host.exact (·)) seededServer log state ∧
      (handed log).map (·.call.submitted.map (·.id)) = [none, none, some 1001, some 1000] ∧
      ∃ serial engine, SerialRun (Host.exact (·)) seededServer.attached serial engine ∧
        List.Forall₂ Handed.Matches (handed log) serial ∧
        engine.Agrees (state.settled (Host.exact (·))) := by
  have run := Run.of_isSome (Server.step (Host.exact (·))) (fun _ _ => True) seededServer
    [.postOrder "\x7b\"side\":\"BUY\",\"qty\":5,\"price\":100,\"user_id\":1\x7d".toList,
      .postOrder "\x7b\"side\":\"SELL\",\"qty\":5,\"price\":100,\"user_id\":2\x7d".toList,
      .advance 0 false, .advance 1 false, .advance 1 false, .callback, .broadcast, .broadcast,
      .unlock, .advance 0 false, .broadcast, .callback] (by decide)
  exact ⟨_, _, run, by decide, server_linearizable seeded_seededServer rfl run
    fun entry member connects => absurd connects (by revert entry; decide)⟩

end Runs

end OrderBookSimulator
