import OrderBookSimulator.Server.Server

/-!
# What a step of the server can be

Every step is one of thirteen moves.  The invariants of the server are proved
by going through them; most moves leave most of the server alone.
-/

namespace OrderBookSimulator

open Library

abbrev ServerEntry := Transition Server Action Unit

abbrev ServerRun (host : Host) (start : Server) :=
  Run (Server.step host) (fun _ _ => True) start

namespace Thread

/-- What a new thread has done: nothing that others have seen. -/
structure Arrives (thread : Thread) : Prop where
  inbox : thread.inbox = []
  registered : thread.registered = false
  notSubmitting : ∀ order, thread.task ≠ .submit order
  /-- Only an unnamed user skips the ownership check. -/
  unchecked : ∀ orderId, thread.task = .withdraw orderId → ¬ 0 < thread.userId

/-- The moves of a thread that neither send anything nor touch what is shared. -/
inductive Turns (server : Server) (thread : Thread) : Thread → Prop where
  | registers (reclaimUid : Int) (task : thread.task = .register reclaimUid) :
      Turns server thread { thread with registered := true, task := .greet reclaimUid }
  | reads (msg : Text) (task : thread.task = .serve) : Turns server thread (thread.process msg)
  | hangsUp (task : thread.task = .serve) : Turns server thread thread.hangUp
  | checks (orderId : Int) (task : thread.task = .checkOwner orderId) :
      Turns server thread { thread with
        task := if server.users.getUserForOrder orderId = thread.userId then .withdraw orderId
          else .answer (.error "Not your order") }
  | finishes (answer : Answer) (task : thread.task = .answer answer)
      (http : thread.registered = false) : Turns server thread { thread with task := .done }

/-- The messages a thread sends to its own client, and what it does after each. -/
inductive Sends (host : Host) (server : Server) (thread : Thread) : Message → Task → Prop where
  | greeting (reclaimUid : Int) (task : thread.task = .greet reclaimUid) (reconnected : Bool) :
      Sends host server thread (.session thread.userId reconnected) .sendBook
  | book (task : thread.task = .sendBook) (free : server.held = none) :
      Sends host server thread
        (.bookSnapshot (bookDocument host server.engine.book.snapshot 20)) .sendOrders
  | orders (task : thread.task = .sendOrders) (free : server.held = none) :
      Sends host server thread (.ordersUpdate (ordersDocument server.engine.book.snapshot)) .serve
  | answer (answer : Answer) (task : thread.task = .answer answer)
      (client : thread.registered = true) :
      Sends host server thread (.answer thread.requestId answer) .serve

theorem Turns.inbox {server : Server} {thread next : Thread} (turns : thread.Turns server next) :
    next.inbox = thread.inbox := by
  cases turns with
  | reads msg =>
      unfold process
      split <;> rfl
  | registers | hangsUp | checks | finishes => rfl

@[simp] theorem inbox_connecting (thread : Thread) (reclaimUid : Option Int)
    (stage : Connecting) : (thread.connecting reclaimUid stage).inbox = thread.inbox := by
  unfold connecting
  split <;> rfl

@[simp] theorem registered_connecting (thread : Thread) (reclaimUid : Option Int)
    (stage : Connecting) :
    (thread.connecting reclaimUid stage).registered = thread.registered := by
  unfold connecting
  split <;> rfl

end Thread

/-- What holds of every thread holds still once one of them is replaced by one of which it holds. -/
theorem Server.forall_setThread {server : Server} {P : Thread → Prop} {index : Nat}
    {thread : Thread} (all : ∀ thread ∈ server.threads, P thread) (holds : P thread) :
    ∀ other ∈ (server.setThread index thread).threads, P other := by
  intro other member
  rcases List.mem_or_eq_of_mem_set member with old | rfl
  · exact all other old
  · exact holds

/-- The server after a thread took a step of connecting. -/
def Server.connected (host : Host) (server : Server) (spurious : Bool) (index : Nat)
    (thread : Thread) (reclaimUid : Option Int) (stage : Connecting) : Server :=
  let moved := stage.step host spurious server.ids server.users
  { server with ids := moved.1, users := moved.2.1 }.setThread index
    (thread.connecting reclaimUid moved.2.2)

/-- The server after an order id was drawn. -/
def Server.drawn (server : Server) : Server :=
  { server with engine := server.engine.nextOrderId.1 }

inductive Moves (host : Host) (server : Server) : Action → Server → Prop where
  | opened {action : Action} (thread : Thread) (arrives : thread.Arrives) :
      Moves host server action (server.opened thread)
  | connected (index : Nat) (spurious : Bool) (thread : Thread) (reclaimUid : Option Int)
      (stage : Connecting) (found : server.threads[index]? = some thread)
      (task : thread.task = .connect reclaimUid stage) :
      Moves host server (.advance index spurious)
        (server.connected host spurious index thread reclaimUid stage)
  | turned {action : Action} (index : Nat) (thread next : Thread)
      (found : server.threads[index]? = some thread) (turns : thread.Turns server next) :
      Moves host server action (server.setThread index next)
  | sent {action : Action} (index : Nat) (thread : Thread) (message : Message) (task : Task)
      (found : server.threads[index]? = some thread) (sends : thread.Sends host server message task) :
      Moves host server action (server.setThread index { thread.send message with task })
  | drew (index : Nat) (spurious : Bool) (thread : Thread) (request : OrderRequest)
      (found : server.threads[index]? = some thread) (task : thread.task = .drawId request) :
      Moves host server (.advance index spurious)
        (server.drawn.setThread index
          { thread with task := .submit (request.order server.engine.nextId thread.userId) })
  | submitted (index : Nat) (spurious : Bool) (thread : Thread) (order : Order)
      (found : server.threads[index]? = some thread) (task : thread.task = .submit order)
      (free : server.held = none) :
      Moves host server (.advance index spurious)
        ((server.processOrder host (some index) [] order).1.setThread index
          { thread with
            task := .answer (.result (server.processOrder host (some index) [] order).2) })
  | withdrew (index : Nat) (spurious : Bool) (thread : Thread) (orderId : Int) (next : Server)
      (ok : Bool) (found : server.threads[index]? = some thread)
      (task : thread.task = .withdraw orderId) (free : server.held = none)
      (cancels : server.cancelOrder host (some index) orderId = .ok (next, ok)) :
      Moves host server (.advance index spurious)
        (next.setThread index { thread with task := .answer (.ok ok) })
  | ticked (requests : List OrderRequest) (free : server.held = none) :
      Moves host server (.tick requests) { server with held := some { requests } }
  | tickOrdered (thread : Option Nat) (request : OrderRequest) (rest : List OrderRequest)
      (held : server.held = some ⟨thread, request :: rest, [], []⟩) :
      Moves host server .tickOrder
        (server.drawn.processOrder host thread rest (request.order server.engine.nextId 0)).1
  | calledBack (held : Held) (call : UserCall) (rest : List UserCall)
      (holds : server.held = some held) (calls : held.callbacks = call :: rest) :
      Moves host server .callback { server with
        users := server.users.apply host call
        held := some { held with callbacks := rest } }
  | broadcast (held : Held) (message : Message) (rest : List Message)
      (holds : server.held = some held) (sends : held.broadcasts = message :: rest) :
      Moves host server .broadcast { server with
        threads := server.threads.map (·.receive message)
        held := some { held with broadcasts := rest } }
  | unlocked (thread : Option Nat) (held : server.held = some ⟨thread, [], [], []⟩) :
      Moves host server .unlock { server with held := none }

namespace Thread

theorem arrives_postOrder (body : Text) : (postOrder body).Arrives := by
  unfold postOrder
  split
  · exact ⟨rfl, rfl, by simp, by simp⟩
  · exact ⟨rfl, rfl, by simp, by simp⟩
  · split <;> exact ⟨rfl, rfl, by simp, by simp⟩

theorem arrives_postCancel (body : Text) : (postCancel body).Arrives := by
  unfold postCancel
  split
  · exact ⟨rfl, rfl, by simp, by simp⟩
  · exact ⟨rfl, rfl, by simp, by simp⟩
  · split
    · exact ⟨rfl, rfl, by simp, by simp⟩
    · split
      · exact ⟨rfl, rfl, by simp, by simp⟩
      · rename_i unnamed
        exact ⟨rfl, rfl, by simp, fun _ _ => unnamed⟩

end Thread

section Inversion

variable {host : Host} {server next : Server}

theorem moves_of_advance {index : Nat} {spurious : Bool} {thread : Thread}
    (found : server.threads[index]? = some thread)
    (advances : server.advance host index spurious thread = .ok next) :
    Moves host server (.advance index spurious) next := by
  unfold Server.advance at advances
  split at advances
  · rename_i reclaimUid stage task
    cases advances
    exact .connected index spurious thread reclaimUid stage found task
  · rename_i reclaimUid task
    cases advances
    exact .turned index thread _ found (.registers reclaimUid task)
  · rename_i reclaimUid task
    cases advances
    exact .sent index thread _ _ found (.greeting reclaimUid task _)
  · rename_i task
    split at advances
    · cases advances
    · rename_i free
      cases advances
      exact .sent index thread _ _ found (.book task (by simpa using free))
  · rename_i task
    split at advances
    · cases advances
    · rename_i free
      cases advances
      exact .sent index thread _ _ found (.orders task (by simpa using free))
  · rename_i request task
    cases advances
    exact .drew index spurious thread request found task
  · rename_i order task
    split at advances
    · cases advances
    · rename_i free
      cases advances
      exact .submitted index spurious thread order found task (by simpa using free)
  · rename_i orderId task
    cases advances
    exact .turned index thread _ found (.checks orderId task)
  · rename_i orderId task
    split at advances
    · cases advances
    · rename_i free
      split at advances
      · cases advances
      · rename_i withdrawn ok cancels
        cases advances
        exact .withdrew index spurious thread orderId _ _ found task (by simpa using free) cancels
  · rename_i answer task
    split at advances
    · cases advances
    · split at advances
      · rename_i client
        cases advances
        exact .sent index thread _ _ found (.answer answer task client)
      · rename_i http
        cases advances
        exact .turned index thread _ found (.finishes answer task (by simpa using http))
  · cases advances
  · cases advances

theorem moves_of_step {action : Action} {reply : Unit}
    (steps : server.step host action = .ok (next, reply)) : Moves host server action next := by
  unfold Server.step at steps
  split at steps
  · cases steps
    exact .opened _ ⟨rfl, rfl, by simp, by simp⟩
  · cases steps
    exact .opened _ (Thread.arrives_postOrder _)
  · cases steps
    exact .opened _ (Thread.arrives_postCancel _)
  · cases steps
    exact .opened _ ⟨rfl, rfl, by simp, by simp⟩
  · rename_i index msg
    split at steps
    · cases steps
    · rename_i thread found
      split at steps
      · rename_i task
        cases steps
        exact .turned index thread _ found (.reads msg task)
      · cases steps
  · rename_i index
    split at steps
    · cases steps
    · rename_i thread found
      split at steps
      · rename_i task
        cases steps
        exact .turned index thread _ found (.hangsUp task)
      · cases steps
  · split at steps
    · cases steps
    · rename_i thread found
      split at steps
      · cases steps
      · rename_i advances
        cases steps
        exact moves_of_advance found advances
  · split at steps
    · cases steps
    · rename_i requests free
      cases steps
      exact .ticked requests (by simpa using free)
  · split at steps
    · rename_i thread request rest held
      cases steps
      exact .tickOrdered thread request rest held
    · cases steps
  · split at steps
    · rename_i thread requests call rest broadcasts held
      cases steps
      exact .calledBack _ call rest held rfl
    · cases steps
  · split at steps
    · rename_i thread requests callbacks message rest held
      cases steps
      exact .broadcast _ message rest held rfl
    · cases steps
  · split at steps
    · rename_i thread held
      cases steps
      exact .unlocked thread held
    · cases steps

end Inversion

/-! ## Engine calls under the lock -/

namespace Server

@[simp] theorem resting_attached (server : Server) :
    server.attached.book.resting = server.engine.book.resting := rfl

@[simp] theorem index_attached (server : Server) :
    server.attached.book.index = server.engine.book.index := rfl

@[simp] theorem snapshot_attached (server : Server) :
    server.attached.book.snapshot = server.engine.book.snapshot := rfl

@[simp] theorem userManager_attached (server : Server) :
    server.attached.userManager = some server.users := rfl

theorem sound_attached {server : Server} (sound : server.engine.book.Sound) :
    server.attached.book.Sound := sound.setOnChange

end Server

theorem Server.sound_drawn {server : Server} (sound : server.engine.book.Sound) :
    server.drawn.engine.book.Sound := sound

/-- What an engine call under the lock leaves, whoever holds it. -/
structure Locked (host : Host) (server : Server) (call : Call) (reply : Reply) (next : Server) :
    Prop where
  answered : MatchingEngine.Answered host server.attached call reply next.engine
  users : next.users = server.users.registered call
  held : ∃ thread requests, next.held = some ⟨thread, requests,
    server.attached.userCalls host call, Server.broadcasts host next.engine⟩
  ids : next.ids = server.ids
  threads : next.threads = server.threads

section Locked

variable {host : Host} {server next : Server}

theorem locked_processOrder (sound : server.engine.book.Sound) (thread : Option Nat)
    (requests : List OrderRequest) (order : Order) :
    Locked host server (.processOrder order)
      (.result (server.processOrder host thread requests order).2)
      (server.processOrder host thread requests order).1 where
  answered := MatchingEngine.answered_of_exec (Server.sound_attached sound) rfl
  users := rfl
  held := ⟨thread, requests, rfl⟩
  ids := rfl
  threads := rfl

theorem locked_cancelOrder {thread : Option Nat} {orderId : Int} {ok : Bool}
    (sound : server.engine.book.Sound)
    (cancels : server.cancelOrder host thread orderId = .ok (next, ok)) :
    Locked host server (.cancelOrder orderId) (.cancelled ok) next := by
  unfold Server.cancelOrder at cancels
  cases answer : server.attached.cancelOrder host orderId with
  | error fault =>
      rw [answer] at cancels
      cases cancels
  | ok result =>
      obtain ⟨engine, done⟩ := result
      rw [answer] at cancels
      cases cancels
      exact {
        answered := MatchingEngine.answered_of_exec (Server.sound_attached sound)
          (exec_cancelOrder answer)
        users := rfl
        held := ⟨thread, [], rfl⟩
        ids := rfl
        threads := rfl }

/-- Undisturbed, the callbacks of a call leave the users as the engine call does. -/
theorem Locked.users_of_callbacks {call : Call} {reply : Reply}
    (locked : Locked host server call reply next) (sound : server.engine.book.Sound) :
    ∃ held, next.held = some held ∧ next.engine.userManager =
      some (held.callbacks.foldl (UserManager.apply host) next.users) := by
  obtain ⟨thread, requests, held⟩ := locked.held
  refine ⟨_, held, ?_⟩
  rw [locked.users]
  exact locked.answered.userManager (Server.sound_attached sound) rfl

theorem Moves.sound {action : Action} (moves : Moves host server action next)
    (sound : server.engine.book.Sound) : next.engine.book.Sound := by
  cases moves with
  | opened | connected | turned | sent | drew | ticked | calledBack | broadcast | unlocked =>
      exact sound
  | submitted index spurious thread order =>
      exact (locked_processOrder sound (some index) [] order).answered.sound
        (Server.sound_attached sound)
  | withdrew index spurious thread orderId withdrawn ok found task free cancels =>
      exact (locked_cancelOrder sound cancels).answered.sound (Server.sound_attached sound)
  | tickOrdered thread request rest =>
      exact (locked_processOrder (Server.sound_drawn sound) thread rest _).answered.sound
        (Server.sound_attached sound)

theorem sound_of_serverRun {start : Server} {log : List ServerEntry}
    (sound : start.engine.book.Sound) (run : ServerRun host start log server) :
    server.engine.book.Sound :=
  run.invariant (fun _ server => server.engine.book.Sound) sound
    fun _ _ _ _ _ _ soFar _ steps => (moves_of_step steps).sound soFar

end Locked

end OrderBookSimulator
