import OrderBookSimulator.Properties.Broadcasts
import OrderBookSimulator.Server.Moves

/-!
# The server's clients, when no write fails

The model of the server sends a message to all its clients in one step.  Each of
its runs is one of the loop that goes from client to client, in which no write
fails: the same clients, and on each socket the same messages in the same order.
-/

namespace OrderBookSimulator

open Library

/-- Of all that can be done with clients, what ends in no failure. -/
def Clients.Writing.Succeeds : Writing → Prop
  | .write ok | .send _ _ ok => ok = true
  | .clear => False
  | .join _ | .remove _ | .broadcast _ | .finish => True

/-- The thread is past `clients_.push_back`, or will never be there. -/
def Task.entered : Task → Bool
  | .connect _ _ | .register _ => false
  | _ => true

namespace Server

def inboxOf (server : Server) (client : Nat) : List Message :=
  server.threads[client]?.elim [] (·.inbox)

def registers (server : Server) (client : Nat) : Bool :=
  server.threads[client]?.any (·.registered)

def entered (server : Server) (client : Nat) : Bool :=
  server.threads[client]?.any (·.task.entered)

section Threads

variable {server mid : Server} {index : Nat} {thread : Thread}
  (found : server.threads[index]? = some thread)

include found

theorem inboxOf_found : server.inboxOf index = thread.inbox := by
  rw [inboxOf, found]
  rfl

theorem registers_found : server.registers index = thread.registered := by
  rw [registers, found]
  rfl

theorem entered_found : server.entered index = thread.task.entered := by
  rw [entered, found]
  rfl

variable (same : mid.threads = server.threads) (after : Thread) (client : Nat)

include same

theorem getElem?_replaced : (mid.setThread index after).threads[client]? =
    if client = index then some after else server.threads[client]? := by
  rw [setThread, same]
  by_cases here : client = index
  · subst here
    rw [if_pos rfl]
    exact List.getElem?_set_self (List.getElem?_eq_some_iff.mp found).choose
  · rw [if_neg here]
    exact List.getElem?_set_ne (Ne.symm here)

theorem inboxOf_replaced : (mid.setThread index after).inboxOf client =
    if client = index then after.inbox else server.inboxOf client := by
  rw [inboxOf, getElem?_replaced found same]
  split <;> rfl

theorem registers_replaced : (mid.setThread index after).registers client =
    if client = index then after.registered else server.registers client := by
  rw [registers, getElem?_replaced found same]
  split <;> rfl

theorem entered_replaced : (mid.setThread index after).entered client =
    if client = index then after.task.entered else server.entered client := by
  rw [entered, getElem?_replaced found same]
  split <;> rfl

end Threads

end Server

/-- The clients as the server has them: idle, each socket with what its thread was sent. -/
structure Clients.Pictures (state : Clients) (server : Server) : Prop where
  sound : state.Sound
  idle : state.loop = none
  clients : ∀ client, client ∈ state.clients ↔ server.registers client = true
  received : ∀ client, (state.received client).map (·.message) = server.inboxOf client
  made : ∀ client ∈ state.made, server.entered client = true

namespace Clients

/-- The states that are reached without a failure. -/
def Reached (state : Clients) : Prop :=
  ∃ log, Run Clients.step (fun _ call => Writing.Succeeds call) {} log state

theorem Reached.step {state next : Clients} (reached : Reached state) (call : Writing)
    (succeeds : Writing.Succeeds call) (steps : state.step call = .ok (next, ())) :
    Reached next := by
  obtain ⟨log, run⟩ := reached
  exact ⟨_, .snoc run succeeds steps⟩

/-! ## One loop -/

/-- Some clients have been written a message. -/
def written (state : Clients) (message : Message) (clients : List Nat) : Nat → List Frame :=
  fun client =>
    if client ∈ clients then state.received client ++ [.broadcast message]
    else state.received client

theorem written_succ {state : Clients} (sound : state.Sound) (message : Message) {it client : Nat}
    (found : state.clients[it]? = some client) :
    Function.update (state.written message (state.clients.take it)) client
        (state.written message (state.clients.take it) client ++ [.broadcast message]) =
      state.written message (state.clients.take (it + 1)) := by
  have notBefore : client ∉ state.clients.take it := by
    have parts := sound.distinct
    rw [← List.take_append_drop it state.clients, drop_of_found found] at parts
    exact fun before => (List.nodup_append.mp parts).2.2 client before client List.mem_cons_self rfl
  funext other
  by_cases own : other = client
  · subst own
    simp [written, notBefore, take_succ_of_found found]
  · simp [written, own, take_succ_of_found found]

/-- A loop without failures writes the message to each client once. -/
theorem Reached.broadcast {state : Clients} (reached : Reached state) (sound : state.Sound)
    (idle : state.loop = none) (message : Message) :
    Reached { state with received := state.written message state.clients } := by
  have turns : ∀ it ≤ state.clients.length, Reached { state with
      received := state.written message (state.clients.take it)
      loop := some (message, it) } := by
    intro it
    induction it with
    | zero =>
        intro _
        have begun : state.step (.broadcast message) =
            .ok ({ state with loop := some (message, 0) }, ()) := by
          simp [Clients.step, idle]
        have nobody : state.written message (state.clients.take 0) = state.received := by
          funext client
          simp [written]
        rw [nobody]
        exact reached.step (.broadcast message) trivial begun
    | succ it ih =>
        intro inside
        have found : state.clients[it]? = some state.clients[it] := List.getElem?_eq_getElem inside
        have turn : Clients.step { state with
            received := state.written message (state.clients.take it)
            loop := some (message, it) } (.write true) =
          .ok ({ state with
            received := state.written message (state.clients.take (it + 1))
            loop := some (message, it + 1) }, ()) := by
          rw [← written_succ sound message found]
          simp only [Clients.step, found, if_true, deliver]
        exact (ih (by omega)).step (.write true) rfl turn
  have atEnd := turns state.clients.length (Nat.le_refl _)
  rw [List.take_length] at atEnd
  have ends : Clients.step { state with
      received := state.written message state.clients
      loop := some (message, state.clients.length) } .finish =
    .ok ({ state with received := state.written message state.clients }, ()) := by
    simp [Clients.step, idle]
  exact atEnd.step .finish trivial ends

/-! ## Every step of the server -/

section Steps

variable {state : Clients} {server next : Server}

/-- What neither shows to a client nor moves one leaves the picture as it is. -/
theorem Pictures.still (pictures : state.Pictures server)
    (registers : ∀ client, next.registers client = server.registers client)
    (inboxOf : ∀ client, next.inboxOf client = server.inboxOf client)
    (entered : ∀ client, server.entered client = true → next.entered client = true) :
    state.Pictures next where
  sound := pictures.sound
  idle := pictures.idle
  clients := fun client => by rw [registers, pictures.clients]
  received := fun client => by rw [inboxOf, pictures.received]
  made := fun client made => entered client (pictures.made client made)

theorem Pictures.of_threads (pictures : state.Pictures server)
    (same : next.threads = server.threads) : state.Pictures next := by
  refine pictures.still (fun client => ?_) (fun client => ?_) fun client entered => ?_
  · rw [Server.registers, same]
    rfl
  · rw [Server.inboxOf, same]
    rfl
  · rw [Server.entered, same]
    exact entered

/-- A thread that goes on, and neither is sent anything nor comes or goes. -/
theorem Pictures.replaced (pictures : state.Pictures server) {mid : Server} {index : Nat}
    {thread after : Thread} (found : server.threads[index]? = some thread)
    (same : mid.threads = server.threads) (registered : after.registered = thread.registered)
    (inbox : after.inbox = thread.inbox)
    (entered : thread.task.entered = true → after.task.entered = true) :
    state.Pictures (mid.setThread index after) := by
  refine pictures.still (fun client => ?_) (fun client => ?_) fun client before => ?_
  · rw [Server.registers_replaced found same]
    split
    · rename_i here
      rw [here, Server.registers_found found, registered]
    · rfl
  · rw [Server.inboxOf_replaced found same]
    split
    · rename_i here
      rw [here, Server.inboxOf_found found, inbox]
    · rfl
  · rw [Server.entered_replaced found same]
    split
    · rename_i here
      rw [here, Server.entered_found found] at before
      exact entered before
    · exact before

theorem Pictures.opened (pictures : state.Pictures server) {thread : Thread}
    (arrives : thread.Arrives) : state.Pictures (server.opened thread) := by
  have looked : ∀ client : Nat, (server.opened thread).threads[client]? = server.threads[client]? ∨
      server.threads[client]? = none ∧ (server.opened thread).threads[client]? = some thread := by
    intro client
    rw [Server.opened, List.getElem?_append]
    split
    · exact .inl rfl
    · rename_i late
      have absent : server.threads[client]? = none := List.getElem?_eq_none (by omega)
      cases place : client - server.threads.length with
      | zero => exact .inr ⟨absent, rfl⟩
      | succ => exact .inl (by rw [absent]; rfl)
  refine pictures.still (fun client => ?_) (fun client => ?_) fun client before => ?_
  · rcases looked client with same | ⟨absent, new⟩
    · rw [Server.registers, same]
      rfl
    · rw [Server.registers, Server.registers, new, absent]
      exact arrives.registered
  · rcases looked client with same | ⟨absent, new⟩
    · rw [Server.inboxOf, same]
      rfl
    · rw [Server.inboxOf, Server.inboxOf, new, absent]
      exact arrives.inbox
  · rcases looked client with same | ⟨absent, new⟩
    · rw [Server.entered, same]
      exact before
    · rw [Server.entered, absent] at before
      cases before

/-- A client that is pushed back has not been made before. -/
theorem Pictures.joined (pictures : state.Pictures server) (reached : Reached state) {index : Nat}
    {thread : Thread} (found : server.threads[index]? = some thread) {reclaimUid : Int}
    (task : thread.task = .register reclaimUid) :
    ∃ now, Reached now ∧ now.Pictures (server.setThread index
      { thread with registered := true, task := .greet reclaimUid }) := by
  have fresh : index ∉ state.made := by
    intro made
    have entered := pictures.made index made
    rw [Server.entered_found found, task] at entered
    cases entered
  have joins : state.step (.join index) = .ok ({ state with
      clients := state.clients ++ [index], made := state.made ++ [index] }, ()) := by
    simp [Clients.step, fresh, pictures.idle]
  refine ⟨_, reached.step (.join index) trivial joins, pictures.sound.steps (steps_of_step joins),
    pictures.idle, fun client => ?_, fun client => ?_, fun client made => ?_⟩
  · rw [Server.registers_replaced found rfl, List.mem_append, pictures.clients, List.mem_singleton]
    split <;> simp [*]
  · rw [Server.inboxOf_replaced found rfl, pictures.received]
    split
    · rename_i here
      rw [here, Server.inboxOf_found found]
    · rfl
  · rw [Server.entered_replaced found rfl]
    split
    · rfl
    · rename_i elsewhere
      rcases List.mem_append.mp made with old | new
      · exact pictures.made client old
      · exact (elsewhere (List.mem_singleton.mp new)).elim

theorem Pictures.left (pictures : state.Pictures server) (reached : Reached state) {index : Nat}
    {thread : Thread} (found : server.threads[index]? = some thread) :
    ∃ now, Reached now ∧ now.Pictures (server.setThread index thread.hangUp) := by
  have leaves : state.step (.remove index) =
      .ok ({ state with clients := state.clients.filter (· ≠ index) }, ()) := by
    simp [Clients.step, pictures.idle]
  refine ⟨_, reached.step (.remove index) trivial leaves,
    pictures.sound.steps (steps_of_step leaves), pictures.idle, fun client => ?_,
    fun client => ?_, fun client made => ?_⟩
  · rw [Server.registers_replaced found rfl, List.mem_filter, pictures.clients]
    split <;> simp [*, Thread.hangUp]
  · rw [Server.inboxOf_replaced found rfl, pictures.received]
    split
    · rename_i here
      rw [here, Server.inboxOf_found found]
      rfl
    · rfl
  · rw [Server.entered_replaced found rfl]
    split
    · rfl
    · exact pictures.made client made

theorem received_deliver (state : Clients) (client other : Nat) (frame : Frame) :
    (state.deliver other frame).received client =
      if client = other then state.received other ++ [frame] else state.received client :=
  Function.update_apply _ _ _ _

theorem Pictures.sent (pictures : state.Pictures server) (reached : Reached state) {index : Nat}
    {thread : Thread} (found : server.threads[index]? = some thread) (message : Message)
    {task : Task} (entered : task.entered = true) :
    ∃ now, Reached now ∧ now.Pictures
      (server.setThread index { thread.send message with task }) := by
  have sends : state.step (.send index message true) =
      .ok (state.deliver index (.answer message), ()) := rfl
  refine ⟨_, reached.step (.send index message true) rfl sends,
    pictures.sound.steps (steps_of_step sends), pictures.idle, fun client => ?_,
    fun client => ?_, fun client made => ?_⟩
  · rw [Server.registers_replaced found rfl, deliver, pictures.clients]
    split
    · rename_i here
      rw [here, Server.registers_found found]
      rfl
    · rfl
  · rw [Server.inboxOf_replaced found rfl]
    split
    · rename_i here
      have before := pictures.received index
      rw [Server.inboxOf_found found] at before
      rw [received_deliver, if_pos here, List.map_append, before]
      rfl
    · rename_i elsewhere
      rw [received_deliver, if_neg elsewhere, pictures.received]
  · rw [Server.entered_replaced found rfl]
    split
    · exact entered
    · exact pictures.made client made

theorem Pictures.broadcast (pictures : state.Pictures server) (reached : Reached state)
    (message : Message) (same : next.threads = server.threads.map (·.receive message)) :
    ∃ now, Reached now ∧ now.Pictures next := by
  have looked : ∀ client : Nat, next.threads[client]? =
      (server.threads[client]?).map (·.receive message) := by
    intro client
    rw [same, List.getElem?_map]
  refine ⟨_, reached.broadcast pictures.sound pictures.idle message,
    ⟨pictures.sound.made, pictures.sound.distinct, pictures.sound.within⟩, pictures.idle,
    fun client => ?_, fun client => ?_, fun client made => ?_⟩
  · rw [Server.registers, looked, pictures.clients, Server.registers]
    cases server.threads[client]? with
    | none => rfl
    | some thread =>
        simp only [Option.map_some, Option.any_some, Thread.receive]
        split <;> rfl
  · have before := pictures.received client
    have among := pictures.clients client
    rw [Server.inboxOf] at before
    rw [Server.registers] at among
    rw [Server.inboxOf, looked]
    change (state.written message state.clients client).map (·.message) = _
    cases found : server.threads[client]? with
    | none =>
        rw [found] at before among
        rw [written, if_neg (by simpa using among)]
        exact before
    | some thread =>
        rw [found] at before among
        rw [written]
        cases registered : thread.registered with
        | true =>
            have present : client ∈ state.clients := among.mpr registered
            rw [if_pos present, List.map_append, before]
            simp [Thread.receive, registered, Thread.send, Frame.message]
        | false =>
            have absent : client ∉ state.clients := fun present => by
              have shown := among.mp present
              rw [Option.any_some, registered] at shown
              cases shown
            rw [if_neg absent, before]
            simp [Thread.receive, registered]
  · have before := pictures.made client made
    rw [Server.entered] at before
    rw [Server.entered, looked]
    cases found : server.threads[client]? with
    | none =>
        rw [found] at before
        cases before
    | some thread =>
        rw [found] at before
        simp only [Option.map_some, Option.any_some, Thread.receive]
        split <;> exact before

theorem entered_of_processMessage {msg : Text} {task : Task}
    (processed : processMessage msg = .ok task) : task.entered = true := by
  unfold processMessage at processed
  simp only at processed
  split at processed
  · split at processed
    · cases processed
    · cases processed
      rfl
    · cases processed
      rfl
  · split at processed
    · split at processed
      · cases processed
      · cases processed
        rfl
      · cases processed
        rfl
    · cases processed
      rfl

/-- A message that cannot be read ends the client, as a failed read does. -/
theorem Pictures.read (pictures : state.Pictures server) (reached : Reached state) {index : Nat}
    {thread : Thread} (found : server.threads[index]? = some thread) (msg : Text) :
    ∃ now, Reached now ∧ now.Pictures (server.setThread index (thread.process msg)) := by
  unfold Thread.process
  split
  · exact pictures.left reached found
  · rename_i task processed
    exact ⟨state, reached, pictures.replaced found rfl rfl rfl
      fun _ => entered_of_processMessage processed⟩

theorem Pictures.turned (pictures : state.Pictures server) (reached : Reached state) {index : Nat}
    {thread after : Thread} (found : server.threads[index]? = some thread)
    (turns : thread.Turns server after) :
    ∃ now, Reached now ∧ now.Pictures (server.setThread index after) := by
  cases turns with
  | registers reclaimUid task => exact pictures.joined reached found task
  | reads msg => exact pictures.read reached found msg
  | hangsUp => exact pictures.left reached found
  | checks orderId task =>
      refine ⟨state, reached, pictures.replaced found rfl rfl rfl fun _ => ?_⟩
      dsimp only
      split <;> rfl
  | finishes => exact ⟨state, reached, pictures.replaced found rfl rfl rfl fun _ => rfl⟩

/-- Every step of the server is none, one or some of the steps that do not fail. -/
theorem Pictures.step {host : Host} {action : Action} (pictures : state.Pictures server)
    (reached : Reached state) (sound : server.engine.book.Sound)
    (moves : Moves host server action next) : ∃ now, Reached now ∧ now.Pictures next := by
  cases moves with
  | opened thread arrives => exact ⟨state, reached, pictures.opened arrives⟩
  | connected index spurious thread reclaimUid stage found task =>
      refine ⟨state, reached, pictures.replaced found rfl ?_ ?_ fun entered => ?_⟩
      · exact thread.registered_connecting reclaimUid _
      · exact thread.inbox_connecting reclaimUid _
      · rw [task] at entered
        cases entered
  | turned index thread after found turns => exact pictures.turned reached found turns
  | sent index thread message task found sends =>
      refine pictures.sent reached found message ?_
      cases sends <;> rfl
  | drew index spurious thread request found task =>
      exact ⟨state, reached, pictures.replaced found rfl rfl rfl fun _ => rfl⟩
  | submitted index spurious thread order found task free =>
      have locked : Locked host server (.processOrder order) _ _ :=
        locked_processOrder sound (some index) [] order
      exact ⟨state, reached, pictures.replaced found locked.threads rfl rfl fun _ => rfl⟩
  | withdrew index spurious thread orderId withdrawn ok found task free cancels =>
      have same := (locked_cancelOrder sound cancels).threads
      exact ⟨state, reached, pictures.replaced found same rfl rfl fun _ => rfl⟩
  | ticked | calledBack | unlocked => exact ⟨state, reached, pictures.of_threads rfl⟩
  | tickOrdered thread request rest held =>
      have locked : Locked host server.drawn _ _ _ := locked_processOrder
        (Server.sound_drawn sound) thread rest (request.order server.engine.nextId 0)
      exact ⟨state, reached, pictures.of_threads locked.threads⟩
  | broadcast held message rest => exact pictures.broadcast reached message rfl

end Steps

/--
Every run of the server is, as far as its clients can tell, a run of `clients_`
and the loop of `broadcast` in which no write fails: the clients are those in
`clients_`, and each has been sent what its socket has taken.
-/
theorem server_broadcasts_without_failures {host : Host} {start server : Server}
    {log : List ServerEntry} (sound : start.engine.book.Sound) (noThreads : start.threads = [])
    (run : ServerRun host start log server) :
    ∃ writes state, Run Clients.step (fun _ call => Writing.Succeeds call) {} writes state ∧
      state.loop = none ∧
      (∀ client, client ∈ state.clients ↔ server.registers client = true) ∧
      ∀ client, (state.received client).map (·.message) = server.inboxOf client := by
  have pictured : ∃ state, Reached state ∧ state.Pictures server := by
    refine run.invariant (fun _ server => ∃ state, Reached state ∧ state.Pictures server) ?_ ?_
    · refine ⟨{}, ⟨[], .nil⟩, ⟨by simp, List.nodup_nil, by simp⟩, rfl, ?_, ?_, by simp⟩
      · simp [Server.registers, noThreads]
      · simp [Server.inboxOf, noThreads]
    · rintro log server action reply next earlier ⟨state, reached, pictures⟩ _ steps
      exact pictures.step reached (sound_of_serverRun sound earlier) (moves_of_step steps)
  obtain ⟨state, ⟨writes, reached⟩, pictures⟩ := pictured
  exact ⟨writes, state, reached, pictures.idle, pictures.clients, pictures.received⟩

end Clients

end OrderBookSimulator
