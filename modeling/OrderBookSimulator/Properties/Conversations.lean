import OrderBookSimulator.Properties.TradeFeed

/-!
# Conversations

`handle_client` reads a message, answers it, and reads the next.  The answers a
client has been sent answer its messages one by one, in order and under the
request id each came with, and the engine calls made for the client are those
of its messages.
-/

namespace OrderBookSimulator

open Library

def Message.answer? : Message → Option (Text × Answer)
  | .answer requestId given => some (requestId, given)
  | _ => none

/-- The answers a client has been sent, each under its request id. -/
def Thread.answers (thread : Thread) : List (Text × Answer) :=
  thread.inbox.filterMap Message.answer?

/-- The request id of a message, empty where it has none. -/
def requestIdOf (msg : Text) : Text := (extractStringField msg "requestId").getD []

namespace ServerEntry

/-- The message that the client's thread reads, unless it ends the client. -/
def asked (index : Nat) (entry : ServerEntry) : Option Text :=
  match entry.call with
  | .message place msg => if place = index ∧ (processMessage msg).isOk then some msg else none
  | _ => none

/-- The engine calls of a step of the client's own thread. -/
def handedBy (index : Nat) (entry : ServerEntry) : List Handed :=
  match entry.call with
  | .advance place _ => if place = index then entry.handed else []
  | _ => []

end ServerEntry

/-! ## What a message leads to -/

/-- A message, the engine calls it leads to, and its answer. -/
inductive Served (user : Int) (msg : Text) : List Handed → Answer → Prop where
  | refused (answer : Answer) (parsed : processMessage msg = .ok (.answer answer)) :
      Served user msg [] answer
  | ordered (request : OrderRequest) (id : Int) (result : OrderResult)
      (parsed : processMessage msg = .ok (.drawId request)) :
      Served user msg [⟨.nextOrderId, some (.orderId id)⟩,
        ⟨.processOrder (request.order id user), some (.result result)⟩] (.result result)
  | notOwner (orderId : Int) (parsed : processMessage msg = .ok (.checkOwner orderId)) :
      Served user msg [] (.error "Not your order")
  | cancelled (orderId : Int) (ok : Bool)
      (parsed : processMessage msg = .ok (.checkOwner orderId)) :
      Served user msg [⟨.cancelOrder orderId, some (.cancelled ok)⟩] (.ok ok)

/-- A message, the engine calls made for it so far, and what its thread does next. -/
inductive Serving (user : Int) (msg : Text) : List Handed → Task → Prop where
  | draws (request : OrderRequest) (parsed : processMessage msg = .ok (.drawId request)) :
      Serving user msg [] (.drawId request)
  | submits (request : OrderRequest) (id : Int)
      (parsed : processMessage msg = .ok (.drawId request)) :
      Serving user msg [⟨.nextOrderId, some (.orderId id)⟩] (.submit (request.order id user))
  | checks (orderId : Int) (parsed : processMessage msg = .ok (.checkOwner orderId)) :
      Serving user msg [] (.checkOwner orderId)
  | withdraws (orderId : Int) (parsed : processMessage msg = .ok (.checkOwner orderId)) :
      Serving user msg [] (.withdraw orderId)
  | answers {calls : List Handed} {answer : Answer} (served : Served user msg calls answer) :
      Serving user msg calls (.answer answer)

/-- Messages, the engine calls they led to, and their answers, one after another. -/
inductive Conversed (user : Int) : List Text → List Handed → List (Text × Answer) → Prop where
  | nil : Conversed user [] [] []
  | snoc {msgs : List Text} {calls these : List Handed} {answers : List (Text × Answer)}
      {msg : Text} {answer : Answer} (past : Conversed user msgs calls answers)
      (served : Served user msg these answer) :
      Conversed user (msgs ++ [msg]) (calls ++ these) (answers ++ [(requestIdOf msg, answer)])

/-- The thread is between two messages, or its client has just been added to `clients_`. -/
def Task.Listens : Task → Prop
  | .greet _ | .sendBook | .sendOrders | .serve => True
  | _ => False

/-- How far the conversation with a client has come. -/
inductive Conversing (thread : Thread) : List Text → List Handed → Prop where
  | listens {msgs : List Text} {calls : List Handed} (listening : thread.task.Listens)
      (past : Conversed thread.userId msgs calls thread.answers) : Conversing thread msgs calls
  | serves {msgs : List Text} {calls these : List Handed} {msg : Text}
      (past : Conversed thread.userId msgs calls thread.answers)
      (requestId : thread.requestId = requestIdOf msg)
      (serving : Serving thread.userId msg these thread.task) :
      Conversing thread (msgs ++ [msg]) (calls ++ these)

/-- Each answer of a conversation is under the request id of its message. -/
theorem Conversed.requestIds {user : Int} {msgs : List Text} {calls : List Handed}
    {answers : List (Text × Answer)} (conversed : Conversed user msgs calls answers) :
    answers.map (·.1) = msgs.map requestIdOf := by
  induction conversed with
  | nil => rfl
  | snoc past served ih => simp [ih]

/-! ## One step -/

/-- What is known of a client and of the thread that serves it. -/
structure Thread.Talks (thread : Thread) (msgs : List Text) (calls : List Handed) : Prop where
  joining : thread.task.Joins →
    thread.registered = false ∧ thread.answers = [] ∧ msgs = [] ∧ calls = []
  conversing : thread.registered = true → Conversing thread msgs calls

/-- Nobody has said anything before being there. -/
def Talks (client : Option Thread) (msgs : List Text) (calls : List Handed) : Prop :=
  match client with
  | none => msgs = [] ∧ calls = []
  | some thread => thread.Talks msgs calls

namespace Serving

variable {user : Int} {msg : Text} {calls : List Handed} {task : Task}

theorem notListens (serving : Serving user msg calls task) : ¬ task.Listens := by
  cases serving <;> exact id

/-- A thread that serves a message does what its task says. -/
theorem parsed (serving : Serving user msg calls task) :
    match task with
    | .drawId request => processMessage msg = .ok (.drawId request) ∧ calls = []
    | .submit order => ∃ request id, processMessage msg = .ok (.drawId request) ∧
        order = request.order id user ∧ calls = [⟨.nextOrderId, some (.orderId id)⟩]
    | .checkOwner orderId | .withdraw orderId =>
        processMessage msg = .ok (.checkOwner orderId) ∧ calls = []
    | .answer answer => Served user msg calls answer
    | _ => False := by
  cases serving with
  | draws request parsed => exact ⟨parsed, rfl⟩
  | submits request id parsed => exact ⟨request, id, parsed, rfl, rfl⟩
  | checks orderId parsed | withdraws orderId parsed => exact ⟨parsed, rfl⟩
  | answers served => exact served

end Serving

namespace Conversing

variable {thread after : Thread} {msgs : List Text} {calls : List Handed}

/-- A thread that is not serving a message has answered all of them. -/
theorem conversed (conversing : Conversing thread msgs calls) (listening : thread.task.Listens) :
    Conversed thread.userId msgs calls thread.answers := by
  cases conversing with
  | listens _ past => exact past
  | serves past requestId serving => exact absurd listening serving.notListens

/-- The conversation is with what the thread knows of its client. -/
theorem of_same (conversing : Conversing thread msgs calls) (task : after.task = thread.task)
    (userId : after.userId = thread.userId) (answers : after.answers = thread.answers)
    (requestId : after.requestId = thread.requestId) : Conversing after msgs calls := by
  cases conversing with
  | listens listening past =>
      rw [← userId, ← answers] at past
      exact .listens (task ▸ listening) past
  | serves past id serving =>
      rw [← userId, ← answers] at past
      rw [← userId, ← task] at serving
      exact .serves past (requestId.trans id) serving

/-- A thread that serves a message goes on with it. -/
theorem goOn {more : List Handed} (conversing : Conversing thread msgs calls) (busy : ¬ thread.task.Listens)
    (userId : after.userId = thread.userId) (answers : after.answers = thread.answers)
    (requestId : after.requestId = thread.requestId)
    (serving : ∀ msg these, Serving thread.userId msg these thread.task →
      Serving thread.userId msg (these ++ more) after.task) :
    Conversing after msgs (calls ++ more) := by
  cases conversing with
  | listens listening => exact absurd listening busy
  | serves past id now =>
      rw [List.append_assoc]
      rw [← userId, ← answers] at past
      exact .serves past (requestId.trans id) (by rw [userId]; exact serving _ _ now)

end Conversing

namespace Thread

theorem answers_send (thread : Thread) (message : Message) :
    (thread.send message).answers = thread.answers ++ message.answer?.toList := by
  unfold answers send
  rw [List.filterMap_append]
  cases given : message.answer? <;> simp [given]

@[simp] theorem requestId_receive (message : Message) (thread : Thread) :
    (thread.receive message).requestId = thread.requestId := by
  unfold receive
  split <;> rfl

theorem answers_receive (thread : Thread) {message : Message} (broadcast : message.answer? = none) :
    (thread.receive message).answers = thread.answers := by
  unfold receive
  split
  · rw [answers_send, broadcast]
    exact List.append_nil _
  · rfl

namespace Talks

variable {thread after : Thread} {msgs : List Text} {calls : List Handed}

theorem goOn {msgs' : List Text} {calls' : List Handed} (talks : thread.Talks msgs calls)
    (notJoins : ¬ after.task.Joins) (added : after.registered = true → thread.registered = true)
    (conversing : Conversing thread msgs calls → Conversing after msgs' calls') :
    after.Talks msgs' calls' where
  joining := fun joins => absurd joins notJoins
  conversing := fun isAdded => conversing (talks.conversing (added isAdded))

/-- A client's next message. -/
theorem process (talks : thread.Talks msgs calls) (task : thread.task = .serve) (msg : Text) :
    (thread.process msg).Talks
      (msgs ++ if (processMessage msg).isOk then [msg] else []) calls := by
  unfold Thread.process
  cases processed : processMessage msg with
  | error thrown => exact ⟨False.elim, fun added => by cases added⟩
  | ok next =>
      have serving : Serving thread.userId msg [] next := by
        rcases task_of_processMessage processed with ⟨answer, rfl⟩ | ⟨request, rfl⟩ | ⟨orderId, rfl⟩
        · exact .answers (.refused answer processed)
        · exact .draws request processed
        · exact .checks orderId processed
      have notJoins : ¬ next.Joins := by
        cases serving <;> exact id
      refine talks.goOn notJoins id fun conversing => ?_
      have past := conversing.conversed (by rw [task]; trivial)
      have conversingNow : Conversing { thread with task := next, requestId := requestIdOf msg }
          (msgs ++ [msg]) (calls ++ []) := .serves past rfl serving
      rwa [List.append_nil] at conversingNow

/-- The messages a client gets when it is added to `clients_`. -/
theorem welcome (talks : thread.Talks msgs calls) (task : thread.task.Listens) {message : Message}
    (notAnswer : message.answer? = none) {next : Task} (listens : next.Listens)
    (notJoins : ¬ next.Joins) : ({ thread.send message with task := next } : Thread).Talks msgs calls := by
  refine talks.goOn notJoins id fun conversing => .listens listens ?_
  have answers : Thread.answers { thread.send message with task := next } = thread.answers := by
    have sent := thread.answers_send message
    rw [notAnswer] at sent
    exact sent.trans (List.append_nil _)
  rw [answers]
  exact conversing.conversed task

/-- One more step with a message that is not yet answered. -/
theorem serve (talks : thread.Talks msgs calls) {next : Task} {more : List Handed}
    (busy : ¬ thread.task.Listens) (notJoins : ¬ next.Joins)
    (serving : ∀ msg these, Serving thread.userId msg these thread.task →
      Serving thread.userId msg (these ++ more) next) :
    ({ thread with task := next } : Thread).Talks msgs (calls ++ more) :=
  talks.goOn notJoins id fun conversing => conversing.goOn busy rfl rfl rfl serving

/-- A message is answered. -/
theorem answer (talks : thread.Talks msgs calls) {given : Answer} (task : thread.task = .answer given) :
    ({ thread.send (.answer thread.requestId given) with task := .serve } : Thread).Talks msgs
      calls := by
  refine talks.goOn id id fun conversing => ?_
  cases conversing with
  | listens listening =>
      rw [task] at listening
      cases listening
  | serves past requestId serving =>
      rw [task] at serving
      have served := serving.parsed
      refine .listens trivial ?_
      have answers : Thread.answers
          { thread.send (.answer thread.requestId given) with task := .serve } =
            thread.answers ++ [(thread.requestId, given)] := thread.answers_send _
      rw [answers, requestId]
      exact .snoc past served

end Talks

end Thread

section Step

variable {host : Host} {server next : Server} {msgs : List Text} {calls : List Handed}

/-- The client's thread took a step, and nobody else did. -/
def Goes (server next : Server) (index : Nat) (spurious : Bool) (msgs : List Text)
    (calls : List Handed) : Prop :=
  ∃ after, next.threads = server.threads.set index after ∧ after.Talks msgs
    (calls ++ ServerEntry.handed ⟨server, .advance index spurious, (), next⟩)

/-- The thread of a request that came over HTTP is done. -/
theorem goes_finished {index : Nat} (spurious : Bool) {thread : Thread}
    (http : thread.registered = false) :
    Goes server (server.setThread index { thread with task := .done }) index spurious msgs
      calls := by
  refine ⟨_, rfl, False.elim, fun added => ?_⟩
  change thread.registered = true at added
  rw [http] at added
  cases added

section Advance

variable {index : Nat} {thread : Thread} (found : server.threads[index]? = some thread)
  (spurious : Bool) (talks : thread.Talks msgs calls)

include found talks

theorem goes_connected {reclaimUid : Option Int} {stage : Connecting}
    (task : thread.task = .connect reclaimUid stage) :
    Goes server (server.connected host spurious index thread reclaimUid stage) index spurious
      msgs calls := by
  have joins : thread.task.Joins := by
    rw [task]
    trivial
  obtain ⟨notAdded, answers, noMsgs, noCalls⟩ := talks.joining joins
  have notTick : Action.advance index spurious ≠ .tickOrder := by simp
  have silent : ServerEntry.handed ⟨server, .advance index spurious, (),
      server.connected host spurious index thread reclaimUid stage⟩ = [] :=
    ServerEntry.handed_of_setThread notTick found (by rw [task]; exact id)
  refine ⟨_, rfl, ?_⟩
  rw [silent, List.append_nil]
  refine ⟨fun _ => ⟨?_, ?_, noMsgs, noCalls⟩, fun added => ?_⟩
  · rwa [Thread.registered_connecting]
  · rwa [Thread.answers, Thread.inbox_connecting]
  · rw [Thread.registered_connecting, notAdded] at added
    cases added

theorem goes_registered {reclaimUid : Int} (task : thread.task = .register reclaimUid) :
    Goes server (server.setThread index
      { thread with registered := true, task := .greet reclaimUid }) index spurious msgs calls := by
  refine ⟨_, rfl, ?_⟩
  rw [ServerEntry.handed_of_setThread (by simp) found (by rw [task]; exact id), List.append_nil]
  obtain ⟨_, answers, rfl, rfl⟩ := talks.joining (by rw [task]; trivial)
  refine ⟨False.elim, fun _ => .listens trivial ?_⟩
  change Conversed thread.userId [] [] thread.answers
  rw [answers]
  exact .nil

variable (host) in
theorem goes_sent {message : Message} {task : Task}
    (sends : thread.Sends host server message task) :
    Goes server (server.setThread index { thread.send message with task }) index spurious msgs
      calls := by
  refine ⟨_, rfl, ?_⟩
  rw [ServerEntry.handed_of_setThread (by simp) found sends.wasIdle, List.append_nil]
  cases sends with
  | greeting _ task | book task | orders task =>
      exact talks.welcome (by rw [task]; trivial) rfl trivial id
  | answer given task => exact talks.answer task

theorem goes_checked {orderId : Int} (task : thread.task = .checkOwner orderId) :
    Goes server (server.setThread index { thread with
      task := if server.users.getUserForOrder orderId = thread.userId then .withdraw orderId
        else .answer (.error "Not your order") }) index spurious msgs calls := by
  refine ⟨_, rfl, ?_⟩
  rw [ServerEntry.handed_of_setThread (by simp) found (by rw [task]; exact id)]
  refine talks.serve (by rw [task]; exact id) (by split <;> exact id) fun msg these serving => ?_
  rw [task] at serving
  obtain ⟨parsed, rfl⟩ := serving.parsed
  split
  · exact .withdraws orderId parsed
  · exact .answers (.notOwner orderId parsed)

theorem goes_drew {request : OrderRequest} (task : thread.task = .drawId request) :
    Goes server (server.drawn.setThread index
      { thread with task := .submit (request.order server.engine.nextId thread.userId) }) index
      spurious msgs calls := by
  refine ⟨_, rfl, ?_⟩
  rw [ServerEntry.handed_of_drew found spurious task]
  refine talks.serve (by rw [task]; exact id) id fun msg these serving => ?_
  rw [task] at serving
  obtain ⟨parsed, rfl⟩ := serving.parsed
  exact .submits request _ parsed

theorem goes_submitted {order : Order} (task : thread.task = .submit order)
    (same : next.threads = server.threads) (result : OrderResult) :
    Goes server (next.setThread index { thread with task := .answer (.result result) }) index
      spurious msgs calls := by
  refine ⟨_, by rw [Server.setThread, same], ?_⟩
  rw [ServerEntry.handed_of_submitted found spurious task same]
  refine talks.serve (by rw [task]; exact id) id fun msg these serving => ?_
  rw [task] at serving
  obtain ⟨request, id, parsed, rfl, rfl⟩ := serving.parsed
  exact .answers (.ordered request id result parsed)

theorem goes_withdrew {orderId : Int} (task : thread.task = .withdraw orderId)
    (same : next.threads = server.threads) (ok : Bool) :
    Goes server (next.setThread index { thread with task := .answer (.ok ok) }) index spurious
      msgs calls := by
  refine ⟨_, by rw [Server.setThread, same], ?_⟩
  rw [ServerEntry.handed_of_withdrew found spurious task same]
  refine talks.serve (by rw [task]; exact id) id fun msg these serving => ?_
  rw [task] at serving
  obtain ⟨parsed, rfl⟩ := serving.parsed
  exact .answers (.cancelled orderId ok parsed)

/-- A step of the client's own thread. -/
theorem goes_of_advance (sound : server.engine.book.Sound)
    (advances : server.advance host index spurious thread = .ok next) :
    Goes server next index spurious msgs calls := by
  unfold Server.advance at advances
  split at advances
  · rename_i reclaimUid stage task
    cases advances
    exact goes_connected found spurious talks task
  · rename_i reclaimUid task
    cases advances
    exact goes_registered found spurious talks task
  · rename_i reclaimUid task
    cases advances
    exact goes_sent host found spurious talks (.greeting reclaimUid task _)
  · rename_i task
    split at advances
    · cases advances
    · rename_i free
      cases advances
      exact goes_sent host found spurious talks (.book task (by simpa using free))
  · rename_i task
    split at advances
    · cases advances
    · rename_i free
      cases advances
      exact goes_sent host found spurious talks (.orders task (by simpa using free))
  · rename_i request task
    cases advances
    exact goes_drew found spurious talks task
  · rename_i order task
    split at advances
    · cases advances
    · cases advances
      have locked : Locked host server (.processOrder order) _ _ :=
        locked_processOrder sound (some index) [] order
      exact goes_submitted found spurious talks task locked.threads _
  · rename_i orderId task
    cases advances
    exact goes_checked found spurious talks task
  · rename_i orderId task
    split at advances
    · cases advances
    · split at advances
      · cases advances
      · rename_i withdrawn ok cancels
        cases advances
        exact goes_withdrew found spurious talks task (locked_cancelOrder sound cancels).threads ok
  · rename_i answer task
    split at advances
    · cases advances
    · split at advances
      · rename_i client
        cases advances
        exact goes_sent host found spurious talks (.answer answer task client)
      · rename_i http
        cases advances
        exact goes_finished spurious (by simpa using http)
  · cases advances
  · cases advances

end Advance

/-- Another thread went on, or one was opened. -/
theorem Talks.elsewhere {index : Nat} (talks : Talks server.threads[index]? msgs calls)
    (same : next.threads[index]? = server.threads[index]?) : Talks next.threads[index]? msgs calls :=
  same ▸ talks

theorem Talks.opened {index : Nat} {thread : Thread} (arrives : thread.Arrives)
    (talks : Talks server.threads[index]? msgs calls) :
    Talks (server.opened thread).threads[index]? msgs calls := by
  rw [Server.opened, List.getElem?_append]
  split
  · exact talks
  · rename_i beyond
    rw [List.getElem?_eq_none (by omega)] at talks
    obtain ⟨rfl, rfl⟩ := talks
    cases there : [thread][index - server.threads.length]? with
    | none => exact ⟨rfl, rfl⟩
    | some other =>
        cases List.mem_singleton.mp (List.mem_of_getElem? there)
        refine ⟨fun _ => ⟨arrives.registered, ?_, rfl, rfl⟩, fun added => ?_⟩
        · rw [Thread.answers, arrives.inbox]
          rfl
        · rw [arrives.registered] at added
          cases added

/-- What the holder of `book_mtx` broadcasts is no answer. -/
def Server.OnlyNews (server : Server) : Prop :=
  ∀ message ∈ server.held.elim [] (·.broadcasts), message.answer? = none

theorem Talks.broadcast {index : Nat} {held : Held} {message : Message} {rest : List Message}
    (holds : server.held = some held) (sends : held.broadcasts = message :: rest)
    (news : server.OnlyNews) (talks : Talks server.threads[index]? msgs calls) :
    Talks (server.threads.map (·.receive message))[index]? msgs calls := by
  have notAnswer : message.answer? = none := by
    refine news message ?_
    rw [holds]
    simp [sends]
  rw [List.getElem?_map]
  cases there : server.threads[index]? with
  | none =>
      rw [there] at talks
      exact talks
  | some thread =>
      rw [there] at talks
      have answers := thread.answers_receive notAnswer
      refine ⟨fun joins => ?_, fun added => ?_⟩
      · rw [Thread.task_receive] at joins
        rw [Thread.registered_receive, answers]
        exact talks.joining joins
      · rw [Thread.registered_receive] at added
        exact (talks.conversing added).of_same (Thread.task_receive _ _) (Thread.userId_receive _ _)
          answers (Thread.requestId_receive _ _)

theorem answer?_of_broadcasts {engine : MatchingEngine} {message : Message}
    (member : message ∈ Server.broadcasts host engine) : message.answer? = none := by
  rcases List.mem_append.mp member with ofBook | ofTrade
  · obtain ⟨snapshot, _, ofChange⟩ := List.mem_flatMap.mp ofBook
    rcases List.mem_cons.mp ofChange with rfl | ofChange
    · rfl
    · cases List.mem_singleton.mp ofChange
      rfl
  · obtain ⟨trade, _, rfl⟩ := List.mem_map.mp ofTrade
    rfl

theorem Locked.onlyNews {call : Call} {reply : Reply}
    (locked : Locked host server call reply next) : next.OnlyNews := by
  obtain ⟨thread, requests, held⟩ := locked.held
  unfold Server.OnlyNews
  rw [held]
  exact fun message member => answer?_of_broadcasts member

theorem Moves.onlyNews {action : Action} (moves : Moves host server action next)
    (sound : server.engine.book.Sound) (news : server.OnlyNews) : next.OnlyNews := by
  cases moves with
  | opened | connected | turned | sent | drew => exact news
  | submitted index spurious thread order =>
      exact (locked_processOrder sound (some index) [] order).onlyNews
  | withdrew index spurious thread orderId withdrawn ok found task free cancels =>
      exact (locked_cancelOrder sound cancels).onlyNews
  | tickOrdered thread request rest =>
      exact (locked_processOrder (Server.sound_drawn sound) thread rest _).onlyNews
  | ticked | unlocked => exact fun message member => by cases member
  | calledBack held call rest holds =>
      intro message member
      refine news message ?_
      rw [holds]
      exact member
  | broadcast held message rest holds sends =>
      intro other member
      refine news other ?_
      rw [holds, Option.elim, sends]
      exact List.mem_cons_of_mem _ member

/-- A step of the thread at one place is none of the client at another. -/
theorem Talks.set {index place : Nat} {thread after : Thread} {more : List Handed}
    {asks : List Text} (found : server.threads[place]? = some thread)
    (same : next.threads = server.threads.set place after)
    (talks : Talks server.threads[index]? msgs calls)
    (own : place = index → thread.Talks msgs calls → after.Talks (msgs ++ asks) (calls ++ more))
    (others : place ≠ index → asks = [] ∧ more = []) :
    Talks next.threads[index]? (msgs ++ asks) (calls ++ more) := by
  rw [same, List.getElem?_set]
  split
  · rename_i here
    subst here
    rw [if_pos (List.getElem?_eq_some_iff.mp found).choose]
    rw [found] at talks
    exact own rfl talks
  · rename_i elsewhere
    obtain ⟨rfl, rfl⟩ := others elsewhere
    simpa using talks

theorem talks_of_step (sound : server.engine.book.Sound) (news : server.OnlyNews)
    (others : ∀ (place : Nat) (thread : Thread), server.threads[place]? = some thread →
      ∃ msgs calls, thread.Talks msgs calls) {action : Action}
    (steps : server.step host action = .ok (next, ())) (index : Nat)
    (talks : Talks server.threads[index]? msgs calls) :
    Talks next.threads[index]?
      (msgs ++ (ServerEntry.asked index ⟨server, action, (), next⟩).toList)
      (calls ++ ServerEntry.handedBy index ⟨server, action, (), next⟩) := by
  have stays : next.threads = server.threads → Talks next.threads[index]? (msgs ++ []) (calls ++ []) := by
    intro same
    rw [same, List.append_nil, List.append_nil]
    exact talks
  have opens : ∀ {thread : Thread}, thread.Arrives →
      Talks (server.opened thread).threads[index]? (msgs ++ []) (calls ++ []) := by
    intro thread arrives
    rw [List.append_nil, List.append_nil]
    exact talks.opened arrives
  cases action with
  | postConnect =>
      cases steps
      exact opens ⟨rfl, rfl, by simp, by simp⟩
  | postOrder body =>
      cases steps
      exact opens (Thread.arrives_postOrder body)
  | postCancel body =>
      cases steps
      exact opens (Thread.arrives_postCancel body)
  | dial reclaimUid =>
      cases steps
      exact opens ⟨rfl, rfl, by simp, by simp⟩
  | message place msg =>
      simp only [Server.step] at steps
      split at steps
      · cases steps
      · rename_i thread found
        split at steps
        · rename_i task
          cases steps
          refine talks.set found rfl (fun here own => ?_) fun elsewhere => ?_
          · have read := own.process task msg
            simp only [ServerEntry.asked, ServerEntry.handedBy, here, true_and, List.append_nil]
            cases parses : (processMessage msg).isOk <;> simpa [parses] using read
          · simp [ServerEntry.asked, ServerEntry.handedBy, elsewhere]
        · cases steps
  | hangUp place =>
      simp only [Server.step] at steps
      split at steps
      · cases steps
      · rename_i thread found
        split at steps
        · cases steps
          exact talks.set found rfl (fun _ _ => ⟨False.elim, fun added => by cases added⟩)
            fun _ => ⟨rfl, rfl⟩
        · cases steps
  | advance place spurious =>
      simp only [Server.step] at steps
      split at steps
      · cases steps
      · rename_i thread found
        split at steps
        · cases steps
        · rename_i advances
          cases steps
          by_cases here : place = index
          · subst here
            rw [found] at talks
            obtain ⟨after, same, own⟩ := goes_of_advance found spurious talks sound advances
            rw [same, List.getElem?_set_self (List.getElem?_eq_some_iff.mp found).choose]
            simpa [ServerEntry.asked, ServerEntry.handedBy, Talks] using own
          · obtain ⟨theirs, made, known⟩ := others place thread found
            obtain ⟨after, same, _⟩ := goes_of_advance found spurious known sound advances
            rw [same, List.getElem?_set_ne here]
            simpa [ServerEntry.asked, ServerEntry.handedBy, here] using talks
  | tick requests =>
      simp only [Server.step] at steps
      split at steps
      · cases steps
      · cases steps
        exact stays rfl
  | tickOrder =>
      obtain ⟨thread, request, rest, held, rfl⟩ := moves_of_tickOrder steps
      exact stays rfl
  | callback | unlock =>
      simp only [Server.step] at steps
      split at steps
      · cases steps
        exact stays rfl
      · cases steps
  | broadcast =>
      simp only [Server.step] at steps
      split at steps
      · rename_i held
        cases steps
        simp only [ServerEntry.asked, ServerEntry.handedBy, Option.toList_none, List.append_nil]
        exact talks.broadcast held rfl news
      · cases steps

end Step

/-! ## Runs -/

/-- The messages read from a client, in order. -/
def asked (index : Nat) (log : List ServerEntry) : List Text :=
  log.filterMap (ServerEntry.asked index)

/-- The engine calls made by the thread of a client, in order. -/
def handedBy (index : Nat) (log : List ServerEntry) : List Handed :=
  log.flatMap (ServerEntry.handedBy index)

theorem asked_append (index : Nat) (log : List ServerEntry) (entry : ServerEntry) :
    asked index (log ++ [entry]) = asked index log ++ (entry.asked index).toList := by
  unfold asked
  rw [List.filterMap_append]
  cases told : entry.asked index <;> simp [told]

theorem handedBy_append (index : Nat) (log : List ServerEntry) (entry : ServerEntry) :
    handedBy index (log ++ [entry]) = handedBy index log ++ entry.handedBy index := by
  simp [handedBy]

section Runs

variable {host : Host} {start state : Server} {log : List ServerEntry}

/-- What holds of all clients in every run. -/
structure Talking (log : List ServerEntry) (server : Server) : Prop where
  news : server.OnlyNews
  talks : ∀ index : Nat, Talks server.threads[index]? (asked index log) (handedBy index log)

theorem talking_of_serverRun (sound : start.engine.book.Sound) (nobody : start.threads = [])
    (free : start.held = none) (run : ServerRun host start log state) : Talking log state := by
  refine run.invariant (fun log server => Talking log server) ⟨?_, fun index => ?_⟩ ?_
  · intro message member
    rw [free] at member
    cases member
  · rw [nobody]
    exact ⟨rfl, rfl⟩
  · intro log server action reply next earlier talking _ steps
    have soundNow := sound_of_serverRun sound earlier
    refine ⟨(moves_of_step steps).onlyNews soundNow talking.news, fun index => ?_⟩
    have now := talks_of_step soundNow talking.news (fun place thread found => ⟨_, _, by
      have known := talking.talks place
      rw [found] at known
      exact known⟩) steps index (talking.talks index)
    rw [asked_append, handedBy_append]
    exact now

/--
In every run of the server, for every client in `clients_`: the answers it has
been sent answer the messages read from it one by one and in order, each under
the request id of its message, and the engine calls its thread has made are
those of these messages; at most the last message is not answered yet.
-/
theorem clients_are_answered (sound : start.engine.book.Sound) (nobody : start.threads = [])
    (free : start.held = none) (run : ServerRun host start log state) {index : Nat} {thread : Thread}
    (found : state.threads[index]? = some thread) (client : thread.registered = true) :
    Conversing thread (asked index log) (handedBy index log) := by
  have talks := (talking_of_serverRun sound nobody free run).talks index
  rw [found] at talks
  exact talks.conversing client

/-- A client sends an order, is answered, and sends a cancel that is still to be answered. -/
theorem clients_are_answered_sample :
    ∃ log state thread, ServerRun (Host.exact (·)) seededServer log state ∧
      state.threads[0]? = some thread ∧ (asked 0 log).length = 2 ∧
      (thread.answers.map (·.1)) = ["a1".toList] ∧
      Conversing thread (asked 0 log) (handedBy 0 log) := by
  have run := Run.of_isSome (Server.step (Host.exact (·))) (fun _ _ => True) seededServer
    [.dial 0, .advance 0 false, .advance 0 false, .advance 0 false, .advance 0 false,
      .advance 0 false, .advance 0 false,
      .message 0 ("\x7b\"action\":\"order\",\"requestId\":\"a1\",\"side\":\"SELL\"," ++
        "\"qty\":5,\"price\":100\x7d").toList,
      .advance 0 false, .advance 0 false, .callback, .broadcast, .broadcast, .unlock,
      .advance 0 false,
      .message 0 "\x7b\"action\":\"cancel\",\"requestId\":\"b2\",\"id\":1000\x7d".toList,
      .advance 0 false] (by decide)
  exact ⟨_, _, _, run, (Option.some_get (by decide)).symm, by decide, by decide,
    clients_are_answered seeded_seededServer.sound rfl rfl run
      (Option.some_get (by decide)).symm (by decide)⟩

end Runs

end OrderBookSimulator
