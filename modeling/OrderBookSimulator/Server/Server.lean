import OrderBookSimulator.Engine.Callbacks
import OrderBookSimulator.Server.Messages
import OrderBookSimulator.User.Connecting

/-!
# The server

The threads of the program around one engine: `accept_loop` and `handle_client`
of `server/ws_server.cpp`, the handlers of `server/http_handlers.cpp` that
write, and the ticks of the market maker and the bots.  Threads interleave at
every access to what they share.  The holder of `book_mtx` changes book and
engine in one step, then makes its calls into the user manager and sends its
broadcasts one at a time; what needs no `book_mtx` can come in between.  Writes
to a socket succeed.  `accept_loop` takes one client after another; here their
connect sequences may overlap.
-/

namespace OrderBookSimulator

open Library

/-- What a thread does next. -/
inductive Task where
  /-- Inside `next_user_id` or `reconnect_user`; a WebSocket client asks for an id. -/
  | connect (reclaimUid : Option Int) (stage : Connecting)
  /-- Push the client to `clients_`. -/
  | register (reclaimUid : Int)
  | greet (reclaimUid : Int)
  | sendBook
  | sendOrders
  /-- Read the next message. -/
  | serve
  | drawId (request : OrderRequest)
  /-- Take `book_mtx` and call `process_order`. -/
  | submit (order : Order)
  | checkOwner (orderId : Int)
  /-- Take `book_mtx` and call `cancel_order`. -/
  | withdraw (orderId : Int)
  | answer (answer : Answer)
  | done
  deriving DecidableEq

/-- A request or a client: where its thread stands, and what it was sent. -/
structure Thread where
  task : Task
  userId : Int := 0
  requestId : Text := []
  /-- The client is in `clients_`. -/
  registered : Bool := false
  inbox : List Message := []
  deriving DecidableEq

/-- What the holder of `book_mtx` still has to do. -/
structure Held where
  /-- The thread that answers a request; `none` for the tick of a bot. -/
  thread : Option Nat := none
  /-- The orders a tick has still to submit. -/
  requests : List OrderRequest := []
  callbacks : List UserCall := []
  broadcasts : List Message := []
  deriving DecidableEq

structure Server where
  engine : MatchingEngine := {}
  users : UserManager := {}
  ids : UserIds := {}
  threads : List Thread := []
  held : Option Held := none
  deriving DecidableEq

/-! ## Requests -/

/-- `process_message`, up to its first access to anything shared. -/
def processMessage (msg : Text) : Except Thrown Task :=
  let action := (extractStringField msg "action").getD []
  if action = "order".toList then
    match parseOrderJson msg with
    | .error thrown => .error thrown
    | .ok none => .ok (.answer (.error "Invalid order"))
    | .ok (some request) => .ok (.drawId request)
  else if action = "cancel".toList then
    match parseCancelJson msg with
    | .error thrown => .error thrown
    | .ok none => .ok (.answer (.error "Invalid cancel request"))
    | .ok (some orderId) => .ok (.checkOwner orderId)
  else .ok (.answer (.error "Unknown action. Use 'order' or 'cancel'"))

/-- The `user_id` of a request body, 0 where there is none. -/
def bodyUserId (body : Text) : Except Thrown Int :=
  match extractIntField body "user_id" with
  | .error thrown => .error thrown
  | .ok none => .ok 0
  | .ok (some userId) => .ok userId

/-- The thread of `POST /order`; a handler that throws is answered by the HTTP library. -/
def postOrder (body : Text) : Thread :=
  match parseOrderJson body with
  | .error _ => { task := .done }
  | .ok none => { task := .answer (.error "Invalid order") }
  | .ok (some request) =>
      match bodyUserId body with
      | .error _ => { task := .done }
      | .ok userId => { task := .drawId request, userId }

/-- The thread of `POST /cancel`, which checks the owner of a named user only. -/
def postCancel (body : Text) : Thread :=
  match parseCancelJson body with
  | .error _ => { task := .done }
  | .ok none => { task := .answer (.error "Invalid id") }
  | .ok (some orderId) =>
      match bodyUserId body with
      | .error _ => { task := .done }
      | .ok userId =>
          if 0 < userId then { task := .checkOwner orderId, userId }
          else { task := .withdraw orderId, userId }

namespace Thread

def send (thread : Thread) (message : Message) : Thread :=
  { thread with inbox := thread.inbox ++ [message] }

/-- What a broadcast does to a client, and not to the thread of anything else. -/
def receive (message : Message) (thread : Thread) : Thread :=
  if thread.registered then thread.send message else thread

/-- `remove_client`, and the end of `handle_client`. -/
def hangUp (thread : Thread) : Thread := { thread with registered := false, task := .done }

/-- A client's next message; what `process_message` throws ends the client. -/
def process (thread : Thread) (msg : Text) : Thread :=
  match processMessage msg with
  | .error _ => thread.hangUp
  | .ok task =>
      { thread with task, requestId := (extractStringField msg "requestId").getD [] }

/-- Where a thread goes on after a step of connecting. -/
def connecting (thread : Thread) (reclaimUid : Option Int) (stage : Connecting) : Thread :=
  match stage, reclaimUid with
  | .returned _, none => { thread with task := .done }
  | .returned id, some uid => { thread with userId := id, task := .register uid }
  | stage, reclaimUid => { thread with task := .connect reclaimUid stage }

end Thread

/-! ## The server -/

/-- What happens next. -/
inductive Action where
  | postConnect
  | postOrder (body : Text)
  | postCancel (body : Text)
  /-- A WebSocket client connects; `reclaimUid` is 0 where its URL has no readable `userId`. -/
  | dial (reclaimUid : Int)
  | message (thread : Nat) (msg : Text)
  | hangUp (thread : Nat)
  | advance (thread : Nat) (spurious : Bool)
  /-- A bot takes `book_mtx` and decides what to submit. -/
  | tick (requests : List OrderRequest)
  | tickOrder
  | callback
  | broadcast
  | unlock
  deriving DecidableEq

/--
Why an action makes no step: there is no such thread, it is somewhere else or it
waits, or the code follows the iterator of an erased node, and what happens then
is undefined.
-/
inductive Stuck where
  | noSuchThread
  | elsewhere
  | waits
  | fault (fault : Fault)

namespace Server

/-- The engine as a call finds it, with the sinks and the callback `main` attaches. -/
def attached (server : Server) : MatchingEngine :=
  { server.engine with
    book := server.engine.book.setOnChange
    tradeSink := some []
    userManager := some server.users }

/-- What a call broadcasts: the book each time the callback ran, then the trades. -/
def broadcasts (host : Host) (engine : MatchingEngine) : List Message :=
  (engine.book.onChange.getD []).flatMap (Message.ofChange host) ++
    (engine.tradeSink.getD []).map .trade

/--
A call that processes an order, up to the callbacks and broadcasts it leaves to
be made.  What it writes to the order journal is there at once, also the last
event of the incoming order, which the source writes after the broadcasts.
-/
def processOrder (host : Host) (server : Server) (thread : Option Nat)
    (requests : List OrderRequest) (order : Order) : Server × OrderResult :=
  let (engine, result) := server.attached.processOrder host order
  ({ server with
      engine
      users := server.users.registerOrder order.id order.userId
      held := some {
        thread, requests
        callbacks := server.attached.userCalls host (.processOrder order)
        broadcasts := broadcasts host engine } }, result)

def cancelOrder (host : Host) (server : Server) (thread : Option Nat) (orderId : Int) :
    Except Fault (Server × Bool) := do
  let (engine, ok) ← server.attached.cancelOrder host orderId
  pure ({ server with
      engine
      held := some {
        thread
        callbacks := server.attached.userCalls host (.cancelOrder orderId)
        broadcasts := broadcasts host engine } }, ok)

def opened (server : Server) (thread : Thread) : Server :=
  { server with threads := server.threads ++ [thread] }

def setThread (server : Server) (index : Nat) (thread : Thread) : Server :=
  { server with threads := server.threads.set index thread }

/-- The next step of a thread. -/
def advance (host : Host) (server : Server) (index : Nat) (spurious : Bool) (thread : Thread) :
    Except Stuck Server :=
  match thread.task with
  | .connect reclaimUid stage =>
      let (ids, users, next) := stage.step host spurious server.ids server.users
      .ok ({ server with ids, users }.setThread index (thread.connecting reclaimUid next))
  | .register reclaimUid =>
      .ok (server.setThread index { thread with registered := true, task := .greet reclaimUid })
  | .greet reclaimUid =>
      let reconnected := 0 < reclaimUid ∧ reclaimUid = thread.userId
      .ok (server.setThread index
        { thread.send (.session thread.userId reconnected) with task := .sendBook })
  | .sendBook =>
      if server.held.isSome then .error .waits
      else .ok (server.setThread index
        { thread.send (.bookSnapshot (bookDocument host server.engine.book.snapshot 20)) with
          task := .sendOrders })
  | .sendOrders =>
      if server.held.isSome then .error .waits
      else .ok (server.setThread index
        { thread.send (.ordersUpdate (ordersDocument server.engine.book.snapshot)) with
          task := .serve })
  | .drawId request =>
      let (engine, id) := server.engine.nextOrderId
      .ok ({ server with engine }.setThread index
        { thread with task := .submit (request.order id thread.userId) })
  | .submit order =>
      if server.held.isSome then .error .waits
      else
        let (server, result) := server.processOrder host (some index) [] order
        .ok (server.setThread index { thread with task := .answer (.result result) })
  | .checkOwner orderId =>
      .ok (server.setThread index { thread with
        task := if server.users.getUserForOrder orderId = thread.userId then .withdraw orderId
          else .answer (.error "Not your order") })
  | .withdraw orderId =>
      if server.held.isSome then .error .waits
      else
        match server.cancelOrder host (some index) orderId with
        | .error fault => .error (.fault fault)
        | .ok (server, ok) =>
            .ok (server.setThread index { thread with task := .answer (.ok ok) })
  | .answer answer =>
      if server.held.any (·.thread = some index) then .error .waits
      else if thread.registered then
        .ok (server.setThread index
          { thread.send (.answer thread.requestId answer) with task := .serve })
      else .ok (server.setThread index { thread with task := .done })
  | .serve | .done => .error .elsewhere

def step (host : Host) (server : Server) : Action → Except Stuck (Server × Unit)
  | .postConnect => .ok (server.opened { task := .connect none (Connecting.called none) }, ())
  | .postOrder body => .ok (server.opened (OrderBookSimulator.postOrder body), ())
  | .postCancel body => .ok (server.opened (OrderBookSimulator.postCancel body), ())
  | .dial reclaimUid =>
      .ok (server.opened
        { task := .connect (some reclaimUid) (Connecting.called (some reclaimUid)) }, ())
  | .message index msg =>
      match server.threads[index]? with
      | none => .error .noSuchThread
      | some thread =>
          if thread.task = .serve then .ok (server.setThread index (thread.process msg), ())
          else .error .elsewhere
  | .hangUp index =>
      match server.threads[index]? with
      | none => .error .noSuchThread
      | some thread =>
          if thread.task = .serve then .ok (server.setThread index thread.hangUp, ())
          else .error .elsewhere
  | .advance index spurious =>
      match server.threads[index]? with
      | none => .error .noSuchThread
      | some thread =>
          match server.advance host index spurious thread with
          | .error stuck => .error stuck
          | .ok next => .ok (next, ())
  | .tick requests =>
      if server.held.isSome then .error .waits
      else .ok ({ server with held := some { requests } }, ())
  | .tickOrder =>
      match server.held with
      | some ⟨thread, request :: rest, [], []⟩ =>
          let (engine, id) := server.engine.nextOrderId
          .ok (({ server with engine }.processOrder host thread rest (request.order id 0)).1, ())
      | _ => .error .elsewhere
  | .callback =>
      match server.held with
      | some ⟨thread, requests, call :: rest, broadcasts⟩ =>
          .ok ({ server with
            users := server.users.apply host call
            held := some ⟨thread, requests, rest, broadcasts⟩ }, ())
      | _ => .error .elsewhere
  | .broadcast =>
      match server.held with
      | some ⟨thread, requests, callbacks, message :: rest⟩ =>
          .ok ({ server with
            threads := server.threads.map (·.receive message)
            held := some ⟨thread, requests, callbacks, rest⟩ }, ())
      | _ => .error .elsewhere
  | .unlock =>
      match server.held with
      | some ⟨_, [], [], []⟩ => .ok ({ server with held := none }, ())
      | _ => .error .elsewhere

end Server

end OrderBookSimulator
