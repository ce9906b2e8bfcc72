import OrderBookSimulator.Client.WebSocketContext
import OrderBookSimulator.Properties.ClientMessages

/-!
# The page

`WebSocketProvider` of `context/WebSocketContext.tsx` and `submitOrder` of
`components/OrderEntry.tsx`, in front of the server.  A socket delivers in order
what is sent on it while it is open.  `send` names each request by a new
`crypto.randomUUID()`, and `onmessage` settles the promise of the request that
an answer names.
-/

namespace OrderBookSimulator

open Library Json

/-- What `submitOrder` passes to `send`, with the id that `send` adds. -/
structure Ticket where
  side : Side
  type : OrderType
  qty : Int
  price : Int
  requestId : Text
  qtyRange : 1 ≤ qty ∧ qty ≤ longLongMax
  priceRange : 1 ≤ price ∧ price < 2 ^ 31
  requestIdNonempty : requestId ≠ []
  requestIdChars : requestId.all isIdChar = true

namespace Ticket

/-- The price of a market order is not sent. -/
def priceField (ticket : Ticket) : List (String × Value) :=
  match ticket.type with
  | .limit => [("price", .int ticket.price)]
  | .market => []

def fields (ticket : Ticket) : List (String × Value) :=
  [("action", .word "order"), ("side", .word (sideText ticket.side)), ("qty", .int ticket.qty),
    ("type", .word (typeText ticket.type))] ++ ticket.priceField ++
    [("requestId", .text ticket.requestId)]

/-- `JSON.stringify(payload)` -/
def text (ticket : Ticket) : Text := (Value.record ticket.fields).written

/-- What the server should make of the ticket. -/
def request (ticket : Ticket) : OrderRequest where
  side := ticket.side
  type := ticket.type
  price :=
    match ticket.type with
    | .limit => ticket.price
    | .market => 0
  qty := ticket.qty

variable (ticket : Ticket)

/-- The same order as it could be sent with a user id. -/
def message : OrderMessage :=
  { side := ticket.side, type := ticket.type, qty := ticket.qty, price := ticket.price, userId := 0
    requestId := ticket.requestId, qtyRange := ticket.qtyRange, priceRange := ticket.priceRange
    userIdRange := by decide, requestIdNonempty := ticket.requestIdNonempty
    requestIdChars := ticket.requestIdChars }

theorem fields_sublist : ticket.fields.Sublist ticket.message.fields := by
  unfold fields priceField OrderMessage.fields OrderMessage.priceField
  simp only [List.append_assoc]
  refine List.Sublist.append (List.Sublist.refl _) (List.Sublist.append (List.Sublist.refl _) ?_)
  exact List.Sublist.cons _ (List.Sublist.refl _)

theorem unambiguous : Unambiguous ticket.fields where
  names field member := ticket.message.unambiguous.names field (ticket.fields_sublist.subset member)
  distinct := (ticket.fields_sublist.map (·.1)).nodup ticket.message.unambiguous.distinct
  nowhere field member other otherMember :=
    ticket.message.unambiguous.nowhere field (ticket.fields_sublist.subset member) other
      (ticket.fields_sublist.subset otherMember)

theorem extractStringField_text {name : String} {word : String} (plain : PlainWord word)
    (member : (name, Value.word word) ∈ ticket.fields) :
    extractStringField ticket.text name = some word.toList :=
  ticket.unambiguous.extractString (writes_written _) name plain.plain member

theorem parseOrderJson_text : parseOrderJson ticket.text = .ok (some ticket.request) := by
  have writes : Writes (.record ticket.fields) ticket.text := writes_written _
  have qtyRange := ticket.qtyRange
  have priceRange := ticket.priceRange
  have side := ticket.extractStringField_text (plain_sideText ticket.side)
    (show ("side", _) ∈ ticket.fields by simp [fields])
  have type := ticket.extractStringField_text (plain_typeText ticket.type)
    (show ("type", _) ∈ ticket.fields by simp [fields])
  have qty := ticket.unambiguous.extractInt writes "qty" (n := ticket.qty) (by omega) qtyRange.2
    (by simp [fields])
  have typeFound : (extractStringField ticket.text "type").getD "LIMIT".toList =
      (typeText ticket.type).toList := by
    rw [type]
    rfl
  rw [parseOrderJson_of_words side typeFound, parseNumbers, qty]
  simp only [if_neg (show ¬ ticket.qty ≤ 0 by omega)]
  cases isType : ticket.type with
  | market => simp [request, isType]
  | limit =>
      have price := ticket.unambiguous.extractInt writes "price" (n := ticket.price) (by omega)
        (by unfold longLongMax; omega) (by simp [fields, priceField, isType])
      rw [price]
      simp only [if_neg (show ¬ ticket.price ≤ 0 by omega),
        castInt_of_small (show 0 ≤ ticket.price by omega) priceRange.2]
      simp [request, isType]

theorem processMessage_text : processMessage ticket.text = .ok (.drawId ticket.request) := by
  have plain : PlainWord "order" := by decide
  have action := ticket.extractStringField_text plain
    (show ("action", _) ∈ ticket.fields by simp [fields])
  unfold processMessage
  rw [action, ticket.parseOrderJson_text]
  rfl

theorem extractStringField_requestId :
    extractStringField ticket.text "requestId" = some ticket.requestId :=
  ticket.unambiguous.extractString (writes_written _) "requestId"
    (plain_of_isIdChar ticket.requestIdChars) (by simp [fields])

end Ticket

inductive Outcome where
  | pending
  | resolved (answer : Answer)
  | rejected
  deriving DecidableEq

/-- A promise that `send` returned. -/
structure Promise where
  ticket : Ticket
  outcome : Outcome := .pending

/-- An open socket; both directions keep their order. -/
structure Socket where
  /-- The thread of the server that serves it. -/
  thread : Nat
  /-- The promises whose tickets were sent on it. -/
  sent : List Nat := []
  /-- How many of these tickets the server has read. -/
  read : Nat := 0
  /-- How many of the server's messages have come. -/
  received : Nat := 0

structure Page where
  userId : Option Int := none
  /-- `localStorage`, under `SESSION_KEY`. -/
  stored : Option Int := none
  book : Option BookDocument := none
  orders : Option (List OrderLine) := none
  trades : List Trade := []
  /-- The map `pending`, from request ids to promises. -/
  pending : List (Text × Nat) := []
  promises : List Promise := []
  socket : Option Socket := none

/-- The field `requestId` of a message; only answers have one, and not every answer. -/
def Message.requestId? : Message → Option Text
  | .answer requestId _ => if requestId = [] then none else some requestId
  | _ => none

section Lookup

variable (pending : List (Text × Nat)) (requestId other : Text)

theorem lookup_cons_eq (promise : Nat) : List.lookup other ((requestId, promise) :: pending) =
    if other = requestId then some promise else List.lookup other pending := by
  by_cases same : other = requestId
  · rw [if_pos same, same]
    exact List.lookup_cons_self
  · rw [if_neg same, List.lookup_cons, beq_false_of_ne same]

theorem lookup_filter_ne : List.lookup other (pending.filter fun entry => entry.1 ≠ requestId) =
    if other = requestId then none else List.lookup other pending := by
  induction pending with
  | nil => simp
  | cons entry rest ih =>
      obtain ⟨key, promise⟩ := entry
      rw [lookup_cons_eq]
      by_cases same : key = requestId
      · rw [List.filter_cons_of_neg (by simp [same]), ih, same]
        split <;> rfl
      · rw [List.filter_cons_of_pos (by simpa using same), lookup_cons_eq, ih]
        by_cases here : other = key
        · rw [if_pos here, if_pos here, if_neg (here ▸ same)]
        · rw [if_neg here, if_neg here]

end Lookup

namespace Page

/-- `pending.current.set` -/
def setPending (page : Page) (requestId : Text) (promise : Nat) : Page :=
  { page with
    pending := (requestId, promise) :: page.pending.filter fun entry => entry.1 ≠ requestId }

/-- `pending.current.delete` -/
def deletePending (page : Page) (requestId : Text) : Page :=
  { page with pending := page.pending.filter fun entry => entry.1 ≠ requestId }

theorem lookup_setPending (page : Page) (requestId other : Text) (promise : Nat) :
    List.lookup other (page.setPending requestId promise).pending =
      if other = requestId then some promise else List.lookup other page.pending := by
  unfold setPending
  rw [lookup_cons_eq, lookup_filter_ne]
  split <;> rfl

theorem lookup_deletePending (page : Page) (requestId other : Text) :
    List.lookup other (page.deletePending requestId).pending =
      if other = requestId then none else List.lookup other page.pending :=
  lookup_filter_ne _ _ _

/-- `entry.resolve`; a promise that is settled stays as it is. -/
def resolve (page : Page) (index : Nat) (answer : Answer) : Page :=
  { page with
    promises := page.promises.modify index fun promise =>
      if promise.outcome = .pending then { promise with outcome := .resolved answer } else promise }

/-- `ws.onmessage` -/
def onMessage (page : Page) : Message → Page
  | .session userId _ =>
      if userId = 0 then page else { page with userId := some userId, stored := some userId }
  | .answer requestId answer =>
      match (Message.answer requestId answer).requestId?.bind (List.lookup · page.pending) with
      | some promise => (page.resolve promise answer).deletePending requestId
      | none => page
  -- no other message has a request id
  | .bookSnapshot document => { page with book := some document }
  | .trade trade => { page with trades := onTradeMessage trade page.trades }
  | .ordersUpdate lines => { page with orders := some lines }

/-- `send` -/
def send (page : Page) (ticket : Ticket) : Page :=
  match page.socket with
  | none => { page with promises := page.promises ++ [{ ticket, outcome := .rejected }] }
  | some socket =>
      { page.setPending ticket.requestId page.promises.length with
        promises := page.promises ++ [{ ticket }]
        socket := some { socket with sent := socket.sent ++ [page.promises.length] } }

end Page

/-! ## The page and the server -/

/-- The server and one of its pages. -/
structure World where
  server : Server
  page : Page := {}

inductive WorldEvent where
  /-- Anything that is not a message or the end of the page's own client. -/
  | server (action : Action)
  | connect
  | send (ticket : Ticket)
  /-- The server reads the next ticket. -/
  | read
  /-- The page gets the next message. -/
  | receive
  | close

/-- The page's own client reads and hangs up through its socket only. -/
def Page.Keeps (page : Page) : Action → Prop
  | .message index _ | .hangUp index => ∃ socket ∈ page.socket, socket.thread = index
  | _ => False

instance (page : Page) (action : Action) : Decidable (page.Keeps action) := by
  cases action <;> unfold Page.Keeps <;> infer_instance

namespace World

def step (host : Host) (world : World) : WorldEvent → Except Stuck (World × Unit)
  | .server action =>
      if world.page.Keeps action then .error .elsewhere
      else
        match world.server.step host action with
        | .error stuck => .error stuck
        | .ok (server, _) => .ok ({ world with server }, ())
  | .connect =>
      if world.page.socket.isSome then .error .elsewhere
      else
        match world.server.step host (.dial (world.page.stored.getD 0)) with
        | .error stuck => .error stuck
        | .ok (server, _) =>
            let socket : Socket := { thread := world.server.threads.length }
            .ok ({ server, page := { world.page with socket := some socket } }, ())
  | .send ticket => .ok ({ world with page := world.page.send ticket }, ())
  | .read =>
      match world.page.socket with
      | none => .error .elsewhere
      | some socket =>
          match (socket.sent[socket.read]?).bind fun index => world.page.promises[index]? with
          | none => .error .waits
          | some promise =>
              match world.server.step host (.message socket.thread promise.ticket.text) with
              | .error stuck => .error stuck
              | .ok (server, _) =>
                  let socket := { socket with read := socket.read + 1 }
                  .ok ({ server, page := { world.page with socket := some socket } }, ())
  | .receive =>
      match world.page.socket with
      | none => .error .elsewhere
      | some socket =>
          match (world.server.threads[socket.thread]?).bind (·.inbox[socket.received]?) with
          | none => .error .waits
          | some message =>
              let socket := { socket with received := socket.received + 1 }
              .ok ({ world with
                page := { world.page.onMessage message with socket := some socket } }, ())
  | .close =>
      -- tickets and messages on their way are lost, and their promises are not rejected
      if world.page.socket.isSome then
        .ok ({ world with page := { world.page with socket := none } }, ())
      else .error .elsewhere

end World

end OrderBookSimulator
