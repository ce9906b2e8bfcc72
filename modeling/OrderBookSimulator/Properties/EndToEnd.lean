import OrderBookSimulator.Client.Page
import OrderBookSimulator.Properties.Attendance

/-!
# From the ticket to the result

What a promise of `send` resolves with is the result of the engine call that
was made for its own ticket, whatever else the page, the server and its other
clients do, and across any number of sockets.
-/

namespace OrderBookSimulator

open Library

/-! ## The promises of a page -/

/-- The promise has not been settled. -/
def Page.Awaits (page : Page) (index : Nat) : Prop :=
  ∃ promise, page.promises[index]? = some promise ∧ promise.outcome = .pending

/-- The promise has its answer. -/
def Page.Has (page : Page) (index : Nat) : Prop :=
  ∃ promise answer, page.promises[index]? = some promise ∧ promise.outcome = .resolved answer

/-- Request ids differ, and the map finds every promise that is not settled. -/
structure Page.Orderly (page : Page) : Prop where
  distinct : (page.promises.map (·.ticket.requestId)).Nodup
  waiting : ∀ (index : Nat) (promise : Promise), page.promises[index]? = some promise →
    promise.outcome = .pending → List.lookup promise.ticket.requestId page.pending = some index

/-- The text that a promise was sent as. -/
def Page.text? (page : Page) (index : Nat) : Option Text :=
  (page.promises[index]?).map (·.ticket.text)

namespace Page

variable {page : Page}

theorem getElem?_resolve (page : Page) (index other : Nat) (answer : Answer) :
    (page.resolve index answer).promises[other]? = (page.promises[other]?).map fun promise =>
      if index = other ∧ promise.outcome = .pending then { promise with outcome := .resolved answer }
      else promise := by
  unfold resolve
  rw [List.getElem?_modify]
  by_cases here : index = other <;> simp [here]

/-- Settling a promise leaves what it was sent as. -/
theorem requestIds_resolve (page : Page) (index : Nat) (answer : Answer) :
    (page.resolve index answer).promises.map (·.ticket.requestId) =
      page.promises.map (·.ticket.requestId) := by
  refine List.ext_getElem? fun other => ?_
  rw [List.getElem?_map, List.getElem?_map, getElem?_resolve, Option.map_map]
  cases page.promises[other]? with
  | none => rfl
  | some promise =>
      simp only [Option.map_some, Function.comp_apply]
      split <;> rfl

theorem text?_resolve (page : Page) (index other : Nat) (answer : Answer) :
    (page.resolve index answer).text? other = page.text? other := by
  unfold text?
  rw [getElem?_resolve, Option.map_map]
  cases page.promises[other]? with
  | none => rfl
  | some promise =>
      simp only [Option.map_some, Function.comp_apply]
      split <;> rfl

namespace Orderly

variable (orderly : page.Orderly)

include orderly

/-- Two promises never have one request id. -/
theorem eq_of_requestId {first second : Nat} {promise other : Promise}
    (found : page.promises[first]? = some promise) (foundOther : page.promises[second]? = some other)
    (same : promise.ticket.requestId = other.ticket.requestId) : first = second := by
  have bound := (List.getElem?_eq_some_iff.mp found).choose
  refine (List.getElem?_inj (by rwa [List.length_map]) orderly.distinct).mp ?_
  rw [List.getElem?_map, List.getElem?_map, found, foundOther, Option.map_some, Option.map_some,
    same]

theorem send (ticket : Ticket)
    (unrepeated : ∀ promise ∈ page.promises, promise.ticket.requestId ≠ ticket.requestId) :
    (page.send ticket).Orderly := by
  have distinct : ∀ outcome, ((page.promises ++ [(⟨ticket, outcome⟩ : Promise)]).map
      (·.ticket.requestId)).Nodup := by
    intro outcome
    rw [List.map_append, List.nodup_append]
    refine ⟨orderly.distinct, by simp, ?_⟩
    intro requestId member other isTicket same
    obtain ⟨promise, isPromise, rfl⟩ := List.mem_map.mp member
    exact unrepeated promise isPromise (by simpa [same] using isTicket)
  unfold Page.send
  split
  · refine ⟨distinct _, fun index promise found pending => ?_⟩
    rw [List.getElem?_append] at found
    split at found
    · exact orderly.waiting index promise found pending
    · cases List.mem_singleton.mp (List.mem_of_getElem? found)
      cases pending
  · refine ⟨distinct _, fun index promise found pending => ?_⟩
    change List.lookup _ (page.setPending ticket.requestId page.promises.length).pending = _
    rw [lookup_setPending]
    rw [List.getElem?_append] at found
    split at found
    · rw [if_neg (unrepeated promise (List.mem_of_getElem? found))]
      exact orderly.waiting index promise found pending
    · rename_i last
      have bound := (List.getElem?_eq_some_iff.mp found).choose
      cases List.mem_singleton.mp (List.mem_of_getElem? found)
      rw [if_pos rfl]
      rw [List.length_singleton] at bound
      exact congrArg some (by omega)

/-- Settling the promise that the map finds under a request id. -/
theorem resolve {index : Nat} {promise : Promise} (found : page.promises[index]? = some promise)
    (answer : Answer) :
    ((page.resolve index answer).deletePending promise.ticket.requestId).Orderly where
  distinct := by
    change ((page.resolve index answer).promises.map (·.ticket.requestId)).Nodup
    rw [requestIds_resolve]
    exact orderly.distinct
  waiting := by
    intro other after isAfter pending
    change (page.resolve index answer).promises[other]? = some after at isAfter
    rw [getElem?_resolve] at isAfter
    obtain ⟨before, foundOther, rfl⟩ := Option.map_eq_some_iff.mp isAfter
    by_cases now : index = other ∧ before.outcome = .pending
    · rw [if_pos now] at pending
      cases pending
    · rw [if_neg now] at pending ⊢
      have different : before.ticket.requestId ≠ promise.ticket.requestId := fun same =>
        now ⟨(orderly.eq_of_requestId foundOther found same).symm, pending⟩
      rw [lookup_deletePending, if_neg different]
      exact orderly.waiting other before foundOther pending

end Orderly

end Page

/-! ## Runs of page and server -/

abbrev WorldEntry := Transition World WorldEvent Unit

namespace WorldEntry

/-- The ticket that is passed to `send`. -/
def ticket (entry : WorldEntry) : Option Ticket :=
  match entry.call with
  | .send ticket => some ticket
  | _ => none

/-- What the server does in a step of the world. -/
def action (entry : WorldEntry) : Option Action :=
  match entry.call with
  | .server action => some action
  | .connect => some (.dial (entry.before.page.stored.getD 0))
  | .read =>
      entry.before.page.socket.bind fun socket =>
        (socket.sent[socket.read]?).bind fun index =>
          (entry.before.page.text? index).map (.message socket.thread)
  | .send _ | .receive | .close => none

def serverEntry (entry : WorldEntry) : Option ServerEntry :=
  entry.action.map fun action => ⟨entry.before.server, action, (), entry.after.server⟩

end WorldEntry

/-- `crypto.randomUUID` never returns an id twice. -/
def Unrepeated (log : List WorldEntry) : WorldEvent → Prop
  | .send ticket => ∀ entry ∈ log, ∀ sent ∈ WorldEntry.ticket entry, sent.requestId ≠ ticket.requestId
  | _ => True

instance (log : List WorldEntry) (event : WorldEvent) : Decidable (Unrepeated log event) := by
  cases event with
  | send ticket =>
      exact inferInstanceAs (Decidable (∀ entry ∈ log, ∀ sent ∈ WorldEntry.ticket entry, _))
  | server | connect | read | receive | close => exact .isTrue trivial

abbrev WorldRun (host : Host) (start : World) := Run (World.step host) Unrepeated start

/-- The run of the server within a run of the world. -/
def serverLog (log : List WorldEntry) : List ServerEntry := log.filterMap WorldEntry.serverEntry

/-- What a step of the world can be. -/
inductive WorldMoves (host : Host) (world : World) : WorldEvent → World → Prop where
  | served (action : Action) (server : Server) (foreign : ¬ world.page.Keeps action)
      (steps : world.server.step host action = .ok (server, ())) :
      WorldMoves host world (.server action) { world with server }
  | connected (server : Server) (closed : world.page.socket = none)
      (steps : world.server.step host (.dial (world.page.stored.getD 0)) = .ok (server, ())) :
      WorldMoves host world .connect { server, page := { world.page with
        socket := some { thread := world.server.threads.length } } }
  | sent (ticket : Ticket) :
      WorldMoves host world (.send ticket) { world with page := world.page.send ticket }
  | read (socket : Socket) (index : Nat) (promise : Promise) (server : Server)
      (isOpen : world.page.socket = some socket) (next : socket.sent[socket.read]? = some index)
      (found : world.page.promises[index]? = some promise)
      (steps : world.server.step host (.message socket.thread promise.ticket.text) =
        .ok (server, ())) :
      WorldMoves host world .read { server, page := { world.page with
        socket := some { socket with read := socket.read + 1 } } }
  | received (socket : Socket) (thread : Thread) (message : Message)
      (isOpen : world.page.socket = some socket)
      (found : world.server.threads[socket.thread]? = some thread)
      (comes : thread.inbox[socket.received]? = some message) :
      WorldMoves host world .receive { world with page := { world.page.onMessage message with
        socket := some { socket with received := socket.received + 1 } } }
  | closed : WorldMoves host world .close { world with page := { world.page with socket := none } }

theorem worldMoves_of_step {host : Host} {world next : World} {event : WorldEvent} {reply : Unit}
    (steps : world.step host event = .ok (next, reply)) : WorldMoves host world event next := by
  unfold World.step at steps
  split at steps
  · split at steps
    · cases steps
    · rename_i foreign
      split at steps
      · cases steps
      · rename_i server _ acts
        cases steps
        exact .served _ server foreign acts
  · split at steps
    · cases steps
    · rename_i closed
      split at steps
      · cases steps
      · rename_i server _ dials
        cases steps
        exact .connected server (by simpa using closed) dials
  · cases steps
    exact .sent _
  · split at steps
    · cases steps
    · rename_i socket isOpen
      split at steps
      · cases steps
      · rename_i promise isNext
        obtain ⟨index, next, found⟩ := Option.bind_eq_some_iff.mp isNext
        split at steps
        · cases steps
        · rename_i server _ reads
          cases steps
          exact .read socket index promise server isOpen next found reads
  · split at steps
    · cases steps
    · rename_i socket isOpen
      split at steps
      · cases steps
      · rename_i message isNext
        obtain ⟨thread, found, comes⟩ := Option.bind_eq_some_iff.mp isNext
        cases steps
        exact .received socket thread message isOpen found comes
  · split at steps
    · cases steps
      exact .closed
    · cases steps

section Runs

variable {host : Host} {start world next : World} {log : List WorldEntry} {event : WorldEvent}

/-- What a step of the world is to the server. -/
theorem WorldMoves.serverEntry (moves : WorldMoves host world event next) :
    (WorldEntry.serverEntry ⟨world, event, (), next⟩ = none ∧ next.server = world.server) ∨
      ∃ action, WorldEntry.serverEntry ⟨world, event, (), next⟩ =
          some ⟨world.server, action, (), next.server⟩ ∧
        world.server.step host action = .ok (next.server, ()) := by
  cases moves with
  | served action server foreign steps => exact Or.inr ⟨action, rfl, steps⟩
  | connected server closed steps => exact Or.inr ⟨_, rfl, steps⟩
  | sent | received | closed => exact Or.inl ⟨rfl, rfl⟩
  | read socket index promise server isOpen isNext found steps =>
      refine Or.inr ⟨_, ?_, steps⟩
      simp [WorldEntry.serverEntry, WorldEntry.action, isOpen, isNext, Page.text?, found]

theorem serverLog_append (log : List WorldEntry) (entry : WorldEntry) :
    serverLog (log ++ [entry]) = serverLog log ++ entry.serverEntry.toList := by
  unfold serverLog
  rw [List.filterMap_append]
  cases isEntry : entry.serverEntry <;> simp [isEntry]

/-- The server's part of a run is a run of the server. -/
theorem serverRun_of_worldRun (run : WorldRun host start log world) :
    ServerRun host start.server (serverLog log) world.server := by
  induction run with
  | nil => exact .nil
  | snoc past _ steps ih =>
      rw [serverLog_append]
      rcases (worldMoves_of_step steps).serverEntry with ⟨silent, same⟩ | ⟨action, acts, moves⟩
      · rw [silent, same]
        simpa using ih
      · rw [acts]
        exact .snoc ih trivial moves

/-! ### What a promise resolves with -/

/--
The answer is the result of the calls that a thread of the server made when, in
its conversation with the page, it came to the ticket.
-/
def Settled (log : List ServerEntry) (ticket : Ticket) (answer : Answer) : Prop :=
  ∃ thread user earlier made answers id result, answer = .result result ∧
    Conversed user earlier made answers ∧ earlier ++ [ticket.text] <+: asked thread log ∧
    made ++ [⟨.nextOrderId, some (.orderId id)⟩,
      ⟨.processOrder (ticket.request.order id user), some (.result result)⟩] <+:
        handedBy thread log

theorem Settled.goOn {log more : List ServerEntry} {ticket : Ticket} {answer : Answer}
    (settled : Settled log ticket answer) : Settled (log ++ more) ticket answer := by
  obtain ⟨thread, user, earlier, made, answers, id, result, isResult, conversed, isTicket, isMade⟩ :=
    settled
  refine ⟨thread, user, earlier, made, answers, id, result, isResult, conversed,
    isTicket.trans ?_, isMade.trans ?_⟩
  · unfold asked
    rw [List.filterMap_append]
    exact List.prefix_append _ _
  · unfold handedBy
    rw [List.flatMap_append]
    exact List.prefix_append _ _

/-- The thread that serves the page, and how much of what it sent has come. -/
structure Socket.Attended (socket : Socket) (page : Page) (thread : Thread) : Prop where
  attends : thread.Attends
  within : socket.received ≤ thread.inbox.length
  bounded : (thread.answersIn socket.received).length ≤ socket.sent.length
  answered : ∀ index ∈ socket.sent.take (thread.answersIn socket.received).length, page.Has index
  waiting : ∀ index ∈ socket.sent.drop (thread.answersIn socket.received).length,
    page.Awaits index

theorem Socket.Attended.of_same {socket after : Socket} {page pageAfter : Page} {thread : Thread}
    (attended : socket.Attended page thread) (received : after.received = socket.received)
    (sent : after.sent = socket.sent) (promises : pageAfter.promises = page.promises) :
    after.Attended pageAfter thread := by
  obtain ⟨attends, within, bounded, answered, waiting⟩ := attended
  rw [← received] at within bounded answered waiting
  rw [← sent] at bounded answered waiting
  refine ⟨attends, within, bounded, ?_, ?_⟩
  · simpa only [Page.Has, promises] using answered
  · simpa only [Page.Awaits, promises] using waiting

/-- What is on its way between the page and the thread that serves it. -/
structure Linked (log : List ServerEntry) (world : World) (socket : Socket) : Prop where
  thread : ∃ thread, world.server.threads[socket.thread]? = some thread ∧
    socket.Attended world.page thread
  nodup : socket.sent.Nodup
  read : socket.read ≤ socket.sent.length
  sent : ∀ index ∈ socket.sent, index < world.page.promises.length
  asked : (asked socket.thread log).map some = (socket.sent.take socket.read).map world.page.text?

structure Wired (log : List ServerEntry) (world : World) : Prop where
  orderly : world.page.Orderly
  settled : ∀ promise ∈ world.page.promises, ∀ answer, promise.outcome = .resolved answer →
    Settled log promise.ticket answer
  linked : ∀ socket ∈ world.page.socket, Linked log world socket

/-! ### Steps of the server -/

section Server

variable {past : List ServerEntry} {socket : Socket} {action : Action} {server : Server}
  (sound : world.server.engine.book.Sound) (talking : Talking past world.server)
  (linked : Linked past world socket) (stays : action ≠ .hangUp socket.thread)
  (processed : ∀ msg, action = .message socket.thread msg → ∃ task, processMessage msg = .ok task)
  (steps : world.server.step host action = .ok (server, ()))

include sound talking linked stays processed steps

/-- The page's own thread attends it still, and what it was sent stays sent. -/
theorem Linked.attended : ∃ thread, server.threads[socket.thread]? = some thread ∧
    socket.Attended world.page thread := by
  obtain ⟨thread, found, attended⟩ := linked.thread
  obtain ⟨after, foundAfter, stillAttends⟩ :=
    attends_of_step sound talking found attended.attends stays processed steps
  obtain ⟨other, foundOther, grows⟩ := (moves_of_step steps).inbox sound found
  obtain rfl := Option.some.inj (foundAfter.symm.trans foundOther)
  have same := Thread.answersIn_of_prefix grows attended.within
  refine ⟨after, foundAfter, stillAttends, Nat.le_trans attended.within grows.length_le, ?_, ?_, ?_⟩
  · rw [same]
    exact attended.bounded
  · rw [same]
    exact attended.answered
  · rw [same]
    exact attended.waiting

/-- A step of the server that reads nothing from the page. -/
theorem Linked.served (silent : ServerEntry.asked socket.thread ⟨world.server, action, (), server⟩ =
    none) : Linked (past ++ [⟨world.server, action, (), server⟩]) { world with server } socket where
  thread := by
    obtain ⟨thread, attended⟩ := linked.attended sound talking stays processed steps
    exact ⟨thread, attended⟩
  nodup := linked.nodup
  read := linked.read
  sent := linked.sent
  asked := by
    rw [asked_append, silent]
    simpa using linked.asked

end Server

/-! ### Steps of the page -/

theorem Settled.of_all {past more : List ServerEntry} {promises : List Promise}
    (settled : ∀ promise ∈ promises, ∀ answer, promise.outcome = .resolved answer →
      Settled past promise.ticket answer) : ∀ promise ∈ promises, ∀ answer,
      promise.outcome = .resolved answer → Settled (past ++ more) promise.ticket answer :=
  fun promise member answer isAnswer => (settled promise member answer isAnswer).goOn

section Page

variable {past : List ServerEntry}

theorem Wired.served (wired : Wired past world) (sound : world.server.engine.book.Sound)
    (talking : Talking past world.server) {action : Action} {server : Server}
    (foreign : ¬ world.page.Keeps action)
    (steps : world.server.step host action = .ok (server, ())) :
    Wired (past ++ [⟨world.server, action, (), server⟩]) { world with server } where
  orderly := wired.orderly
  settled := Settled.of_all wired.settled
  linked := by
    intro socket isOpen
    have stays : action ≠ .hangUp socket.thread := by
      rintro rfl
      exact foreign ⟨socket, isOpen, rfl⟩
    have notMessage : ∀ msg, action ≠ .message socket.thread msg := by
      rintro msg rfl
      exact foreign ⟨socket, isOpen, rfl⟩
    refine (wired.linked socket isOpen).served sound talking stays
      (fun msg isMessage => absurd isMessage (notMessage msg)) steps ?_
    unfold ServerEntry.asked
    split
    · rename_i place msg isMessage
      dsimp only at isMessage
      rw [if_neg]
      rintro ⟨rfl, _⟩
      exact notMessage msg isMessage
    · rfl

theorem Wired.connected (wired : Wired past world) (talking : Talking past world.server)
    {server : Server}
    (steps : world.server.step host (.dial (world.page.stored.getD 0)) = .ok (server, ())) :
    Wired (past ++ [⟨world.server, .dial (world.page.stored.getD 0), (), server⟩])
      { server, page := { world.page with
        socket := some { thread := world.server.threads.length } } } where
  orderly := ⟨wired.orderly.distinct, wired.orderly.waiting⟩
  settled := Settled.of_all wired.settled
  linked := by
    intro socket isOpen
    cases isOpen
    cases steps
    have unasked := talking.talks world.server.threads.length
    rw [List.getElem?_eq_none (Nat.le_refl _)] at unasked
    refine ⟨⟨_, List.getElem?_concat_length, ⟨rfl, Nat.le_refl _, Nat.le_refl _, by simp, by simp⟩⟩,
      .nil, Nat.le_refl _, by simp, ?_⟩
    rw [asked_append, unasked.1]
    rfl

theorem Wired.sent (wired : Wired past world) (ticket : Ticket)
    (unrepeated : ∀ promise ∈ world.page.promises, promise.ticket.requestId ≠ ticket.requestId) :
    Wired past { world with page := world.page.send ticket } where
  orderly := wired.orderly.send ticket unrepeated
  settled := by
    intro promise member answer resolved
    have old : promise ∈ world.page.promises := by
      unfold Page.send at member
      split at member
      · rcases List.mem_append.mp member with old | new
        · exact old
        · cases List.mem_singleton.mp new
          cases resolved
      · rcases List.mem_append.mp member with old | new
        · exact old
        · cases List.mem_singleton.mp new
          cases resolved
    exact wired.settled promise old answer resolved
  linked := by
    intro socket isOpen
    unfold Page.send at isOpen ⊢
    split at isOpen
    · rename_i closed
      rw [closed] at isOpen
      cases isOpen
    · rename_i before wasOpen
      cases isOpen
      obtain ⟨⟨thread, found, attends, within, bounded, answered, waiting⟩, nodup, read, sent,
        asked⟩ := wired.linked before wasOpen
      have isNew : world.page.promises.length ∉ before.sent := fun member =>
        Nat.lt_irrefl _ (sent _ member)
      have older : ∀ index < world.page.promises.length,
          (world.page.promises ++ [(⟨ticket, .pending⟩ : Promise)])[index]? =
            world.page.promises[index]? := fun index below => List.getElem?_append_left below
      refine ⟨⟨thread, found, attends, within, ?_, fun index member => ?_, fun index member => ?_⟩,
        ?_, ?_, ?_, ?_⟩
      · simp only [List.length_append]
        omega
      · rw [List.take_append_of_le_length bounded] at member
        obtain ⟨promise, answer, isPromise, resolved⟩ := answered index member
        exact ⟨promise, answer, (older index (sent index (List.mem_of_mem_take member))).trans
          isPromise, resolved⟩
      · rw [List.drop_append] at member
        rcases List.mem_append.mp member with old | new
        · obtain ⟨promise, isPromise, pending⟩ := waiting index old
          exact ⟨promise, (older index (sent index (List.mem_of_mem_drop old))).trans isPromise,
            pending⟩
        · cases List.mem_singleton.mp (List.mem_of_mem_drop new)
          exact ⟨⟨ticket, .pending⟩, List.getElem?_concat_length, rfl⟩
      · refine List.nodup_append.mpr ⟨nodup, by simp, fun index member other isLast same => ?_⟩
        rw [List.mem_singleton.mp isLast] at same
        exact isNew (same ▸ member)
      · simp only [List.length_append, List.length_singleton]
        omega
      · intro index member
        simp only [List.length_append, List.length_singleton]
        rcases List.mem_append.mp member with old | new
        · exact Nat.lt_succ_of_lt (sent index old)
        · cases List.mem_singleton.mp new
          exact Nat.lt_succ_self _
      · rw [asked, List.take_append_of_le_length read]
        refine List.map_congr_left fun index member => ?_
        unfold Page.text?
        rw [older index (sent index (List.mem_of_mem_take member))]

theorem Wired.closed (wired : Wired past world) :
    Wired past { world with page := { world.page with socket := none } } where
  orderly := ⟨wired.orderly.distinct, wired.orderly.waiting⟩
  settled := wired.settled
  linked := fun _ isOpen => by cases isOpen

theorem Wired.read (wired : Wired past world) (sound : world.server.engine.book.Sound)
    (talking : Talking past world.server) {socket : Socket} {index : Nat} {promise : Promise}
    {server : Server} (isOpen : world.page.socket = some socket)
    (next : socket.sent[socket.read]? = some index)
    (found : world.page.promises[index]? = some promise)
    (steps : world.server.step host (.message socket.thread promise.ticket.text) =
      .ok (server, ())) :
    Wired (past ++ [⟨world.server, .message socket.thread promise.ticket.text, (), server⟩])
      { server, page := { world.page with
        socket := some { socket with read := socket.read + 1 } } } where
  orderly := ⟨wired.orderly.distinct, wired.orderly.waiting⟩
  settled := Settled.of_all wired.settled
  linked := by
    intro other isOther
    cases isOther
    have linked := wired.linked socket isOpen
    obtain ⟨thread, attended⟩ := linked.attended sound talking (by simp) (fun msg isMessage => by
      cases isMessage
      exact ⟨_, promise.ticket.processMessage_text⟩) steps
    have bound := (List.getElem?_eq_some_iff.mp next).choose
    refine ⟨⟨thread, attended.1, attended.2.of_same rfl rfl rfl⟩, linked.nodup, bound, linked.sent,
      ?_⟩
    rw [asked_append, List.map_append, linked.asked, List.take_add_one, next, List.map_append]
    refine congrArg (_ ++ ·) ?_
    have parses : (processMessage promise.ticket.text).isOk := by
      rw [promise.ticket.processMessage_text]
      rfl
    simp [ServerEntry.asked, parses, Page.text?, found]

/-- A message that answers nothing settles no promise. -/
theorem Page.promises_onMessage (page : Page) {message : Message}
    (notAnswer : message.answer? = none) : (page.onMessage message).promises = page.promises ∧
      (page.onMessage message).pending = page.pending := by
  cases message with
  | session userId =>
      unfold Page.onMessage
      dsimp only
      split <;> exact ⟨rfl, rfl⟩
  | answer => cases notAnswer
  | bookSnapshot | trade | ordersUpdate => exact ⟨rfl, rfl⟩

/-- The next answer that comes is the answer to the first ticket whose answer has not come. -/
theorem Linked.answered {socket : Socket} (linked : Linked past world socket)
    (talking : Talking past world.server) {thread : Thread}
    (found : world.server.threads[socket.thread]? = some thread) {requestId : Text} {given : Answer}
    (comes : thread.inbox[socket.received]? = some (.answer requestId given)) :
    ∃ index promise, socket.sent[(thread.answersIn socket.received).length]? = some index ∧
      world.page.promises[index]? = some promise ∧ promise.outcome = .pending ∧
      promise.ticket.requestId = requestId ∧ Settled past promise.ticket given := by
  obtain ⟨_, isThread, attended⟩ := linked.thread
  obtain rfl := Option.some.inj (found.symm.trans isThread)
  have attends := attended.attends
  have answersIn : thread.answersIn (socket.received + 1) =
      thread.answersIn socket.received ++ [(requestId, given)] := by
    unfold Thread.answersIn
    rw [List.take_add_one, comes, List.filterMap_append]
    rfl
  obtain ⟨later, isPrefix⟩ := thread.answersIn_prefix (socket.received + 1)
  have isAnswer : thread.answers[(thread.answersIn socket.received).length]? =
      some (requestId, given) := by
    rw [← isPrefix, answersIn, List.append_assoc, List.getElem?_append_right (Nat.le_refl _),
      Nat.sub_self]
    rfl
  have talks := talking.talks socket.thread
  rw [found] at talks
  have client : thread.registered = true := by
    cases added : thread.registered with
    | true => rfl
    | false =>
        -- a client that is not added yet has no answers
        have joins : thread.task.Joins := by
          unfold Thread.Attends at attends
          split at attends <;> rename_i task
          · rw [task]
            trivial
          · rw [task]
            trivial
          · exact attends.elim
          · rw [added] at attends
            cases attends
        rw [(talks.joining joins).2.1] at isAnswer
        cases isAnswer
  obtain ⟨earlier, made, msg, these, conversed, isAsked, isMade, length, named, served⟩ :=
    (talks.conversing client).getElem? isAnswer
  have isMsg : (OrderBookSimulator.asked socket.thread past)[(thread.answersIn socket.received).length]? = some msg := by
    obtain ⟨more, same⟩ := isAsked
    rw [← same, ← length, List.append_assoc, List.getElem?_append_right (Nat.le_refl _),
      Nat.sub_self]
    rfl
  have sentMsg : ((socket.sent.take socket.read).map world.page.text?)[
      (thread.answersIn socket.received).length]? = some (some msg) := by
    rw [← linked.asked, List.getElem?_map, isMsg]
    rfl
  rw [List.getElem?_map] at sentMsg
  obtain ⟨index, isIndex, isText⟩ := Option.map_eq_some_iff.mp sentMsg
  have isSent : socket.sent[(thread.answersIn socket.received).length]? = some index := by
    rw [List.getElem?_take] at isIndex
    split at isIndex
    · exact isIndex
    · cases isIndex
  obtain ⟨promise, isPromise, pending⟩ := attended.waiting index (List.mem_of_getElem? (by
    rw [List.getElem?_drop, Nat.add_zero]
    exact isSent))
  obtain rfl : promise.ticket.text = msg := by
    unfold Page.text? at isText
    rw [isPromise] at isText
    exact Option.some.inj isText
  refine ⟨index, promise, isSent, isPromise, pending, ?_, ?_⟩
  · rw [named, requestIdOf, promise.ticket.extractStringField_requestId]
    rfl
  · have parsed := promise.ticket.processMessage_text
    cases served with
    | ordered request id result isRequest =>
        rw [parsed] at isRequest
        cases isRequest
        exact ⟨socket.thread, thread.userId, earlier, made, _, id, result, rfl, conversed, isAsked,
          isMade⟩
    | refused answer other =>
        rw [parsed] at other
        cases other
    | notOwner orderId other =>
        rw [parsed] at other
        cases other
    | cancelled orderId ok other =>
        rw [parsed] at other
        cases other

/-- A message has come, and the page has made of it what it makes. -/
theorem Linked.came {socket : Socket} (linked : Linked past world socket) {thread : Thread}
    (found : world.server.threads[socket.thread]? = some thread) {page : Page}
    (attended : { socket with received := socket.received + 1 : Socket }.Attended page thread)
    (length : page.promises.length = world.page.promises.length)
    (texts : ∀ index, page.text? index = world.page.text? index) :
    Linked past { world with page } { socket with received := socket.received + 1 } where
  thread := ⟨thread, found, attended⟩
  nodup := linked.nodup
  read := linked.read
  sent := fun index member => length ▸ linked.sent index member
  asked := by
    rw [linked.asked]
    exact List.map_congr_left fun index _ => (texts index).symm

/-- An answer settles the promise of its request. -/
theorem Page.onMessage_answer {page : Page} (orderly : page.Orderly) {index : Nat}
    {promise : Promise} (found : page.promises[index]? = some promise)
    (pending : promise.outcome = .pending) (given : Answer) :
    page.onMessage (.answer promise.ticket.requestId given) =
      (page.resolve index given).deletePending promise.ticket.requestId := by
  have lookup := orderly.waiting index promise found pending
  unfold Page.onMessage Message.requestId?
  simp [promise.ticket.requestIdNonempty, lookup]

/-- The next answer has come and settled its promise. -/
theorem Socket.Attended.answer {socket : Socket} {page : Page} {thread : Thread} {requestId : Text}
    {given : Answer} {index : Nat} {promise : Promise} (attended : socket.Attended page thread)
    (comes : thread.inbox[socket.received]? = some (.answer requestId given))
    (isSent : socket.sent[(thread.answersIn socket.received).length]? = some index)
    (found : page.promises[index]? = some promise) (pending : promise.outcome = .pending)
    (nodup : socket.sent.Nodup) :
    { socket with received := socket.received + 1 : Socket }.Attended
      ((page.resolve index given).deletePending requestId) thread := by
  have answersIn : thread.answersIn (socket.received + 1) =
      thread.answersIn socket.received ++ [(requestId, given)] := by
    unfold Thread.answersIn
    rw [List.take_add_one, comes, List.filterMap_append]
    rfl
  have bound := (List.getElem?_eq_some_iff.mp isSent).choose
  have promises : ∀ other, ((page.resolve index given).deletePending requestId).promises[other]? =
      (page.promises[other]?).map fun promise =>
        if index = other ∧ promise.outcome = .pending then
          { promise with outcome := .resolved given }
        else promise := fun other => page.getElem?_resolve index other given
  refine ⟨attended.attends, (List.getElem?_eq_some_iff.mp comes).choose, ?_, ?_, ?_⟩
  · rw [answersIn, List.length_append, List.length_singleton]
    exact bound
  · intro other member
    rw [answersIn, List.length_append, List.length_singleton, List.take_add_one, isSent] at member
    rcases List.mem_append.mp member with earlier | now
    · obtain ⟨kept, answer, isKept, resolved⟩ := attended.answered other earlier
      refine ⟨kept, answer, ?_, resolved⟩
      rw [promises, isKept, Option.map_some, if_neg]
      intro settles
      rw [resolved] at settles
      cases settles.2
    · obtain rfl : other = index := by simpa using now
      exact ⟨{ promise with outcome := .resolved given }, given,
        by rw [promises, found, Option.map_some, if_pos ⟨rfl, pending⟩], rfl⟩
  · intro later member
    rw [answersIn, List.length_append, List.length_singleton] at member
    have different : later ≠ index := by
      rintro rfl
      have isFirst := List.drop_eq_getElem_cons bound
      have distinct := nodup.sublist
        (List.drop_sublist (thread.answersIn socket.received).length socket.sent)
      rw [isFirst, (List.getElem?_eq_some_iff.mp isSent).choose_spec] at distinct
      exact (List.nodup_cons.mp distinct).1 member
    obtain ⟨other, isOther, waits⟩ := attended.waiting later (by
      rw [← List.drop_drop] at member
      exact List.mem_of_mem_drop member)
    refine ⟨other, ?_, waits⟩
    rw [promises, isOther, Option.map_some, if_neg (fun now => different now.1.symm)]

theorem Wired.answered (wired : Wired past world) (talking : Talking past world.server)
    {socket : Socket} {thread : Thread} {requestId : Text} {given : Answer}
    (isOpen : world.page.socket = some socket)
    (found : world.server.threads[socket.thread]? = some thread)
    (comes : thread.inbox[socket.received]? = some (.answer requestId given)) :
    Wired past { world with page := { world.page.onMessage (.answer requestId given) with
      socket := some { socket with received := socket.received + 1 } } } := by
  have linked := wired.linked socket isOpen
  obtain ⟨index, promise, isSent, isPromise, pending, rfl, settled⟩ :=
    linked.answered talking found comes
  rw [Page.onMessage_answer wired.orderly isPromise pending]
  have orderly := wired.orderly.resolve isPromise given
  refine ⟨⟨orderly.distinct, orderly.waiting⟩, ?_, ?_⟩
  · intro after member answer resolved
    obtain ⟨other, foundAfter⟩ := List.mem_iff_getElem?.mp member
    change (world.page.resolve index given).promises[other]? = some after at foundAfter
    rw [Page.getElem?_resolve] at foundAfter
    obtain ⟨before, isBefore, rfl⟩ := Option.map_eq_some_iff.mp foundAfter
    split at resolved
    · rename_i now
      obtain ⟨rfl, _⟩ := now
      obtain rfl := Option.some.inj (isPromise.symm.trans isBefore)
      cases resolved
      rw [if_pos ⟨rfl, pending⟩]
      exact settled
    · rename_i before
      rw [if_neg before]
      exact wired.settled _ (List.mem_of_getElem? isBefore) answer resolved
  · intro other isOther
    cases isOther
    obtain ⟨_, isThread, attended⟩ := linked.thread
    obtain rfl := Option.some.inj (found.symm.trans isThread)
    refine linked.came found ((attended.answer comes isSent isPromise pending linked.nodup).of_same
      rfl rfl rfl) ?_ ?_
    · simp [Page.deletePending, Page.resolve]
    · intro other
      exact world.page.text?_resolve index other given

/-- A message that answers nothing settles no promise. -/
theorem Wired.told (wired : Wired past world) {socket : Socket} {thread : Thread}
    {message : Message} (isOpen : world.page.socket = some socket)
    (found : world.server.threads[socket.thread]? = some thread)
    (comes : thread.inbox[socket.received]? = some message) (notAnswer : message.answer? = none) :
    Wired past { world with page := { world.page.onMessage message with
      socket := some { socket with received := socket.received + 1 } } } := by
  have linked := wired.linked socket isOpen
  obtain ⟨promises, pending⟩ := world.page.promises_onMessage notAnswer
  refine ⟨⟨?_, ?_⟩, ?_, ?_⟩
  · simpa only [promises] using wired.orderly.distinct
  · simpa only [promises, pending] using wired.orderly.waiting
  · simpa only [promises] using wired.settled
  · intro other isOther
    cases isOther
    obtain ⟨_, isThread, attended⟩ := linked.thread
    obtain rfl := Option.some.inj (found.symm.trans isThread)
    have answersIn : thread.answersIn (socket.received + 1) = thread.answersIn socket.received := by
      unfold Thread.answersIn
      rw [List.take_add_one, comes, List.filterMap_append]
      simp [notAnswer]
    refine linked.came found ⟨attended.attends, (List.getElem?_eq_some_iff.mp comes).choose, ?_, ?_,
      ?_⟩ ?_ ?_
    · rw [answersIn]
      exact attended.bounded
    · rw [answersIn]
      simpa only [Page.Has, promises] using attended.answered
    · rw [answersIn]
      simpa only [Page.Awaits, promises] using attended.waiting
    · simp only [promises]
    · intro index
      simp only [Page.text?, promises]

theorem Wired.received (wired : Wired past world) (talking : Talking past world.server)
    {socket : Socket} {thread : Thread} {message : Message} (isOpen : world.page.socket = some socket)
    (found : world.server.threads[socket.thread]? = some thread)
    (comes : thread.inbox[socket.received]? = some message) :
    Wired past { world with page := { world.page.onMessage message with
      socket := some { socket with received := socket.received + 1 } } } := by
  cases message with
  | answer requestId given => exact wired.answered talking isOpen found comes
  | session | bookSnapshot | trade | ordersUpdate => exact wired.told isOpen found comes rfl

end Page

/-! ### Runs -/

theorem Page.tickets_resolve (page : Page) (index : Nat) (answer : Answer) :
    (page.resolve index answer).promises.map (·.ticket) = page.promises.map (·.ticket) := by
  refine List.ext_getElem? fun other => ?_
  rw [List.getElem?_map, List.getElem?_map, Page.getElem?_resolve, Option.map_map]
  cases page.promises[other]? with
  | none => rfl
  | some promise =>
      simp only [Option.map_some, Function.comp_apply]
      split <;> rfl

theorem Page.tickets_onMessage (page : Page) (message : Message) :
    (page.onMessage message).promises.map (·.ticket) = page.promises.map (·.ticket) := by
  cases told : message.answer? with
  | none => rw [(page.promises_onMessage told).1]
  | some =>
      cases message with
      | answer requestId given =>
          unfold Page.onMessage
          dsimp only
          split
          · exact page.tickets_resolve _ given
          · rfl
      | session | bookSnapshot | trade | ordersUpdate => cases told

/-- The promises of a page are those of the tickets passed to `send`. -/
theorem WorldMoves.tickets (moves : WorldMoves host world event next) :
    next.page.promises.map (·.ticket) = world.page.promises.map (·.ticket) ++
      (WorldEntry.ticket ⟨world, event, (), next⟩).toList := by
  cases moves with
  | sent ticket =>
      unfold Page.send
      split <;> exact List.map_append
  | served | connected | read | closed => exact (List.append_nil _).symm
  | received socket thread message =>
      exact (world.page.tickets_onMessage message).trans (List.append_nil _).symm

/-- A page before its first `send`. -/
structure Page.Blank (page : Page) : Prop where
  promises : page.promises = []
  socket : page.socket = none

theorem tickets_of_worldRun (blank : start.page.Blank) (run : WorldRun host start log world) :
    world.page.promises.map (·.ticket) = log.filterMap WorldEntry.ticket := by
  induction run with
  | nil => rw [blank.promises, List.map_nil, List.filterMap_nil]
  | snoc past _ steps ih =>
      rw [(worldMoves_of_step steps).tickets, ih, List.filterMap_append]
      refine congrArg (_ ++ ·) ?_
      rename_i log state next call reply _
      cases isTicket : WorldEntry.ticket ⟨state, call, reply, next⟩ with
      | none => rw [List.filterMap_cons_none isTicket, List.filterMap_nil]; rfl
      | some ticket => rw [List.filterMap_cons_some isTicket, List.filterMap_nil]; rfl

theorem Wired.step {past : List ServerEntry} (wired : Wired past world)
    (sound : world.server.engine.book.Sound) (talking : Talking past world.server)
    (unrepeated : ∀ ticket, event = .send ticket → ∀ promise ∈ world.page.promises,
      promise.ticket.requestId ≠ ticket.requestId)
    (moves : WorldMoves host world event next) :
    Wired (past ++ (WorldEntry.serverEntry ⟨world, event, (), next⟩).toList) next := by
  cases moves with
  | served action server foreign steps => exact wired.served sound talking foreign steps
  | connected server closed steps => exact wired.connected talking steps
  | sent ticket =>
      simpa [WorldEntry.serverEntry, WorldEntry.action] using wired.sent ticket (unrepeated ticket rfl)
  | read socket index promise server isOpen isNext found steps =>
      have isEntry : WorldEntry.serverEntry ⟨world, .read, (), { server, page := { world.page with
          socket := some { socket with read := socket.read + 1 } } }⟩ =
          some ⟨world.server, .message socket.thread promise.ticket.text, (), server⟩ := by
        simp [WorldEntry.serverEntry, WorldEntry.action, isOpen, isNext, Page.text?, found]
      rw [isEntry]
      exact wired.read sound talking isOpen isNext found steps
  | received socket thread message isOpen found comes =>
      simpa [WorldEntry.serverEntry, WorldEntry.action] using
        wired.received talking isOpen found comes
  | closed => simpa [WorldEntry.serverEntry, WorldEntry.action] using wired.closed

section Start

variable (sound : start.server.engine.book.Sound) (nobody : start.server.threads = [])
  (free : start.server.held = none) (blank : start.page.Blank)

include sound nobody free blank

theorem wired_of_worldRun (run : WorldRun host start log world) : Wired (serverLog log) world := by
  refine run.invariant (fun log world => Wired (serverLog log) world) ?_ ?_
  · refine ⟨⟨?_, ?_⟩, ?_, ?_⟩
    · rw [blank.promises]
      exact .nil
    · intro index promise found
      rw [blank.promises] at found
      cases found
    · intro promise member
      rw [blank.promises] at member
      cases member
    · intro socket isOpen
      rw [blank.socket] at isOpen
      cases isOpen
  · intro log world event reply next past wired allowed steps
    have serverRun := serverRun_of_worldRun past
    rw [serverLog_append]
    refine wired.step (sound_of_serverRun sound serverRun)
      (talking_of_serverRun sound nobody free serverRun) ?_ (worldMoves_of_step steps)
    rintro ticket rfl promise member
    have sent : promise.ticket ∈ log.filterMap WorldEntry.ticket := by
      rw [← tickets_of_worldRun blank past]
      exact List.mem_map_of_mem member
    obtain ⟨entry, logged, isTicket⟩ := List.mem_filterMap.mp sent
    exact allowed entry logged _ isTicket

/--
However the page, the server and its other clients take turns, and however
often the page's socket closes and is opened again: when a promise of `send`
resolves, its answer is the result of the engine calls made when the server,
in its conversation with the page, came to the ticket of this very promise.
-/
theorem promises_resolve_with_own_result (run : WorldRun host start log world) {promise : Promise}
    (member : promise ∈ world.page.promises) {answer : Answer}
    (resolved : promise.outcome = .resolved answer) :
    Settled (serverLog log) promise.ticket answer :=
  (wired_of_worldRun sound nobody free blank run).settled promise member answer resolved

end Start

/-- An offer of five at 100, under the request id "a" or "b". -/
def offerTicket (first : Bool) : Ticket where
  side := .sell
  type := .limit
  qty := 5
  price := 100
  requestId := if first then ['a'] else ['b']
  qtyRange := by decide
  priceRange := by decide
  requestIdNonempty := by cases first <;> decide
  requestIdChars := by cases first <;> decide

/-- The page connects, sends an offer, and gets its result behind four other messages. -/
def offering : List WorldEvent :=
  [.connect] ++ List.replicate 6 (.server (.advance 0 false)) ++
    [.send (offerTicket true), .read] ++
    List.replicate 2 (.server (.advance 0 false)) ++
    [.server .callback, .server .broadcast, .server .broadcast, .server .unlock,
      .server (.advance 0 false)] ++ List.replicate 6 .receive

theorem promises_resolve_with_own_result_sample :
    ∃ log world promise answer, WorldRun (Host.exact (·)) { server := seededServer } log world ∧
      promise ∈ world.page.promises ∧ promise.outcome = .resolved answer ∧
      Settled (serverLog log) promise.ticket answer := by
  have run := Run.of_isSome (World.step (Host.exact (·))) Unrepeated { server := seededServer }
    offering (by decide)
  have member := List.mem_of_getElem? (show
    ((drive (World.step (Host.exact (·))) Unrepeated [] { server := seededServer } offering).get
      (by decide)).2.page.promises[0]? = some ⟨offerTicket true, .resolved (.result
        { id := 1000, status := .new, originalQty := 5, filledQty := 0, remainingQty := 5
          trades := [], reason := "" })⟩ from rfl)
  exact ⟨_, _, _, _, run, member, rfl, promises_resolve_with_own_result seeded_seededServer.sound
    rfl rfl ⟨rfl, rfl⟩ run member rfl⟩

/-! ### Promises that never settle -/

/-- The promise was waiting when the page's socket closed. -/
def Lost (log : List WorldEntry) (index : Nat) : Prop :=
  ∃ entry ∈ log, entry.call = .close ∧ entry.before.page.Awaits index

theorem Lost.append {index : Nat} {entry : WorldEntry} (lost : Lost (log ++ [entry]) index) :
    Lost log index ∨ entry.call = .close ∧ entry.before.page.Awaits index := by
  obtain ⟨other, member, closes, waits⟩ := lost
  rcases List.mem_append.mp member with earlier | last
  · exact Or.inl ⟨other, earlier, closes, waits⟩
  · obtain rfl := List.mem_singleton.mp last
    exact Or.inr ⟨closes, waits⟩

theorem Lost.goOn {index : Nat} {entry : WorldEntry} (lost : Lost log index) :
    Lost (log ++ [entry]) index := by
  obtain ⟨other, member, closes, waits⟩ := lost
  exact ⟨other, List.mem_append_left _ member, closes, waits⟩

theorem Page.Awaits.bound {page : Page} {index : Nat} (waits : page.Awaits index) :
    index < page.promises.length := by
  obtain ⟨promise, found, _⟩ := waits
  exact (List.getElem?_eq_some_iff.mp found).choose

/-- A ticket adds a promise at the end, which waits if the socket is open. -/
theorem Page.awaits_send (page : Page) (ticket : Ticket) (index : Nat) :
    (page.send ticket).Awaits index ↔
      page.Awaits index ∨ page.socket.isSome = true ∧ index = page.promises.length := by
  have added : ∀ outcome, (∃ promise, (page.promises ++ [(⟨ticket, outcome⟩ : Promise)])[index]? =
      some promise ∧ promise.outcome = .pending) ↔
        page.Awaits index ∨ outcome = .pending ∧ index = page.promises.length := by
    intro outcome
    constructor
    · rintro ⟨promise, found, pending⟩
      rw [List.getElem?_append] at found
      split at found
      · exact Or.inl ⟨promise, found, pending⟩
      · rename_i beyond
        have bound := (List.getElem?_eq_some_iff.mp found).choose
        rw [List.length_singleton] at bound
        cases List.mem_singleton.mp (List.mem_of_getElem? found)
        exact Or.inr ⟨pending, by omega⟩
    · rintro (⟨promise, found, pending⟩ | ⟨pending, rfl⟩)
      · refine ⟨promise, ?_, pending⟩
        rw [List.getElem?_append_left (List.getElem?_eq_some_iff.mp found).choose, found]
      · exact ⟨⟨ticket, outcome⟩, List.getElem?_concat_length, pending⟩
  unfold Page.send
  split
  · rename_i closed
    refine (added .rejected).trans ?_
    simp [closed]
  · rename_i socket isOpen
    refine (added .pending).trans ?_
    simp [isOpen]

/-- An answer settles one promise, and it is of a ticket that was sent on the open socket. -/
theorem Wired.awaits_onMessage {past : List ServerEntry} (wired : Wired past world)
    (talking : Talking past world.server) {socket : Socket} {thread : Thread} {message : Message}
    (isOpen : world.page.socket = some socket)
    (found : world.server.threads[socket.thread]? = some thread)
    (comes : thread.inbox[socket.received]? = some message) (index : Nat) :
    ((world.page.onMessage message).Awaits index → world.page.Awaits index) ∧
      (world.page.Awaits index → index ∉ socket.sent →
        (world.page.onMessage message).Awaits index) := by
  cases told : message.answer? with
  | none =>
      unfold Page.Awaits
      rw [(world.page.promises_onMessage told).1]
      exact ⟨id, fun waits _ => waits⟩
  | some =>
      cases message with
      | answer requestId given =>
          obtain ⟨own, promise, isSent, isPromise, pending, rfl, _⟩ :=
            (wired.linked socket isOpen).answered talking found comes
          rw [Page.onMessage_answer wired.orderly isPromise pending]
          have promises : ∀ other, ((world.page.resolve own given).deletePending
              promise.ticket.requestId).promises[other]? = (world.page.promises[other]?).map fun promise =>
                if own = other ∧ promise.outcome = .pending then
                  { promise with outcome := .resolved given }
                else promise := fun other => world.page.getElem?_resolve own other given
          unfold Page.Awaits
          rw [promises]
          constructor
          · rintro ⟨after, isAfter, waits⟩
            obtain ⟨before, isBefore, rfl⟩ := Option.map_eq_some_iff.mp isAfter
            split at waits
            · cases waits
            · exact ⟨before, isBefore, waits⟩
          · rintro ⟨before, isBefore, waits⟩ unsent
            refine ⟨before, ?_, waits⟩
            rw [isBefore, Option.map_some, if_neg]
            rintro ⟨rfl, _⟩
            exact unsent (List.mem_of_getElem? isSent)
      | session | bookSnapshot | trade | ordersUpdate => cases told

/-- Where the promises that wait come from. -/
structure Stranded (log : List WorldEntry) (world : World) : Prop where
  lost : ∀ index, Lost log index →
    world.page.Awaits index ∧ ∀ socket ∈ world.page.socket, index ∉ socket.sent
  waiting : ∀ index, world.page.Awaits index →
    Lost log index ∨ ∃ socket ∈ world.page.socket, index ∈ socket.sent

/-- A step after which the same promises wait, and whose socket was sent the same. -/
theorem Stranded.of_same (stranded : Stranded log world) {entry : WorldEntry}
    (notClose : entry.call ≠ .close)
    (awaits : ∀ index, next.page.Awaits index ↔ world.page.Awaits index)
    (sent : ∀ index, (∃ socket ∈ next.page.socket, index ∈ socket.sent) ↔
      ∃ socket ∈ world.page.socket, index ∈ socket.sent) : Stranded (log ++ [entry]) next where
  lost := by
    intro index lost
    rcases lost.append with earlier | ⟨closes, _⟩
    · obtain ⟨waits, unsent⟩ := stranded.lost index earlier
      refine ⟨(awaits index).mpr waits, fun socket isOpen member => ?_⟩
      obtain ⟨other, wasOpen, wasSent⟩ := (sent index).mp ⟨socket, isOpen, member⟩
      exact unsent other wasOpen wasSent
    · exact absurd closes notClose
  waiting := by
    intro index waits
    rcases stranded.waiting index ((awaits index).mp waits) with lost | isSent
    · exact Or.inl lost.goOn
    · exact Or.inr ((sent index).mpr isSent)

theorem Stranded.step {past : List ServerEntry} (stranded : Stranded log world)
    (wired : Wired past world) (talking : Talking past world.server)
    (moves : WorldMoves host world event next) :
    Stranded (log ++ [⟨world, event, (), next⟩]) next := by
  cases moves with
  | served => exact stranded.of_same (by simp) (fun _ => Iff.rfl) fun _ => Iff.rfl
  | connected server closed =>
      refine stranded.of_same (by simp) (fun _ => Iff.rfl) fun index => ?_
      simp [closed]
  | sent ticket =>
      refine ⟨fun index lost => ?_, fun index waits => ?_⟩
      · rcases lost.append with earlier | ⟨closes, _⟩
        · obtain ⟨waits, unsent⟩ := stranded.lost index earlier
          refine ⟨(Page.awaits_send _ _ _).mpr (Or.inl waits), fun socket isOpen member => ?_⟩
          unfold Page.send at isOpen
          split at isOpen
          · rename_i closed
            rw [closed] at isOpen
            cases isOpen
          · rename_i before wasOpen
            cases isOpen
            rcases List.mem_append.mp member with old | new
            · exact unsent before wasOpen old
            · rw [List.mem_singleton.mp new] at waits
              exact Nat.lt_irrefl _ waits.bound
        · cases closes
      · rcases (Page.awaits_send _ _ _).mp waits with before | ⟨isOpen, rfl⟩
        · rcases stranded.waiting index before with lost | ⟨socket, isOpen, isSent⟩
          · exact Or.inl lost.goOn
          · refine Or.inr ⟨{ socket with sent := socket.sent ++ [world.page.promises.length] }, ?_,
              List.mem_append_left _ isSent⟩
            simp [Page.send, Option.mem_def.mp isOpen]
        · obtain ⟨socket, wasOpen⟩ := Option.isSome_iff_exists.mp isOpen
          refine Or.inr ⟨{ socket with sent := socket.sent ++ [world.page.promises.length] }, ?_,
            List.mem_append_right _ (List.mem_singleton_self _)⟩
          simp [Page.send, wasOpen]
  | read socket index promise server isOpen =>
      refine stranded.of_same (by simp) (fun _ => Iff.rfl) fun index => ?_
      simp [isOpen]
  | received socket thread message isOpen found comes =>
      have awaits := wired.awaits_onMessage talking isOpen found comes
      refine ⟨fun index lost => ?_, fun index waits => ?_⟩
      · rcases lost.append with earlier | ⟨closes, _⟩
        · obtain ⟨waits, unsent⟩ := stranded.lost index earlier
          refine ⟨(awaits index).2 waits (unsent socket isOpen), fun other isOther => ?_⟩
          cases isOther
          exact unsent socket isOpen
        · cases closes
      · rcases stranded.waiting index ((awaits index).1 waits) with lost | ⟨other, wasOpen, isSent⟩
        · exact Or.inl lost.goOn
        · cases isOpen.symm.trans wasOpen
          exact Or.inr ⟨_, rfl, isSent⟩
  | closed =>
      refine ⟨fun index lost => ?_, fun index waits => ?_⟩
      · rcases lost.append with earlier | ⟨_, waits⟩
        · exact ⟨(stranded.lost index earlier).1, fun socket isOpen => by cases isOpen⟩
        · exact ⟨waits, fun socket isOpen => by cases isOpen⟩
      · exact Or.inl ⟨_, List.mem_append_right _ (List.mem_singleton_self _), rfl, waits⟩

/-- The page's socket is open, and nothing is on its way on it in either direction. -/
structure World.Quiet (world : World) (socket : Socket) (thread : Thread) : Prop where
  isOpen : world.page.socket = some socket
  found : world.server.threads[socket.thread]? = some thread
  read : socket.read = socket.sent.length
  serves : thread.task = .serve
  received : socket.received = thread.inbox.length

/-- Where nothing is on its way, everything that was sent on the socket is answered. -/
theorem Wired.quiet {past : List ServerEntry} (wired : Wired past world)
    (talking : Talking past world.server) {socket : Socket} {thread : Thread}
    (quiet : world.Quiet socket thread) {index : Nat} (member : index ∈ socket.sent) :
    world.page.Has index := by
  have linked := wired.linked socket quiet.isOpen
  obtain ⟨_, isThread, attended⟩ := linked.thread
  obtain rfl := Option.some.inj (quiet.found.symm.trans isThread)
  have client : thread.registered = true := by
    have attends := attended.attends
    unfold Thread.Attends at attends
    rw [quiet.serves] at attends
    exact attends
  have talks := talking.talks socket.thread
  rw [quiet.found] at talks
  have conversed := (talks.conversing client).conversed (by rw [quiet.serves]; trivial)
  have answers : thread.answersIn socket.received = thread.answers := by
    unfold Thread.answersIn Thread.answers
    rw [quiet.received, List.take_length]
  have answered := congrArg List.length conversed.requestIds
  have asked := congrArg List.length linked.asked
  simp only [List.length_map, List.length_take] at answered asked
  refine attended.answered index ?_
  rw [answers, List.take_of_length_le (by have := quiet.read; omega)]
  exact member

/--
A promise that waits when the page's socket closes waits for ever, on whatever
sockets the page opens afterwards; and once a socket is open and nothing is on
its way on it any more, no other promise waits.
-/
theorem waits_iff_lost (sound : start.server.engine.book.Sound)
    (nobody : start.server.threads = []) (free : start.server.held = none)
    (blank : start.page.Blank) (run : WorldRun host start log world) (index : Nat) :
    (Lost log index → world.page.Awaits index) ∧
      ∀ socket thread, world.Quiet socket thread → (world.page.Awaits index ↔ Lost log index) := by
  have stranded : Stranded log world := by
    refine run.invariant (fun log world => Stranded log world) ⟨?_, ?_⟩ ?_
    · rintro index ⟨entry, member, _⟩
      cases member
    · intro index waits
      have bound := waits.bound
      rw [blank.promises] at bound
      cases bound
    · intro log world event reply next past stranded _ steps
      exact stranded.step (wired_of_worldRun sound nobody free blank past)
        (talking_of_serverRun sound nobody free (serverRun_of_worldRun past))
        (worldMoves_of_step steps)
  refine ⟨fun lost => (stranded.lost index lost).1, fun socket thread quiet => ⟨fun waits => ?_,
    fun lost => (stranded.lost index lost).1⟩⟩
  rcases stranded.waiting index waits with lost | ⟨other, isOpen, isSent⟩
  · exact lost
  · cases quiet.isOpen.symm.trans isOpen
    obtain ⟨promise, answer, isPromise, resolved⟩ :=
      (wired_of_worldRun sound nobody free blank run).quiet
        (talking_of_serverRun sound nobody free (serverRun_of_worldRun run)) quiet isSent
    obtain ⟨other, isOther, pending⟩ := waits
    cases isPromise.symm.trans isOther
    rw [pending] at resolved
    cases resolved

/-- The page sends another offer, loses its socket before the server reads it, and comes back. -/
theorem waits_iff_lost_sample :
    ∃ log world socket thread, WorldRun (Host.exact (·)) { server := seededServer } log world ∧
      world.Quiet socket thread ∧ ¬ Lost log 0 ∧ Lost log 1 := by
  let events := offering ++ [.send (offerTicket false), .close, .connect] ++
    List.replicate 6 (.server (.advance 1 false)) ++ List.replicate 3 .receive
  have run := Run.of_isSome (World.step (Host.exact (·))) Unrepeated { server := seededServer }
    events (by decide)
  have lost := waits_iff_lost seeded_seededServer.sound rfl rfl ⟨rfl, rfl⟩ run
  have quiet : World.Quiet ((drive (World.step (Host.exact (·))) Unrepeated []
      { server := seededServer } events).get (by decide)).2 _ _ :=
    ⟨rfl, (Option.some_get (by decide)).symm, rfl, rfl, rfl⟩
  refine ⟨_, _, _, _, run, quiet, ?_, ((lost 1).2 _ _ quiet).mp ⟨_, rfl, rfl⟩⟩
  intro lostFirst
  obtain ⟨promise, found, pending⟩ := (lost 0).1 lostFirst
  obtain rfl := Option.some.inj (found.symm.trans rfl)
  cases pending

end Runs

end OrderBookSimulator
