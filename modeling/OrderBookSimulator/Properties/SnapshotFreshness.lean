import OrderBookSimulator.Server.Documents
import OrderBookSimulator.Server.Moves

/-!
# What clients see of the book

A client is registered before it is sent its two first documents, each under
`book_mtx`, and gets every broadcast from then on.  So what it was sent last,
together with what the holder of the lock has still to send, is the book.
-/

namespace OrderBookSimulator

open Library MatchingEngine

/-- What the holder of `book_mtx` has still to send. -/
def Server.pending (server : Server) : List Message :=
  match server.held with
  | none => []
  | some held => held.broadcasts

/-! ## One kind of document -/

/-- The tasks before which a connecting client has not been sent its first, or second, document. -/
def Task.waits (second : Bool) : Task → Bool
  | .greet _ | .sendBook => true
  | .sendOrders => second
  | _ => false

/-- The client has been sent both first documents and is still there. -/
def Thread.Connected (thread : Thread) : Prop :=
  thread.registered = true ∧ thread.task.waits true = false

instance (thread : Thread) : Decidable thread.Connected := inferInstanceAs (Decidable (_ ∧ _))

theorem Task.waits_of_waits {task : Task} (ready : task.waits true = false) (second : Bool) :
    task.waits second = false := by
  cases task with
  | greet | sendBook | sendOrders => cases ready
  | connect | register | serve | drawId | submit | checkOwner | withdraw | answer | done => rfl

/-- A kind of document that clients are kept informed by. -/
structure Feed (host : Host) where
  Document : Type
  pick : Message → Option Document
  document : Snapshot → Document
  /-- A connecting client is sent it as the second one. -/
  second : Bool
  ofChange : ∀ snapshot, (Message.ofChange host snapshot).filterMap pick = [document snapshot]
  trade : ∀ trade, pick (.trade trade) = none
  sends : ∀ server thread message task, Thread.Sends host server thread message task →
    task.waits second = false →
    (thread.task.waits second = false ∧ pick message = none) ∨
      (server.held = none ∧ pick message = some (document server.engine.book.snapshot))

def bookFeed (host : Host) : Feed host where
  Document := BookDocument
  pick := Message.book?
  document snapshot := bookDocument host snapshot 20
  second := false
  ofChange _ := rfl
  trade _ := rfl
  sends := by
    intro server thread message task sends ready
    cases sends with
    | greeting => cases ready
    | book task free => exact Or.inr ⟨free, rfl⟩
    | orders task free => exact Or.inl ⟨by rw [task]; rfl, rfl⟩
    | answer answer task client => exact Or.inl ⟨by rw [task]; rfl, rfl⟩

def ordersFeed (host : Host) : Feed host where
  Document := List OrderLine
  pick := Message.orders?
  document := ordersDocument
  second := true
  ofChange _ := rfl
  trade _ := rfl
  sends := by
    intro server thread message task sends ready
    cases sends with
    | greeting => cases ready
    | book task free => cases ready
    | orders task free => exact Or.inr ⟨free, rfl⟩
    | answer answer task client => exact Or.inl ⟨by rw [task]; rfl, rfl⟩

namespace Feed

variable {host : Host} (feed : Feed host)

/-- The last document of the kind among some messages. -/
def last (messages : List Message) : Option feed.Document :=
  (messages.filterMap feed.pick).getLast?

/-- With what is still to be sent, a client is going to know the book. -/
def Informed (server : Server) (thread : Thread) : Prop :=
  thread.registered = true → thread.task.waits feed.second = false →
    feed.last (thread.inbox ++ server.pending) = some (feed.document server.engine.book.snapshot)

variable {feed}

theorem last_append_of_none {messages more : List Message} {message : Message}
    (none : feed.pick message = none) :
    feed.last (messages ++ [message] ++ more) = feed.last (messages ++ more) := by
  simp [last, none]

theorem last_append_of_some {messages : List Message} {message : Message}
    {document : feed.Document} (picked : feed.pick message = some document) :
    feed.last (messages ++ [message]) = some document := by
  simp [last, picked]

/-- After what a call broadcasts, the last document is that of the book the callback saw last. -/
theorem last_append_broadcasts {messages : List Message} {base : Snapshot}
    {engine : MatchingEngine} (known : feed.last messages = some (feed.document base)) :
    feed.last (messages ++ Server.broadcasts host engine) =
      some (feed.document (engine.book.lastSeen base)) := by
  have trades : ∀ trades : List Trade, (trades.map Message.trade).filterMap feed.pick = [] := by
    intro trades
    simp [feed.trade]
  have books : ∀ shown : List Snapshot, (shown.flatMap (Message.ofChange host)).filterMap feed.pick =
      shown.map feed.document := by
    intro shown
    induction shown with
    | nil => rfl
    | cons snapshot rest ih =>
        rw [List.flatMap_cons, List.filterMap_append, feed.ofChange, ih]
        rfl
  unfold last at known ⊢
  rw [Server.broadcasts, List.filterMap_append, List.filterMap_append, trades, books,
    List.append_nil, List.getLast?_append, List.getLast?_map, OrderBook.lastSeen, known]
  cases (engine.book.onChange.getD []).getLast? <;> rfl

theorem Informed.of_thread {server : Server} {thread after : Thread}
    (informed : feed.Informed server thread)
    (registered : after.registered = true → thread.registered = true)
    (inbox : after.inbox = thread.inbox)
    (waits : after.task.waits feed.second = false → thread.task.waits feed.second = false) :
    feed.Informed server after := by
  intro isRegistered ready
  rw [inbox]
  exact informed (registered isRegistered) (waits ready)

theorem Informed.of_server {server next : Server} {thread : Thread}
    (informed : feed.Informed server thread) (pending : next.pending = server.pending)
    (book : next.engine.book.snapshot = server.engine.book.snapshot) :
    feed.Informed next thread := by
  intro registered ready
  rw [pending, book]
  exact informed registered ready

/-- An engine call leaves its broadcasts to be sent, and the last of them is the book it leaves. -/
theorem Informed.of_locked {server next : Server} {thread : Thread} {call : Call} {reply : Reply}
    (informed : feed.Informed server thread) (quiet : server.pending = [])
    (locked : Locked host server call reply next) : feed.Informed next thread := by
  intro registered ready
  have known := informed registered ready
  rw [quiet, List.append_nil] at known
  obtain ⟨holder, requests, held⟩ := locked.held
  have pending : next.pending = Server.broadcasts host next.engine := by
    rw [Server.pending, held]
  have seen := locked.answered.lastSeen rfl
  rw [Server.snapshot_attached] at seen
  rw [pending, last_append_broadcasts known, seen]

section Step

variable {server next : Server} {thread : Thread}

/-- A thread that sends nothing stays as informed as it was. -/
theorem Informed.turns {after : Thread} (informed : feed.Informed server thread)
    (turns : thread.Turns server after) : feed.Informed server after := by
  cases turns with
  | registers reclaimUid task => exact fun _ ready => by cases ready
  | reads msg task =>
      unfold Thread.process
      split
      · exact fun registered => by cases registered
      · exact informed.of_thread id rfl fun _ => by rw [task]; rfl
  | hangsUp task => exact fun registered => by cases registered
  | checks orderId task => exact informed.of_thread id rfl fun _ => by rw [task]; rfl
  | finishes answer task http => exact informed.of_thread id rfl fun _ => by rw [task]; rfl

/-- A thread that sends its client a message keeps it informed, or informs it. -/
theorem Informed.sends {message : Message} {task : Task} (informed : feed.Informed server thread)
    (sends : thread.Sends host server message task) :
    feed.Informed server { thread.send message with task } := by
  intro registered ready
  rcases feed.sends server thread message task sends ready with ⟨was, notPicked⟩ | ⟨free, picked⟩
  · rw [Thread.send, last_append_of_none notPicked]
    exact informed registered was
  · have quiet : server.pending = [] := by rw [Server.pending, free]
    rw [Thread.send, quiet, List.append_nil]
    exact last_append_of_some picked

/-- The call of one thread leaves all threads informed. -/
theorem informed_of_locked {call : Call} {reply : Reply} {index : Nat} {answer : Answer}
    (informed : ∀ thread ∈ server.threads, feed.Informed server thread)
    (quiet : server.pending = []) (locked : Locked host server call reply next)
    (found : server.threads[index]? = some thread)
    (ready : thread.task.waits feed.second = false) :
    ∀ other ∈ (next.setThread index { thread with task := .answer answer }).threads,
      feed.Informed (next.setThread index { thread with task := .answer answer }) other := by
  have all : ∀ other ∈ next.threads, feed.Informed next other := by
    rw [locked.threads]
    exact fun other member => (informed other member).of_locked quiet locked
  have answers : feed.Informed server { thread with task := .answer answer } :=
    (informed thread (List.mem_of_getElem? found)).of_thread id rfl fun _ => ready
  exact fun other member =>
    (Server.forall_setThread all (answers.of_locked quiet locked) other member).of_server rfl rfl

/-- A broadcast moves a message from what is to be sent to what has been sent. -/
theorem Informed.receives {held : Held} {message : Message} {rest : List Message}
    (informed : feed.Informed server thread) (holds : server.held = some held)
    (sends : held.broadcasts = message :: rest)
    (nextHeld : next.held = some { held with broadcasts := rest })
    (sameEngine : next.engine = server.engine) : feed.Informed next (thread.receive message) := by
  intro registered ready
  have isRegistered : thread.registered = true := by
    unfold Thread.receive at registered
    split at registered <;> assumption
  rw [Thread.receive, if_pos isRegistered] at ready ⊢
  have known := informed isRegistered ready
  rw [Server.pending, holds] at known
  dsimp only at known
  rw [sends] at known
  rw [Server.pending, nextHeld, sameEngine, Thread.send, List.append_assoc]
  exact known

theorem Informed.step {action : Action} (sound : server.engine.book.Sound)
    (moves : Moves host server action next)
    (informed : ∀ thread ∈ server.threads, feed.Informed server thread) :
    ∀ thread ∈ next.threads, feed.Informed next thread := by
  have atIndex : ∀ {index : Nat} {thread : Thread}, server.threads[index]? = some thread →
      feed.Informed server thread := fun found => informed _ (List.mem_of_getElem? found)
  -- where neither the book nor what is to be sent changes, one thread is replaced by another
  have replaced : ∀ {index : Nat} {after : Thread}, feed.Informed server after →
      ∀ other ∈ (server.setThread index after).threads, feed.Informed server other :=
    fun informs => Server.forall_setThread informed informs
  cases moves with
  | opened thread arrives =>
      intro other member
      rcases List.mem_append.mp member with old | new
      · exact (informed other old).of_server rfl rfl
      · cases List.mem_singleton.mp new
        intro registered
        rw [arrives.registered] at registered
        cases registered
  | connected index spurious thread reclaimUid stage found task =>
      intro other member
      refine (replaced ?_ other member).of_server rfl rfl
      exact (atIndex found).of_thread (by simp) (by simp) fun _ => by rw [task]; rfl
  | turned index thread after found turns =>
      exact fun other member =>
        (replaced ((atIndex found).turns turns) other member).of_server rfl rfl
  | sent index thread message task found sends =>
      exact fun other member =>
        (replaced ((atIndex found).sends sends) other member).of_server rfl rfl
  | drew index spurious thread request found task =>
      intro other member
      refine (replaced ?_ other member).of_server rfl rfl
      exact (atIndex found).of_thread id rfl fun _ => by rw [task]; rfl
  | submitted index spurious thread order found task free =>
      have locked : Locked host server (.processOrder order) _ _ :=
        locked_processOrder sound (some index) [] order
      exact informed_of_locked informed (by simp [Server.pending, free]) locked found
        (by rw [task]; rfl)
  | withdrew index spurious thread orderId withdrawn ok found task free cancels =>
      exact informed_of_locked informed (by simp [Server.pending, free])
        (locked_cancelOrder sound cancels) found (by rw [task]; rfl)
  | ticked requests free =>
      exact fun other member =>
        (informed other member).of_server (by simp [Server.pending, free]) rfl
  | tickOrdered holder request rest held =>
      intro other member
      have drawn : feed.Informed server.drawn other := (informed other member).of_server rfl rfl
      exact drawn.of_locked (by simp [Server.pending, Server.drawn, held])
        (locked_processOrder (Server.sound_drawn sound) holder rest _)
  | calledBack held call rest holds calls =>
      exact fun other member =>
        (informed other member).of_server (by simp [Server.pending, holds]) rfl
  | broadcast held message rest holds sends =>
      intro other member
      obtain ⟨thread, inThreads, rfl⟩ := List.mem_map.mp member
      exact (informed thread inThreads).receives holds sends rfl rfl
  | unlocked holder held =>
      exact fun other member =>
        (informed other member).of_server (by simp [Server.pending, held]) rfl

variable (feed) in
/-- In every run, every client is informed. -/
theorem informed_of_serverRun {start : Server} {log : List ServerEntry}
    (sound : start.engine.book.Sound) (noThreads : start.threads = [])
    (run : ServerRun host start log server) :
    ∀ thread ∈ server.threads, feed.Informed server thread :=
  run.invariant (fun _ server => ∀ thread ∈ server.threads, feed.Informed server thread)
    (by simp [noThreads])
    fun _ _ _ _ _ earlier informed _ steps =>
      Informed.step (sound_of_serverRun sound earlier) (moves_of_step steps) informed

/-- While nothing is to be sent, a connected client has been sent the book. -/
theorem Informed.current (informed : feed.Informed server thread) (free : server.held = none)
    (connected : thread.Connected) :
    feed.last thread.inbox = some (feed.document server.engine.book.snapshot) := by
  have known := informed connected.1 (Task.waits_of_waits connected.2 feed.second)
  rw [Server.pending, free, List.append_nil] at known
  exact known

end Step

end Feed

/-! ## What is sent -/

/-- Everything sent, and everything still to be sent, shows the book as it should be. -/
structure Presentable (server : Server) : Prop where
  sound : server.engine.book.Sound
  uncrossed : server.engine.book.Uncrossed
  sent : ∀ thread ∈ server.threads, ∀ message ∈ thread.inbox, message.Proper
  pending : ∀ message ∈ server.pending, message.Proper

section Sent

variable {now : Nat → Int} {server next : Server}

/-- What an engine call broadcasts is proper, if no level overflows before it or after it. -/
theorem Locked.proper {call : Call} {reply : Reply} (sound : server.engine.book.Sound)
    (uncrossed : server.engine.book.Uncrossed) (fits : server.engine.book.snapshot.TotalsFit)
    (locked : Locked (Host.twosComplement now) server call reply next)
    (entered : ∀ order, call ≠ .addRestingOrder order)
    (fitsNext : next.engine.book.snapshot.TotalsFit) :
    next.engine.book.Uncrossed ∧ ∀ message ∈ next.pending, message.Proper := by
  have soundAttached := Server.sound_attached sound
  have after := locked.answered.uncrossed entered soundAttached uncrossed
  have soundNext := locked.answered.sound soundAttached
  have shown : next.engine.book.Observed Snapshot.Showable := by
    refine locked.answered.observed entered (by simp [OrderBook.Observed, Server.attached,
      OrderBook.setOnChange]) ?_ (OrderBook.showable soundNext after fitsNext)
    intro order swept
    refine OrderBook.showable swept.sound (swept.uncrossed uncrossed) ?_
    refine OrderBook.totalsFit_iff.mpr fun side price => ?_
    exact Int.le_trans (levelQty_callSweep_le soundAttached order side price)
      (OrderBook.totalsFit_iff.mp fits side price)
  refine ⟨after, fun message member => ?_⟩
  obtain ⟨thread, requests, held⟩ := locked.held
  rw [Server.pending, held] at member
  rcases List.mem_append.mp member with change | trade
  · obtain ⟨snapshot, inShown, ofChange⟩ := List.mem_flatMap.mp change
    exact proper_of_mem_ofChange (shown snapshot inShown) ofChange
  · obtain ⟨trade, _, rfl⟩ := List.mem_map.mp trade
    exact trivial

theorem Thread.Sends.proper {thread : Thread} {message : Message} {task : Task}
    (sends : thread.Sends (Host.twosComplement now) server message task)
    (showable : server.engine.book.snapshot.Showable) : message.Proper := by
  cases sends with
  | greeting | answer => exact trivial
  | book => exact bookDocument_proper showable 20
  | orders => exact ordersDocument_proper showable

theorem Presentable.step {action : Action} (presentable : Presentable server)
    (fits : server.engine.book.snapshot.TotalsFit)
    (moves : Moves (Host.twosComplement now) server action next)
    (fitsNext : next.engine.book.snapshot.TotalsFit) : Presentable next := by
  obtain ⟨sound, uncrossed, sent, pending⟩ := presentable
  have soundNext := moves.sound sound
  have atIndex : ∀ {index : Nat} {thread : Thread}, server.threads[index]? = some thread →
      ∀ message ∈ thread.inbox, message.Proper := fun found => sent _ (List.mem_of_getElem? found)
  cases moves with
  | opened thread arrives =>
      refine ⟨sound, uncrossed, ?_, pending⟩
      intro other member
      rcases List.mem_append.mp member with old | new
      · exact sent other old
      · cases List.mem_singleton.mp new
        rw [arrives.inbox]
        exact fun _ none => by cases none
  | connected index spurious thread reclaimUid stage found task =>
      exact ⟨sound, uncrossed, Server.forall_setThread sent (by simpa using atIndex found), pending⟩
  | turned index thread after found turns =>
      refine ⟨sound, uncrossed, Server.forall_setThread sent ?_, pending⟩
      rw [turns.inbox]
      exact atIndex found
  | sent index thread message task found sends =>
      refine ⟨sound, uncrossed, Server.forall_setThread sent ?_, pending⟩
      intro other member
      rcases List.mem_append.mp member with old | new
      · exact atIndex found other old
      · cases List.mem_singleton.mp new
        exact sends.proper (OrderBook.showable sound uncrossed fits)
  | drew index spurious thread request found task =>
      exact ⟨sound, uncrossed, Server.forall_setThread sent fun message member =>
        atIndex found message member, pending⟩
  | submitted index spurious thread order found task free =>
      obtain ⟨after, proper⟩ := (locked_processOrder sound (some index) [] order).proper sound
        uncrossed fits (fun _ same => by cases same) fitsNext
      exact ⟨soundNext, after, Server.forall_setThread sent fun message member =>
        atIndex found message member, proper⟩
  | withdrew index spurious thread orderId withdrawn ok found task free cancels =>
      have locked := locked_cancelOrder sound cancels
      obtain ⟨after, proper⟩ := locked.proper sound uncrossed fits (fun _ same => by cases same)
        fitsNext
      have kept : ∀ other ∈ withdrawn.threads, ∀ message ∈ other.inbox, message.Proper := by
        rw [locked.threads]
        exact sent
      exact ⟨soundNext, after, Server.forall_setThread kept fun message member =>
        atIndex found message member, proper⟩
  | ticked requests free => exact ⟨sound, uncrossed, sent, fun _ none => by cases none⟩
  | tickOrdered holder request rest held =>
      obtain ⟨after, proper⟩ := (locked_processOrder (Server.sound_drawn sound) holder rest
        (request.order server.engine.nextId 0)).proper (Server.sound_drawn sound) uncrossed fits
        (fun _ same => by cases same) fitsNext
      exact ⟨soundNext, after, sent, proper⟩
  | calledBack held call rest holds calls =>
      refine ⟨sound, uncrossed, sent, ?_⟩
      rw [Server.pending, holds] at pending
      exact pending
  | broadcast held message rest holds sends =>
      rw [Server.pending, holds] at pending
      dsimp only at pending
      rw [sends] at pending
      refine ⟨sound, uncrossed, ?_, fun other member => pending other (.tail _ member)⟩
      intro receiver member
      obtain ⟨thread, inThreads, rfl⟩ := List.mem_map.mp member
      unfold Thread.receive
      split
      · intro other inInbox
        rcases List.mem_append.mp inInbox with old | new
        · exact sent thread inThreads other old
        · cases List.mem_singleton.mp new
          exact pending message (.head _)
      · exact sent thread inThreads
  | unlocked holder held => exact ⟨sound, uncrossed, sent, fun _ none => by cases none⟩

end Sent

theorem presentable_of_serverRun {now : Nat → Int} {start state : Server} {log : List ServerEntry}
    (presentable : Presentable start) (fitsAtStart : start.engine.book.snapshot.TotalsFit)
    (run : ServerRun (Host.twosComplement now) start log state)
    (fits : ∀ entry ∈ log, entry.after.engine.book.snapshot.TotalsFit) :
    Presentable state ∧ state.engine.book.snapshot.TotalsFit := by
  revert fits
  refine run.invariant (fun log state =>
    (∀ entry ∈ log, entry.after.engine.book.snapshot.TotalsFit) →
      Presentable state ∧ state.engine.book.snapshot.TotalsFit)
    (fun _ => ⟨presentable, fitsAtStart⟩) ?_
  intro log state action reply next _ soFar _ steps fits
  rw [List.forall_mem_append, List.forall_mem_singleton] at fits
  obtain ⟨held, fitsNow⟩ := soFar fits.1
  exact ⟨held.step fitsNow (moves_of_step steps) fits.2, fits.2⟩

/--
From an uncrossed book with no client connected: whenever `book_mtx` is free,
what a connected client was sent last is the book; and as long as the quantity
of each price level fits a `long long`, all that is sent shows it as it should be.
-/
theorem snapshots_fresh_and_proper {now : Nat → Int} {start state : Server}
    {log : List ServerEntry} (sound : start.engine.book.Sound)
    (uncrossed : ∀ bid ∈ start.engine.book.bestBid, ∀ ask ∈ start.engine.book.bestAsk, bid < ask)
    (noThreads : start.threads = []) (free : start.held = none)
    (run : ServerRun (Host.twosComplement now) start log state) :
    (state.held = none → ∀ thread ∈ state.threads, thread.Connected →
      (lastBook thread.inbox).map (·.json) =
          some (serializeBookJson (Host.twosComplement now) state.engine.book.snapshot) ∧
        (lastOrders thread.inbox).map ordersJson =
          some (serializeOrdersJson state.engine.book.snapshot)) ∧
      (start.engine.book.snapshot.TotalsFit →
        (∀ entry ∈ log, entry.after.engine.book.snapshot.TotalsFit) →
        ∀ thread ∈ state.threads, ∀ message ∈ thread.inbox, message.Proper) := by
  constructor
  · intro freeNow thread member connected
    have book := (bookFeed _).informed_of_serverRun sound noThreads run thread member
    have orders := (ordersFeed _).informed_of_serverRun sound noThreads run thread member
    exact ⟨congrArg (Option.map BookDocument.json) (book.current freeNow connected),
      congrArg (Option.map ordersJson) (orders.current freeNow connected)⟩
  · intro fitsAtStart fits
    have presentable : Presentable start := {
      sound
      uncrossed := (OrderBook.uncrossed_iff sound).mpr uncrossed
      sent := by simp [noThreads]
      pending := by simp [Server.pending, free] }
    exact (presentable_of_serverRun presentable fitsAtStart run fits).1.sent

/-- A client that is registered while an order is being broadcast, and then trades. -/
theorem snapshots_fresh_and_proper_sample :
    ∃ log state, ServerRun (Host.twosComplement (·)) {} log state ∧ state.held = none ∧
      ∃ thread ∈ state.threads, thread.Connected ∧ thread.inbox.length = 9 ∧
        (lastBook thread.inbox).map (·.json) =
          some (serializeBookJson (Host.twosComplement (·)) state.engine.book.snapshot) ∧
        (lastOrders thread.inbox).map ordersJson =
          some (serializeOrdersJson state.engine.book.snapshot) ∧
        ∀ message ∈ thread.inbox, message.Proper := by
  have run := Run.of_isSome (Server.step (Host.twosComplement (·))) (fun _ _ => True) {}
    [.dial 0, .advance 0 false, .advance 0 false,
      .postOrder "\x7b\"side\":\"SELL\",\"qty\":5,\"price\":100\x7d".toList,
      .advance 1 false, .advance 1 false, .advance 0 false, .broadcast, .broadcast, .callback,
      .unlock, .advance 0 false, .advance 0 false, .advance 0 false,
      .message 0
        "\x7b\"action\":\"order\",\"side\":\"BUY\",\"qty\":2,\"price\":100\x7d".toList,
      .advance 0 false, .advance 0 false, .callback, .broadcast, .broadcast, .broadcast, .unlock,
      .advance 0 false] (by decide)
  obtain ⟨fresh, proper⟩ :=
    snapshots_fresh_and_proper (OrderBook.sound_empty none) (by decide) rfl rfl run
  refine ⟨_, _, run, rfl, _, List.head_mem (by decide), ?_⟩
  have known := fresh rfl _ (List.head_mem (by decide))
  obtain ⟨book, orders⟩ := known (by decide)
  exact ⟨by decide, by decide, book, orders,
    proper (by decide) (by decide) _ (List.head_mem (by decide))⟩

/-- Two orders of the largest quantity at one price are shown as a level of quantity -2. -/
theorem negative_level_shown :
    ∃ log state, ServerRun (Host.twosComplement (·)) {} log state ∧ state.held = none ∧
      ∃ thread ∈ state.threads, thread.Connected ∧
        lastBook thread.inbox = some ⟨[⟨1, -2, [longLongMax, longLongMax]⟩], []⟩ ∧
        ∃ message ∈ thread.inbox, ¬ message.Proper := by
  have run := Run.of_isSome (Server.step (Host.twosComplement (·))) (fun _ _ => True) {}
    [.dial 0, .advance 0 false, .advance 0 false, .advance 0 false, .advance 0 false,
      .advance 0 false, .advance 0 false,
      .postOrder
        "\x7b\"side\":\"BUY\",\"qty\":9223372036854775807,\"price\":1\x7d".toList,
      .advance 1 false, .advance 1 false, .callback, .broadcast, .broadcast, .unlock,
      .postOrder
        "\x7b\"side\":\"BUY\",\"qty\":9223372036854775807,\"price\":1\x7d".toList,
      .advance 2 false, .advance 2 false, .callback, .broadcast, .broadcast, .unlock] (by decide)
  refine ⟨_, _, run, rfl, _, List.head_mem (by decide), ?_⟩
  refine ⟨by decide, by decide, .bookSnapshot ⟨[⟨1, -2, [longLongMax, longLongMax]⟩], []⟩,
    by decide, ?_⟩
  intro proper
  have positive := (proper.bids _ (.head _)).qty_pos
  exact absurd positive (by decide)

end OrderBookSimulator
