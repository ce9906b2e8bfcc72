import OrderBookSimulator.Engine.Alike
import OrderBookSimulator.Journal.JournalSinks
import OrderBookSimulator.Properties.ClientIsolation
import OrderBookSimulator.Properties.Recovery

/-!
# Recovering the book of the server

`orders.jsonl` is appended to by one run of the server after another, and each
run starts from a freshly seeded book.  At any moment the bytes of the file and
the orders the book was seeded with give the book back, with every queue in
its order.
-/

namespace OrderBookSimulator

open Library Json MatchingEngine

/-- The events that stand in a journal, line by line. -/
def readJournal (file : Text) : Option (List OrderEvent) :=
  (getLines file).mapM fun line => (decode line).bind OrderEvent.read

/-- What the runs of a server journalled is read back. -/
theorem readJournal_journalFile (runs : List (List OrderEvent)) :
    readJournal (journalFile JournalOrderSink.onOrderEvent runs) = some runs.flatten := by
  have reads : ∀ event : OrderEvent,
      (decode event.value.written).bind OrderEvent.read = some event := fun event =>
    (decodes_written rfl (OrderEvent.read_value event)).bind_decode
  rw [readJournal, getLines_journalFile JournalOrderSink.onOrderEvent_eq]
  induction runs.flatten with
  | nil => rfl
  | cons event rest ih =>
      rw [List.map_cons, List.mapM_cons, reads, ih]
      rfl

/-! ## Market orders have no price -/

/-- A market order is requested without a price. -/
def OrderRequest.Journalled (request : OrderRequest) : Prop :=
  request.type = .market → request.price ≤ 0

instance OrderRequest.decidableJournalled (request : OrderRequest) : Decidable request.Journalled :=
  inferInstanceAs (Decidable (_ → _))

theorem journalled_of_parseOrderJson {body : Text} {request : OrderRequest}
    (parsed : parseOrderJson body = .ok (some request)) : request.Journalled := by
  unfold parseOrderJson at parsed
  split at parsed
  · cases parsed
  · split at parsed
    · cases parsed
    · cases parsed
    · dsimp only at parsed
      split at parsed
      · cases parsed
      · split at parsed
        · cases parsed
        · split at parsed
          · cases parsed
            exact fun _ => Int.le_refl 0
          · split at parsed
            · split at parsed
              · cases parsed
              · cases parsed
              · split at parsed
                · cases parsed
                · cases parsed
                  exact fun market => by cases market
            · cases parsed

/-- The order a thread is about to submit, or will make of its request. -/
def Task.Journalled : Task → Prop
  | .drawId request => request.Journalled
  | .submit order => order.Journalled
  | _ => True

/-- No market order on its way to the engine carries a price. -/
structure Server.Journalled (server : Server) : Prop where
  threads : ∀ thread ∈ server.threads, thread.task.Journalled
  requests : ∀ request ∈ server.held.elim [] (·.requests), request.Journalled

/-- The market orders of a bot carry no price. -/
def Action.Journalled : Action → Prop
  | .tick requests => ∀ request ∈ requests, request.Journalled
  | _ => True

instance Action.decidableJournalled : (action : Action) → Decidable action.Journalled
  | .tick requests => inferInstanceAs (Decidable (∀ request ∈ requests, request.Journalled))
  | .postConnect | .postOrder _ | .postCancel _ | .dial _ | .message _ _ | .hangUp _
  | .advance _ _ | .tickOrder | .callback | .broadcast | .unlock => instDecidableTrue

theorem journalled_of_processMessage {msg : Text} {task : Task}
    (processed : processMessage msg = .ok task) : task.Journalled := by
  unfold processMessage at processed
  dsimp only at processed
  split at processed
  · split at processed
    · cases processed
    · cases processed
      trivial
    · rename_i request parsed
      cases processed
      exact journalled_of_parseOrderJson parsed
  · split at processed
    · split at processed <;> cases processed <;> trivial
    · cases processed
      trivial

theorem journalled_postOrder (body : Text) : (postOrder body).task.Journalled := by
  unfold postOrder
  split
  · trivial
  · trivial
  · rename_i request parsed
    split
    · trivial
    · exact journalled_of_parseOrderJson parsed

theorem journalled_postCancel (body : Text) : (postCancel body).task.Journalled := by
  unfold postCancel
  split
  · trivial
  · trivial
  · split
    · trivial
    · split <;> trivial

section Step

variable {host : Host} {server next : Server}

theorem journalled_connecting (thread : Thread) (reclaimUid : Option Int) (stage : Connecting) :
    (thread.connecting reclaimUid stage).task.Journalled := by
  unfold Thread.connecting
  split <;> trivial

theorem journalled_of_advance {index : Nat} {spurious : Bool} {thread : Thread}
    (journalled : thread.task.Journalled)
    (advances : server.advance host index spurious thread = .ok next) :
    ∃ after : Thread, next.threads = server.threads.set index after ∧ after.task.Journalled ∧
      (next.held = server.held ∨ next.held.elim [] (·.requests) = []) := by
  unfold Server.advance at advances
  split at advances
  · cases advances
    exact ⟨_, rfl, journalled_connecting _ _ _, .inl rfl⟩
  · cases advances
    exact ⟨_, rfl, trivial, .inl rfl⟩
  · cases advances
    exact ⟨_, rfl, trivial, .inl rfl⟩
  · split at advances
    · cases advances
    · cases advances
      exact ⟨_, rfl, trivial, .inl rfl⟩
  · split at advances
    · cases advances
    · cases advances
      exact ⟨_, rfl, trivial, .inl rfl⟩
  · rename_i request task
    cases advances
    rw [task] at journalled
    exact ⟨_, rfl, journalled, .inl rfl⟩
  · split at advances
    · cases advances
    · cases advances
      exact ⟨_, rfl, trivial, .inr rfl⟩
  · cases advances
    refine ⟨_, rfl, ?_, .inl rfl⟩
    dsimp only
    split <;> trivial
  · rename_i orderId task
    split at advances
    · cases advances
    · unfold Server.cancelOrder at advances
      cases answer : server.attached.cancelOrder host orderId with
      | error fault =>
          rw [answer] at advances
          cases advances
      | ok result =>
          rw [answer] at advances
          cases advances
          exact ⟨_, rfl, trivial, .inr rfl⟩
  · split at advances
    · cases advances
    · split at advances
      · cases advances
        exact ⟨_, rfl, trivial, .inl rfl⟩
      · cases advances
        exact ⟨_, rfl, trivial, .inl rfl⟩
  · cases advances
  · cases advances

/-- Requests are read without a price for market orders, and keep it so. -/
theorem Server.Journalled.step {action : Action} {reply : Unit} (journalled : server.Journalled)
    (ticks : action.Journalled) (steps : server.step host action = .ok (next, reply)) :
    next.Journalled := by
  have set : ∀ {threads : List Thread} {index : Nat} {after : Thread},
      threads = server.threads.set index after → after.task.Journalled →
        ∀ thread ∈ threads, thread.task.Journalled := by
    rintro threads index after rfl holds thread member
    rcases List.mem_or_eq_of_mem_set member with old | rfl
    · exact journalled.threads thread old
    · exact holds
  have opens : ∀ {thread : Thread}, thread.task.Journalled → (server.opened thread).Journalled :=
    fun holds => ⟨fun other member => by
      rcases List.mem_append.mp member with old | new
      · exact journalled.threads other old
      · rw [List.mem_singleton.mp new]
        exact holds, journalled.requests⟩
  cases action with
  | postConnect =>
      cases steps
      exact opens trivial
  | postOrder body =>
      cases steps
      exact opens (journalled_postOrder body)
  | postCancel body =>
      cases steps
      exact opens (journalled_postCancel body)
  | dial reclaimUid =>
      cases steps
      exact opens trivial
  | message index msg =>
      simp only [Server.step] at steps
      split at steps
      · cases steps
      · rename_i thread found
        split at steps
        · cases steps
          refine ⟨set rfl ?_, journalled.requests⟩
          unfold Thread.process
          split
          · trivial
          · rename_i processed
            exact journalled_of_processMessage processed
        · cases steps
  | hangUp index =>
      simp only [Server.step] at steps
      split at steps
      · cases steps
      · split at steps
        · cases steps
          exact ⟨set rfl trivial, journalled.requests⟩
        · cases steps
  | advance index spurious =>
      simp only [Server.step] at steps
      split at steps
      · cases steps
      · rename_i thread found
        split at steps
        · cases steps
        · rename_i advances
          cases steps
          obtain ⟨after, threads, holds, held⟩ :=
            journalled_of_advance (journalled.threads thread (List.mem_of_getElem? found)) advances
          refine ⟨set threads holds, ?_⟩
          rcases held with same | none
          · rw [same]
            exact journalled.requests
          · rw [none]
            exact fun request member => by cases member
  | tick requests =>
      simp only [Server.step] at steps
      split at steps
      · cases steps
      · cases steps
        exact ⟨journalled.threads, ticks⟩
  | tickOrder =>
      simp only [Server.step] at steps
      split at steps
      · rename_i thread request rest held
        cases steps
        have requests := journalled.requests
        rw [held] at requests
        exact ⟨journalled.threads, fun other member => requests other (.tail _ member)⟩
      · cases steps
  | callback =>
      simp only [Server.step] at steps
      split at steps
      · rename_i held
        cases steps
        have requests := journalled.requests
        rw [held] at requests
        exact ⟨journalled.threads, requests⟩
      · cases steps
  | broadcast =>
      simp only [Server.step] at steps
      split at steps
      · rename_i held
        cases steps
        have requests := journalled.requests
        rw [held] at requests
        refine ⟨fun thread member => ?_, requests⟩
        obtain ⟨other, there, rfl⟩ := List.mem_map.mp member
        rw [Thread.task_receive]
        exact journalled.threads other there
      · cases steps
  | unlock =>
      simp only [Server.step] at steps
      split at steps
      · cases steps
        exact ⟨journalled.threads, fun request member => by cases member⟩
      · cases steps

/-! ## The journal and the book -/

theorem Mirrors.setOnChange {orders : List Order} {book : OrderBook}
    (mirrors : Mirrors orders book) : Mirrors orders book.setOnChange where
  sound := mirrors.sound.setOnChange
  level_eq := by
    intro side price
    rw [← mirrors.level_eq]
    unfold OrderBook.level
    rw [OrderBook.levels_setOnChange]

/-- Attaching sinks and callback changes neither book nor journal. -/
theorem recoversBook_attached {seed : List Order} (recovers : RecoversBook seed server.engine) :
    RecoversBook seed server.attached := by
  obtain ⟨events, orders, recovered, mirrors⟩ := recovers
  exact ⟨events, orders, recovered.congr rfl rfl, mirrors.setOnChange⟩

theorem recoversBook_drawn {seed : List Order} (recovers : RecoversBook seed server.engine) :
    RecoversBook seed server.drawn.engine := by
  obtain ⟨events, orders, recovered, mirrors⟩ := recovers
  exact ⟨events, orders, recovered.congr rfl rfl, mirrors⟩

/-- Whatever is done next, the journal goes on telling of the book. -/
theorem Moves.recoversBook {action : Action} {seed : List Order}
    (moves : Moves host server action next) (owned : Owned server)
    (journalled : server.Journalled) (recovers : RecoversBook seed server.engine) :
    RecoversBook seed next.engine := by
  cases moves with
  | opened | connected | turned | sent | ticked | calledBack | broadcast | unlocked =>
      exact recovers
  | drew => exact recoversBook_drawn recovers
  | submitted index spurious thread order found task =>
      have member := List.mem_of_getElem? found
      have cleared := (owned.threads thread member).submits order task
      have priced := journalled.threads thread member
      rw [task] at priced
      refine (recoversBook_attached recovers).answered
        (locked_processOrder owned.sound (some index) [] order).answered (by simp) ?_
      rintro _ ⟨rfl⟩
      exact ⟨priced, cleared.2.1.1⟩
  | withdrew index spurious thread orderId withdrawn ok found task free cancels =>
      exact (recoversBook_attached recovers).answered
        (locked_cancelOrder owned.sound cancels).answered (by simp) (by simp)
  | tickOrdered thread request rest held =>
      have priced : request.Journalled := by
        refine journalled.requests request ?_
        rw [held]
        exact .head _
      have unused := owned.unused server.engine.nextId (Int.le_refl _)
      refine (recoversBook_attached (recoversBook_drawn recovers)).answered
        (locked_processOrder (Server.sound_drawn owned.sound) thread rest _).answered (by simp) ?_
      rintro _ ⟨rfl⟩
      exact ⟨priced, unused.1⟩

end Step

/-! ## Runs -/

section Runs

variable {host : Host} {start state : Server} {log : List ServerEntry}

theorem recoversBook_of_serverRun (seeded : start.Seeded) (free : start.held = none)
    (sink : start.engine.orderSink = some []) (first : start.engine.eventSeq = 1)
    (run : ServerRun host start log state) (ticks : ∀ entry ∈ log, entry.call.Journalled) :
    RecoversBook start.engine.book.resting state.engine ∧ state.Journalled := by
  induction run with
  | nil =>
      refine ⟨⟨[], _, ⟨sink, rfl, trivial, first⟩, seeded.sound.mirrors⟩, ⟨?_, ?_⟩⟩
      · rw [seeded.noThreads]
        exact fun thread member => by cases member
      · rw [free]
        exact fun request member => by cases member
  | snoc past _ steps ih =>
      rw [List.forall_mem_append, List.forall_mem_singleton] at ticks
      obtain ⟨recovers, journalled⟩ := ih ticks.1
      exact ⟨(moves_of_step steps).recoversBook (owned_of_serverRun seeded past) journalled recovers,
        journalled.step ticks.2 steps⟩

/--
In every run of the server from a seeded book, whenever nobody holds `book_mtx`:
what the file of the order journal holds, after any number of earlier runs and
this one, is read back line by line; and from what is read and the orders this
run was seeded with, every level of the live book is recovered, best price first
and each queue in order of arrival.  Only a file in which this run has not
written anything yet tells of an earlier run.  While a call holds the mutex, the
source may owe the file the last event of the order that came in.
-/
theorem journal_recovers_book (seeded : start.Seeded) (free : start.held = none)
    (sink : start.engine.orderSink = some []) (first : start.engine.eventSeq = 1)
    (run : ServerRun host start log state) (ticks : ∀ entry ∈ log, entry.call.Journalled)
    (_unlocked : state.held = none) :
    ∃ events, state.engine.orderSink = some events ∧
      ∀ earlier : List (List OrderEvent), earlier.flatten = [] ∨ events ≠ [] →
        ∃ orders, (readJournal (journalFile JournalOrderSink.onOrderEvent (earlier ++ [events]))).map
            (recover start.engine.book.resting) = some orders ∧
          ∀ side, state.engine.book.shown side = Reference.levels orders side := by
  obtain ⟨⟨events, orders, recovered, mirrors⟩, _⟩ :=
    recoversBook_of_serverRun seeded free sink first run ticks
  refine ⟨events, recovered.sink, fun earlier wrote => ⟨orders, ?_, mirrors.shown⟩⟩
  rw [readJournal_journalFile, Option.map_some, List.flatten_append, List.flatten_singleton,
    ← recovered.recovers]
  rcases wrote with none | some
  · rw [none, List.nil_append]
  · rw [recover_of_lastRun recovered.numbered some]

/-- The server with an order sink. -/
def journallingServer : Server :=
  { seededServer with engine := { seededServer.engine with orderSink := some [] } }

theorem seeded_journallingServer : journallingServer.Seeded :=
  ⟨seeded_seededServer.sound, seeded_seededServer.ids, seeded_seededServer.house, rfl, rfl⟩

/-- A market order takes part of a better offer than the seeded one; the file also holds what an
earlier run wrote. -/
theorem journal_recovers_book_sample :
    ∃ log state events, ServerRun (Host.exact (·)) journallingServer log state ∧
      state.engine.orderSink = some events ∧ events.length = 4 ∧
      ∃ orders, (readJournal (journalFile JournalOrderSink.onOrderEvent
          ([events.drop 2] ++ [events]))).map
            (recover journallingServer.engine.book.resting) = some orders ∧
        ∀ side, state.engine.book.shown side = Reference.levels orders side := by
  have run := Run.of_isSome (Server.step (Host.exact (·))) (fun _ _ => True) journallingServer
    [.postOrder "\x7b\"side\":\"SELL\",\"qty\":5,\"price\":100,\"user_id\":7\x7d".toList,
      .advance 0 false, .advance 0 false, .callback, .broadcast, .broadcast, .unlock,
      .tick [⟨.buy, .market, 0, 3⟩], .tickOrder, .callback, .broadcast, .broadcast,
      .broadcast, .unlock] (by decide)
  obtain ⟨events, sink, recovers⟩ := journal_recovers_book seeded_journallingServer rfl rfl rfl run
    (by decide) (by decide)
  have written : events.length = 4 := by
    have count : Option.map List.length (some events) = some 4 := by
      rw [← sink]
      decide
    exact Option.some.inj count
  exact ⟨_, _, events, run, sink, written, recovers [events.drop 2]
    (.inr (List.ne_nil_of_length_pos (by omega)))⟩

end Runs

end OrderBookSimulator
