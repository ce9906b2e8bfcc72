import OrderBookSimulator.Properties.Linearization

/-!
# The feed of trades

Trades go to the clients in `clients_` one at a time, while clients come and
go.  What a client has heard, with what is still to be sent, is all that was
still to be sent when it was added and every trade made since, in the order of
their numbers.
-/

namespace OrderBookSimulator

open Library

def Message.trade? : Message → Option Trade
  | .trade made => some made
  | _ => none

/-- The trades a client has been sent. -/
def Thread.heard (thread : Thread) : List Trade := thread.inbox.filterMap Message.trade?

/-- The trades that the holder of `book_mtx` has still to send. -/
def Server.unsent (server : Server) : List Trade :=
  (server.held.elim [] (·.broadcasts)).filterMap Message.trade?

/-- What the sink was told in a step that called `process_order`; it is emptied before a call. -/
def ServerEntry.made (entry : ServerEntry) : List Trade :=
  if entry.handed.any (·.call.submitted.isSome) then entry.after.engine.tradeSink.getD [] else []

/-- Every trade of a run. -/
def made (log : List ServerEntry) : List Trade := log.flatMap ServerEntry.made

/-- The step that adds the client to `clients_`. -/
def ServerEntry.Registers (index : Nat) (entry : ServerEntry) : Prop :=
  (∀ thread ∈ entry.before.threads[index]?, thread.registered = false) ∧
    ∀ thread ∈ entry.after.threads[index]?, thread.registered = true

namespace Thread

theorem heard_send (thread : Thread) (message : Message) :
    (thread.send message).heard = thread.heard ++ message.trade?.toList := by
  unfold heard send
  rw [List.filterMap_append]
  cases told : message.trade? <;> simp [told]

theorem heard_receive {thread : Thread} (client : thread.registered = true) (message : Message) :
    (thread.receive message).heard = thread.heard ++ message.trade?.toList := by
  rw [receive, if_pos client, heard_send]

@[simp] theorem registered_receive (thread : Thread) (message : Message) :
    (thread.receive message).registered = thread.registered := by
  unfold receive
  split <;> rfl

/-- No thread sends a trade to its own client. -/
theorem Sends.notTrade {host : Host} {server : Server} {thread : Thread} {message : Message}
    {task : Task} (sends : thread.Sends host server message task) : message.trade? = none := by
  cases sends <;> rfl

theorem heard_connecting (thread : Thread) (reclaimUid : Option Int) (stage : Connecting) :
    (thread.connecting reclaimUid stage).heard = thread.heard := by
  unfold heard
  rw [inbox_connecting]

end Thread

/-- The client has still to be added to `clients_`. -/
def Task.Joins : Task → Prop
  | .connect _ _ | .register _ => True
  | _ => False

/-- Before it is added to `clients_` a client is sent nothing. -/
def Thread.Joining (thread : Thread) : Prop :=
  thread.task.Joins → thread.registered = false ∧ thread.heard = []

namespace Thread

section Moves

variable {host : Host} {server : Server} {thread next : Thread}

theorem Sends.notJoins {message : Message} {task : Task}
    (sends : thread.Sends host server message task) : ¬ task.Joins := by
  cases sends <;> exact id

theorem Turns.notJoins (turns : thread.Turns server next) : ¬ next.task.Joins := by
  cases turns with
  | reads msg =>
      unfold process
      split
      · exact id
      · rename_i processed
        rcases task_of_processMessage processed with ⟨_, rfl⟩ | ⟨_, rfl⟩ | ⟨_, rfl⟩ <;> exact id
  | registers | hangsUp | finishes => exact id
  | checks =>
      dsimp only
      split <;> exact id

/-- Only `accept_loop` adds clients. -/
theorem Turns.wasAdded (turns : thread.Turns server next) (added : next.registered = true) :
    thread.registered = true ∨ thread.task.Joins := by
  cases turns with
  | registers reclaimUid task =>
      rw [task]
      exact Or.inr trivial
  | reads msg =>
      unfold process at added
      split at added
      · cases added
      · exact Or.inl added
  | hangsUp => cases added
  | checks | finishes => exact Or.inl added

end Moves

end Thread

/-! ## One step -/

/-- What a step in which `new` was traded is to the clients and to what is still to be sent. -/
structure Feeds (server next : Server) (new : List Trade) : Prop where
  joining : (∀ thread ∈ server.threads, thread.Joining) → ∀ thread ∈ next.threads, thread.Joining
  unsent : next.unsent <:+ server.unsent ++ new
  clients : ∀ (index : Nat) (after : Thread), next.threads[index]? = some after →
    after.registered = true → ∃ before, server.threads[index]? = some before ∧
      ((before.registered = true ∧
          after.heard ++ next.unsent = before.heard ++ (server.unsent ++ new)) ∨
        (before.task.Joins ∧ after.heard = before.heard ∧ next.unsent = server.unsent ∧ new = []))
  seqs : Numbered (·.seq) server.engine.globalSeq new ∧
    next.engine.globalSeq = server.engine.globalSeq + new.length
  tradeIds : Numbered (·.tradeId) server.engine.globalTradeId new ∧
    next.engine.globalTradeId = server.engine.globalTradeId + new.length

namespace Feeds

variable {host : Host} {server mid next : Server} {new : List Trade}

/-- A step in which clients are told nothing, and all that is new is still to be sent. -/
theorem of_same (unsent : next.unsent = server.unsent ++ new)
    (joining : ∀ thread ∈ next.threads, thread.Joining ∨ thread ∈ server.threads)
    (clients : ∀ (index : Nat) (after : Thread), next.threads[index]? = some after →
      after.registered = true → server.threads[index]? = some after)
    (seqs : Numbered (·.seq) server.engine.globalSeq new ∧
      next.engine.globalSeq = server.engine.globalSeq + new.length)
    (tradeIds : Numbered (·.tradeId) server.engine.globalTradeId new ∧
      next.engine.globalTradeId = server.engine.globalTradeId + new.length) :
    Feeds server next new where
  joining := by
    intro all thread member
    rcases joining thread member with quiet | before
    · exact quiet
    · exact all thread before
  unsent := ⟨[], by rw [List.nil_append, unsent]⟩
  clients := by
    intro index after found added
    exact ⟨after, clients index after found added, Or.inl ⟨added, by rw [unsent]⟩⟩
  seqs := seqs
  tradeIds := tradeIds

/-- One thread goes on and is told nothing of trades. -/
theorem of_setThread {index : Nat} {thread after : Thread}
    (found : server.threads[index]? = some thread) (threads : mid.threads = server.threads)
    (unsent : mid.unsent = server.unsent ++ new) (heard : after.heard = thread.heard)
    (added : after.registered = true → thread.registered = true ∨ thread.task.Joins ∧ new = [])
    (joins : after.task.Joins → thread.task.Joins ∧ after.registered = thread.registered)
    (seqs : Numbered (·.seq) server.engine.globalSeq new ∧
      mid.engine.globalSeq = server.engine.globalSeq + new.length)
    (tradeIds : Numbered (·.tradeId) server.engine.globalTradeId new ∧
      mid.engine.globalTradeId = server.engine.globalTradeId + new.length) :
    Feeds server (mid.setThread index after) new where
  joining := by
    intro all
    rw [← threads] at all
    refine Server.forall_setThread all fun joining => ?_
    obtain ⟨joined, same⟩ := joins joining
    rw [same, heard]
    exact all thread (threads ▸ List.mem_of_getElem? found) joined
  unsent := ⟨[], unsent⟩
  clients := by
    intro place other atPlace isAdded
    have sent : (mid.setThread index after).unsent = server.unsent ++ new := unsent
    rw [Server.setThread, threads, List.getElem?_set] at atPlace
    split at atPlace
    · rename_i same
      split at atPlace
      · cases atPlace
        cases same
        rcases added isAdded with before | ⟨joined, nothing⟩
        · exact ⟨thread, found, Or.inl ⟨before, by rw [heard, sent]⟩⟩
        · exact ⟨thread, found, Or.inr ⟨joined, heard, by rw [sent, nothing, List.append_nil],
            nothing⟩⟩
      · cases atPlace
    · exact ⟨other, atPlace, Or.inl ⟨isAdded, by rw [sent]⟩⟩
  seqs := seqs
  tradeIds := tradeIds

end Feeds

section Step

variable {host : Host} {server next : Server}

theorem ServerEntry.made_of_idle {entry : ServerEntry}
    (idle : entry.handed.any (·.call.submitted.isSome) = false) : entry.made = [] := by
  rw [made, idle]
  rfl

theorem ServerEntry.made_of_submits {entry : ServerEntry} {new : List Trade}
    (submits : entry.handed.any (·.call.submitted.isSome) = true)
    (sink : entry.after.engine.tradeSink.getD [] = new) : entry.made = new := by
  rw [made, if_pos submits, sink]

theorem unsent_broadcasts (engine : MatchingEngine) :
    (Server.broadcasts host engine).filterMap Message.trade? = engine.tradeSink.getD [] := by
  unfold Server.broadcasts
  rw [List.filterMap_append, List.filterMap_map]
  have noTrades : ∀ snapshots : List Snapshot,
      (snapshots.flatMap (Message.ofChange host)).filterMap Message.trade? = [] := by
    intro snapshots
    induction snapshots with
    | nil => rfl
    | cons snapshot rest ih => simpa [Message.ofChange, Message.trade?] using ih
  rw [noTrades, List.nil_append]
  have same : Message.trade? ∘ Message.trade = some := rfl
  rw [same, List.filterMap_some]

/-- A call leaves its trades in the sink and on the way to the clients, numbered on. -/
structure Announces (server next : Server) (new : List Trade) : Prop where
  sink : next.engine.tradeSink.getD [] = new
  unsent : next.unsent = new
  seqs : Numbered (·.seq) server.engine.globalSeq new ∧
    next.engine.globalSeq = server.engine.globalSeq + new.length
  tradeIds : Numbered (·.tradeId) server.engine.globalTradeId new ∧
    next.engine.globalTradeId = server.engine.globalTradeId + new.length

theorem Locked.announces {call : Call} {reply : Reply}
    (locked : Locked host server call reply next) :
    Announces server next (Entry.trades ⟨server.attached, call, reply, next.engine⟩) := by
  have told := locked.answered.told
  have sink : next.engine.tradeSink.getD [] =
      Entry.trades ⟨server.attached, call, reply, next.engine⟩ := by
    rw [told.sink]
    rfl
  refine ⟨sink, ?_, told.seqs rfl, told.tradeIds rfl⟩
  obtain ⟨thread, requests, held⟩ := locked.held
  unfold Server.unsent
  rw [held]
  exact (unsent_broadcasts next.engine).trans sink

/-- A thread calls the engine under the lock. -/
theorem Locked.feeds {call : Call} {reply : Reply} {locked : Server}
    (leaves : Locked host server call reply locked) (free : server.held = none) {index : Nat}
    {thread : Thread} (found : server.threads[index]? = some thread) (answer : Answer) :
    Feeds server (locked.setThread index { thread with task := .answer answer })
      (Entry.trades ⟨server.attached, call, reply, locked.engine⟩) := by
  have announces := leaves.announces
  have nothing : server.unsent = [] := by
    unfold Server.unsent
    rw [free]
    rfl
  exact .of_setThread found leaves.threads (by rw [nothing, announces.unsent]; rfl) rfl Or.inl
    False.elim announces.seqs announces.tradeIds

theorem Feeds.ticked (sound : server.engine.book.Sound)
    (steps : server.step host .tickOrder = .ok (next, ())) :
    Feeds server next (ServerEntry.made ⟨server, .tickOrder, (), next⟩) := by
  obtain ⟨thread, request, rest, held, rfl⟩ := moves_of_tickOrder steps
  have locked : Locked host server.drawn (.processOrder (request.order server.engine.nextId 0)) _ _ :=
    locked_processOrder (Server.sound_drawn sound) thread rest _
  have announces := locked.announces
  have nothing : server.unsent = [] := by
    unfold Server.unsent
    rw [held]
    rfl
  rw [ServerEntry.made_of_submits (by rw [ServerEntry.handed_of_tickOrder held]; rfl)
    announces.sink]
  exact .of_same (by rw [nothing, announces.unsent]; rfl) (fun thread member => Or.inr member)
    (fun _ _ found _ => found) announces.seqs announces.tradeIds

theorem unsent_of_broadcasts {held : Held} {message : Message} {rest : List Message}
    (holds : server.held = some held) (sends : held.broadcasts = message :: rest) :
    server.unsent = message.trade?.toList ++ rest.filterMap Message.trade? := by
  unfold Server.unsent
  rw [holds]
  simp only [Option.elim, sends]
  cases told : message.trade? <;> simp [told]

theorem Feeds.broadcast {held : Held} {message : Message} {rest : List Message}
    (holds : server.held = some held) (sends : held.broadcasts = message :: rest) :
    Feeds server { server with
      threads := server.threads.map (·.receive message)
      held := some { held with broadcasts := rest } } [] where
  joining := by
    intro all thread member joins
    obtain ⟨before, inThreads, rfl⟩ := List.mem_map.mp member
    rw [Thread.task_receive] at joins
    obtain ⟨notAdded, heard⟩ := all before inThreads joins
    rw [Thread.receive, notAdded]
    exact ⟨notAdded, heard⟩
  unsent := by
    rw [List.append_nil, unsent_of_broadcasts holds sends]
    exact List.suffix_append _ _
  clients := by
    intro index after found added
    rw [List.getElem?_map] at found
    obtain ⟨before, foundBefore, rfl⟩ := Option.map_eq_some_iff.mp found
    rw [Thread.registered_receive] at added
    refine ⟨before, foundBefore, Or.inl ⟨added, ?_⟩⟩
    rw [Thread.heard_receive added, List.append_assoc, List.append_nil,
      unsent_of_broadcasts holds sends]
    rfl
  seqs := ⟨.nil, (Int.add_zero _).symm⟩
  tradeIds := ⟨.nil, (Int.add_zero _).symm⟩

theorem feeds_of_step (sound : server.engine.book.Sound) {action : Action}
    (steps : server.step host action = .ok (next, ())) :
    Feeds server next (ServerEntry.made ⟨server, action, (), next⟩) := by
  by_cases tick : action = .tickOrder
  · cases tick
    exact .ticked sound steps
  have silent : ∀ {after : Server}, ServerEntry.handed ⟨server, action, (), after⟩ = [] →
      Feeds server after [] → Feeds server after (ServerEntry.made ⟨server, action, (), after⟩) := by
    intro after none feeds
    rwa [ServerEntry.made_of_idle (by rw [none]; rfl)]
  cases moves_of_step steps with
  | opened thread arrives =>
      refine silent (ServerEntry.handed_of_same tick fun index other found _ => ⟨other, ?_, rfl⟩)
        (.of_same (List.append_nil _).symm (fun other member => ?_) (fun index other found added =>
          ?_) ⟨.nil, (Int.add_zero _).symm⟩ ⟨.nil, (Int.add_zero _).symm⟩)
      · exact List.getElem?_append_left (List.getElem?_eq_some_iff.mp found).choose ▸ found
      · rcases List.mem_append.mp member with old | new
        · exact Or.inr old
        · cases List.mem_singleton.mp new
          exact Or.inl fun _ => ⟨arrives.registered, by rw [Thread.heard, arrives.inbox]; rfl⟩
      · rw [Server.opened, List.getElem?_append] at found
        split at found
        · exact found
        · cases List.mem_singleton.mp (List.mem_of_getElem? found)
          rw [arrives.registered] at added
          cases added
  | connected index spurious thread reclaimUid stage found task =>
      have joins : thread.task.Joins := by
        rw [task]
        trivial
      refine silent (ServerEntry.handed_of_setThread tick found (by rw [task]; exact id)) ?_
      refine .of_setThread found rfl (List.append_nil _).symm (thread.heard_connecting _ _)
        (fun added => ?_) (fun _ => ⟨joins, thread.registered_connecting _ _⟩) ⟨.nil, (Int.add_zero _).symm⟩
        ⟨.nil, (Int.add_zero _).symm⟩
      rw [Thread.registered_connecting] at added
      exact Or.inl added
  | turned index thread after found turns =>
      refine silent (ServerEntry.handed_of_setThread tick found turns.idle) ?_
      refine .of_setThread found rfl (List.append_nil _).symm ?_ (fun added => ?_)
        (fun joins => absurd joins turns.notJoins) ⟨.nil, (Int.add_zero _).symm⟩ ⟨.nil, (Int.add_zero _).symm⟩
      · rw [Thread.heard, turns.inbox, ← Thread.heard]
      · rcases turns.wasAdded added with before | joins
        · exact Or.inl before
        · exact Or.inr ⟨joins, rfl⟩
  | sent index thread message task found sends =>
      refine silent (ServerEntry.handed_of_setThread tick found sends.wasIdle) ?_
      refine .of_setThread found rfl (List.append_nil _).symm ?_ Or.inl
        (fun joins => absurd joins sends.notJoins) ⟨.nil, (Int.add_zero _).symm⟩ ⟨.nil, (Int.add_zero _).symm⟩
      have heard := thread.heard_send message
      rw [sends.notTrade, Option.toList_none, List.append_nil] at heard
      exact heard
  | drew index spurious thread request found task =>
      rw [ServerEntry.made_of_idle (by rw [ServerEntry.handed_of_drew found spurious task]; rfl)]
      exact .of_setThread found rfl (List.append_nil _).symm rfl Or.inl False.elim
        ⟨.nil, (Int.add_zero _).symm⟩
        ⟨.nil, (Int.add_zero _).symm⟩
  | submitted index spurious thread order found task free =>
      have locked : Locked host server (.processOrder order) _ _ :=
        locked_processOrder sound (some index) [] order
      have calls := ServerEntry.handed_of_submitted found spurious task locked.threads
        (server.processOrder host (some index) [] order).2
      rw [ServerEntry.made_of_submits (by rw [calls]; rfl) locked.announces.sink]
      exact locked.feeds free found _
  | withdrew index spurious thread orderId withdrawn ok found task free cancels =>
      have locked := locked_cancelOrder sound cancels
      have calls := ServerEntry.handed_of_withdrew found spurious task locked.threads ok
      rw [ServerEntry.made_of_idle (by rw [calls]; rfl)]
      exact locked.feeds free found _
  | ticked requests free =>
      refine silent rfl (.of_same ?_ (fun _ member => Or.inr member) (fun _ _ found _ => found)
        ⟨.nil, (Int.add_zero _).symm⟩ ⟨.nil, (Int.add_zero _).symm⟩)
      unfold Server.unsent
      rw [free]
      rfl
  | tickOrdered => exact absurd rfl tick
  | calledBack held call rest holds calls =>
      refine silent rfl (.of_same ?_ (fun _ member => Or.inr member) (fun _ _ found _ => found)
        ⟨.nil, (Int.add_zero _).symm⟩ ⟨.nil, (Int.add_zero _).symm⟩)
      unfold Server.unsent
      rw [holds, List.append_nil]
      rfl
  | broadcast held message rest holds sends => exact silent rfl (.broadcast holds sends)
  | unlocked thread held =>
      refine silent rfl (.of_same ?_ (fun _ member => Or.inr member) (fun _ _ found _ => found)
        ⟨.nil, (Int.add_zero _).symm⟩ ⟨.nil, (Int.add_zero _).symm⟩)
      unfold Server.unsent
      rw [held]
      rfl

end Step

/-! ## Runs -/

/-- The client was added to `clients_`, and `heard` is what it has been sent or will be sent. -/
def Follows (log : List ServerEntry) (index : Nat) (heard : List Trade) : Prop :=
  ∃ past entry rest, log = past ++ entry :: rest ∧ entry.Registers index ∧
    entry.before.unsent <:+ made past ∧ heard = entry.before.unsent ++ made rest

/-- All trades of a run, sent or not, are numbered, and every client follows them. -/
structure Fed (start : Server) (log : List ServerEntry) (server : Server) : Prop where
  joining : ∀ thread ∈ server.threads, thread.Joining
  unsent : server.unsent <:+ made log
  follows : ∀ (index : Nat) (thread : Thread), server.threads[index]? = some thread →
    thread.registered = true → Follows log index (thread.heard ++ server.unsent)
  seqs : Numbered (·.seq) start.engine.globalSeq (made log) ∧
    server.engine.globalSeq = start.engine.globalSeq + (made log).length
  tradeIds : Numbered (·.tradeId) start.engine.globalTradeId (made log) ∧
    server.engine.globalTradeId = start.engine.globalTradeId + (made log).length

theorem made_append (log : List ServerEntry) (entry : ServerEntry) :
    made (log ++ [entry]) = made log ++ entry.made := by
  simp [made]

/-- Numbering goes on where it stopped. -/
theorem Numbered.goOn {number : Trade → Int} {first now next : Int} {old new : List Trade}
    (before : Numbered number first old ∧ now = first + old.length)
    (after : Numbered number now new ∧ next = now + new.length) :
    Numbered number first (old ++ new) ∧ next = first + (old ++ new).length := by
  obtain ⟨numbered, rfl⟩ := before
  obtain ⟨numberedOn, rfl⟩ := after
  refine ⟨Numbered.append_iff.mpr ⟨numbered, numberedOn⟩, ?_⟩
  rw [List.length_append]
  push_cast
  omega

theorem Follows.goOn {log : List ServerEntry} {index : Nat} {heard : List Trade}
    (follows : Follows log index heard) (entry : ServerEntry) :
    Follows (log ++ [entry]) index (heard ++ entry.made) := by
  obtain ⟨past, first, rest, rfl, registers, unsent, rfl⟩ := follows
  refine ⟨past, first, rest ++ [entry], by simp, registers, unsent, ?_⟩
  rw [made_append, List.append_assoc]

section Runs

variable {host : Host} {start server next state : Server} {log : List ServerEntry}

theorem Fed.initial (nobody : start.threads = []) (free : start.held = none) :
    Fed start [] start where
  joining := by simp [nobody]
  unsent := by
    unfold Server.unsent
    rw [free]
    exact List.nil_suffix
  follows := by simp [nobody]
  seqs := ⟨.nil, (Int.add_zero _).symm⟩
  tradeIds := ⟨.nil, (Int.add_zero _).symm⟩

theorem Fed.step (fed : Fed start log server) {action : Action}
    (feeds : Feeds server next (ServerEntry.made ⟨server, action, (), next⟩)) :
    Fed start (log ++ [⟨server, action, (), next⟩]) next where
  joining := feeds.joining fed.joining
  unsent := by
    rw [made_append]
    obtain ⟨before, isSuffix⟩ := fed.unsent
    refine feeds.unsent.trans ⟨before, ?_⟩
    rw [← List.append_assoc, isSuffix]
  follows := by
    intro index after found added
    obtain ⟨before, foundBefore, ⟨wasAdded, same⟩ | ⟨joins, heard, unsent, nothing⟩⟩ :=
      feeds.clients index after found added
    · rw [same, ← List.append_assoc]
      exact (fed.follows index before foundBefore wasAdded).goOn _
    · obtain ⟨notAdded, silent⟩ := fed.joining before (List.mem_of_getElem? foundBefore) joins
      refine ⟨log, ⟨server, action, (), next⟩, [], rfl, ⟨?_, ?_⟩, fed.unsent, ?_⟩
      · intro thread isThread
        rw [foundBefore] at isThread
        cases isThread
        exact notAdded
      · intro thread isThread
        rw [found] at isThread
        cases isThread
        exact added
      · rw [heard, silent, unsent]
        exact (List.append_nil _).symm
  seqs := by
    rw [made_append]
    exact Numbered.goOn fed.seqs feeds.seqs
  tradeIds := by
    rw [made_append]
    exact Numbered.goOn fed.tradeIds feeds.tradeIds

theorem fed_of_serverRun (sound : start.engine.book.Sound) (nobody : start.threads = [])
    (free : start.held = none) (run : ServerRun host start log state) : Fed start log state :=
  run.invariant (Fed start) (.initial nobody free)
    fun _ _ _ _ _ earlier fed _ steps =>
      fed.step (feeds_of_step (sound_of_serverRun sound earlier) steps)

/--
In every run of the server: the trades made are numbered without gaps, by
sequence number and by trade id, and what a client in `clients_` has been sent,
followed by what is still to be sent, is what was still to be sent when the
client was added followed by every trade made since.
-/
theorem trades_reach_clients (sound : start.engine.book.Sound) (nobody : start.threads = [])
    (free : start.held = none) (run : ServerRun host start log state) :
    Numbered (·.seq) start.engine.globalSeq (made log) ∧
      Numbered (·.tradeId) start.engine.globalTradeId (made log) ∧
      ∀ (index : Nat) (thread : Thread), state.threads[index]? = some thread →
        thread.registered = true → Follows log index (thread.heard ++ state.unsent) := by
  have fed := fed_of_serverRun sound nobody free run
  exact ⟨fed.seqs.1, fed.tradeIds.1, fed.follows⟩

/-- A client that is added to `clients_` while the broadcasts of a call are sent. -/
theorem trades_reach_clients_sample :
    ∃ log state thread, ServerRun (Host.exact (·)) seededServer log state ∧
      state.threads[1]? = some thread ∧ thread.heard.map (·.qty) = [2] ∧
      Numbered (·.seq) 1 (made log) ∧ Follows log 1 (thread.heard ++ state.unsent) := by
  have run := Run.of_isSome (Server.step (Host.exact (·))) (fun _ _ => True) seededServer
    [.postOrder "\x7b\"side\":\"BUY\",\"qty\":2,\"price\":105\x7d".toList, .advance 0 false,
      .dial 0, .advance 1 false, .advance 1 false, .advance 0 false, .broadcast, .advance 1 false,
      .broadcast, .broadcast] (by decide)
  obtain ⟨seqs, _, follows⟩ := trades_reach_clients seeded_seededServer.sound rfl rfl run
  exact ⟨_, _, _, run, (Option.some_get (by decide)).symm, by decide, seqs,
    follows 1 _ (Option.some_get (by decide)).symm (by decide)⟩

end Runs

end OrderBookSimulator
