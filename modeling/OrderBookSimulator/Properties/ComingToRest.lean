import OrderBookSimulator.Library.Halting
import OrderBookSimulator.Properties.Conversations
import OrderBookSimulator.Server.Responding

/-!
# Coming to rest

Threads wait for `book_mtx`, for the holder's callbacks and broadcasts, and for
the compare-exchange of `reconnect_user` to go through.  None of them waits for
ever: when nobody sends anything more, the server comes to rest after finitely
many steps, with the mutex free and every client answered.  The one thing that
can stop a thread is a cancel of an order that was filled completely, whose
entry in `order_index_` is stale.
-/

namespace OrderBookSimulator

open Library

/-- What goes on by itself.  A compare-exchange does not fail without cause. -/
def Action.Own : Action → Prop
  | .advance _ spurious => spurious = false
  | .tickOrder | .callback | .broadcast | .unlock => True
  | _ => False

instance (action : Action) : Decidable action.Own :=
  match action with
  | .advance _ spurious => inferInstanceAs (Decidable (spurious = false))
  | .tickOrder | .callback | .broadcast | .unlock => isTrue trivial
  | .postConnect | .postOrder _ | .postCancel _ | .dial _ | .message _ _ | .hangUp _ | .tick _ =>
      isFalse not_false

/--
The mutex is free, and nothing is left to do but to wait for a client.  A thread
in front of a cancel by a stale id, also one of `POST /cancel`, counts as at rest
although the code goes on there: what it does is undefined, and nothing is said
of it.
-/
structure Server.AtRest (server : Server) : Prop where
  free : server.held = none
  threads : ∀ thread ∈ server.threads, thread.task = .serve ∨ thread.task = .done ∨
    ∃ orderId, thread.task = .withdraw orderId ∧ server.engine.book.Stale orderId

/-! ## What is left to do -/

/-- The steps up to an id, once no other thread changes `next_id_`. -/
def Connecting.steps (nextId : Int) : Connecting → Nat
  | .returned _ => 0
  | .fetchAdd | .assign _ | .emplace _ => 1
  | .exchange _ expected => if nextId = expected then 1 else 2
  | .load _ => 2

namespace Task

/-- 1 while a thread can still change `next_id_`. -/
def seeks : Task → Nat
  | .connect _ stage => if stage.settled = none then 1 else 0
  | _ => 0

/-- A bound on the steps of a thread until it reads or is done. -/
def steps (nextId : Int) : Task → Nat
  | .serve | .done => 0
  | .answer _ | .sendOrders => 1
  | .submit _ | .withdraw _ | .sendBook => 2
  | .drawId _ | .checkOwner _ | .greet _ => 3
  | .register _ => 4
  | .connect _ stage => 5 + stage.steps nextId

end Task

namespace Server

/-- How many threads can still change `next_id_`. -/
def seekers (server : Server) : Nat := (server.threads.map (·.task.seeks)).sum

/-- What the threads have still to do, and the orders a tick has still to submit. -/
def steps (server : Server) : Nat :=
  (server.threads.map (·.task.steps server.ids.nextId)).sum +
    server.held.elim 0 (·.requests.length)

/-- What the holder of `book_mtx` has still to do between two orders. -/
def duties (server : Server) : Nat :=
  server.held.elim 0 fun held => held.callbacks.length + held.broadcasts.length + 1

/--
Whoever changes `next_id_` can cost others a step, but stops seeking; an order
brings callbacks and broadcasts without bound, but there is one order less.
-/
def left (server : Server) : Nat ×ₗ Nat ×ₗ Nat :=
  toLex (server.seekers, toLex (server.steps, server.duties))

variable {server next : Server}

theorem left_lt_iff : next.left < server.left ↔ next.seekers < server.seekers ∨
    next.seekers = server.seekers ∧ (next.steps < server.steps ∨
      next.steps = server.steps ∧ next.duties < server.duties) := by
  simp only [left, Prod.Lex.toLex_lt_toLex]

end Server

/-! ## One step -/

/-- What a step of connecting brings a call. -/
theorem Connecting.steps_step (host : Host) (ids : UserIds) (users : UserManager)
    (stage : Connecting) :
    (stage.settled = none ∧ (stage.step host false ids users).2.2.settled ≠ none) ∨
      (stage.step host false ids users).1.nextId = ids.nextId ∧
        (stage.settled = none ↔ (stage.step host false ids users).2.2.settled = none) ∧
        (stage = (stage.step host false ids users).2.2 ∧ stage.steps ids.nextId = 0 ∨
          (stage.step host false ids users).2.2.steps ids.nextId < stage.steps ids.nextId) := by
  cases stage with
  | fetchAdd => exact .inl ⟨rfl, by simp [step, settled]⟩
  | assign id | emplace uid => exact .inr ⟨rfl, by simp [step, settled], .inr (by simp [step, steps])⟩
  | returned id => exact .inr ⟨rfl, Iff.rfl, .inl ⟨rfl, rfl⟩⟩
  | load uid =>
      by_cases below : ids.nextId ≤ uid
      · refine .inr ⟨rfl, ?_, .inr ?_⟩ <;> simp [step, whileBelow, below, settled, steps]
      · exact .inl ⟨rfl, by simp [step, whileBelow, below, settled]⟩
  | exchange uid expected =>
      by_cases same : ids.nextId = expected
      · exact .inl ⟨rfl, by simp [step, same, settled]⟩
      · by_cases below : ids.nextId ≤ uid
        · refine .inr ⟨?_, ?_, .inr ?_⟩ <;> simp [step, same, whileBelow, below, settled, steps]
        · exact .inl ⟨rfl, by simp [step, same, whileBelow, below, settled]⟩

theorem Connecting.returned_of_steps {nextId : Int} {stage : Connecting}
    (zero : stage.steps nextId = 0) : ∃ id, stage = .returned id := by
  cases stage with
  | returned id => exact ⟨id, rfl⟩
  | exchange uid expected =>
      rw [steps] at zero
      split at zero <;> simp at zero
  | fetchAdd | assign | load | emplace => cases zero

/-- A thread goes on: it is done with `next_id_`, or nearer to its end. -/
def Task.Nears (nextId nextIdAfter : Int) (task after : Task) : Prop :=
  after.seeks < task.seeks ∨
    after.seeks = task.seeks ∧ nextIdAfter = nextId ∧ after.steps nextId < task.steps nextId

section Step

variable {host : Host} {server next : Server}

theorem nears_connecting (thread : Thread) (reclaimUid : Option Int) (stage : Connecting) :
    Task.Nears server.ids.nextId (stage.step host false server.ids server.users).1.nextId
      (.connect reclaimUid stage)
      (thread.connecting reclaimUid (stage.step host false server.ids server.users).2.2).task := by
  generalize moved : stage.step host false server.ids server.users = result
  obtain ⟨ids, users, goal⟩ := result
  have goesOn := Connecting.steps_step host server.ids server.users stage
  rw [moved] at goesOn
  have seeks : (thread.connecting reclaimUid goal).task.seeks =
      if goal.settled = none then 1 else 0 := by
    unfold Thread.connecting
    split <;> rfl
  have steps : (thread.connecting reclaimUid goal).task.steps server.ids.nextId ≤
      5 + goal.steps server.ids.nextId := by
    unfold Thread.connecting
    split <;> simp [Task.steps, Connecting.steps]
  have returned : goal.steps server.ids.nextId = 0 →
      (thread.connecting reclaimUid goal).task.steps server.ids.nextId < 5 := by
    intro zero
    obtain ⟨id, rfl⟩ := Connecting.returned_of_steps zero
    cases reclaimUid <;> simp [Thread.connecting, Task.steps]
  rcases goesOn with ⟨seeking, settled⟩ | ⟨same, still, ⟨rfl, none⟩ | fewer⟩
  · exact .inl (by rw [seeks]; simp [Task.seeks, seeking, settled])
  · exact .inr ⟨seeks, same, Nat.lt_add_right _ (returned none)⟩
  · refine .inr ⟨?_, same, Nat.lt_of_le_of_lt steps (Nat.add_lt_add_left fewer 5)⟩
    rw [seeks]
    simp only [Task.seeks, still]

/-- A thread's own step leaves no more orders to submit. -/
theorem nears_of_advance {index : Nat} {thread : Thread}
    (advances : server.advance host index false thread = .ok next) :
    ∃ after : Thread, next.threads = server.threads.set index after ∧
      Task.Nears server.ids.nextId next.ids.nextId thread.task after.task ∧
      next.held.elim 0 (·.requests.length) ≤ server.held.elim 0 (·.requests.length) := by
  unfold Server.advance at advances
  split at advances
  · rename_i reclaimUid stage task
    cases advances
    rw [task]
    exact ⟨_, rfl, nears_connecting thread reclaimUid stage, Nat.le_refl _⟩
  · rename_i reclaimUid task
    cases advances
    rw [task]
    exact ⟨_, rfl, .inr ⟨rfl, rfl, by simp [Task.steps]⟩, Nat.le_refl _⟩
  · rename_i reclaimUid task
    cases advances
    rw [task]
    exact ⟨_, rfl, .inr ⟨rfl, rfl, by simp [Task.steps]⟩, Nat.le_refl _⟩
  · rename_i task
    split at advances
    · cases advances
    · cases advances
      rw [task]
      exact ⟨_, rfl, .inr ⟨rfl, rfl, by simp [Task.steps]⟩, Nat.le_refl _⟩
  · rename_i task
    split at advances
    · cases advances
    · cases advances
      rw [task]
      exact ⟨_, rfl, .inr ⟨rfl, rfl, by simp [Task.steps]⟩, Nat.le_refl _⟩
  · rename_i request task
    cases advances
    rw [task]
    exact ⟨_, rfl, .inr ⟨rfl, rfl, by simp [Task.steps]⟩, Nat.le_refl _⟩
  · rename_i order task
    split at advances
    · cases advances
    · cases advances
      rw [task]
      exact ⟨_, rfl, .inr ⟨rfl, rfl, by simp [Task.steps]⟩, Nat.zero_le _⟩
  · rename_i orderId task
    cases advances
    rw [task]
    refine ⟨_, rfl, .inr ?_, Nat.le_refl _⟩
    dsimp only
    split <;> exact ⟨rfl, rfl, by simp [Task.steps]⟩
  · rename_i orderId task
    split at advances
    · cases advances
    · split at advances
      · cases advances
      · rename_i withdrawn ok cancels
        cases advances
        rw [task]
        unfold Server.cancelOrder at cancels
        cases answer : server.attached.cancelOrder host orderId with
        | error fault =>
            rw [answer] at cancels
            cases cancels
        | ok result =>
            rw [answer] at cancels
            cases cancels
            exact ⟨_, rfl, .inr ⟨rfl, rfl, by simp [Task.steps]⟩, Nat.zero_le _⟩
  · rename_i answer task
    split at advances
    · cases advances
    · split at advances
      · cases advances
        rw [task]
        exact ⟨_, rfl, .inr ⟨rfl, rfl, by simp [Task.steps]⟩, Nat.le_refl _⟩
      · cases advances
        rw [task]
        exact ⟨_, rfl, .inr ⟨rfl, rfl, by simp [Task.steps]⟩, Nat.le_refl _⟩
  · cases advances
  · cases advances

theorem left_lt_of_advance {index : Nat} {thread : Thread}
    (found : server.threads[index]? = some thread)
    (advances : server.advance host index false thread = .ok next) : next.left < server.left := by
  obtain ⟨after, threads, nears, requests⟩ := nears_of_advance advances
  rw [Server.left_lt_iff]
  have seekers := sum_map_set (fun thread : Thread => thread.task.seeks) found after
  have steps := sum_map_set (fun thread : Thread => thread.task.steps server.ids.nextId) found after
  unfold Server.seekers Server.steps
  rw [threads]
  rcases nears with fewer | ⟨same, nextId, fewer⟩
  · exact .inl (by omega)
  · rw [nextId]
    exact .inr ⟨by omega, .inl (by omega)⟩

/-- Everything the server does by itself leaves less to do. -/
theorem left_lt_of_own {action : Action} {reply : Unit} (own : action.Own)
    (steps : server.step host action = .ok (next, reply)) : next.left < server.left := by
  cases action with
  | postConnect | postOrder | postCancel | dial | message | hangUp | tick => exact own.elim
  | advance index spurious =>
      cases own
      simp only [Server.step] at steps
      split at steps
      · cases steps
      · rename_i thread found
        split at steps
        · cases steps
        · rename_i advances
          cases steps
          exact left_lt_of_advance found advances
  | tickOrder =>
      obtain ⟨thread, request, rest, held, rfl⟩ := moves_of_tickOrder steps
      refine Server.left_lt_iff.mpr (.inr ⟨rfl, .inl ?_⟩)
      simp only [Server.steps, Server.drawn, Server.processOrder, held, Option.elim,
        List.length_cons]
      omega
  | callback =>
      simp only [Server.step] at steps
      split at steps
      · rename_i thread requests call rest broadcasts held
        cases steps
        refine Server.left_lt_iff.mpr (.inr ⟨rfl, .inr ⟨?_, ?_⟩⟩)
        · simp only [Server.steps, held, Option.elim]
        · simp only [Server.duties, held, Option.elim, List.length_cons]
          omega
      · cases steps
  | broadcast =>
      simp only [Server.step] at steps
      split at steps
      · rename_i thread requests callbacks message rest held
        cases steps
        refine Server.left_lt_iff.mpr (.inr ⟨?_, .inr ⟨?_, ?_⟩⟩)
        · simp only [Server.seekers, List.map_map, Function.comp_def, Thread.task_receive]
        · simp only [Server.steps, held, Option.elim, List.map_map, Function.comp_def,
            Thread.task_receive]
        · simp only [Server.duties, held, Option.elim, List.length_cons]
          omega
      · cases steps
  | unlock =>
      simp only [Server.step] at steps
      split at steps
      · rename_i thread held
        cases steps
        refine Server.left_lt_iff.mpr (.inr ⟨rfl, .inr ⟨?_, ?_⟩⟩)
        · simp only [Server.steps, held, Option.elim, List.length_nil]
        · simp only [Server.duties, held, Option.elim, List.length_nil]
          omega
      · cases steps

/-! ## Where it stops -/

/-- Whoever holds the mutex can go on. -/
theorem free_of_halted (halted : Halted (Server.step host) Action.Own server) :
    server.held = none := by
  cases held : server.held with
  | none => rfl
  | some holder =>
      obtain ⟨thread, requests, callbacks, broadcasts⟩ := holder
      cases callbacks with
      | cons call rest => exact absurd (by rw [Server.step, held]) (halted .callback trivial _ ())
      | nil =>
          cases broadcasts with
          | cons message rest =>
              exact absurd (by rw [Server.step, held]) (halted .broadcast trivial _ ())
          | nil =>
              cases requests with
              | cons request rest =>
                  exact absurd (by rw [Server.step, held]) (halted .tickOrder trivial _ ())
              | nil => exact absurd (by rw [Server.step, held]) (halted .unlock trivial _ ())

variable (host) in
/-- With the mutex free, a thread goes on unless it reads, is done, or withdraws a stale id. -/
theorem advances_of_free (sound : server.engine.book.Sound) (free : server.held = none)
    {thread : Thread} (index : Nat)
    (busy : ¬ (thread.task = .serve ∨ thread.task = .done ∨
      ∃ orderId, thread.task = .withdraw orderId ∧ server.engine.book.Stale orderId)) :
    ∃ next, server.advance host index false thread = .ok next := by
  have notHeld : ¬ server.held.isSome := by simp [free]
  have notHolder : ¬ server.held.any (·.thread = some index) := by simp [free]
  unfold Server.advance
  cases task : thread.task with
  | connect | register | greet | drawId | checkOwner => exact ⟨_, rfl⟩
  | sendBook | sendOrders | submit => exact ⟨_, if_neg notHeld⟩
  | withdraw orderId =>
      have notStale : ¬ server.engine.book.Stale orderId :=
        fun stale => busy (.inr (.inr ⟨orderId, task, stale⟩))
      obtain ⟨answered, cancels⟩ := (Server.cancels_iff host sound (some index) orderId).mpr notStale
      refine ⟨answered.1.setThread index { thread with task := .answer (.ok answered.2) }, ?_⟩
      simp only [if_neg notHeld, cancels]
  | answer given =>
      simp only [if_neg notHolder]
      split <;> exact ⟨_, rfl⟩
  | serve => exact absurd (.inl task) busy
  | done => exact absurd (.inr (.inl task)) busy

/-- At rest nothing goes on, and where nothing goes on the server is at rest. -/
theorem halted_iff (sound : server.engine.book.Sound) :
    Halted (Server.step host) Action.Own server ↔ server.AtRest := by
  constructor
  · intro halted
    have free := free_of_halted halted
    refine ⟨free, fun thread member => ?_⟩
    obtain ⟨index, found⟩ := List.mem_iff_getElem?.mp member
    by_contra busy
    obtain ⟨next, advances⟩ := advances_of_free host sound free index busy
    exact halted (.advance index false) rfl next () (by simp only [Server.step, found, advances])
  · intro atRest action own next reply steps
    cases action with
    | postConnect | postOrder | postCancel | dial | message | hangUp | tick => exact own
    | tickOrder | callback | broadcast | unlock => simp [Server.step, atRest.free] at steps
    | advance index spurious =>
        simp only [Server.step] at steps
        split at steps
        · cases steps
        · rename_i thread found
          split at steps
          · cases steps
          · rename_i advances
            unfold Server.advance at advances
            rcases atRest.threads thread (List.mem_of_getElem? found) with
              task | task | ⟨orderId, task, stale⟩
            · simp [task] at advances
            · simp [task] at advances
            · have refused := (Server.cancels_iff host sound (some index) orderId).not.mpr
                (not_not.mpr stale)
              simp only [task, atRest.free] at advances
              split at advances
              · cases advances
              · split at advances
                · cases advances
                · rename_i cancels
                  exact refused ⟨_, cancels⟩

end Step

/-! ## Runs -/

section Runs

variable {host : Host} {start state last : Server} {log more : List ServerEntry}

/-- A run in which nobody sends anything. -/
abbrev OwnRun (host : Host) (start : Server) :=
  Run (Server.step host) (fun _ => Action.Own) start

/-- What goes on by itself after a run makes a longer run, in which no more is asked. -/
theorem OwnRun.after (own : OwnRun host state more last) (run : ServerRun host start log state) :
    ServerRun host start (log ++ more) last ∧ ∀ index, asked index (log ++ more) = asked index log := by
  induction own with
  | nil => exact ⟨by rwa [List.append_nil], fun index => by rw [List.append_nil]⟩
  | @snoc more before next action reply past isOwn answered ih =>
      obtain ⟨longer, nothing⟩ := ih
      rw [← List.append_assoc]
      refine ⟨.snoc longer trivial answered, fun index => ?_⟩
      have silent : ServerEntry.asked index ⟨before, action, reply, next⟩ = none := by
        cases action with
        | message => exact isOwn.elim
        | _ => rfl
      rw [asked_append, silent, nothing index]
      exact List.append_nil _

namespace Conversing

variable {thread : Thread} {msgs : List Text} {calls : List Handed}

/-- A client whose thread reads has all its answers. -/
theorem answered (conversing : Conversing thread msgs calls) (serves : thread.task = .serve) :
    thread.answers.map (·.1) = msgs.map requestIdOf :=
  (conversing.conversed (by rw [serves]; trivial)).requestIds

/-- Whoever is in `clients_` has not finished. -/
theorem notDone (conversing : Conversing thread msgs calls) : thread.task ≠ .done := by
  intro done
  cases conversing with
  | listens listening past =>
      rw [done] at listening
      exact listening
  | serves past requestId serving =>
      rw [done] at serving
      exact serving.parsed

end Conversing

/--
From every server state that can be reached, what goes on by itself comes to an
end; it can be brought to an end; and it ends only at rest.  There the mutex is
free and every client has its answer to every message read from it, under the
request id of the message, save one whose thread is in front of a cancel by a
stale id, of which nothing is said.  A message is put into the client's inbox in
one step: writing to its socket is taken to return.
-/
theorem server_comes_to_rest (sound : start.engine.book.Sound) (nobody : start.threads = [])
    (free : start.held = none) (run : ServerRun host start log state) :
    (∀ servers, servers 0 = state → ¬ Endless (Server.step host) Action.Own servers) ∧
      (∃ more last, OwnRun host state more last ∧ last.AtRest) ∧
      ∀ more last, OwnRun host state more last →
        (Halted (Server.step host) Action.Own last ↔ last.AtRest) ∧
        (last.AtRest → ∀ (index : Nat) (thread : Thread), last.threads[index]? = some thread →
          thread.registered = true →
            thread.answers.map (·.1) = (asked index log).map requestIdOf ∨
            ∃ orderId, thread.task = .withdraw orderId ∧ last.engine.book.Stale orderId) := by
  have falls : ∀ server action next reply, Action.Own action →
      Server.step host server action = .ok (next, reply) → next.left < server.left :=
    fun server action next reply own steps => left_lt_of_own own steps
  have soundAfter : ∀ {more last}, OwnRun host state more last → last.engine.book.Sound :=
    fun own => sound_of_serverRun sound (own.after run).1
  refine ⟨fun servers _ => not_endless falls servers, ?_, fun more last own =>
    ⟨halted_iff (soundAfter own), fun atRest index thread found client => ?_⟩⟩
  · obtain ⟨more, last, own, halted⟩ := halts falls state
    exact ⟨more, last, own, (halted_iff (soundAfter own)).mp halted⟩
  · obtain ⟨longer, sameAsked⟩ := own.after run
    have talks := (talking_of_serverRun sound nobody free longer).talks index
    rw [found] at talks
    have conversing := talks.conversing client
    rw [sameAsked] at conversing
    rcases atRest.threads thread (List.mem_of_getElem? found) with serves | done | stale
    · exact .inl (conversing.answered serves)
    · exact absurd done conversing.notDone
    · exact .inr stale

/-- An order holds the mutex, and one more client waits for it before it is greeted. -/
theorem server_comes_to_rest_sample :
    ∃ log state, ServerRun (Host.exact (·)) seededServer log state ∧
      state.held.any (·.callbacks.length = 1) ∧ (state.threads.map (·.task)).getLast? = some .sendBook ∧
      ∃ more last, OwnRun (Host.exact (·)) state more last ∧ last.AtRest := by
  have run := Run.of_isSome (Server.step (Host.exact (·))) (fun _ _ => True) seededServer
    [.postOrder "\x7b\"side\":\"SELL\",\"qty\":5,\"price\":100,\"user_id\":7\x7d".toList,
      .advance 0 false, .advance 0 false, .dial 0, .advance 1 false, .advance 1 false,
      .advance 1 false, .advance 1 false] (by decide)
  exact ⟨_, _, run, by decide, by decide,
    (server_comes_to_rest seeded_seededServer.sound rfl rfl run).2.1⟩

end Runs

end OrderBookSimulator
