import OrderBookSimulator.Properties.Conversations

/-!
# Attendance

What a client has been sent stays sent, in order, and each of its answers is
the answer to one of its messages.  A client stays in `clients_` as long as it
does not hang up and its messages can be processed.
-/

namespace OrderBookSimulator

open Library

/-! ## Answers and inboxes -/

/-- The answers among the first `count` messages a client was sent. -/
def Thread.answersIn (thread : Thread) (count : Nat) : List (Text × Answer) :=
  (thread.inbox.take count).filterMap Message.answer?

section Inbox

variable {host : Host} {server next : Server} {thread : Thread}

theorem Thread.answersIn_prefix (thread : Thread) (count : Nat) :
    thread.answersIn count <+: thread.answers :=
  (List.take_prefix count thread.inbox).filterMap _

theorem Thread.answersIn_of_prefix {after : Thread} {count : Nat}
    (grows : thread.inbox <+: after.inbox) (within : count ≤ thread.inbox.length) :
    after.answersIn count = thread.answersIn count := by
  obtain ⟨more, same⟩ := grows
  unfold answersIn
  rw [← same, List.take_append_of_le_length within]

/-- Messages that were sent stay sent. -/
theorem Moves.inbox {action : Action} (moves : Moves host server action next)
    (sound : server.engine.book.Sound) {index : Nat} (found : server.threads[index]? = some thread) :
    ∃ after, next.threads[index]? = some after ∧ thread.inbox <+: after.inbox := by
  have set : ∀ {mid : Server} {place : Nat} {before after : Thread},
      mid.threads = server.threads → server.threads[place]? = some before →
      before.inbox <+: after.inbox → ∃ other, (mid.setThread place after).threads[index]? =
        some other ∧ thread.inbox <+: other.inbox := by
    intro mid place before after same atPlace grows
    by_cases here : place = index
    · subst here
      obtain rfl := Option.some.inj (found.symm.trans atPlace)
      exact ⟨after, getElem?_setThread same found after, grows⟩
    · refine ⟨thread, ?_, List.prefix_rfl⟩
      rw [Server.setThread, same, List.getElem?_set_ne here]
      exact found
  have stays : ∀ {after : Server}, after.threads = server.threads →
      ∃ other, after.threads[index]? = some other ∧ thread.inbox <+: other.inbox := by
    intro after same
    exact ⟨thread, same ▸ found, List.prefix_rfl⟩
  cases moves with
  | opened =>
      refine ⟨thread, ?_, List.prefix_rfl⟩
      exact List.getElem?_append_left (List.getElem?_eq_some_iff.mp found).choose ▸ found
  | connected place spurious before reclaimUid stage atPlace =>
      exact set rfl atPlace ⟨[], by rw [List.append_nil, Thread.inbox_connecting]⟩
  | turned place before after atPlace turns => exact set rfl atPlace ⟨[], by rw [List.append_nil, turns.inbox]⟩
  | sent place before message task atPlace => exact set rfl atPlace (List.prefix_append _ _)
  | drew place spurious before request atPlace => exact set rfl atPlace List.prefix_rfl
  | submitted place spurious before order atPlace =>
      have locked : Locked host server (.processOrder order) _ _ :=
        locked_processOrder sound (some place) [] order
      exact set locked.threads atPlace List.prefix_rfl
  | withdrew place spurious before orderId withdrawn ok atPlace task free cancels =>
      exact set (locked_cancelOrder sound cancels).threads atPlace List.prefix_rfl
  | ticked | calledBack | unlocked => exact stays rfl
  | tickOrdered holder request rest =>
      have locked : Locked host server.drawn _ _ _ := locked_processOrder
        (Server.sound_drawn sound) holder rest (request.order server.engine.nextId 0)
      exact stays locked.threads
  | broadcast held message rest =>
      refine ⟨thread.receive message, ?_, ?_⟩
      · rw [List.getElem?_map, found]
        rfl
      · unfold Thread.receive
        split
        · exact List.prefix_append _ _
        · exact List.prefix_rfl

end Inbox

/-- Each answer a client has been sent comes from one of its messages. -/
theorem Conversed.getElem? {user : Int} {msgs : List Text} {calls : List Handed}
    {answers : List (Text × Answer)} (conversed : Conversed user msgs calls answers) {index : Nat}
    {requestId : Text} {given : Answer} (found : answers[index]? = some (requestId, given)) :
    ∃ earlier made msg these, Conversed user earlier made (answers.take index) ∧
      earlier ++ [msg] <+: msgs ∧ made ++ these <+: calls ∧ earlier.length = index ∧
      requestId = requestIdOf msg ∧ Served user msg these given := by
  have lengths := congrArg List.length conversed.requestIds
  rw [List.length_map, List.length_map] at lengths
  induction conversed with
  | nil => simp at found
  | @snoc msgs calls these answers msg answer past served ih =>
      have shorter := congrArg List.length past.requestIds
      rw [List.length_map, List.length_map] at shorter
      rw [List.getElem?_append] at found
      split at found
      · rename_i within
        obtain ⟨earlier, made, own, part, conversed, isOwn, isPart, length, named, serves⟩ :=
          ih found shorter
        refine ⟨earlier, made, own, part, ?_, isOwn.trans (List.prefix_append _ _),
          isPart.trans (List.prefix_append _ _), length, named, serves⟩
        rwa [List.take_append_of_le_length (Nat.le_of_lt within)]
      · have last : index = answers.length := by
          have bound := (List.getElem?_eq_some_iff.mp found).choose
          rw [List.length_singleton] at bound
          omega
        subst last
        rw [Nat.sub_self] at found
        cases found
        refine ⟨msgs, calls, msg, these, ?_, List.prefix_rfl, List.prefix_rfl, shorter.symm, rfl,
          served⟩
        rwa [List.take_left]

theorem Conversing.getElem? {thread : Thread} {msgs : List Text} {calls : List Handed}
    (conversing : Conversing thread msgs calls) {index : Nat} {requestId : Text} {given : Answer}
    (found : thread.answers[index]? = some (requestId, given)) :
    ∃ earlier made msg these, Conversed thread.userId earlier made (thread.answers.take index) ∧
      earlier ++ [msg] <+: msgs ∧ made ++ these <+: calls ∧ earlier.length = index ∧
      requestId = requestIdOf msg ∧ Served thread.userId msg these given := by
  cases conversing with
  | listens _ past => exact past.getElem? found
  | serves past =>
      obtain ⟨earlier, made, msg, these, conversed, isMsg, isPart, length, named, served⟩ :=
        past.getElem? found
      exact ⟨earlier, made, msg, these, conversed, isMsg.trans (List.prefix_append _ _),
        isPart.trans (List.prefix_append _ _), length, named, served⟩

/-! ## A client that stays -/

/-- A client that is about to be added to `clients_`, or has been and has not hung up. -/
def Thread.Attends (thread : Thread) : Prop :=
  match thread.task with
  | .connect reclaimUid _ => reclaimUid.isSome = true
  | .register _ => True
  | .done => False
  | _ => thread.registered = true

section Attends

variable {host : Host} {server next : Server} {thread : Thread}

theorem Thread.attends_connecting {reclaimUid : Option Int} (named : reclaimUid.isSome = true)
    (stage : Connecting) : (thread.connecting reclaimUid stage).Attends := by
  obtain ⟨uid, rfl⟩ := Option.isSome_iff_exists.mp named
  unfold connecting
  split
  · rename_i noReclaim
    cases noReclaim
  · trivial
  · rfl

/-- A client's own thread drops it only when a message cannot be processed or does not come. -/
theorem attends_of_advance {index : Nat} {spurious : Bool} (sound : server.engine.book.Sound)
    (attends : thread.Attends) (advances : server.advance host index spurious thread = .ok next) :
    ∃ after, next.threads = server.threads.set index after ∧ after.Attends := by
  unfold Server.advance at advances
  unfold Thread.Attends at attends
  split at advances <;> rename_i task <;> rw [task] at attends
  · cases advances
    exact ⟨_, rfl, Thread.attends_connecting attends _⟩
  · cases advances
    exact ⟨_, rfl, rfl⟩
  · cases advances
    exact ⟨_, rfl, attends⟩
  · split at advances
    · cases advances
    · cases advances
      exact ⟨_, rfl, attends⟩
  · split at advances
    · cases advances
    · cases advances
      exact ⟨_, rfl, attends⟩
  · cases advances
    exact ⟨_, rfl, attends⟩
  · split at advances
    · cases advances
    · cases advances
      exact ⟨_, rfl, attends⟩
  · cases advances
    refine ⟨_, rfl, ?_⟩
    rename_i orderId
    by_cases owner : server.users.getUserForOrder orderId = thread.userId
    · rw [if_pos owner]
      exact attends
    · rw [if_neg owner]
      exact attends
  · split at advances
    · cases advances
    · split at advances
      · cases advances
      · rename_i withdrawn ok cancels
        cases advances
        exact ⟨{ thread with task := .answer (.ok ok) },
          by rw [Server.setThread, (locked_cancelOrder sound cancels).threads], attends⟩
  · split at advances
    · cases advances
    · cases advances
      exact ⟨_, rfl, attends⟩
  · cases advances
  · cases advances

theorem Thread.Attends.of_same {after : Thread} (attends : thread.Attends)
    (task : after.task = thread.task) (registered : after.registered = thread.registered) :
    after.Attends := by
  unfold Thread.Attends at attends ⊢
  rw [task, registered]
  exact attends

/-- A message that can be processed keeps the client. -/
theorem Thread.Attends.process (attends : thread.Attends) (task : thread.task = .serve) {msg : Text}
    {next : Task} (processed : processMessage msg = .ok next) : (thread.process msg).Attends := by
  unfold Thread.Attends at attends
  rw [task] at attends
  unfold Thread.process
  rw [processed]
  rcases task_of_processMessage processed with ⟨_, rfl⟩ | ⟨_, rfl⟩ | ⟨_, rfl⟩ <;> exact attends

/-- What others do, a client stays; it leaves with a message that cannot be processed. -/
theorem attends_of_step (sound : server.engine.book.Sound) {log : List ServerEntry}
    (talking : Talking log server) {index : Nat} (found : server.threads[index]? = some thread)
    (attends : thread.Attends) {action : Action} (stays : action ≠ .hangUp index)
    (processed : ∀ msg, action = .message index msg → ∃ task, processMessage msg = .ok task)
    (steps : server.step host action = .ok (next, ())) :
    ∃ after, next.threads[index]? = some after ∧ after.Attends := by
  have same : ∀ {threads : List Thread}, threads[index]? = server.threads[index]? →
      ∃ after, threads[index]? = some after ∧ after.Attends :=
    fun same => ⟨thread, same.trans found, attends⟩
  have opened : ∀ {other : Thread}, (server.opened other).threads[index]? =
      server.threads[index]? :=
    List.getElem?_append_left (List.getElem?_eq_some_iff.mp found).choose
  cases action with
  | postConnect | postOrder | postCancel | dial =>
      cases steps
      exact same opened
  | message place msg =>
      simp only [Server.step] at steps
      split at steps
      · cases steps
      · rename_i other atPlace
        split at steps
        · rename_i task
          cases steps
          by_cases here : place = index
          · subst here
            obtain rfl := Option.some.inj (found.symm.trans atPlace)
            obtain ⟨next, isNext⟩ := processed msg rfl
            exact ⟨_, getElem?_setThread rfl found _, attends.process task isNext⟩
          · exact same (List.getElem?_set_ne here)
        · cases steps
  | hangUp place =>
      have elsewhere : place ≠ index := fun here => stays (congrArg _ here)
      simp only [Server.step] at steps
      split at steps
      · cases steps
      · split at steps
        · cases steps
          exact same (List.getElem?_set_ne elsewhere)
        · cases steps
  | advance place spurious =>
      simp only [Server.step] at steps
      split at steps
      · cases steps
      · rename_i other atPlace
        split at steps
        · cases steps
        · rename_i advances
          cases steps
          by_cases here : place = index
          · subst here
            obtain rfl := Option.some.inj (found.symm.trans atPlace)
            obtain ⟨after, threads, stillAttends⟩ := attends_of_advance sound attends advances
            rw [threads]
            exact ⟨after, List.getElem?_set_self (List.getElem?_eq_some_iff.mp found).choose,
              stillAttends⟩
          · have talks := talking.talks place
            rw [atPlace] at talks
            obtain ⟨after, threads, _⟩ := goes_of_advance atPlace spurious talks sound advances
            rw [threads]
            exact same (List.getElem?_set_ne here)
  | tick requests =>
      simp only [Server.step] at steps
      split at steps
      · cases steps
      · cases steps
        exact same rfl
  | tickOrder =>
      obtain ⟨holder, request, rest, held, rfl⟩ := moves_of_tickOrder steps
      exact same rfl
  | callback | unlock =>
      simp only [Server.step] at steps
      split at steps
      · cases steps
        exact same rfl
      · cases steps
  | broadcast =>
      simp only [Server.step] at steps
      split at steps
      · rename_i message rest held
        cases steps
        refine ⟨thread.receive message, ?_, attends.of_same (by simp) (by simp)⟩
        rw [List.getElem?_map, found]
        rfl
      · cases steps

end Attends

end OrderBookSimulator
