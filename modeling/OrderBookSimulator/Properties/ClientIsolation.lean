import OrderBookSimulator.Engine.Makers
import OrderBookSimulator.Server.Moves
import OrderBookSimulator.Server.Responding

/-!
# Clients and the orders of others

`process_message` reads who owns an order without `book_mtx` and cancels later.
What was read still holds then, because an id is given to one order only and
its owner is written once.  An order gets its id from `next_order_id` and its
user from the session.  What need not hold any more is that the order rests:
when others fill it before the cancel takes `book_mtx`, `find_order` follows the
iterator of an erased node.
-/

namespace OrderBookSimulator

open Library

/-- No order has had the id: the book does not know it and it has no owner. -/
def Server.Unused (server : Server) (orderId : Int) : Prop :=
  server.engine.book.index.find? orderId = none ∧ server.users.orderToUser.find? orderId = none

/-- The thread is about to submit the order. -/
def Server.Submits (server : Server) (index : Nat) (order : Order) : Prop :=
  ∃ thread, server.threads[index]? = some thread ∧ thread.task = .submit order

/-- The server as `main` starts it: a seeded book, and nobody there. -/
structure Server.Seeded (server : Server) : Prop where
  sound : server.engine.book.Sound
  ids : ∀ orderId, (server.engine.book.index.find? orderId).isSome →
    orderId < server.engine.nextId
  house : ∀ order ∈ server.engine.book.resting, order.userId = 0
  noOwners : server.users.orderToUser = .empty
  noThreads : server.threads = []

/-! ## Ids and owners -/

/-- Ids are new until they are allotted, and the book's orders belong to their users. -/
structure Registered (server : Server) : Prop where
  sound : server.engine.book.Sound
  unused : ∀ orderId, server.engine.nextId ≤ orderId → server.Unused orderId
  owners : ∀ order ∈ server.engine.book.resting,
    server.users.getUserForOrder order.id = order.userId

/-- What a thread has established about the id it is about to hand to the engine. -/
structure Thread.Cleared (server : Server) (thread : Thread) : Prop where
  submits : ∀ order, thread.task = .submit order →
    order.id < server.engine.nextId ∧ server.Unused order.id ∧ order.userId = thread.userId
  withdraws : ∀ orderId, thread.task = .withdraw orderId → 0 < thread.userId →
    server.users.orderToUser.find? orderId = some thread.userId

structure Owned (server : Server) : Prop extends Registered server where
  threads : ∀ thread ∈ server.threads, thread.Cleared server
  distinct : ∀ first second order other, server.Submits first order →
    server.Submits second other → order.id = other.id → first = second

namespace Thread

/-- A thread that hands no id to the engine has nothing to establish. -/
theorem cleared_of_idle {server : Server} {thread : Thread}
    (notSubmitting : ∀ order, thread.task ≠ .submit order)
    (notWithdrawing : ∀ orderId, thread.task ≠ .withdraw orderId) : thread.Cleared server where
  submits := fun order task => absurd task (notSubmitting order)
  withdraws := fun orderId task => absurd task (notWithdrawing orderId)

/-- Only its own order could spend the id that a thread is about to submit. -/
theorem Cleared.mono {server next : Server} {thread : Thread} (cleared : thread.Cleared server)
    (nextId : server.engine.nextId ≤ next.engine.nextId)
    (unused : ∀ order, thread.task = .submit order → server.Unused order.id →
      next.Unused order.id)
    (owners : ∀ orderId owner, server.users.orderToUser.find? orderId = some owner →
      next.users.orderToUser.find? orderId = some owner) : thread.Cleared next where
  submits := by
    intro order task
    obtain ⟨allotted, isUnused, user⟩ := cleared.submits order task
    exact ⟨Int.lt_of_lt_of_le allotted nextId, unused order task isUnused, user⟩
  withdraws := fun orderId task positive => owners _ _ (cleared.withdraws orderId task positive)

theorem task_connecting (thread : Thread) (reclaimUid : Option Int) (stage : Connecting) :
    (∀ order, (thread.connecting reclaimUid stage).task ≠ .submit order) ∧
      ∀ orderId, (thread.connecting reclaimUid stage).task ≠ .withdraw orderId := by
  unfold connecting
  split <;> simp

@[simp] theorem task_receive (message : Message) (thread : Thread) :
    (thread.receive message).task = thread.task := by
  unfold receive
  split <;> rfl

@[simp] theorem userId_receive (message : Message) (thread : Thread) :
    (thread.receive message).userId = thread.userId := by
  unfold receive
  split <;> rfl

/-- No message reaches the engine without an id drawn or an owner checked. -/
theorem task_of_processMessage {msg : Text} {task : Task} (processed : processMessage msg = .ok task) :
    (∃ answer, task = .answer answer) ∨ (∃ request, task = .drawId request) ∨
      ∃ orderId, task = .checkOwner orderId := by
  unfold processMessage at processed
  dsimp only at processed
  split at processed
  · split at processed <;> cases processed
    · exact Or.inl ⟨_, rfl⟩
    · exact Or.inr (Or.inl ⟨_, rfl⟩)
  · split at processed
    · split at processed <;> cases processed
      · exact Or.inl ⟨_, rfl⟩
      · exact Or.inr (Or.inr ⟨_, rfl⟩)
    · cases processed
      exact Or.inl ⟨_, rfl⟩

theorem task_process (thread : Thread) (msg : Text) :
    (∀ order, (thread.process msg).task ≠ .submit order) ∧
      ∀ orderId, (thread.process msg).task ≠ .withdraw orderId := by
  unfold process
  split
  · simp [hangUp]
  · rename_i task processed
    rcases task_of_processMessage processed with ⟨answer, rfl⟩ | ⟨request, rfl⟩ | ⟨orderId, rfl⟩
    · simp
    · simp
    · simp

theorem Sends.idle {host : Host} {server : Server} {thread : Thread} {message : Message}
    {task : Task} (sends : thread.Sends host server message task) :
    (∀ order, task ≠ .submit order) ∧ ∀ orderId, task ≠ .withdraw orderId := by
  cases sends <;> simp

/-- A thread that turns to a cancel has just found that it may. -/
theorem Turns.cleared {server : Server} {thread next : Thread} (turns : thread.Turns server next) :
    (∀ order, next.task ≠ .submit order) ∧ next.Cleared server := by
  cases turns with
  | reads msg =>
      obtain ⟨notSubmitting, notWithdrawing⟩ := thread.task_process msg
      exact ⟨notSubmitting, cleared_of_idle notSubmitting notWithdrawing⟩
  | registers | hangsUp | finishes =>
      exact ⟨by simp [hangUp], cleared_of_idle (by simp [hangUp]) (by simp [hangUp])⟩
  | checks orderId task =>
      dsimp only
      split
      · rename_i isOwner
        refine ⟨by simp, by simp, ?_⟩
        rintro other same positive
        cases same
        dsimp only at positive ⊢
        rw [← isOwner] at positive ⊢
        unfold UserManager.getUserForOrder SortedMap.findD at positive ⊢
        cases found : server.users.orderToUser.find? orderId with
        | none => simp [found] at positive
        | some owner => rfl
      · exact ⟨by simp, cleared_of_idle (by simp) (by simp)⟩

end Thread

/-! ## One step -/

section Step

variable {host : Host} {server next : Server}

theorem Registered.of_same (registered : Registered server)
    (book : next.engine.book = server.engine.book)
    (nextId : server.engine.nextId ≤ next.engine.nextId)
    (owners : next.users.orderToUser = server.users.orderToUser) : Registered next where
  sound := book ▸ registered.sound
  unused := by
    intro orderId later
    unfold Server.Unused
    rw [book, owners]
    exact registered.unused orderId (Int.le_trans nextId later)
  owners := by
    rw [book]
    intro order member
    rw [UserManager.getUserForOrder_congr owners]
    exact registered.owners order member

theorem mem_setThread {index : Nat} {after other : Thread}
    (member : other ∈ (server.setThread index after).threads) :
    other = after ∨ ∃ place, place ≠ index ∧ server.threads[place]? = some other := by
  obtain ⟨place, found⟩ := List.mem_iff_getElem?.mp member
  rw [Server.setThread, List.getElem?_set] at found
  split at found
  · split at found
    · cases found
      exact Or.inl rfl
    · cases found
  · rename_i different
    exact Or.inr ⟨place, Ne.symm different, found⟩

theorem submits_setThread {index other : Nat} {order : Order} {after : Thread}
    (submits : (server.setThread index after).Submits other order) :
    (other = index ∧ after.task = .submit order) ∨ (other ≠ index ∧ server.Submits other order) := by
  obtain ⟨thread, found, task⟩ := submits
  rw [Server.setThread, List.getElem?_set] at found
  split at found
  · rename_i same
    split at found
    · cases found
      exact Or.inl ⟨same.symm, task⟩
    · cases found
  · rename_i different
    exact Or.inr ⟨Ne.symm different, thread, found, task⟩

/-- A thread that stops submitting leaves the other submissions as they are. -/
theorem submits_setThread_of_idle {index other : Nat} {order : Order} {after : Thread}
    (idle : ∀ order, after.task ≠ .submit order)
    (submits : (server.setThread index after).Submits other order) :
    other ≠ index ∧ server.Submits other order := by
  rcases submits_setThread submits with ⟨_, task⟩ | before
  · exact absurd task (idle order)
  · exact before

theorem submits_of_threads {index : Nat} {order : Order} (same : next.threads = server.threads)
    (submits : next.Submits index order) : server.Submits index order := by
  obtain ⟨thread, found, task⟩ := submits
  rw [same] at found
  exact ⟨thread, found, task⟩

/-- A step that changes neither engine nor owners, and submits nothing new. -/
theorem Owned.of_same (owned : Owned server) (engine : next.engine = server.engine)
    (owners : next.users.orderToUser = server.users.orderToUser)
    (threads : ∀ thread ∈ next.threads, thread.Cleared server)
    (fewer : ∀ index order, next.Submits index order → server.Submits index order) :
    Owned next where
  toRegistered := owned.toRegistered.of_same (by rw [engine]) (by rw [engine]) owners
  threads := by
    intro thread member
    refine (threads thread member).mono (by rw [engine]) (fun order task unused => ?_)
      (fun orderId owner found => by rw [owners]; exact found)
    unfold Server.Unused
    rw [engine, owners]
    exact unused
  distinct := fun first second order other submits submits' =>
    owned.distinct first second order other (fewer _ _ submits) (fewer _ _ submits')

theorem Locked.nextId {call : Call} {reply : Reply} (locked : Locked host server call reply next)
    (notDrawn : call ≠ .nextOrderId) : next.engine.nextId = server.engine.nextId := by
  rw [locked.answered.nextId, if_neg notDrawn]
  exact Int.add_zero _

/-! ### An order is processed -/

section Processed

variable {order : Order} {result : OrderResult}
  (locked : Locked host server (.processOrder order) (.result result) next)

include locked

/-- Only the order's own id is spent. -/
theorem Locked.unused_of_ne (unused : server.Unused order.id) {orderId : Int}
    (other : orderId ≠ order.id) (isUnused : server.Unused orderId) : next.Unused orderId := by
  refine ⟨locked.answered.index_of_processOrder unused.1 other isUnused.1, ?_⟩
  rw [locked.users, UserManager.registered, UserManager.registerOrder, SortedMap.find?_insert,
    if_neg other]
  exact isUnused.2

/-- An owner is written once. -/
theorem Locked.owner_of_some (unused : server.Unused order.id) {orderId owner : Int}
    (found : server.users.orderToUser.find? orderId = some owner) :
    next.users.orderToUser.find? orderId = some owner := by
  have other : orderId ≠ order.id := by
    rintro rfl
    rw [unused.2] at found
    cases found
  rw [locked.users, UserManager.registered, UserManager.registerOrder, SortedMap.find?_insert,
    if_neg other]
  exact found

theorem Locked.getUserForOrder_processOrder :
    next.users.getUserForOrder order.id = order.userId := by
  rw [locked.users, UserManager.registered, UserManager.getUserForOrder_registerOrder, if_pos rfl]

theorem Registered.processed (registered : Registered server)
    (allotted : order.id < server.engine.nextId) (unused : server.Unused order.id) :
    Registered next where
  sound := locked.answered.sound (Server.sound_attached registered.sound)
  unused := by
    intro orderId later
    rw [locked.nextId (by simp)] at later
    exact locked.unused_of_ne unused (by omega) (registered.unused orderId later)
  owners := by
    intro now member
    rcases locked.answered.mem_resting member with same | ⟨old, oldMember, same⟩
    · rw [same]
      exact locked.getUserForOrder_processOrder
    · have other : old.id ≠ order.id := by
        intro sameId
        exact registered.sound.not_resting_of_unknown unused.1 ⟨old, oldMember, sameId⟩
      rw [same, locked.users, UserManager.registered, UserManager.getUserForOrder_registerOrder,
        if_neg other]
      exact registered.owners old oldMember

end Processed

/-! ### An order is cancelled -/

theorem Locked.unused_of_cancelOrder {orderId other : Int} {ok : Bool}
    (locked : Locked host server (.cancelOrder orderId) (.cancelled ok) next)
    (unused : server.Unused other) : next.Unused other :=
  ⟨locked.answered.index_of_cancelOrder unused.1, by rw [locked.users]; exact unused.2⟩

theorem Registered.cancelled {orderId : Int} {ok : Bool} (registered : Registered server)
    (locked : Locked host server (.cancelOrder orderId) (.cancelled ok) next) :
    Registered next where
  sound := locked.answered.sound (Server.sound_attached registered.sound)
  unused := by
    intro other later
    rw [locked.nextId (by simp)] at later
    exact locked.unused_of_cancelOrder (registered.unused other later)
  owners := by
    intro order member
    have before := (locked.answered.resting_of_cancelOrder
      (Server.sound_attached registered.sound) order).mp member
    rw [locked.users]
    exact registered.owners order before.1

/-! ### Every move -/

theorem Owned.opened (owned : Owned server) {thread : Thread} (arrives : thread.Arrives) :
    Owned (server.opened thread) := by
  refine owned.of_same rfl rfl ?_ ?_
  · intro other member
    rcases List.mem_append.mp member with old | new
    · exact owned.threads other old
    · cases List.mem_singleton.mp new
      exact ⟨fun order task => absurd task (arrives.notSubmitting order),
        fun orderId task positive => absurd positive (arrives.unchecked orderId task)⟩
  · rintro index order ⟨other, found, task⟩
    rw [Server.opened, List.getElem?_append] at found
    split at found
    · exact ⟨other, found, task⟩
    · cases List.mem_singleton.mp (List.mem_of_getElem? found)
      exact absurd task (arrives.notSubmitting order)

/-- One thread goes on without submitting anything. -/
theorem Owned.replaced (owned : Owned server) {index : Nat} {after : Thread}
    (notSubmitting : ∀ order, after.task ≠ .submit order) (cleared : after.Cleared server) :
    Owned (server.setThread index after) :=
  owned.of_same rfl rfl (Server.forall_setThread owned.threads cleared)
    fun _ _ submits => (submits_setThread_of_idle notSubmitting submits).2

/-- An order about to be submitted has an id from below the counter. -/
theorem Owned.allotted (owned : Owned server) {index : Nat} {order : Order}
    (submits : server.Submits index order) : order.id < server.engine.nextId := by
  obtain ⟨thread, found, task⟩ := submits
  exact ((owned.threads thread (List.mem_of_getElem? found)).submits order task).1

theorem Owned.drew (owned : Owned server) {index : Nat} {thread : Thread} (request : OrderRequest) :
    Owned (server.drawn.setThread index
      { thread with task := .submit (request.order server.engine.nextId thread.userId) }) := by
  have rises : server.engine.nextId < server.engine.nextId + 1 := by omega
  have isNew : server.Unused server.engine.nextId := owned.unused _ (Int.le_refl _)
  exact {
    toRegistered := owned.toRegistered.of_same rfl (Int.le_of_lt rises) rfl
    threads := by
      refine Server.forall_setThread (fun other member => ?_)
        ⟨fun order task => ?_, fun orderId task => by cases task⟩
      · exact (owned.threads other member).mono (Int.le_of_lt rises) (fun _ _ unused => unused)
          fun _ _ owner => owner
      · cases task
        exact ⟨rises, isNew, rfl⟩
    distinct := by
      intro first second order other submits submits' same
      rcases submits_setThread submits with ⟨atFirst, new⟩ | ⟨_, old⟩
      · cases new
        rcases submits_setThread submits' with ⟨atSecond, _⟩ | ⟨_, old'⟩
        · rw [atFirst, atSecond]
        · exact absurd same.symm (Int.ne_of_lt (owned.allotted old'))
      · rcases submits_setThread submits' with ⟨_, new'⟩ | ⟨_, old'⟩
        · cases new'
          exact absurd same (Int.ne_of_lt (owned.allotted old))
        · exact owned.distinct first second order other old old' same }

theorem Owned.submitted (owned : Owned server) {index : Nat} {thread : Thread} {order : Order}
    {result : OrderResult} (found : server.threads[index]? = some thread)
    (task : thread.task = .submit order)
    (locked : Locked host server (.processOrder order) (.result result) next) :
    Owned (next.setThread index { thread with task := .answer (.result result) }) := by
  obtain ⟨allotted, unused, _⟩ :=
    (owned.threads thread (List.mem_of_getElem? found)).submits order task
  have registered := owned.toRegistered.processed locked allotted unused
  exact {
    toRegistered := registered.of_same rfl (Int.le_refl _) rfl
    threads := by
      intro other member
      rcases mem_setThread member with rfl | ⟨place, elsewhere, atPlace⟩
      · exact Thread.cleared_of_idle (by simp) (by simp)
      · rw [locked.threads] at atPlace
        refine (owned.threads other (List.mem_of_getElem? atPlace)).mono
          (Int.le_of_eq (locked.nextId (by simp)).symm) (fun mine submitting isUnused => ?_)
          (fun _ _ owner => locked.owner_of_some unused owner)
        -- two threads never submit orders of one id
        refine locked.unused_of_ne unused (fun same => elsewhere ?_) isUnused
        exact owned.distinct place index mine order ⟨other, atPlace, submitting⟩
          ⟨thread, found, task⟩ same
    distinct := fun first second mine other submits submits' =>
      owned.distinct first second mine other
        (submits_of_threads locked.threads (submits_setThread_of_idle (by simp) submits).2)
        (submits_of_threads locked.threads (submits_setThread_of_idle (by simp) submits').2) }

theorem Owned.withdrew (owned : Owned server) {index : Nat} {thread : Thread} {orderId : Int}
    {ok : Bool} (locked : Locked host server (.cancelOrder orderId) (.cancelled ok) next) :
    Owned (next.setThread index { thread with task := .answer (.ok ok) }) := by
  have registered := owned.toRegistered.cancelled locked
  exact {
    toRegistered := registered.of_same rfl (Int.le_refl _) rfl
    threads := by
      refine Server.forall_setThread (fun other member => ?_)
        (Thread.cleared_of_idle (by simp) (by simp))
      rw [locked.threads] at member
      refine (owned.threads other member).mono (Int.le_of_eq (locked.nextId (by simp)).symm)
        (fun _ _ unused => locked.unused_of_cancelOrder unused) (fun _ _ owner => ?_)
      change next.users.orderToUser.find? _ = _
      rw [locked.users]
      exact owner
    distinct := fun first second mine other submits submits' =>
      owned.distinct first second mine other
        (submits_of_threads locked.threads (submits_setThread_of_idle (by simp) submits).2)
        (submits_of_threads locked.threads (submits_setThread_of_idle (by simp) submits').2) }

/-- The order of a tick gets its id and is submitted under one lock. -/
theorem Owned.ticked (owned : Owned server) {request : OrderRequest} {result : OrderResult}
    (locked : Locked host server.drawn
      (.processOrder (request.order server.engine.nextId 0)) (.result result) next) :
    Owned next := by
  have rises : server.engine.nextId < server.engine.nextId + 1 := by omega
  have drawn : Registered server.drawn :=
    owned.toRegistered.of_same rfl (Int.le_of_lt rises) rfl
  have isNew : server.drawn.Unused server.engine.nextId := owned.unused _ (Int.le_refl _)
  exact {
    toRegistered := drawn.processed locked rises isNew
    threads := by
      intro other member
      rw [locked.threads] at member
      have cleared := owned.threads other member
      refine cleared.mono ?_ (fun mine submitting isUnused => ?_)
        (fun _ _ owner => locked.owner_of_some isNew owner)
      · rw [locked.nextId (by simp)]
        exact Int.le_of_lt rises
      · exact locked.unused_of_ne isNew (Int.ne_of_lt (cleared.submits mine submitting).1) isUnused
    distinct := fun first second order other submits submits' =>
      owned.distinct first second order other (submits_of_threads locked.threads submits)
        (submits_of_threads locked.threads submits') }

theorem Owned.broadcast (owned : Owned server) (message : Message) (held : Option Held) :
    Owned { server with threads := server.threads.map (·.receive message), held } := by
  refine owned.of_same rfl rfl ?_ ?_
  · intro receiver member
    obtain ⟨thread, inThreads, rfl⟩ := List.mem_map.mp member
    have cleared := owned.threads thread inThreads
    exact ⟨by simpa using cleared.submits, by simpa using cleared.withdraws⟩
  · rintro index order ⟨receiver, found, task⟩
    rw [List.getElem?_map] at found
    obtain ⟨thread, foundThread, rfl⟩ := Option.map_eq_some_iff.mp found
    exact ⟨thread, foundThread, by simpa using task⟩

theorem Owned.step {action : Action} (owned : Owned server)
    (moves : Moves host server action next) : Owned next := by
  cases moves with
  | opened thread arrives => exact owned.opened arrives
  | connected index spurious thread reclaimUid stage found task =>
      obtain ⟨notSubmitting, notWithdrawing⟩ := thread.task_connecting reclaimUid
        (stage.step host spurious server.ids server.users).2.2
      exact owned.of_same rfl (Connecting.orderToUser_step ..)
        (Server.forall_setThread owned.threads
          (Thread.cleared_of_idle notSubmitting notWithdrawing))
        fun _ _ submits => (submits_setThread_of_idle notSubmitting submits).2
  | turned index thread after found turns =>
      obtain ⟨notSubmitting, cleared⟩ := turns.cleared
      exact owned.replaced notSubmitting cleared
  | sent index thread message task found sends =>
      obtain ⟨notSubmitting, notWithdrawing⟩ := sends.idle
      exact owned.replaced notSubmitting (Thread.cleared_of_idle notSubmitting notWithdrawing)
  | drew index spurious thread request => exact owned.drew request
  | submitted index spurious thread order found task =>
      exact owned.submitted found task (locked_processOrder owned.sound (some index) [] order)
  | withdrew index spurious thread orderId withdrawn ok found task free cancels =>
      exact owned.withdrew (locked_cancelOrder owned.sound cancels)
  | ticked => exact owned.of_same rfl rfl owned.threads fun _ _ submits => submits
  | tickOrdered holder request rest =>
      exact owned.ticked (locked_processOrder (Server.sound_drawn owned.sound) holder rest _)
  | calledBack =>
      exact owned.of_same rfl (UserManager.orderToUser_apply ..) owned.threads
        fun _ _ submits => submits
  | broadcast held message rest => exact owned.broadcast message _
  | unlocked => exact owned.of_same rfl rfl owned.threads fun _ _ submits => submits

/-! ## Cancels that come too late -/

/-- A thread takes `book_mtx` to cancel an order that was filled completely. -/
def Server.CancelsFilled (server : Server) : Action → Prop
  | .advance index _ => server.held = none ∧ ∃ thread orderId,
      server.threads[index]? = some thread ∧ thread.task = .withdraw orderId ∧
        server.engine.book.Stale orderId
  | _ => False

/-- Only a cancel can fail in the engine. -/
theorem withdraws_of_advance_fault {index : Nat} {spurious : Bool} {thread : Thread} {fault : Fault}
    (faults : server.advance host index spurious thread = .error (.fault fault)) :
    server.held = none ∧ ∃ orderId, thread.task = .withdraw orderId ∧
      ∀ answered, server.cancelOrder host (some index) orderId ≠ .ok answered := by
  unfold Server.advance at faults
  cases task : thread.task with
  | connect | register | greet | drawId | checkOwner | serve | done =>
      rw [task] at faults
      cases faults
  | sendBook | sendOrders | submit =>
      simp only [task] at faults
      split at faults <;> cases faults
  | withdraw orderId =>
      simp only [task] at faults
      split at faults
      · cases faults
      · rename_i free
        refine ⟨by simpa using free, orderId, rfl, fun answered cancels => ?_⟩
        rw [cancels] at faults
        cases faults
  | answer =>
      simp only [task] at faults
      split at faults
      · cases faults
      · split at faults <;> cases faults

theorem step_fault_of_cancelsFilled {action : Action} (sound : server.engine.book.Sound)
    (filled : server.CancelsFilled action) :
    server.step host action = .error (.fault .erasedNode) := by
  cases action with
  | advance index spurious =>
      obtain ⟨free, thread, orderId, found, task, stale⟩ := filled
      have notHeld : ¬ server.held.isSome := by simp [free]
      have faults : server.cancelOrder host (some index) orderId = .error .erasedNode := by
        rw [Server.cancelOrder, MatchingEngine.cancelOrder_of_stale host
          (Server.sound_attached sound) stale]
        rfl
      simp only [Server.step, found, Server.advance, task, if_neg notHeld, faults]
  | _ => exact False.elim filled

/-- The one thing that fails is a cancel of an order that was filled completely. -/
theorem step_faults_iff {action : Action} (sound : server.engine.book.Sound) :
    (∃ fault, server.step host action = .error (.fault fault)) ↔ server.CancelsFilled action := by
  refine ⟨?_, fun filled => ⟨_, step_fault_of_cancelsFilled sound filled⟩⟩
  rintro ⟨fault, faults⟩
  cases action with
  | postConnect | postOrder | postCancel | dial => cases faults
  | message | hangUp =>
      simp only [Server.step] at faults
      split at faults
      · cases faults
      · split at faults <;> cases faults
  | tick | tickOrder | callback | broadcast | unlock =>
      simp only [Server.step] at faults
      split at faults <;> cases faults
  | advance index spurious =>
      simp only [Server.step] at faults
      split at faults
      · cases faults
      · rename_i thread found
        split at faults
        · rename_i stuck advances
          cases faults
          obtain ⟨free, orderId, task, refused⟩ := withdraws_of_advance_fault advances
          refine ⟨free, thread, orderId, found, task, ?_⟩
          by_contra notStale
          obtain ⟨answered, cancels⟩ :=
            (Server.cancels_iff host sound (some index) orderId).mpr notStale
          exact refused answered cancels
        · cases faults

end Step

/-! ## Runs -/

/-- What a client's thread does: its own steps, and those it takes while it holds `book_mtx`. -/
inductive Server.Acts (server : Server) (index : Nat) : Action → Prop where
  | reads (msg : Text) : Acts server index (.message index msg)
  | hangsUp : Acts server index (.hangUp index)
  | advances (spurious : Bool) : Acts server index (.advance index spurious)
  | callsBack (held : Held) (holds : server.held = some held) (own : held.thread = some index) :
      Acts server index .callback
  | broadcasts (held : Held) (holds : server.held = some held) (own : held.thread = some index) :
      Acts server index .broadcast
  | unlocks (held : Held) (holds : server.held = some held) (own : held.thread = some index) :
      Acts server index .unlock

/-- What a step of a thread is to the orders in the book and to their owners. -/
inductive Deals (index : Nat) (thread : Thread) (before after : Server) : Prop where
  | aloof (book : after.engine.book.resting = before.engine.book.resting)
      (owners : after.users.orderToUser = before.users.orderToUser)
  /-- It submits an order of its own user under a new id, which trades with what rests. -/
  | trades (order : Order) (result : OrderResult) (task : thread.task = .submit order)
      (answered : after.threads[index]? =
        some { thread with task := .answer (.result result) })
      (isNew : before.Unused order.id) (user : order.userId = thread.userId)
      (owner : after.users.getUserForOrder order.id = thread.userId)
      (found : ∀ old ∈ before.engine.book.resting,
        TradedWith order result.trades after.engine.book.resting old)
      (left : ∀ now ∈ after.engine.book.resting, now = { order with qty := now.qty } ∨
        ∃ old ∈ before.engine.book.resting, now = { old with qty := now.qty })
  /-- It cancels an order of its own user and leaves all others. -/
  | cancels (orderId : Int) (task : thread.task = .withdraw orderId)
      (owner : before.users.getUserForOrder orderId = thread.userId)
      (owners : after.users.orderToUser = before.users.orderToUser)
      (own : ∀ order ∈ before.engine.book.resting, order.id = orderId →
        order.userId = thread.userId)
      (removes : ∀ order, order ∈ after.engine.book.resting ↔
        order ∈ before.engine.book.resting ∧ order.id ≠ orderId)

/--
What an action of a thread comes to: it makes a step that leaves the orders of
others alone but for trades with them, or it has to wait.
-/
structure Server.Isolates (host : Host) (server : Server) (index : Nat) (thread : Thread)
    (action : Action) : Prop where
  deals : ∀ next, server.step host action = .ok (next, ()) → Deals index thread server next
  defined : ∀ fault, server.step host action ≠ .error (.fault fault)

section Runs

variable {host : Host} {server next start state : Server} {log : List ServerEntry}

theorem Server.Seeded.owned (seeded : start.Seeded) : Owned start where
  sound := seeded.sound
  unused := by
    intro orderId later
    refine ⟨?_, by rw [seeded.noOwners]; rfl⟩
    rw [← Option.not_isSome_iff_eq_none]
    intro known
    have below := seeded.ids orderId known
    omega
  owners := by
    intro order member
    rw [seeded.house order member, UserManager.getUserForOrder, seeded.noOwners]
    rfl
  threads := by simp [seeded.noThreads]
  distinct := by
    rintro first second order other ⟨thread, found, _⟩
    simp [seeded.noThreads] at found

theorem owned_of_serverRun (seeded : start.Seeded) (run : ServerRun host start log state) :
    Owned state :=
  run.invariant (fun _ server => Owned server) seeded.owned
    fun _ _ _ _ _ _ owned _ steps => owned.step (moves_of_step steps)

/-- Whatever happens, an order keeps the owner it was registered to. -/
theorem Moves.owner {action : Action} (moves : Moves host server action next) (owned : Owned server)
    {orderId owner : Int} (found : server.users.orderToUser.find? orderId = some owner) :
    next.users.orderToUser.find? orderId = some owner := by
  cases moves with
  | opened | turned | sent | drew | ticked | broadcast | unlocked => exact found
  | connected index spurious thread reclaimUid stage =>
      change (stage.step _ spurious server.ids server.users).2.1.orderToUser.find? _ = _
      rw [Connecting.orderToUser_step]
      exact found
  | submitted index spurious thread order atIndex task =>
      obtain ⟨_, unused, _⟩ :=
        (owned.threads thread (List.mem_of_getElem? atIndex)).submits order task
      have locked : Locked host server (.processOrder order) _ _ :=
        locked_processOrder owned.sound (some index) [] order
      exact locked.owner_of_some unused found
  | withdrew index spurious thread cancelledId withdrawn ok atIndex task free cancels =>
      change withdrawn.users.orderToUser.find? _ = _
      rw [(locked_cancelOrder owned.sound cancels).users]
      exact found
  | tickOrdered holder request rest =>
      have isNew : server.drawn.Unused server.engine.nextId := owned.unused _ (Int.le_refl _)
      have locked : Locked host server.drawn
          (.processOrder (request.order server.engine.nextId 0)) _ _ :=
        locked_processOrder (Server.sound_drawn owned.sound) holder rest _
      exact locked.owner_of_some isNew found
  | calledBack held call =>
      rw [UserManager.orderToUser_apply]
      exact found

theorem Owned.deals {action : Action} {index : Nat} {thread : Thread} (owned : Owned server)
    (atIndex : server.threads[index]? = some thread) (named : 0 < thread.userId)
    (acts : server.Acts index action) (moves : Moves host server action next) :
    Deals index thread server next := by
  have cleared := owned.threads thread (List.mem_of_getElem? atIndex)
  cases moves with
  | opened | turned | sent | drew | ticked | broadcast | unlocked => exact .aloof rfl rfl
  | connected => exact .aloof rfl (Connecting.orderToUser_step ..)
  | calledBack => exact .aloof rfl (UserManager.orderToUser_apply ..)
  | tickOrdered => cases acts
  | submitted _ spurious _ order found task free =>
      cases acts
      obtain rfl := Option.some.inj (atIndex.symm.trans found)
      obtain ⟨_, unused, user⟩ := cleared.submits order task
      have locked : Locked host server (.processOrder order) _ _ :=
        locked_processOrder owned.sound (some index) [] order
      refine .trades order (server.processOrder host (some index) [] order).2 task ?_ unused user
        ?_ ?_ ?_
      · rw [Server.setThread, locked.threads]
        exact List.getElem?_set_self (List.getElem?_eq_some_iff.mp found).choose
      · exact locked.getUserForOrder_processOrder.trans user
      · exact fun old member => locked.answered.tradedWith (Server.sound_attached owned.sound)
          unused.1 member
      · exact fun now member => locked.answered.mem_resting member
  | withdrew _ spurious _ orderId withdrawn ok found task free cancels =>
      cases acts
      obtain rfl := Option.some.inj (atIndex.symm.trans found)
      have registered := cleared.withdraws orderId task named
      have owner : server.users.getUserForOrder orderId = thread.userId := by
        rw [UserManager.getUserForOrder, SortedMap.findD, registered]
        rfl
      have locked := locked_cancelOrder owned.sound cancels
      refine .cancels orderId task owner (congrArg _ locked.users) ?_
        (locked.answered.resting_of_cancelOrder (Server.sound_attached owned.sound))
      rintro order member rfl
      rw [← owned.owners order member]
      exact owner

theorem Owned.isolates_iff {action : Action} {index : Nat} {thread : Thread} (owned : Owned server)
    (atIndex : server.threads[index]? = some thread) (named : 0 < thread.userId)
    (acts : server.Acts index action) :
    server.Isolates host index thread action ↔ ¬ server.CancelsFilled action := by
  rw [← step_faults_iff owned.sound]
  constructor
  · rintro isolates ⟨fault, faults⟩
    exact isolates.defined fault faults
  · intro defined
    exact {
      deals := fun next steps => owned.deals atIndex named acts (moves_of_step steps)
      defined := fun fault faults => defined ⟨fault, faults⟩ }

/--
From a seeded book, in every run: an id keeps the owner it was registered to,
the orders in the book are registered to their users, and whatever a client
does either leaves the book alone, or submits an order of the client's own user
that trades with what rests on its own terms, or cancels an order of that user.
Whatever a client does next keeps to this as well, unless it takes `book_mtx`
for a cancel after its order was filled completely.
-/
theorem clients_isolated_iff (seeded : start.Seeded) (run : ServerRun host start log state) :
    (∀ entry ∈ log, ∀ orderId owner,
      entry.before.users.orderToUser.find? orderId = some owner →
        entry.after.users.orderToUser.find? orderId = some owner) ∧
      (∀ order ∈ state.engine.book.resting,
        state.users.getUserForOrder order.id = order.userId) ∧
      (∀ entry ∈ log, ∀ index thread, entry.before.threads[index]? = some thread →
        0 < thread.userId → entry.before.Acts index entry.call →
          Deals index thread entry.before entry.after) ∧
      ∀ index thread action, state.threads[index]? = some thread → 0 < thread.userId →
        state.Acts index action →
          (state.Isolates host index thread action ↔ ¬ state.CancelsFilled action) := by
  have owned := owned_of_serverRun seeded run
  refine ⟨?_, owned.owners, ?_,
    fun index thread action atIndex named acts => owned.isolates_iff atIndex named acts⟩
  · intro entry member orderId owner found
    obtain ⟨past, earlier, _, steps, _⟩ := run.of_mem member
    exact (moves_of_step steps).owner (owned_of_serverRun seeded earlier) found
  · intro entry member index thread atIndex named acts
    obtain ⟨past, earlier, _, steps, _⟩ := run.of_mem member
    exact (owned_of_serverRun seeded earlier).deals atIndex named acts (moves_of_step steps)

def seededOrder : Order := { id := 1, side := .sell, price := 105, qty := 5, type := .limit }

/-- A book with one seeded order. -/
def seededServer : Server := { engine := { book := OrderBook.addRestingOrder {} seededOrder } }

theorem seeded_seededServer : seededServer.Seeded where
  sound := (OrderBook.sound_empty none).afterAdd seededOrder
  ids := by
    intro orderId known
    rw [seededServer, OrderBook.index_addRestingOrder (by decide) rfl,
      SortedMap.find?_insert] at known
    split at known
    · rename_i same
      rw [same]
      decide
    · cases known
  house := by decide
  noOwners := rfl
  noThreads := rfl

/--
User 2 cannot cancel the order of user 1, but buys part of it, between the
check and the cancel of user 1.
-/
theorem clients_isolated_iff_sample :
    ∃ log state, ServerRun (Host.exact (·)) seededServer log state ∧
      state.engine.book.resting.map (·.id) = [1] ∧
      (∃ thread ∈ state.threads, thread.userId = 2 ∧
        .answer [] (.error "Not your order") ∈ thread.inbox) ∧
      (∃ entry ∈ log, ∃ thread, entry.before.threads[0]? = some thread ∧
        thread.task = .withdraw 1000 ∧ Deals 0 thread entry.before entry.after) := by
  have run := Run.of_isSome (Server.step (Host.exact (·))) (fun _ _ => True) seededServer
    [.dial 0, .advance 0 false, .advance 0 false, .advance 0 false, .advance 0 false,
      .advance 0 false, .advance 0 false,
      .dial 0, .advance 1 false, .advance 1 false, .advance 1 false, .advance 1 false,
      .advance 1 false, .advance 1 false,
      .message 0
        "\x7b\"action\":\"order\",\"side\":\"SELL\",\"qty\":5,\"price\":100\x7d".toList,
      .advance 0 false, .advance 0 false, .callback, .broadcast, .broadcast, .unlock,
      .advance 0 false,
      .message 1 "\x7b\"action\":\"cancel\",\"id\":1000\x7d".toList, .advance 1 false,
      .advance 1 false,
      .message 0 "\x7b\"action\":\"cancel\",\"id\":1000\x7d".toList, .advance 0 false,
      .message 1
        "\x7b\"action\":\"order\",\"side\":\"BUY\",\"qty\":2,\"price\":100,\"user_id\":1\x7d".toList,
      .advance 1 false, .advance 1 false, .callback, .broadcast, .broadcast, .broadcast, .unlock,
      .advance 0 false] (by decide)
  have isolated := (clients_isolated_iff seeded_seededServer run).2.2.1
  refine ⟨_, _, run, by decide, by decide, _, List.getLast_mem (by decide), ?_⟩
  refine ⟨_, (Option.some_get (by decide)).symm, by decide, ?_⟩
  exact isolated _ (List.getLast_mem (by decide)) 0 _ (Option.some_get (by decide)).symm
    (by decide) (.advances false)

/--
User 2 buys all of the order of user 1 between the check and the cancel of
user 1, and the cancel follows the iterator of the erased node.
-/
theorem cancel_follows_erased_node :
    ∃ log state, ServerRun (Host.exact (·)) seededServer log state ∧
      (∃ entry ∈ log, entry.call = .advance 0 false ∧
        entry.after.engine.book.Resting 1000 ∧
        entry.after.threads[0]?.map (·.task) = some (.withdraw 1000)) ∧
      ∃ thread, state.threads[0]? = some thread ∧ 0 < thread.userId ∧
        state.Acts 0 (.advance 0 false) ∧
        state.step (Host.exact (·)) (.advance 0 false) = .error (.fault .erasedNode) ∧
        ¬ state.Isolates (Host.exact (·)) 0 thread (.advance 0 false) := by
  have run := Run.of_isSome (Server.step (Host.exact (·))) (fun _ _ => True) seededServer
    [.dial 0, .advance 0 false, .advance 0 false, .advance 0 false, .advance 0 false,
      .advance 0 false, .advance 0 false,
      .dial 0, .advance 1 false, .advance 1 false, .advance 1 false, .advance 1 false,
      .advance 1 false, .advance 1 false,
      .message 0
        "\x7b\"action\":\"order\",\"side\":\"SELL\",\"qty\":5,\"price\":100\x7d".toList,
      .advance 0 false, .advance 0 false, .callback, .broadcast, .broadcast, .unlock,
      .advance 0 false,
      .message 0 "\x7b\"action\":\"cancel\",\"id\":1000\x7d".toList, .advance 0 false,
      .message 1
        "\x7b\"action\":\"order\",\"side\":\"BUY\",\"qty\":5,\"price\":100\x7d".toList,
      .advance 1 false, .advance 1 false, .callback, .broadcast, .broadcast, .broadcast, .unlock]
    (by decide)
  refine ⟨_, _, run, by decide, _, (Option.some_get (by decide)).symm, by decide,
    .advances false, ?_⟩
  refine (and_iff_left_of_imp fun faults isolates => isolates.defined _ faults).mpr ?_
  exact step_fault_of_cancelsFilled (owned_of_serverRun seeded_seededServer run).sound
    ⟨by decide, _, 1000, (Option.some_get (by decide)).symm, by decide, by decide⟩

end Runs

end OrderBookSimulator
