import OrderBookSimulator.Properties.Independence
import OrderBookSimulator.User.Positions

/-!
# What a refused order leaves behind

The owner is registered before preflight looks at the order.  Under the id of a
resting order that changes whom later fills and cancels credit; otherwise the
refused order cannot be told from one that was never submitted.
-/

namespace OrderBookSimulator

open Library

namespace UserManager

/-- The same positions, and the same owners of the given orders. -/
structure AgreeOn (ids : Int → Prop) (users other : UserManager) : Prop where
  positions : other.positions = users.positions
  owners : ∀ orderId, ids orderId → other.orderToUser.find? orderId = users.orderToUser.find? orderId

namespace AgreeOn

variable {ids : Int → Prop} {users other : UserManager} (agree : AgreeOn ids users other)

include agree

theorem mono {fewer : Int → Prop} (subset : ∀ orderId, fewer orderId → ids orderId) :
    AgreeOn fewer users other :=
  ⟨agree.positions, fun orderId member => agree.owners orderId (subset orderId member)⟩

theorem getPosition (user : Int) : other.getPosition user = users.getPosition user := by
  rw [UserManager.getPosition, agree.positions, ← UserManager.getPosition]

theorem getUserForOrder {orderId : Int} (member : ids orderId) :
    other.getUserForOrder orderId = users.getUserForOrder orderId := by
  rw [UserManager.getUserForOrder, SortedMap.findD, agree.owners orderId member]
  rfl

/-- Registering the same owner on both sides settles the id. -/
theorem registerOrder (orderId userId : Int) :
    AgreeOn (fun id => ids id ∨ id = orderId) (users.registerOrder orderId userId)
      (other.registerOrder orderId userId) where
  positions := agree.positions
  owners := by
    intro id member
    simp only [UserManager.registerOrder, SortedMap.find?_insert]
    split
    · rfl
    · rename_i different
      exact agree.owners id (member.resolve_right different)

theorem updatePosition (userId : Int) (update : Position → Position) :
    AgreeOn ids (users.updatePosition userId update) (other.updatePosition userId update) where
  positions := congrArg (·.upsert userId {} update) agree.positions
  owners := agree.owners

theorem onFill (host : Host) {makerId takerId : Int} (maker : ids makerId) (taker : ids takerId)
    (price qty : Int) (takerSide : Side) :
    AgreeOn ids (users.onFill host makerId takerId price qty takerSide)
      (other.onFill host makerId takerId price qty takerSide) := by
  unfold UserManager.onFill
  rw [agree.getUserForOrder maker, agree.getUserForOrder taker]
  cases takerSide with
  | buy => exact (agree.updatePosition _ _).updatePosition _ _
  | sell => exact (agree.updatePosition _ _).updatePosition _ _

theorem onOrderResting (host : Host) {orderId : Int} (member : ids orderId) (side : Side)
    (price qty : Int) :
    AgreeOn ids (users.onOrderResting host orderId side price qty)
      (other.onOrderResting host orderId side price qty) := by
  unfold UserManager.onOrderResting
  rw [agree.owners orderId member]
  split
  · exact agree
  · cases side with
    | buy => exact agree.updatePosition _ _
    | sell => exact agree.updatePosition _ _

theorem onCancel (host : Host) {orderId : Int} (member : ids orderId) (side : Side)
    (price qty : Int) :
    AgreeOn ids (users.onCancel host orderId side price qty)
      (other.onCancel host orderId side price qty) := by
  unfold UserManager.onCancel
  rw [agree.owners orderId member]
  split
  · exact agree
  · cases side with
    | buy => exact agree.updatePosition _ _
    | sell => exact agree.updatePosition _ _

end AgreeOn

end UserManager

namespace MatchingEngine

/-- Without users on both engines, or with users that agree. -/
inductive UsersAgree (ids : Int → Prop) : Option UserManager → Option UserManager → Prop where
  | absent : UsersAgree ids none none
  | present {users other : UserManager} (agree : UserManager.AgreeOn ids users other) :
      UsersAgree ids (some users) (some other)

namespace UsersAgree

variable {ids : Int → Prop} {users other : Option UserManager}

theorem map {ids' : Int → Prop} (agree : UsersAgree ids users other)
    {update : UserManager → UserManager}
    (keeps : ∀ {users other}, UserManager.AgreeOn ids users other →
      UserManager.AgreeOn ids' (update users) (update other)) :
    UsersAgree ids' (users.map update) (other.map update) := by
  cases agree with
  | absent => exact .absent
  | present agree => exact .present (keeps agree)

theorem mono (agree : UsersAgree ids users other) {fewer : Int → Prop}
    (subset : ∀ orderId, fewer orderId → ids orderId) : UsersAgree fewer users other := by
  cases agree with
  | absent => exact .absent
  | present agree => exact .present (agree.mono subset)

end UsersAgree

/-- A user's position, where there are users. -/
def positionOf (engine : MatchingEngine) (user : Int) : Option Position :=
  engine.userManager.map (·.getPosition user)

/-- The owner of an order, where there are users. -/
def ownerOf (engine : MatchingEngine) (orderId : Int) : Option Int :=
  engine.userManager.map (·.getUserForOrder orderId)

/-- Two engines that differ in what they know of the owner of one id, and only if it is not resting. -/
structure Alike (orderId : Int) (first second : MatchingEngine) : Prop where
  book : second.book = first.book
  nextId : second.nextId = first.nextId
  users : UsersAgree (fun id => first.book.Resting id ∨ id ≠ orderId) first.userManager
    second.userManager

/-- The same answer from the same book, and the same book and positions afterwards. -/
structure SameOutcome (first second : Entry) : Prop where
  answer : SameAnswer first second
  positions : ∀ user, second.after.positionOf user = first.after.positionOf user

theorem UsersAgree.positionOf {ids : Int → Prop} {first second : MatchingEngine}
    (agree : UsersAgree ids first.userManager second.userManager) (user : Int) :
    second.positionOf user = first.positionOf user := by
  unfold MatchingEngine.positionOf
  generalize first.userManager = users at agree
  generalize second.userManager = other at agree
  cases agree with
  | absent => rfl
  | present agree => exact congrArg some (agree.getPosition user)

theorem UsersAgree.makerUser {ids : Int → Prop} {first second : MatchingEngine}
    (agree : UsersAgree ids first.userManager second.userManager) {maker : Order}
    (member : ids maker.id) : second.makerUser maker = first.makerUser maker := by
  unfold MatchingEngine.makerUser
  generalize first.userManager = users at agree
  generalize second.userManager = other at agree
  cases agree with
  | absent => rfl
  | present agree => exact agree.getUserForOrder member

/-- Preflight reads the book and positions. -/
theorem UsersAgree.preflightCheck {ids : Int → Prop} {first second : MatchingEngine}
    (agree : UsersAgree ids first.userManager second.userManager) (book : second.book = first.book)
    (host : Host) (order : Order) :
    second.preflightCheck host order = first.preflightCheck host order := by
  unfold MatchingEngine.preflightCheck
  rw [book]
  generalize first.userManager = users at agree
  generalize second.userManager = other at agree
  cases agree with
  | absent => rfl
  | present agree => simp only [agree.getPosition]

/-! ## One sweep on both engines -/

/-- The same sweep on both engines, which agree on the owners of the orders it can meet. -/
structure AlikeSweep (ids : Int → Prop) (first second : Sweep) : Prop where
  book : second.engine.book = first.engine.book
  nextId : second.engine.nextId = first.engine.nextId
  taker : second.taker = first.taker
  trades : second.trades = first.trades
  takerId : ids first.taker.id
  resting : ∀ orderId, first.engine.book.Resting orderId → ids orderId
  users : UsersAgree ids first.engine.userManager second.engine.userManager

section Calls

variable {host : Host} {orderId : Int} {first second : MatchingEngine} {order : Order}

theorem AlikeSweep.afterFill {ids : Int → Prop} {takerSide : Side} {batchId otherBatchId : Int}
    {sweep other : Sweep} {price : Int} {maker : Node} {rest : OrderList}
    (alike : AlikeSweep ids sweep other) (fillable : Fillable takerSide sweep price maker rest) :
    AlikeSweep ids (afterFill host takerSide batchId sweep price maker rest)
      (afterFill host takerSide otherBatchId other price maker rest) := by
  have makerId := alike.resting _ ⟨maker.order, fillable.mem_resting, rfl⟩
  obtain ⟨others, was, becomes⟩ := resting_afterFill host batchId fillable
  exact {
    book := by rw [book_afterFill, book_afterFill, alike.book, alike.taker]
    nextId := by simp [MatchingEngine.afterFill, updateBook, updateUsers, alike.nextId]
    taker := by simp only [MatchingEngine.afterFill, alike.taker]
    trades := by
      rw [trades_afterFill, trades_afterFill, alike.trades, fillTrade, fillTrade, alike.taker,
        alike.users.makerUser makerId]
    takerId := alike.takerId
    resting := by
      rintro id ⟨resting, member, rfl⟩
      rcases List.mem_append.mp (becomes.mem_iff.mp member) with left | old
      · rw [eq_of_mem_leftOver left]
        exact makerId
      · exact alike.resting _ ⟨resting, was.mem_iff.mpr (.tail _ old), rfl⟩
    users := by
      rw [userManager_afterFill, userManager_afterFill, alike.taker]
      exact alike.users.map fun agree => agree.onFill host makerId alike.takerId _ _ _ }

/-- The sweeps of an accepted order end alike on both engines. -/
theorem Alike.callSweep (alike : Alike orderId first second) (order : Order) :
    AlikeSweep (fun id => (first.book.Resting id ∨ id ≠ orderId) ∨ id = order.id)
      (first.callSweep host order) (second.callSweep host order) := by
  refine Settles.simulate (AlikeSweep _)
    (fun _ _ alike => fillStep_lockstep alike.book alike.taker fun _ _ _ fillable =>
      alike.afterFill fillable) ?_
    (callSweep_settles host first order) (callSweep_settles host second order)
  exact {
    book := by simp [startSweep, alike.book]
    nextId := by simp [startSweep, opened, updateUsers, alike.nextId]
    taker := rfl
    trades := rfl
    takerId := Or.inr rfl
    resting := by
      intro id resting
      exact Or.inl (Or.inl (by simpa [startSweep] using resting))
    users := by
      simp only [startSweep, userManager_emitOrderEvent, userManager_opened]
      exact alike.users.map fun agree => agree.registerOrder _ _ }

theorem Alike.accepted (alike : Alike orderId first second) (order : Order) :
    Alike orderId (concluded host order first.batchSeq (first.callSweep host order))
        (concluded host order second.batchSeq (second.callSweep host order)) ∧
      (Reply.result (report host order (second.callSweep host order))).unstamped =
        (Reply.result (report host order (first.callSweep host order))).unstamped := by
  have same := @Alike.callSweep host orderId first second alike order
  refine ⟨?_, ?_⟩
  · exact {
      book := by
        rw [book_concluded, book_concluded, book_restRemainder, book_restRemainder, announcedBook,
          announcedBook, same.book, same.taker, same.trades]
      nextId := by rw [nextId_concluded, nextId_concluded, same.nextId]
      users := by
        rw [userManager_concluded, userManager_concluded, userManager_restRemainder,
          userManager_restRemainder, same.taker]
        have covers : ∀ id, (concluded host order first.batchSeq
            (first.callSweep host order)).book.Resting id ∨ id ≠ orderId →
              (first.book.Resting id ∨ id ≠ orderId) ∨ id = order.id := by
          rintro id (⟨resting, member, rfl⟩ | other)
          · rcases mem_resting_concluded member with rests | old
            · rw [(eq_of_mem_remainder rests).1]
              exact same.takerId
            · exact same.resting _ ⟨resting, old, rfl⟩
          · exact Or.inl (Or.inr other)
        refine UsersAgree.mono ?_ covers
        split
        · exact same.users.map fun agree => agree.onOrderResting host same.takerId _ _ _
        · exact same.users }
  · have trades := unstamped_report host order (second.callSweep host order)
    rw [same.trades, ← unstamped_report host order (first.callSweep host order)] at trades
    simp only [Reply.unstamped, trades]
    simp only [report, same.taker]

/-- An order refused on both engines leaves them alike. -/
theorem Alike.refused (alike : Alike orderId first second) (order : Order)
    (status otherStatus : OrderStatus) :
    Alike orderId (first.refused host order status) (second.refused host order otherStatus) where
  book := by rw [book_refused, book_refused, alike.book]
  nextId := by simp [MatchingEngine.refused, opened, updateUsers, alike.nextId]
  users := by
    simp only [MatchingEngine.refused, userManager_emitOrderEvent, userManager_opened]
    refine (alike.users.map fun agree => agree.registerOrder order.id order.userId).mono ?_
    intro id member
    rw [book_emitOrderEvent, book_opened] at member
    exact Or.inl member

theorem Alike.cancelled (alike : Alike orderId first second) (sound : first.book.Sound)
    {node : Node} (queued : node ∈ first.book.nodes) :
    Alike orderId (first.cancelled host node.order) (second.cancelled host node.order) where
  book := by rw [book_cancelled, book_cancelled, alike.book]
  nextId := by simp [MatchingEngine.cancelled, updateBook, updateUsers, alike.nextId]
  users := by
    rw [userManager_cancelled, userManager_cancelled]
    have nodeId : first.book.Resting node.order.id ∨ node.order.id ≠ orderId :=
      Or.inl ⟨node.order, List.mem_map_of_mem queued, rfl⟩
    refine (alike.users.map fun agree => agree.onCancel host nodeId _ _ _).mono ?_
    rintro id (resting | other)
    · rw [book_cancelled] at resting
      exact Or.inl ((sound.resting_withdrawn_iff queued id).mp resting).1
    · exact Or.inr other

/-- Both engines give the same answer to a call, and stay alike. -/
theorem Alike.step {call : Call} {reply : Reply} {next : MatchingEngine}
    (alike : Alike orderId first second) (sound : first.book.Sound) (requested : call.Requested)
    (answer : exec host first call = .ok (next, reply)) :
    ∃ otherReply otherNext, exec host second call = .ok (otherNext, otherReply) ∧
      Alike orderId next otherNext ∧ otherReply.unstamped = reply.unstamped := by
  cases call with
  | nextOrderId =>
      cases answer
      refine ⟨_, _, rfl, ?_, by rw [MatchingEngine.nextOrderId, alike.nextId]; rfl⟩
      exact ⟨alike.book, congrArg (· + 1) alike.nextId, alike.users⟩
  | addRestingOrder order => exact requested.elim
  | processOrder order =>
      cases answer
      refine ⟨_, _, rfl, ?_⟩
      have sameVerdict := alike.users.preflightCheck alike.book host order
      cases ok : (first.preflightCheck host order).isOk with
      | false =>
          have notOk : (second.preflightCheck host order).isOk = false := sameVerdict ▸ ok
          obtain ⟨status, _, result⟩ := processOrder_of_refused host first order ok
          obtain ⟨otherStatus, _, otherResult⟩ := processOrder_of_refused host second order notOk
          refine ⟨?_, ?_⟩
          · rw [result, otherResult]
            exact alike.refused order status otherStatus
          · rw [result_of_refused host ok, result_of_refused host notOk, refusal, refusal,
              sameVerdict]
      | true =>
          rw [processOrder_of_accepted host first order ok,
            processOrder_of_accepted host second order (sameVerdict ▸ ok)]
          exact alike.accepted order
  | cancelOrder cancelledId =>
      cases answered_of_exec sound answer with
      | unknown _ notFound =>
          have otherNotFound : second.book.index.find? cancelledId = none := by rwa [alike.book]
          exact ⟨.cancelled false, second,
            exec_cancelOrder (cancelOrder_of_unknown host otherNotFound), alike, rfl⟩
      | withdrawn node queued =>
          have otherSound : second.book.Sound := by
            rw [alike.book]
            exact sound
          have otherQueued : node ∈ second.book.nodes := by rwa [alike.book]
          exact ⟨.cancelled true, second.cancelled host node.order,
            exec_cancelOrder (cancelOrder_of_queued host otherSound otherQueued),
            alike.cancelled sound queued, rfl⟩

end Calls

/-! ## The trace of a refused order -/

/--
The order left the book, every position and the owner of every resting order
as they were, and no later request can tell that it was ever submitted.
-/
structure NoTrace (host : Host) (engine : MatchingEngine) (order : Order) : Prop where
  book : (engine.processOrder host order).1.book = engine.book
  positions : ∀ user,
    (engine.processOrder host order).1.positionOf user = engine.positionOf user
  owners : ∀ resting ∈ engine.book.resting,
    (engine.processOrder host order).1.ownerOf resting.id = engine.ownerOf resting.id
  continuations : ∀ log state, Requests host engine log state →
    ∃ log' state', AnySession host (engine.processOrder host order).1 log' state' ∧
      List.Forall₂ SameOutcome log log'

section Trace

variable {host : Host} {engine : MatchingEngine} {order : Order}

/-- An engine and what becomes of it when a harmless order is refused. -/
theorem alike_of_refused (status : OrderStatus)
    (harmless : ∀ users, engine.userManager = some users → engine.book.Resting order.id →
      users.orderToUser.find? order.id = some order.userId) :
    Alike order.id engine (engine.refused host order status) where
  book := book_refused order status
  nextId := by simp [MatchingEngine.refused, opened, updateUsers]
  users := by
    simp only [MatchingEngine.refused, userManager_emitOrderEvent, userManager_opened]
    cases hasUsers : engine.userManager with
    | none => exact .absent
    | some users =>
        refine .present ⟨rfl, fun id member => ?_⟩
        simp only [UserManager.registerOrder, SortedMap.find?_insert]
        split
        · rename_i same
          subst same
          rcases member with resting | other
          · exact (harmless users hasUsers resting).symm
          · exact absurd rfl other
        · rfl

theorem noTrace_of_harmless (sound : engine.book.Sound)
    (notOk : (engine.preflightCheck host order).isOk = false)
    (harmless : ∀ users, engine.userManager = some users → engine.book.Resting order.id →
      users.orderToUser.find? order.id = some order.userId) :
    NoTrace host engine order := by
  obtain ⟨status, _, result⟩ := processOrder_of_refused host engine order notOk
  have alike : Alike order.id engine (engine.processOrder host order).1 := by
    rw [result]
    exact alike_of_refused status harmless
  exact {
    book := alike.book
    positions := alike.users.positionOf
    owners := by
      intro resting member
      have agree := alike.users
      unfold ownerOf
      generalize engine.userManager = users at agree
      generalize (engine.processOrder host order).1.userManager = other at agree
      cases agree with
      | absent => rfl
      | present agree =>
          exact congrArg some (agree.getUserForOrder (Or.inl ⟨resting, member, rfl⟩))
    continuations := by
      intro log state run
      obtain ⟨log', state', run', _, matched⟩ := run.replay (exec host) (fun _ => true)
        (fun _ => Alike order.id) SameOutcome alike
        (fun log first call reply next other earlier alike requested answer _ => by
          have soundNow := sound_of_anySession sound (earlier.mono fun _ _ _ => trivial)
          obtain ⟨otherReply, otherNext, otherAnswer, alikeNext, sameReply⟩ :=
            alike.step soundNow requested answer
          exact ⟨call, otherReply, otherNext, otherAnswer, alikeNext,
            ⟨rfl, alike.book, sameReply, alikeNext.book⟩, alikeNext.users.positionOf⟩)
        (fun _ _ _ _ _ _ _ _ _ _ dropped => absurd dropped (by decide))
      exact ⟨log', state', run', by simpa using matched⟩ }

/-- Without a trace, a cancel of the order's id releases the same reservations. -/
theorem NoTrace.positions_cancelled (noTrace : NoTrace host engine order)
    (sound : engine.book.Sound) {node : Node} (queued : node ∈ engine.book.nodes) (user : Int) :
    ((engine.processOrder host order).1.cancelled host node.order).positionOf user =
      (engine.cancelled host node.order).positionOf user := by
  have answer : exec host engine (.cancelOrder node.order.id) =
      .ok (engine.cancelled host node.order, .cancelled true) :=
    exec_cancelOrder (cancelOrder_of_queued host sound queued)
  have requested : Call.Requested (.cancelOrder node.order.id) := trivial
  obtain ⟨log', state', run', matched⟩ := noTrace.continuations _ _ (.snoc .nil requested answer)
  cases matched with
  | cons same rest =>
      cases rest
      obtain ⟨before, otherAnswer, after⟩ := run'.of_singleton
      have soundAfter : (engine.processOrder host order).1.book.Sound := by
        rw [noTrace.book]
        exact sound
      have queuedAfter : node ∈ (engine.processOrder host order).1.book.nodes := by
        rwa [noTrace.book]
      rw [same.answer.call] at otherAnswer
      rw [exec_cancelOrder (cancelOrder_of_queued host soundAfter queuedAfter)] at otherAnswer
      simp only [Except.ok.injEq, Prod.mk.injEq] at otherAnswer
      have positions := same.positions user
      rwa [after, ← otherAnswer.1] at positions

end Trace

section Runs

variable {now : Nat → Int} {start state : MatchingEngine} {log : Log} {order : Order}

/-- A cancel releases something of a registered order. -/
theorem onCancel_moves {users : UserManager} {resting : Order} {owner : Int}
    (registered : users.orderToUser.find? resting.id = some owner) (price : 0 < resting.price)
    (qty : 0 < resting.qty) :
    (users.onCancel (Host.exact now) resting.id resting.side resting.price
      resting.qty).getPosition owner ≠ users.getPosition owner := by
  intro unmoved
  have moved := UserManager.moved_onCancel now registered resting.side resting.price resting.qty
    owner
  rw [unmoved] at moved
  have balance := moved.reservedBalance
  have shares := moved.reservedShares
  cases side : resting.side with
  | buy =>
      have value := Int.mul_pos price qty
      rw [if_pos side, amountIf_self] at balance
      omega
  | sell =>
      rw [if_pos side, amountIf_self] at shares
      omega

/--
In every state that requests can reach from a sound, priced book, an order that
is rejected or cancelled by preflight leaves no trace if and only if there is
no user manager, its id is not resting, or it is registered to its user already.
-/
theorem refused_leaves_no_trace_iff (sound : start.book.Sound)
    (priced : ∀ resting ∈ start.book.resting, 0 < resting.price)
    (run : Requests (Host.exact now) start log state)
    (refused : (state.processOrder (Host.exact now) order).2.status = .rejected ∨
      (state.processOrder (Host.exact now) order).2.status = .canceled) :
    NoTrace (Host.exact now) state order ↔
      ∀ users, state.userManager = some users → state.book.Resting order.id →
        users.orderToUser.find? order.id = some order.userId := by
  have soundNow := sound_of_anySession sound (run.mono fun _ _ _ => trivial)
  have notOk : (state.preflightCheck (Host.exact now) order).isOk = false := by
    by_contra ok
    rw [Bool.not_eq_false] at ok
    rw [processOrder_of_accepted (Host.exact now) state order ok] at refused
    exact fillStatus_not_final _ _ refused
  refine ⟨fun noTrace users hasUsers resting => ?_, noTrace_of_harmless soundNow notOk⟩
  obtain ⟨node, queued, nodeId, _⟩ := soundNow.index_of_resting resting
  have member : node.order ∈ state.book.resting := List.mem_map_of_mem queued
  obtain ⟨status, _, result⟩ := processOrder_of_refused (Host.exact now) state order notOk
  have hasUsersAfter : (state.processOrder (Host.exact now) order).1.userManager =
      some (users.registerOrder order.id order.userId) := by
    rw [result]
    simp [hasUsers]
  have owner := noTrace.owners node.order member
  rw [ownerOf, ownerOf, hasUsersAfter, hasUsers, nodeId] at owner
  simp only [Option.map_some, UserManager.getUserForOrder_registerOrder, if_true,
    Option.some.injEq] at owner
  rw [UserManager.getUserForOrder, SortedMap.findD] at owner
  cases registered : users.orderToUser.find? order.id with
  | some registeredOwner =>
      rw [registered] at owner
      exact congrArg some owner.symm
  | none =>
      -- nobody owned the resting order, and now the house does
      rw [registered] at owner
      have house : order.userId = 0 := owner
      have positions := noTrace.positions_cancelled soundNow queued 0
      rw [positionOf, positionOf, userManager_cancelled, userManager_cancelled, hasUsersAfter,
        hasUsers] at positions
      simp only [Option.map_some, Option.some.injEq] at positions
      have unregistered : users.onCancel (Host.exact now) node.order.id node.order.side
          node.order.price node.order.qty = users := by
        rw [UserManager.onCancel, nodeId, registered]
      rw [unregistered] at positions
      have registeredNow :
          (users.registerOrder order.id order.userId).orderToUser.find? node.order.id = some 0 := by
        simp [UserManager.registerOrder, nodeId, house]
      exact absurd positions (onCancel_moves registeredNow
        (priced_of_requests sound priced run node.order member)
        (soundNow.positive node queued))

/-- A new id can be refused without a trace. -/
theorem refused_leaves_no_trace_when_new :
    ∃ log state, Requests (Host.exact (·)) { userManager := some {} } log state ∧
      log.length = 1 ∧
      (state.processOrder (Host.exact (·)) ⟨2, 8, .buy, 100, 5000, .limit⟩).2.status = .rejected ∧
      NoTrace (Host.exact (·)) state ⟨2, 8, .buy, 100, 5000, .limit⟩ := by
  have run := Run.of_isSome (exec (Host.exact (·))) (fun _ call => call.Requested)
    { userManager := some {} } [.processOrder ⟨1, 7, .buy, 100, 5, .limit⟩] (by decide)
  refine ⟨_, _, run, rfl, by decide, (refused_leaves_no_trace_iff (OrderBook.sound_empty none)
    (by decide) run (Or.inl (by decide))).mpr fun users _ resting => absurd resting (by decide)⟩

/-- An order refused under the id of another user's resting order takes that order over. -/
theorem refused_order_takes_over :
    ∃ log state, Requests (Host.exact (·)) { userManager := some {} } log state ∧
      (state.processOrder (Host.exact (·)) ⟨1, 8, .buy, 100, 5000, .limit⟩).2.status = .rejected ∧
      state.ownerOf 1 = some 7 ∧
      (state.processOrder (Host.exact (·)) ⟨1, 8, .buy, 100, 5000, .limit⟩).1.ownerOf 1 = some 8 ∧
      ¬ NoTrace (Host.exact (·)) state ⟨1, 8, .buy, 100, 5000, .limit⟩ := by
  have run := Run.of_isSome (exec (Host.exact (·))) (fun _ call => call.Requested)
    { userManager := some {} } [.processOrder ⟨1, 7, .buy, 100, 5, .limit⟩] (by decide)
  refine ⟨_, _, run, by decide, by decide, by decide, fun noTrace => ?_⟩
  have owner := noTrace.owners ⟨1, 7, .buy, 100, 5, .limit⟩ (by decide)
  revert owner
  decide

end Runs

end MatchingEngine

end OrderBookSimulator
