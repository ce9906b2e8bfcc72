import OrderBookSimulator.Engine.Allotment

/-!
# Matching without users and sinks

Two engines on the same book, one with a user manager and one without.  A sweep
takes the same steps on both, because the owner a manager has registered for a
resting order is the user written on the order.  Leaving out the orders that
only the manager refused, both engines give the same answers, whatever sinks
they have.
-/

namespace OrderBookSimulator

open Library

/-- A reply without what emission stamps on its trades. -/
def Reply.unstamped : Reply → Reply
  | .result answer => .result { answer with trades := answer.trades.map Trade.unstamped }
  | other => other

/-- The call was rejected for insufficient cash or shares. -/
def Entry.lacksFunds (entry : Entry) : Bool :=
  match entry.reply with
  | .result result => result.status = .rejected ∧
      (result.reason = "insufficient cash" ∨ result.reason = "insufficient shares")
  | _ => false

/-- The same call on the same book got the same answer and left the same book. -/
structure SameAnswer (first second : Entry) : Prop where
  call : second.call = first.call
  before : second.before.book = first.before.book
  reply : second.reply.unstamped = first.reply.unstamped
  after : second.after.book = first.after.book

namespace MatchingEngine

/-! ## Preflight -/

section Preflight

variable (host bareHost : Host) {engine bare : MatchingEngine}

/-- Only for lack of cash or shares does a user manager change what preflight says. -/
theorem preflightCheck_bare (sameBook : bare.book = engine.book) (noUsers : bare.userManager = none)
    (order : Order) :
    engine.preflightCheck host order = bare.preflightCheck bareHost order ∨
      engine.preflightCheck host order = .rejected "insufficient cash" ∨
      engine.preflightCheck host order = .rejected "insufficient shares" := by
  unfold preflightCheck
  rw [sameBook, noUsers]
  by_cases qty : order.qty ≤ 0
  · exact Or.inl (by rw [if_pos qty, if_pos qty])
  by_cases price : order.type = .limit ∧ order.price ≤ 0
  · exact Or.inl (by rw [if_neg qty, if_neg qty, if_pos price, if_pos price])
  by_cases asks : order.type = .market ∧ order.side = .buy ∧ engine.book.bestAsk = none
  · exact Or.inl (by
      rw [if_neg qty, if_neg qty, if_neg price, if_neg price, if_pos asks, if_pos asks])
  by_cases bids : order.type = .market ∧ order.side = .sell ∧ engine.book.bestBid = none
  · exact Or.inl (by
      rw [if_neg qty, if_neg qty, if_neg price, if_neg price, if_neg asks, if_neg asks,
        if_pos bids, if_pos bids])
  rw [if_neg qty, if_neg qty, if_neg price, if_neg price, if_neg asks, if_neg asks, if_neg bids,
    if_neg bids]
  have verdict : ∀ (reason : String) (available required : Int),
      (if available < required then PreflightResult.rejected reason else .ok) = .ok ∨
        (if available < required then PreflightResult.rejected reason else .ok) =
          .rejected reason := by
    intro reason available required
    split <;> simp
  cases engine.userManager with
  | none => exact Or.inl rfl
  | some users =>
      by_cases registered : order.userId > 0
      · simp only [if_pos registered]
        cases order.side with
        | buy =>
            rcases verdict "insufficient cash" _ _ with ok | rejected
            · exact Or.inl ok
            · exact Or.inr (Or.inl rejected)
        | sell =>
            rcases verdict "insufficient shares" _ _ with ok | rejected
            · exact Or.inl ok
            · exact Or.inr (Or.inr rejected)
      · exact Or.inl (by simp only [if_neg registered])

end Preflight

/-! ## One sweep on both engines -/

/-- The same sweep with users and without, where `owners` owns the resting orders. -/
structure SameSweep (owners : IntMap Int) (full bare : Sweep) : Prop where
  book : bare.engine.book = full.engine.book
  taker : bare.taker = full.taker
  trades : bare.trades = full.trades
  users : ∃ users, full.engine.userManager = some users ∧ users.orderToUser = owners
  noUsers : bare.engine.userManager = none
  owned : ∀ order ∈ full.engine.book.resting, owners.findD order.id 0 = order.userId

section Sweeping

variable {host bareHost : Host} {takerSide : Side} {batchId bareBatchId : Int}
  {owners : IntMap Int} {full bare : Sweep}

theorem SameSweep.afterFill {price : Int} {maker : Node} {rest : OrderList}
    (same : SameSweep owners full bare) (fillable : Fillable takerSide full price maker rest) :
    SameSweep owners (afterFill host takerSide batchId full price maker rest)
      (afterFill bareHost takerSide bareBatchId bare price maker rest) := by
  obtain ⟨users, hasUsers, registered⟩ := same.users
  have makerOwner := same.owned maker.order fillable.mem_resting
  have trade : fillTrade bare price maker = fillTrade full price maker := by
    simp only [fillTrade, makerUser, hasUsers, same.noUsers, same.taker]
    rw [UserManager.getUserForOrder, registered, makerOwner]
  obtain ⟨others, was, becomes⟩ := resting_afterFill host batchId fillable
  exact {
    book := by rw [book_afterFill, book_afterFill, same.book, same.taker]
    taker := by simp only [MatchingEngine.afterFill, same.taker]
    trades := by rw [trades_afterFill, trades_afterFill, same.trades, trade]
    users := ⟨_, by rw [userManager_afterFill, hasUsers]; rfl, by simp [registered]⟩
    noUsers := by simp [same.noUsers]
    owned := by
      intro order member
      rcases List.mem_append.mp (becomes.mem_iff.mp member) with left | other
      · rw [eq_of_mem_leftOver left]
        exact makerOwner
      · exact same.owned order (was.mem_iff.mpr (.tail _ other)) }

/-- Both engines fill against the same maker, or neither fills. -/
theorem SameSweep.fillStep (same : SameSweep owners full bare) :
    (fillStep host takerSide batchId full = none ∧
      fillStep bareHost takerSide bareBatchId bare = none) ∨
    ∃ next bareNext, fillStep host takerSide batchId full = some next ∧
      fillStep bareHost takerSide bareBatchId bare = some bareNext ∧
      SameSweep owners next bareNext :=
  fillStep_lockstep same.book same.taker fun _ _ _ fillable => same.afterFill fillable

end Sweeping

/-! ## One call on both engines -/

/-- The second engine has no users and the same book, whose orders belong to their users. -/
structure Bared (full bare : MatchingEngine) : Prop where
  book : bare.book = full.book
  nextId : bare.nextId = full.nextId
  noUsers : bare.userManager = none
  owned : ∃ users, full.userManager = some users ∧
    ∀ order ∈ full.book.resting, users.getUserForOrder order.id = order.userId

section Calls

variable (host bareHost : Host) {start full bare : MatchingEngine} {log : Log} {order : Order}

/-- The sweeps of an accepted order end alike on both engines. -/
theorem Bared.callSweep (bared : Bared full bare) (tracked : Tracked start log full)
    (fresh : ¬ Used start log order.id) :
    ∃ owners : IntMap Int, owners.findD order.id 0 = order.userId ∧
      SameSweep owners (full.callSweep host order) (bare.callSweep bareHost order) := by
  obtain ⟨users, hasUsers, owned⟩ := bared.owned
  refine ⟨(users.registerOrder order.id order.userId).orderToUser, ?_, ?_⟩
  · have own := users.getUserForOrder_registerOrder order.id order.userId order.id
    rwa [if_pos rfl] at own
  · refine Settles.simulate (SameSweep _) (fun _ _ same => same.fillStep) ?_
      (callSweep_settles host full order) (callSweep_settles bareHost bare order)
    exact {
      book := by simp [startSweep, bared.book]
      taker := rfl
      trades := rfl
      users := ⟨_, by simp [startSweep, hasUsers], rfl⟩
      noUsers := by simp [startSweep, bared.noUsers]
      owned := by
        intro resting member
        have member : resting ∈ full.book.resting := by simpa [startSweep] using member
        have own := users.getUserForOrder_registerOrder order.id order.userId resting.id
        rw [if_neg (tracked.not_resting_of_fresh fresh resting member)] at own
        exact own.trans (owned resting member) }

theorem Bared.accepted (bared : Bared full bare) (tracked : Tracked start log full)
    (fresh : ¬ Used start log order.id)
    (swept : Swept full.book order (full.callSweep host order)) :
    Bared (concluded host order full.batchSeq (full.callSweep host order))
        (concluded bareHost order bare.batchSeq (bare.callSweep bareHost order)) ∧
      (Reply.result (report bareHost order (bare.callSweep bareHost order))).unstamped =
        (Reply.result (report host order (full.callSweep host order))).unstamped := by
  obtain ⟨owners, own, same⟩ := bared.callSweep host bareHost tracked fresh
  obtain ⟨users, hasUsers, registered⟩ := same.users
  refine ⟨?_, ?_⟩
  · exact {
      book := by
        rw [book_concluded, book_concluded, book_restRemainder, book_restRemainder, announcedBook,
          announcedBook, same.book, same.taker, same.trades]
      nextId := by
        rw [nextId_concluded, nextId_concluded, nextId_callSweep, nextId_callSweep, bared.nextId]
      noUsers := by
        rw [userManager_concluded, userManager_restRemainder, same.noUsers]
        split <;> rfl
      owned := by
        have kept : ∃ users', (concluded host order full.batchSeq
            (full.callSweep host order)).userManager = some users' ∧
              users'.orderToUser = owners := by
          rw [userManager_concluded, userManager_restRemainder, hasUsers]
          split
          · exact ⟨_, rfl, by simp [registered]⟩
          · exact ⟨users, rfl, registered⟩
        obtain ⟨users', hasUsers', registered'⟩ := kept
        refine ⟨users', hasUsers', fun resting member => ?_⟩
        have perm := swept.resting_concluded host (tracked.unknown_of_fresh fresh) full.batchSeq
        rw [UserManager.getUserForOrder, registered']
        rcases List.mem_append.mp (perm.mem_iff.mp member) with rests | old
        · rw [(eq_of_mem_remainder rests).1, swept.taker]
          exact own
        · exact same.owned resting old }
  · have trades := unstamped_report bareHost order (bare.callSweep bareHost order)
    have trades' := unstamped_report host order (full.callSweep host order)
    rw [same.trades, ← trades'] at trades
    simp only [Reply.unstamped, trades]
    simp only [report, same.taker]

/-- A refused order changes nothing that matching reads. -/
theorem Bared.refused (bared : Bared full bare) (tracked : Tracked start log full)
    (fresh : ¬ Used start log order.id) (status : OrderStatus) :
    Bared (full.refused host order status) bare := by
  obtain ⟨users, hasUsers, owned⟩ := bared.owned
  exact {
    book := by rw [book_refused, bared.book]
    nextId := by simp [MatchingEngine.refused, opened, updateUsers, bared.nextId]
    noUsers := bared.noUsers
    owned := by
      refine ⟨users.registerOrder order.id order.userId, ?_, fun resting member => ?_⟩
      · simp [MatchingEngine.refused, hasUsers]
      · rw [book_refused] at member
        rw [users.getUserForOrder_registerOrder,
          if_neg (tracked.not_resting_of_fresh fresh resting member)]
        exact owned resting member }

theorem Bared.bareRefused (bared : Bared full bare) (order : Order) (status : OrderStatus) :
    Bared full (bare.refused bareHost order status) where
  book := by rw [book_refused, bared.book]
  nextId := by simp [MatchingEngine.refused, opened, updateUsers, bared.nextId]
  noUsers := by simp [MatchingEngine.refused, bared.noUsers]
  owned := bared.owned

theorem Bared.cancelled (bared : Bared full bare) (sound : full.book.Sound) {node : Node}
    (queued : node ∈ full.book.nodes) :
    Bared (full.cancelled host node.order) (bare.cancelled bareHost node.order) := by
  obtain ⟨users, hasUsers, owned⟩ := bared.owned
  exact {
    book := by rw [book_cancelled, book_cancelled, bared.book]
    nextId := by
      simp [MatchingEngine.cancelled, updateBook, updateUsers, bared.nextId]
    noUsers := by rw [userManager_cancelled, bared.noUsers]; rfl
    owned := by
      refine ⟨_, by rw [userManager_cancelled, hasUsers]; rfl, fun resting member => ?_⟩
      rw [book_cancelled] at member
      have before := (sound.resting_withdrawn queued).mem_iff.mpr (.tail _ member)
      rw [← owned resting before]
      exact UserManager.getUserForOrder_congr (by simp) resting.id }

/-- An order refused for anything but lack of funds is refused by both engines. -/
theorem Bared.refusedAlike (bared : Bared full bare) (tracked : Tracked start log full)
    (fresh : ¬ Used start log order.id)
    (notOk : (full.preflightCheck host order).isOk = false)
    (funded : Entry.lacksFunds ⟨full, .processOrder order,
      .result (full.processOrder host order).2, (full.processOrder host order).1⟩ = false) :
    Bared (full.processOrder host order).1 (bare.processOrder bareHost order).1 ∧
      (bare.processOrder bareHost order).2 = (full.processOrder host order).2 := by
  have result := result_of_refused host notOk
  have sameVerdict : full.preflightCheck host order = bare.preflightCheck bareHost order := by
    rcases preflightCheck_bare host bareHost bared.book bared.noUsers order with
      same | cash | shares
    · exact same
    · rw [result, cash] at funded
      simp [Entry.lacksFunds, refusal, cash, refusalStatus, PreflightResult.rejected] at funded
    · rw [result, shares] at funded
      simp [Entry.lacksFunds, refusal, shares, refusalStatus, PreflightResult.rejected] at funded
  have bareNotOk : (bare.preflightCheck bareHost order).isOk = false := sameVerdict ▸ notOk
  constructor
  · obtain ⟨status, _, answered⟩ := processOrder_of_refused host full order notOk
    obtain ⟨bareStatus, _, bareAnswered⟩ := processOrder_of_refused bareHost bare order bareNotOk
    rw [answered, bareAnswered]
    exact (bared.refused host tracked fresh status).bareRefused bareHost order bareStatus
  · rw [result, result_of_refused bareHost bareNotOk, refusal, refusal, sameVerdict]

/-- A call that did not fail for lack of funds gets the same answer from the bare engine. -/
theorem Bared.step {call : Call} {reply : Reply} {next : MatchingEngine} (bared : Bared full bare)
    (tracked : Tracked start log full) (allowed : Ordinary start log call)
    (answer : exec host full call = .ok (next, reply))
    (funded : Entry.lacksFunds ⟨full, call, reply, next⟩ = false) :
    ∃ bareReply bareNext, exec bareHost bare call = .ok (bareNext, bareReply) ∧
      Bared next bareNext ∧ bareReply.unstamped = reply.unstamped := by
  cases call with
  | nextOrderId =>
      cases answer
      refine ⟨_, _, rfl, ?_, by rw [MatchingEngine.nextOrderId, bared.nextId]; rfl⟩
      exact {
        book := bared.book
        nextId := congrArg (· + 1) bared.nextId
        noUsers := bared.noUsers
        owned := bared.owned }
  | addRestingOrder order => exact allowed.elim
  | processOrder order =>
      cases answer
      refine ⟨_, _, rfl, ?_⟩
      cases ok : (full.preflightCheck host order).isOk with
      | false =>
          obtain ⟨baredNext, same⟩ :=
            bared.refusedAlike host bareHost tracked allowed ok funded
          exact ⟨baredNext, by rw [same]⟩
      | true =>
          have bareOk : (bare.preflightCheck bareHost order).isOk = true := by
            rcases preflightCheck_bare host bareHost bared.book bared.noUsers order with
              same | cash | shares
            · rwa [← same]
            · rw [cash] at ok
              cases ok
            · rw [shares] at ok
              cases ok
          rw [processOrder_of_accepted host full order ok,
            processOrder_of_accepted bareHost bare order bareOk]
          exact bared.accepted host bareHost tracked allowed
            (swept_callSweep host tracked.sound (Int.le_of_lt (passed_of_isOk ok).qty_pos))
  | cancelOrder orderId =>
      cases answered_of_exec tracked.sound answer with
      | unknown _ notFound =>
          have bareNotFound : bare.book.index.find? orderId = none := by rwa [bared.book]
          exact ⟨.cancelled false, bare,
            exec_cancelOrder (cancelOrder_of_unknown bareHost bareNotFound), bared, rfl⟩
      | withdrawn node queued =>
          have bareSound : bare.book.Sound := by
            rw [bared.book]
            exact tracked.sound
          have bareQueued : node ∈ bare.book.nodes := by rwa [bared.book]
          exact ⟨.cancelled true, bare.cancelled bareHost node.order,
            exec_cancelOrder (cancelOrder_of_queued bareHost bareSound bareQueued),
            bared.cancelled host bareHost tracked.sound queued, rfl⟩

/-- A call that failed for lack of funds can be left out. -/
theorem Bared.leaveOut {call : Call} {reply : Reply} {next : MatchingEngine}
    (bared : Bared full bare) (tracked : Tracked start log full)
    (allowed : Ordinary start log call) (answered : Answered host full call reply next)
    (lacking : Entry.lacksFunds ⟨full, call, reply, next⟩ = true) : Bared next bare := by
  cases answered with
  | allotted => cases lacking
  | added order => cases lacking
  | refused order status => exact bared.refused host tracked allowed status
  | accepted order ok swept =>
      have refused : (report host order (full.callSweep host order)).status = .rejected := by
        simp only [Entry.lacksFunds, decide_eq_true_eq] at lacking
        exact lacking.1
      exact absurd (Or.inl refused) (fillStatus_not_final _ _)
  | unknown => cases lacking
  | withdrawn => cases lacking

end Calls

/--
Two engines on one sound book of the house's orders, the first with a user
manager, the second without, each with any sinks.  Every ordinary session of
the first, less the orders it rejected for lack of funds, is a session of the
second: call by call with the same answers and on the same book.
-/
theorem users_never_influence_matching (bareHost : Host) (bare : MatchingEngine) {host : Host}
    {start state : MatchingEngine} {users : UserManager} {log : Log}
    (sound : start.book.Sound) (hasUsers : start.userManager = some users)
    (house : ∀ order ∈ start.book.resting,
      order.userId = 0 ∧ users.getUserForOrder order.id = 0)
    (sameBook : bare.book = start.book) (sameIds : bare.nextId = start.nextId)
    (noUsers : bare.userManager = none) (session : Session host start log state) :
    ∃ bareLog bareState, AnySession bareHost bare bareLog bareState ∧
      bareState.book = state.book ∧
      List.Forall₂ SameAnswer (log.filter fun entry => !entry.lacksFunds) bareLog := by
  have bared : Bared start bare := {
    book := sameBook
    nextId := sameIds
    noUsers := noUsers
    owned := ⟨users, hasUsers, fun order member => by
      rw [(house order member).1, (house order member).2]⟩ }
  obtain ⟨bareLog, bareState, bareRun, baredNow, matched⟩ :=
    session.replay (exec bareHost) (fun entry : Entry => !entry.lacksFunds) (fun _ => Bared)
      SameAnswer bared
      (fun log full call reply next other earlier bared allowed answer kept => by
        have tracked := tracked_of_session sound earlier
        obtain ⟨bareReply, bareNext, bareAnswer, baredNext, sameReply⟩ :=
          bared.step host bareHost tracked allowed answer (by simpa using kept)
        exact ⟨call, bareReply, bareNext, bareAnswer, baredNext,
          ⟨rfl, bared.book, sameReply, baredNext.book⟩⟩)
      (fun log full call reply next other earlier bared allowed answer dropped => by
        have tracked := tracked_of_session sound earlier
        exact bared.leaveOut host tracked allowed (answered_of_exec tracked.sound answer)
          (by simpa using dropped))
  exact ⟨bareLog, bareState, bareRun, baredNow.book, matched⟩

/-- A buyer short of cash is left out; the others trade with the house and each other. -/
theorem users_never_influence_matching_sample :
    ∃ start bare log state bareLog bareState,
      start.userManager = some {} ∧ start.tradeSink = some [] ∧ start.orderSink = some [] ∧
      bare.userManager = none ∧ bare.tradeSink = none ∧ bare.orderSink = none ∧
      Session (Host.exact (·)) start log state ∧ log.length = 4 ∧
      (log.filter fun entry => !entry.lacksFunds).length = 3 ∧
      AnySession (Host.exact (·)) bare bareLog bareState ∧ bareState.book = state.book ∧
      List.Forall₂ SameAnswer (log.filter fun entry => !entry.lacksFunds) bareLog := by
  let seeded : OrderBook := ({} : OrderBook).addRestingOrder ⟨1, 0, .sell, 105, 4, .limit⟩
  let start : MatchingEngine :=
    { book := seeded, tradeSink := some [], orderSink := some [], userManager := some {} }
  have sound : start.book.Sound :=
    (OrderBook.sound_empty none).afterAdd ⟨1, 0, .sell, 105, 4, .limit⟩
  have run := Run.of_isSome (exec (Host.exact (·))) (Ordinary start) start
    [.processOrder ⟨2, 7, .sell, 100, 5, .limit⟩, .processOrder ⟨3, 8, .buy, 200, 5000, .limit⟩,
      .processOrder ⟨4, 8, .buy, 105, 6, .limit⟩, .cancelOrder 1] (by decide)
  obtain ⟨bareLog, bareState, bareRun, sameBook, matched⟩ :=
    users_never_influence_matching (Host.exact (·)) { book := seeded } sound rfl (by decide) rfl
      rfl rfl run
  exact ⟨start, { book := seeded }, _, _, bareLog, bareState, rfl, rfl, rfl, rfl, rfl, rfl, run,
    by decide, by decide, bareRun, sameBook, matched⟩

end MatchingEngine

end OrderBookSimulator
