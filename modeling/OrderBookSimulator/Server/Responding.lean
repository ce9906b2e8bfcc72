import OrderBookSimulator.Engine.CancelOrder
import OrderBookSimulator.Engine.ProcessOrder
import OrderBookSimulator.Server.Replies
import OrderBookSimulator.Server.Scanning
import OrderBookSimulator.Server.Serializers
import OrderBookSimulator.Server.Server

/-!
# The reply to a message

`process_message` from its first line to its last, with no other thread in
between.  It returns unless a number it reads is too large or a cancel follows
an erased node.
-/

namespace OrderBookSimulator

open Library Json

/-- Why `process_message` does not return. -/
inductive Failure where
  | thrown (thrown : Thrown)
  | fault (fault : Fault)

/-- What the answer is written as, a result by the loop of `json_order_result`. -/
def Answer.written : Answer → Text
  | .result answered => SerializerLoops.jsonOrderResult answered
  | answer => answer.json

theorem Answer.written_eq (answer : Answer) : answer.written = answer.json := by
  cases answer with
  | result answered => exact jsonOrderResult_eq answered
  | ok | error => rfl

namespace Server

/-- What is answered, before `with_request_id`. -/
def respond (host : Host) (server : Server) (userId : Int) (msg : Text) :
    Except Failure (Server × Answer) :=
  let action := (extractStringField msg "action").getD []
  if action = "order".toList then
    match parseOrderJson msg with
    | .error thrown => .error (.thrown thrown)
    | .ok none => .ok (server, .error "Invalid order")
    | .ok (some request) =>
        let (engine, id) := server.engine.nextOrderId
        let (next, result) :=
          { server with engine }.processOrder host none [] (request.order id userId)
        .ok (next, .result result)
  else if action = "cancel".toList then
    match parseCancelJson msg with
    | .error thrown => .error (.thrown thrown)
    | .ok none => .ok (server, .error "Invalid cancel request")
    | .ok (some orderId) =>
        if server.users.getUserForOrder orderId ≠ userId then
          .ok (server, .error "Not your order")
        else
          match server.cancelOrder host none orderId with
          | .error fault => .error (.fault fault)
          | .ok (next, done) => .ok (next, .ok done)
  else .ok (server, .error "Unknown action. Use 'order' or 'cancel'")

/-- `process_message` -/
def reply (host : Host) (server : Server) (userId : Int) (msg : Text) :
    Except Failure (Server × Text) :=
  match server.respond host userId msg with
  | .error failure => .error failure
  | .ok (next, answer) =>
      .ok (next, withRequestId ((extractStringField msg "requestId").getD []) answer.written)

end Server

/-! ## Numbers that are too large -/

/-- The number that stands there can be read, if there is one. -/
def Readable (number : Option Int) : Prop := ∀ n ∈ number, n ≤ longLongMax

/-- The numbers of an order that parsing comes to, by the words and numbers that stand there. -/
def OrderNumbersFit (word : String → Option Text) (number : String → Option Int) : Prop :=
  word "side" ≠ none → Readable (number "qty") ∧
    ((word "side" = some "BUY".toList ∨ word "side" = some "SELL".toList) →
      (word "type").getD "LIMIT".toList = "LIMIT".toList →
      (∃ qty ∈ number "qty", 0 < qty) → Readable (number "price"))

/-- Behind the checks of side and quantity, only the price of a limit order can be too large. -/
theorem parseOrderJson_returns_iff_of_accepted {msg side : Text} {qty : Int}
    (sideFound : extractStringField msg "side" = some side)
    (known : side = "BUY".toList ∨ side = "SELL".toList)
    (qtyFound : extractIntField msg "qty" = .ok (some qty)) (positive : 0 < qty) :
    (∃ parsed, parseOrderJson msg = .ok parsed) ↔
      ((extractStringField msg "type").getD "LIMIT".toList = "LIMIT".toList → Fits msg "price") := by
  have notUnknown : ¬ (side ≠ "BUY".toList ∧ side ≠ "SELL".toList) :=
    fun ⟨notBuy, notSell⟩ => known.elim notBuy notSell
  unfold parseOrderJson
  rw [sideFound, qtyFound]
  simp only [if_neg notUnknown, if_neg (Int.not_le.mpr positive)]
  by_cases isLimit : (extractStringField msg "type").getD "LIMIT".toList = "LIMIT".toList
  · have notMarket : ¬ "LIMIT".toList = "MARKET".toList := by decide
    rw [isLimit, if_neg notMarket, if_pos rfl, ← extractIntField_returns_iff]
    rcases extractIntField msg "price" with thrown | _ | price
    · simp
    · simp
    · by_cases noPrice : price ≤ 0
      · simp [noPrice]
      · simp [noPrice]
  · simp only [isLimit, if_false, false_implies, iff_true]
    split
    · exact ⟨_, rfl⟩
    · exact ⟨_, rfl⟩

theorem parseOrderJson_returns_iff (msg : Text) :
    (∃ parsed, parseOrderJson msg = .ok parsed) ↔
      OrderNumbersFit (extractStringField msg) (numberFound msg) := by
  have readable : ∀ key, Readable (numberFound msg key) ↔ Fits msg key := fun _ => Iff.rfl
  unfold OrderNumbersFit
  simp only [readable]
  cases sideFound : extractStringField msg "side" with
  | none =>
      unfold parseOrderJson
      rw [sideFound]
      simp
  | some side =>
      simp only [ne_eq, reduceCtorEq, not_false_eq_true, forall_const, Option.some.injEq]
      by_cases qtyFits : Fits msg "qty"
      · have qtyRead := extractIntField_of_fits qtyFits
        by_cases accepted : (side = "BUY".toList ∨ side = "SELL".toList) ∧
            ∃ qty ∈ numberFound msg "qty", 0 < qty
        · obtain ⟨known, qty, found, positive⟩ := accepted
          rw [found] at qtyRead ⊢
          rw [parseOrderJson_returns_iff_of_accepted sideFound known qtyRead positive]
          exact ⟨fun priceFits => ⟨qtyFits, fun _ isLimit _ => priceFits isLimit⟩,
            fun fits isLimit => fits.2 known isLimit ⟨qty, rfl, positive⟩⟩
        · have returns : ∃ parsed, parseOrderJson msg = .ok parsed := by
            unfold parseOrderJson
            rw [sideFound, qtyRead]
            cases found : numberFound msg "qty" with
            | none => exact ⟨none, rfl⟩
            | some qty =>
                simp only
                split
                · exact ⟨none, rfl⟩
                · rename_i known
                  have negative : qty ≤ 0 := by
                    by_contra positive
                    exact accepted ⟨not_not.mp fun unknown => known (not_or.mp unknown), qty,
                      found, Int.not_le.mp positive⟩
                  exact ⟨none, if_pos negative⟩
          exact ⟨fun _ => ⟨qtyFits, fun known _ positive => absurd ⟨known, positive⟩ accepted⟩,
            fun _ => returns⟩
      · have qtyThrown := extractIntField_of_not_fits qtyFits
        unfold parseOrderJson
        rw [sideFound, qtyThrown]
        simp [qtyFits]

/-! ## Cancels that follow an erased node -/

/-- The index entry of the id, where there is one, leads to nodes that are still there. -/
def OrderBook.Reaches (book : OrderBook) (orderId : Int) : Prop :=
  ∀ loc ∈ book.index.find? orderId, (∃ node ∈ book.nodes, node.address = loc.it) ∧
    ∀ level ∈ (book.levels loc.side).find? loc.price, ∃ node ∈ level, node.address = loc.it

theorem eraseNode_returns_iff (it : Nat) (level : OrderList) :
    (∃ rest, OrderBook.eraseNode it level = .ok rest) ↔ ∃ node ∈ level, node.address = it := by
  induction level with
  | nil => simp [OrderBook.eraseNode]
  | cons node rest ih =>
      rw [OrderBook.eraseNode]
      by_cases here : node.address = it
      · simp [here]
      · rw [if_neg here]
        have later : (∃ other ∈ node :: rest, other.address = it) ↔
            ∃ other ∈ rest, other.address = it := by simp [here]
        rw [later, ← ih]
        cases OrderBook.eraseNode it rest <;> simp [bind, Except.bind, pure, Except.pure]

theorem OrderBook.cancelOrder_returns_iff (book : OrderBook) (orderId : Int) :
    (∃ answered, book.cancelOrder orderId = .ok answered) ↔
      ∀ loc ∈ book.index.find? orderId, ∀ level ∈ (book.levels loc.side).find? loc.price,
        ∃ node ∈ level, node.address = loc.it := by
  unfold OrderBook.cancelOrder
  cases book.index.find? orderId with
  | none => simp
  | some loc =>
      simp only [Option.mem_def, Option.some.injEq, forall_eq']
      cases found : (book.levels loc.side).find? loc.price with
      | none => simp [bind, Except.bind, pure, Except.pure]
      | some level =>
          simp only [Option.some.injEq, forall_eq', ← eraseNode_returns_iff]
          cases OrderBook.eraseNode loc.it level <;> simp [bind, Except.bind, pure, Except.pure]

theorem OrderBook.findOrder_returns_iff (book : OrderBook) (orderId : Int) :
    (∃ order, book.findOrder orderId = .ok order) ↔
      ∀ loc ∈ book.index.find? orderId, ∃ node ∈ book.nodes, node.address = loc.it := by
  unfold OrderBook.findOrder
  cases book.index.find? orderId with
  | none => simp
  | some loc =>
      simp only [Option.mem_def, Option.some.injEq, forall_eq']
      cases found : book.nodes.find? (·.address = loc.it) with
      | none =>
          have none := List.find?_eq_none.mp found
          simp only [decide_eq_true_eq] at none
          simpa using none
      | some node =>
          have member := List.mem_of_find?_eq_some found
          have address : node.address = loc.it := by simpa using List.find?_some found
          exact ⟨fun _ => ⟨node, member, address⟩, fun _ => ⟨some node.order, rfl⟩⟩

theorem MatchingEngine.cancelOrder_returns_iff (host : Host) (engine : MatchingEngine)
    (orderId : Int) :
    (∃ answered, engine.cancelOrder host orderId = .ok answered) ↔ engine.book.Reaches orderId := by
  have reaches_iff : engine.book.Reaches orderId ↔
      (∃ order, engine.book.findOrder orderId = .ok order) ∧
        ∃ answered, engine.book.cancelOrder orderId = .ok answered := by
    rw [OrderBook.findOrder_returns_iff, OrderBook.cancelOrder_returns_iff, OrderBook.Reaches]
    exact ⟨fun reaches => ⟨fun loc found => (reaches loc found).1,
      fun loc found => (reaches loc found).2⟩,
      fun reaches loc found => ⟨reaches.1 loc found, reaches.2 loc found⟩⟩
  rw [reaches_iff]
  unfold MatchingEngine.cancelOrder
  cases engine.book.findOrder orderId with
  | error fault => simp [bind, Except.bind]
  | ok order =>
      cases engine.book.cancelOrder orderId with
      | error fault => simp [bind, Except.bind]
      | ok answered =>
          obtain ⟨book, done⟩ := answered
          cases done <;> simp [bind, Except.bind, pure, Except.pure]

/-- On a sound book, a cancel reaches what it looks for unless the id is stale. -/
theorem OrderBook.Sound.reaches_iff {book : OrderBook} (sound : book.Sound) (orderId : Int) :
    book.Reaches orderId ↔ ¬ book.Stale orderId := by
  have returns_iff := MatchingEngine.cancelOrder_returns_iff (.exact fun _ => 0)
    { book := book } orderId
  rw [← returns_iff]
  rcases book.unknown_or_resting_or_stale orderId with ⟨unknown, _⟩ | resting | stale
  · have notStale : ¬ book.Stale orderId := by
      rintro ⟨known, _⟩
      rw [unknown] at known
      cases known
    exact ⟨fun _ => notStale, fun _ => ⟨_, MatchingEngine.cancelOrder_of_unknown _ unknown⟩⟩
  · obtain ⟨node, queued, rfl, _⟩ := sound.index_of_resting resting
    exact ⟨fun _ stale => stale.2 resting,
      fun _ => ⟨_, MatchingEngine.cancelOrder_of_queued _ sound queued⟩⟩
  · rw [MatchingEngine.cancelOrder_of_stale _ sound stale]
    simp [stale]

/-! ## The reasons of refusals -/

namespace MatchingEngine

theorem plain_reason_preflightCheck (host : Host) (engine : MatchingEngine) (order : Order) :
    PlainWord (engine.preflightCheck host order).reason := by
  unfold preflightCheck
  split
  · exact (by decide : PlainWord "quantity must be positive")
  split
  · exact (by decide : PlainWord "limit order price must be positive")
  split
  · exact (by decide : PlainWord "no asks available for market buy")
  split
  · exact (by decide : PlainWord "no bids available for market sell")
  have none : PlainWord PreflightResult.ok.reason := by decide
  have either : ∀ (short : Prop) [Decidable short] {reason : String}, PlainWord reason →
      PlainWord (if short then PreflightResult.rejected reason else .ok).reason := by
    intro short _ reason plain
    split
    · exact plain
    · exact none
  split
  · exact none
  split
  · split
    · exact either _ (by decide)
    · exact either _ (by decide)
  · exact none

theorem plain_reason_processOrder (host : Host) (engine : MatchingEngine) (order : Order) :
    PlainWord (engine.processOrder host order).2.reason := by
  cases ok : (engine.preflightCheck host order).isOk with
  | true =>
      rw [processOrder_of_accepted host engine order ok]
      exact (by decide : PlainWord "")
  | false =>
      obtain ⟨status, _, answered⟩ := processOrder_of_refused host engine order ok
      rw [answered]
      exact plain_reason_preflightCheck host engine order

end MatchingEngine

/-! ## When it returns -/

section Request

variable (word : String → Option Text) (number : String → Option Int)

/-- The numbers of the request that parsing comes to fit a `long long`. -/
def NumbersFit : Prop :=
  (word "action" = some "order".toList → OrderNumbersFit word number) ∧
    (word "action" = some "cancel".toList → Readable (number "id"))

/-- A cancel request of the order's owner. -/
def CancelsOwn (server : Server) (userId : Int) (orderId : Int) : Prop :=
  word "action" = some "cancel".toList ∧ number "id" = some orderId ∧
    0 < orderId ∧ server.users.getUserForOrder orderId = userId

end Request

namespace Server

variable (host : Host) (server : Server) (userId : Int) (msg : Text)

theorem reaches_attached (orderId : Int) :
    server.attached.book.Reaches orderId ↔ server.engine.book.Reaches orderId := Iff.rfl

theorem cancelOrder_returns_iff (thread : Option Nat) (orderId : Int) :
    (∃ answered, server.cancelOrder host thread orderId = .ok answered) ↔
      server.engine.book.Reaches orderId := by
  rw [← reaches_attached, ← MatchingEngine.cancelOrder_returns_iff host]
  unfold Server.cancelOrder
  cases server.attached.cancelOrder host orderId with
  | error fault => simp [bind, Except.bind]
  | ok answered => simp [bind, Except.bind, pure, Except.pure]

/-- On a sound book, a cancel gets through unless the entry of the id is stale. -/
theorem cancels_iff {server : Server} (sound : server.engine.book.Sound) (thread : Option Nat)
    (orderId : Int) :
    (∃ answered, server.cancelOrder host thread orderId = .ok answered) ↔
      ¬ server.engine.book.Stale orderId :=
  (server.cancelOrder_returns_iff host thread orderId).trans (sound.reaches_iff orderId)

theorem respond_of_order (isOrder : extractStringField msg "action" = some "order".toList) :
    (∃ answered, server.respond host userId msg = .ok answered) ↔
      OrderNumbersFit (extractStringField msg) (numberFound msg) := by
  rw [← parseOrderJson_returns_iff]
  unfold respond
  rw [isOrder, Option.getD_some, if_pos rfl]
  rcases parseOrderJson msg with thrown | _ | request
  · simp
  · simp
  · exact ⟨fun _ => ⟨_, rfl⟩, fun _ => ⟨_, rfl⟩⟩

theorem respond_of_cancel (isCancel : extractStringField msg "action" = some "cancel".toList) :
    (∃ answered, server.respond host userId msg = .ok answered) ↔
      Fits msg "id" ∧ ∀ orderId, numberFound msg "id" = some orderId → 0 < orderId →
        server.users.getUserForOrder orderId = userId → server.engine.book.Reaches orderId := by
  have notOrder : ¬ "cancel".toList = "order".toList := by decide
  unfold respond
  rw [isCancel, Option.getD_some, if_neg notOrder, if_pos rfl, parseCancelJson]
  by_cases fits : Fits msg "id"
  · rw [extractIntField_of_fits fits]
    cases numberFound msg "id" with
    | none => simp [fits]
    | some orderId =>
        simp only [Option.some.injEq, forall_eq', fits, true_and]
        by_cases negative : orderId ≤ 0
        · rw [if_pos negative]
          exact ⟨fun _ positive => absurd positive (Int.not_lt.mpr negative), fun _ => ⟨_, rfl⟩⟩
        · rw [if_neg negative]
          simp only [Int.not_le.mp negative, forall_const]
          by_cases owner : server.users.getUserForOrder orderId = userId
          · rw [← cancelOrder_returns_iff host]
            simp only [owner, ne_eq, not_true, if_false, forall_const]
            cases server.cancelOrder host none orderId <;> simp
          · simp [owner]
  · rw [extractIntField_of_not_fits fits]
    simp [fits]

theorem respond_returns_iff :
    (∃ answered, server.respond host userId msg = .ok answered) ↔
      NumbersFit (extractStringField msg) (numberFound msg) ∧
        ∀ orderId, CancelsOwn (extractStringField msg) (numberFound msg) server userId orderId →
          server.engine.book.Reaches orderId := by
  have differ : ¬ "order".toList = "cancel".toList := by decide
  have readable : Readable (numberFound msg "id") ↔ Fits msg "id" := Iff.rfl
  unfold NumbersFit CancelsOwn
  rw [readable]
  by_cases isOrder : extractStringField msg "action" = some "order".toList
  · rw [respond_of_order host server userId msg isOrder]
    simp [isOrder]
  · by_cases isCancel : extractStringField msg "action" = some "cancel".toList
    · rw [respond_of_cancel host server userId msg isCancel]
      simp [isCancel]
    · have known : ∀ word, extractStringField msg "action" ≠ some word → word ≠ [] →
          ¬ (extractStringField msg "action").getD [] = word := by
        intro word notWord nonempty
        cases action : extractStringField msg "action" with
        | none => exact fun same => nonempty same.symm
        | some other =>
            rw [action] at notWord
            exact fun same => notWord (congrArg some same)
      unfold respond
      rw [if_neg (known _ isOrder (by decide)), if_neg (known _ isCancel (by decide))]
      exact ⟨fun _ => ⟨⟨fun order => absurd order isOrder, fun cancel => absurd cancel isCancel⟩,
        fun _ cancels => absurd cancels.1 isCancel⟩, fun _ => ⟨_, rfl⟩⟩

/-- What is answered needs no escapes. -/
theorem plain_of_respond {next : Server} {answer : Answer}
    (responds : server.respond host userId msg = .ok (next, answer)) : answer.Plain := by
  unfold respond at responds
  by_cases isOrder : (extractStringField msg "action").getD [] = "order".toList
  · rw [if_pos isOrder] at responds
    generalize parseOrderJson msg = parsed at responds
    rcases parsed with thrown | _ | request
    · cases responds
    · cases responds
      exact (by decide : PlainWord "Invalid order")
    · cases responds
      exact MatchingEngine.plain_reason_processOrder host _ _
  rw [if_neg isOrder] at responds
  by_cases isCancel : (extractStringField msg "action").getD [] = "cancel".toList
  · rw [if_pos isCancel] at responds
    generalize parseCancelJson msg = parsed at responds
    rcases parsed with thrown | _ | orderId
    · cases responds
    · cases responds
      exact (by decide : PlainWord "Invalid cancel request")
    · simp only at responds
      by_cases owner : server.users.getUserForOrder orderId = userId
      · rw [if_neg (not_not.mpr owner)] at responds
        generalize server.cancelOrder host none orderId = cancelled at responds
        rcases cancelled with fault | ⟨later, done⟩
        · cases responds
        · cases responds
          trivial
      · rw [if_pos owner] at responds
        cases responds
        exact (by decide : PlainWord "Not your order")
  · rw [if_neg isCancel] at responds
    cases responds
    exact (by decide : PlainWord "Unknown action. Use 'order' or 'cancel'")

end Server

end OrderBookSimulator
