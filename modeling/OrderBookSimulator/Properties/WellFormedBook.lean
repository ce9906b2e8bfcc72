import OrderBookSimulator.Engine.Tracked

/-!
# Well-formed and uncrossed books

What a change callback can see of the book, and what a caller finds between
calls, is always a well-formed pair of sides that do not cross.  The exit
condition of the matching loop is what keeps a resting remainder from crossing.
-/

namespace OrderBookSimulator

open Library

namespace Snapshot

def levels (snapshot : Snapshot) : (side : Side) → Levels side
  | .buy => snapshot.bids
  | .sell => snapshot.asks

def orders (snapshot : Snapshot) : List Order :=
  (snapshot.bids.entries.flatMap (·.2) ++ snapshot.asks.entries.flatMap (·.2)).map (·.order)

structure WellFormed (snapshot : Snapshot) : Prop where
  nonempty : ∀ side, ∀ entry ∈ (snapshot.levels side).entries, entry.2 ≠ []
  positive : ∀ order ∈ snapshot.orders, 0 < order.qty
  placed : ∀ side, ∀ entry ∈ (snapshot.levels side).entries, ∀ node ∈ entry.2,
    node.order.side = side ∧ node.order.price = entry.1
  distinct : (snapshot.orders.map (·.id)).Nodup
  uncrossed : ∀ bid ∈ snapshot.bids.first?.map (·.1), ∀ ask ∈ snapshot.asks.first?.map (·.1),
    bid < ask

end Snapshot

namespace OrderBook

/-- Every bid is below every ask. -/
def Uncrossed (book : OrderBook) : Prop :=
  ∀ bid ∈ book.resting, ∀ ask ∈ book.resting, bid.side = .buy → ask.side = .sell →
    bid.price < ask.price

@[simp] theorem snapshot_levels (book : OrderBook) (side : Side) :
    book.snapshot.levels side = book.levels side := by
  cases side <;> rfl

theorem level_of_mem_entries {book : OrderBook} {side : Side} {price : Int} {queue : OrderList}
    (member : (price, queue) ∈ (book.levels side).entries) : book.level side price = queue := by
  rw [level, SortedMap.findD, SortedMap.mem_entries_iff.mp member]
  rfl

section Sound

variable {book : OrderBook} (sound : book.Sound)

include sound

/-- The best price of a side is the price of one of its resting orders. -/
theorem exists_resting_of_bestPrice {side : Side} {price : Int}
    (best : book.bestPrice side = some price) :
    ∃ order ∈ book.resting, order.side = side ∧ order.price = price := by
  obtain ⟨⟨bestPrice, queue⟩, first, rfl⟩ := Option.map_eq_some_iff.mp best
  obtain ⟨_, front, rest, firstAgain⟩ := sound.exists_front (by rw [first]; simp)
  obtain ⟨rfl, rfl⟩ := Prod.mk.inj (Option.some.inj (first.symm.trans firstAgain))
  have atLevel := Sound.mem_level_of_first? firstAgain
  exact ⟨front.order, List.mem_map_of_mem (mem_nodes_iff.mpr ⟨_, _, atLevel⟩),
    sound.placed _ _ front atLevel⟩

/-- No resting order is ahead of the best price of its side. -/
theorem bestPrice_of_resting {order : Order} (member : order ∈ book.resting) :
    ∃ best, book.bestPrice order.side = some best ∧
      (order.price = best ∨ Ahead order.side best order.price) := by
  obtain ⟨node, queued, rfl⟩ := List.mem_map.mp member
  have nonempty := List.ne_nil_of_mem (sound.located_of_mem queued).2
  cases first : (book.levels node.order.side).first? with
  | none => exact absurd (level_eq_nil_of_first? first node.order.price) nonempty
  | some entry =>
      obtain ⟨best, queue⟩ := entry
      exact ⟨best, by rw [bestPrice, first]; rfl, (level_of_first? first).2 _ nonempty⟩

theorem uncrossed_iff : book.Uncrossed ↔
    ∀ bid ∈ book.bestBid, ∀ ask ∈ book.bestAsk, bid < ask := by
  constructor
  · intro uncrossed bid bestBid ask bestAsk
    obtain ⟨bidOrder, bidMember, bidSide, rfl⟩ := exists_resting_of_bestPrice sound bestBid
    obtain ⟨askOrder, askMember, askSide, rfl⟩ := exists_resting_of_bestPrice sound bestAsk
    exact uncrossed bidOrder bidMember askOrder askMember bidSide askSide
  · intro best bid bidMember ask askMember bidSide askSide
    obtain ⟨bestBid, isBestBid, bidBehind⟩ := bestPrice_of_resting sound bidMember
    obtain ⟨bestAsk, isBestAsk, askBehind⟩ := bestPrice_of_resting sound askMember
    rw [bidSide] at isBestBid bidBehind
    rw [askSide] at isBestAsk askBehind
    have apart := best bestBid isBestBid bestAsk isBestAsk
    simp only [Ahead] at bidBehind askBehind
    omega

/-- A sound, uncrossed book looks well-formed from outside. -/
theorem wellFormed_snapshot (uncrossed : book.Uncrossed) : book.snapshot.WellFormed where
  nonempty := by
    rintro side ⟨price, queue⟩ member rfl
    rw [snapshot_levels] at member
    exact sound.noEmptyLevel side price (SortedMap.mem_entries_iff.mp member)
  positive := by
    intro order member
    obtain ⟨node, queued, rfl⟩ := List.mem_map.mp member
    exact sound.positive node queued
  placed := by
    rintro side ⟨price, queue⟩ member node inQueue
    rw [snapshot_levels] at member
    have atLevel : node ∈ book.level side price := level_of_mem_entries member ▸ inQueue
    exact sound.placed side price node atLevel
  distinct := sound.resting_nodup
  uncrossed := (uncrossed_iff sound).mp uncrossed

end Sound

/-! ## What the change callback has seen -/

/-- Everything the change callback has seen satisfies `Good`. -/
def Observed (Good : Snapshot → Prop) (book : OrderBook) : Prop :=
  ∀ snapshot ∈ book.onChange.getD [], Good snapshot

namespace Observed

variable {Good : Snapshot → Prop} {book : OrderBook}

theorem notifyChange (observed : Observed Good book) (now : Good book.snapshot) :
    Observed Good book.notifyChange := by
  intro snapshot member
  cases sink : book.onChange with
  | none => simp [OrderBook.notifyChange, sink] at member
  | some seen =>
      simp only [OrderBook.notifyChange, sink, Option.map_some, Option.getD_some,
        List.mem_append, List.mem_singleton] at member
      rcases member with earlier | rfl
      · exact observed snapshot (by simpa [sink] using earlier)
      · exact now

theorem addRestingOrder (observed : Observed Good book) (order : Order)
    (now : Good (book.addRestingOrder order).snapshot) :
    Observed Good (book.addRestingOrder order) := by
  by_cases positive : 0 < order.qty
  · cases found : book.index.find? order.id with
    | none =>
        rw [addRestingOrder_of_new positive found] at now ⊢
        exact notifyChange (by simpa [Observed] using observed) now
    | some loc =>
        rw [addRestingOrder_of_known found]
        exact observed
  · rw [addRestingOrder_of_nonpos (by omega)]
    exact observed

theorem withdrawn (observed : Observed Good book) (order : Order)
    (now : Good (book.withdrawn order).snapshot) : Observed Good (book.withdrawn order) :=
  notifyChange (by simpa [Observed, forget] using observed) now

end Observed

end OrderBook

namespace MatchingEngine

section Call

variable {host : Host} {takerSide : Side} {batchId : Int} {before : OrderBook} {incoming : Order}
  {sweep : Sweep}

/-- A sweep changes neither side nor price of an order, so it cannot cross the book. -/
theorem Swept.uncrossed (swept : Swept before incoming sweep) (uncrossed : before.Uncrossed) :
    sweep.engine.book.Uncrossed := by
  intro bid bidMember ask askMember bidSide askSide
  obtain ⟨oldBid, oldBidMember, sameBid⟩ := swept.kept bid bidMember
  obtain ⟨oldAsk, oldAskMember, sameAsk⟩ := swept.kept ask askMember
  rw [sameBid] at bidSide ⊢
  rw [sameAsk] at askSide ⊢
  exact uncrossed oldBid oldBidMember oldAsk oldAskMember bidSide askSide

/-- Where a limit order has something left, its limit admits nothing on the other side. -/
theorem Swept.beyond_of_left (swept : Swept before incoming sweep)
    (stopped : fillStep host takerSide batchId sweep = none) (left : 0 < sweep.taker.qty)
    {order : Order} (member : order ∈ sweep.engine.book.resting)
    (opposite : order.side = takerSide.opposite) :
    beyondLimit takerSide order.price incoming.price = true := by
  obtain ⟨node, queued, rfl⟩ := List.mem_map.mp member
  have atLevel := (swept.sound.located_of_mem queued).2
  rw [opposite] at atLevel
  have nonempty := List.ne_nil_of_mem atLevel
  rcases swept.ended stopped with filled | none | ⟨price, queue, best, _, beyond⟩
  · omega
  · exact absurd (OrderBook.level_eq_nil_of_first? none node.order.price) nonempty
  · rcases (OrderBook.level_of_first? best).2 node.order.price nonempty with same | ahead
    · rw [same]
      exact beyond
    · cases takerSide <;>
        simp only [beyondLimit, decide_eq_true_eq, Ahead, Side.opposite] at beyond ahead ⊢ <;>
        omega

/-- The book after an accepted call is uncrossed. -/
theorem Swept.uncrossed_concluded (swept : Swept before incoming sweep)
    (stopped : fillStep host incoming.side batchId sweep = none) (uncrossed : before.Uncrossed) :
    (concluded host incoming batchId sweep).book.Uncrossed := by
  have takerSide : sweep.taker.side = incoming.side := by rw [swept.taker]
  have takerPrice : sweep.taker.price = incoming.price := by rw [swept.taker]
  intro bid bidMember ask askMember bidSide askSide
  rcases mem_resting_concluded bidMember with bidNew | bidOld <;>
    rcases mem_resting_concluded askMember with askNew | askOld
  · obtain ⟨rfl, _⟩ := eq_of_mem_remainder bidNew
    obtain ⟨rfl, _⟩ := eq_of_mem_remainder askNew
    rw [bidSide] at askSide
    cases askSide
  · obtain ⟨rfl, _, left⟩ := eq_of_mem_remainder bidNew
    rw [takerSide] at bidSide
    have beyond := swept.beyond_of_left stopped left askOld (by rw [askSide, bidSide]; rfl)
    rw [bidSide] at beyond
    simpa [beyondLimit, takerPrice] using beyond
  · obtain ⟨rfl, _, left⟩ := eq_of_mem_remainder askNew
    rw [takerSide] at askSide
    have beyond := swept.beyond_of_left stopped left bidOld (by rw [askSide, bidSide]; rfl)
    rw [askSide] at beyond
    simpa [beyondLimit, takerPrice] using beyond
  · exact swept.uncrossed uncrossed bid bidOld ask askOld bidSide askSide

/-- What the callback sees during an accepted call. -/
theorem Swept.observed_concluded {Good : Snapshot → Prop} (swept : Swept before incoming sweep)
    (observed : before.Observed Good) (matched : Good sweep.engine.book.snapshot)
    (now : Good (concluded host incoming batchId sweep).book.snapshot) :
    (concluded host incoming batchId sweep).book.Observed Good := by
  have swept' : sweep.engine.book.Observed Good := by
    unfold OrderBook.Observed
    rw [swept.onChange]
    exact observed
  have announced : (announcedBook sweep).Observed Good := by
    unfold announcedBook
    split
    · exact swept'
    · exact swept'.notifyChange matched
  rw [book_concluded, book_restRemainder] at now ⊢
  split
  · rename_i rests
    rw [if_pos rests] at now
    exact announced.addRestingOrder _ now
  · exact announced

end Call

section Answer

variable {host : Host} {engine next : MatchingEngine} {call : Call} {reply : Reply}
  (answered : Answered host engine call reply next)
  (entered : ∀ order, call ≠ .addRestingOrder order)

include answered entered

/-- Whatever its id, an order that goes through the engine leaves the book uncrossed. -/
theorem Answered.uncrossed (sound : engine.book.Sound) (uncrossed : engine.book.Uncrossed) :
    next.book.Uncrossed := by
  cases answered with
  | allotted => exact uncrossed
  | added order => exact absurd rfl (entered order)
  | refused order status => simpa using uncrossed
  | accepted order ok swept =>
      exact swept.uncrossed_concluded (callSweep_settles host engine order).stopped uncrossed
  | unknown => exact uncrossed
  | withdrawn node queued =>
      have perm := sound.resting_withdrawn queued
      rw [book_cancelled]
      intro bid bidMember ask askMember
      exact uncrossed bid (perm.mem_iff.mpr (.tail _ bidMember)) ask
        (perm.mem_iff.mpr (.tail _ askMember))

/-- What holds of the book in the middle of a call and after it holds of all that is seen. -/
theorem Answered.observed {Good : Snapshot → Prop} (observed : engine.book.Observed Good)
    (matched : ∀ order, Swept engine.book order (engine.callSweep host order) →
      Good (engine.callSweep host order).engine.book.snapshot)
    (now : Good next.book.snapshot) : next.book.Observed Good := by
  cases answered with
  | allotted => exact observed
  | added order => exact absurd rfl (entered order)
  | refused order status => simpa using observed
  | accepted order ok swept => exact swept.observed_concluded observed (matched order swept) now
  | unknown => exact observed
  | withdrawn node queued =>
      rw [book_cancelled] at now ⊢
      exact (observed.withdrawn node.order now).notifyChange now

end Answer

/-- One ordinary call leaves the book uncrossed and shows the callback nothing else. -/
theorem uncrossed_step {host : Host} {start state next : MatchingEngine} {log : Log} {call : Call}
    {reply : Reply} (tracked : Tracked start log state) (allowed : Ordinary start log call)
    (answered : Answered host state call reply next) (uncrossed : state.book.Uncrossed)
    (observed : state.book.Observed Snapshot.WellFormed) :
    next.book.Uncrossed ∧ next.book.Observed Snapshot.WellFormed := by
  have sound := tracked.sound
  have entered : ∀ order, call ≠ .addRestingOrder order := by
    rintro order rfl
    exact allowed
  have after := answered.uncrossed entered sound uncrossed
  exact ⟨after, answered.observed entered observed
    (fun order swept => OrderBook.wellFormed_snapshot swept.sound (swept.uncrossed uncrossed))
    (OrderBook.wellFormed_snapshot (answered.sound sound) after)⟩

/--
From a sound book whose best prices do not cross, the book is well-formed after
every ordinary call and each time the change callback runs.
-/
theorem book_wellFormed {host : Host} {start state : MatchingEngine} {log : Log}
    (sound : start.book.Sound)
    (uncrossed : ∀ bid ∈ start.book.bestBid, ∀ ask ∈ start.book.bestAsk, bid < ask)
    (unobserved : start.book.onChange.getD [] = [])
    (session : Session host start log state) :
    state.book.snapshot.WellFormed ∧ state.book.Observed Snapshot.WellFormed := by
  have both := session.invariant
    (fun _ state => state.book.Uncrossed ∧ state.book.Observed Snapshot.WellFormed)
    ⟨(OrderBook.uncrossed_iff sound).mpr uncrossed, by simp [OrderBook.Observed, unobserved]⟩
    fun log state call reply next earlier held allowed answer => by
      have tracked := tracked_of_session sound earlier
      exact uncrossed_step tracked allowed (answered_of_exec tracked.sound answer) held.1 held.2
  exact ⟨OrderBook.wellFormed_snapshot (tracked_of_session sound session).sound both.1, both.2⟩

/-- A seeded book whose ask is lifted, bid for, and bid back. -/
theorem book_wellFormed_sample :
    ∃ log state, Session (Host.exact (·))
        { book := (({} : OrderBook).addRestingOrder ⟨1, 0, .sell, 105, 4, .limit⟩).setOnChange }
        log state ∧
      (state.book.onChange.getD []).length = 4 ∧
      state.book.snapshot.WellFormed ∧ state.book.Observed Snapshot.WellFormed := by
  have run := Run.of_isSome (exec (Host.exact (·)))
    (Ordinary
      { book := (({} : OrderBook).addRestingOrder ⟨1, 0, .sell, 105, 4, .limit⟩).setOnChange })
    { book := (({} : OrderBook).addRestingOrder ⟨1, 0, .sell, 105, 4, .limit⟩).setOnChange }
    [.processOrder ⟨2, 0, .buy, 106, 6, .limit⟩, .cancelOrder 2] (by decide)
  exact ⟨_, _, run, by decide,
    book_wellFormed ((OrderBook.sound_empty none).afterAdd _).setOnChange (by decide) rfl run⟩

end MatchingEngine

end OrderBookSimulator
