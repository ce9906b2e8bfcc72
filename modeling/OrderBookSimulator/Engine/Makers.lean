import OrderBookSimulator.Engine.Allotment
import OrderBookSimulator.Engine.Tracked
import OrderBookSimulator.Engine.Walk

/-!
# What a call does to the orders it finds

Under an id that the book does not know, an order takes from each resting order
what the reported trades say, each at the resting order's own price, and
changes nothing else about it.  A cancel removes the order of its id.
-/

namespace OrderBookSimulator

open Library

/-- What the trades of `taker` leave of an order that was resting before. -/
structure TradedWith (taker : Order) (trades : List Trade) (resting : List Order) (old : Order) :
    Prop where
  terms : ∀ trade ∈ trades, trade.makerId = old.id →
    trade.takerId = taker.id ∧ trade.price = old.price ∧ 0 < trade.qty
  within : 0 ≤ makerQty trades old.id ∧ makerQty trades old.id ≤ old.qty
  left : makerQty trades old.id < old.qty →
    { old with qty := old.qty - makerQty trades old.id } ∈ resting
  gone : makerQty trades old.id = old.qty → ∀ order ∈ resting, order.id ≠ old.id

namespace MatchingEngine

section Makers

variable {host : Host} {engine next : MatchingEngine} {incoming : Order}

/-- Each reported trade is with a resting order, at that order's price. -/
theorem exists_maker_of_mem_report (sound : engine.book.Sound) (nonneg : 0 ≤ incoming.qty)
    {trade : Trade}
    (member : trade ∈ (report host incoming (engine.callSweep host incoming)).trades) :
    trade.takerId = incoming.id ∧ 0 < trade.qty ∧
      ∃ maker ∈ engine.book.resting, trade.makerId = maker.id ∧ trade.price = maker.price := by
  obtain ⟨plain, plainMember, same⟩ :=
    exists_of_unstamped (unstamped_report host incoming (engine.callSweep host incoming)) member
  obtain ⟨positive, takerId, _⟩ := (swept_callSweep host sound nonneg).trades plain plainMember
  rw [trades_callSweep host sound nonneg] at plainMember
  obtain ⟨taken, inTakes, rfl⟩ := List.mem_map.mp plainMember
  have maker := OrderBook.mem_resting_of_mem_opposing (mem_of_mem_takes inTakes)
  refine ⟨?_, ?_, taken.1, maker, ?_, ?_⟩
  · exact (congrArg Trade.takerId same).symm.trans takerId
  · have sameQty := congrArg Trade.qty same
    exact lt_of_lt_of_eq positive sameQty
  · exact (congrArg Trade.makerId same).symm
  · exact (congrArg Trade.price same).symm

/-- A resting order keeps its place with what the sweep did not take of it. -/
theorem Swept.mem_resting_of_left {before : OrderBook} {sweep : Sweep}
    (swept : Swept before incoming sweep) (sound : before.Sound) {old : Order}
    (member : old ∈ before.resting) (left : makerQty sweep.trades old.id < old.qty) :
    { old with qty := old.qty - makerQty sweep.trades old.id } ∈ sweep.engine.book.resting := by
  have total := swept.maker_qty old.id
  rw [sound.restingQty_of_mem member] at total
  have rests : sweep.engine.book.Resting old.id := by
    by_contra notResting
    rw [OrderBook.restingQty_of_not_resting notResting] at total
    omega
  obtain ⟨now, nowMember, sameId⟩ := rests
  obtain ⟨origin, originMember, same⟩ := swept.kept now nowMember
  have originId : origin.id = old.id := by rw [← sameId, same]
  obtain rfl := List.inj_on_of_nodup_map sound.resting_nodup originMember member originId
  have nowQty := swept.sound.restingQty_of_mem nowMember
  rw [sameId] at nowQty
  have leftQty : origin.qty - makerQty sweep.trades origin.id = now.qty := by omega
  rw [leftQty, ← same]
  exact nowMember

theorem Swept.not_resting_of_taken {before : OrderBook} {sweep : Sweep}
    (swept : Swept before incoming sweep) (sound : before.Sound) {old : Order}
    (member : old ∈ before.resting) (taken : makerQty sweep.trades old.id = old.qty) :
    ¬ sweep.engine.book.Resting old.id := by
  intro rests
  have total := swept.maker_qty old.id
  rw [sound.restingQty_of_mem member] at total
  have positive := swept.sound.restingQty_pos rests
  omega

/-- An order under a new id trades with the orders it finds, and does nothing else to them. -/
theorem Answered.tradedWith {result : OrderResult}
    (answered : Answered host engine (.processOrder incoming) (.result result) next)
    (sound : engine.book.Sound) (fresh : engine.book.index.find? incoming.id = none) {old : Order}
    (member : old ∈ engine.book.resting) :
    TradedWith incoming result.trades next.book.resting old := by
  cases answered with
  | refused order status =>
      have untraded : makerQty (engine.refusal host incoming status).trades old.id = 0 := rfl
      have positive := sound.qty_pos member
      refine ⟨by simp [refusal], by omega, fun _ => ?_, fun taken => by omega⟩
      simpa [untraded] using member
  | accepted order ok swept =>
      have nonneg := Int.le_of_lt (passed_of_isOk ok).qty_pos
      have perm := swept.resting_concluded host fresh engine.batchSeq
      have total := swept.maker_qty old.id
      rw [sound.restingQty_of_mem member] at total
      constructor
      · intro trade inTrades same
        obtain ⟨takerId, positive, maker, makerMember, makerId, price⟩ :=
          exists_maker_of_mem_report sound nonneg inTrades
        obtain rfl := List.inj_on_of_nodup_map sound.resting_nodup makerMember member
          (makerId.symm.trans same)
        exact ⟨takerId, price, positive⟩
      · rw [makerQty_report]
        have taken : 0 ≤ makerQty (engine.callSweep host incoming).trades old.id :=
          tally_nonneg fun trade inTrades _ => Int.le_of_lt (swept.trades trade inTrades).1
        have rests : 0 ≤ (engine.callSweep host incoming).engine.book.restingQty old.id :=
          tally_nonneg fun order inResting _ => Int.le_of_lt (swept.sound.qty_pos inResting)
        omega
      · rw [makerQty_report]
        intro left
        exact perm.mem_iff.mpr
          (List.mem_append_right _ (swept.mem_resting_of_left sound member left))
      · rw [makerQty_report]
        rintro taken now nowMember sameId
        rcases List.mem_append.mp (perm.mem_iff.mp nowMember) with new | rests
        · have newId : now.id = incoming.id := by
            rw [(eq_of_mem_remainder new).1, swept.taker]
          exact sound.not_resting_of_unknown fresh ⟨old, member, sameId.symm.trans newId⟩
        · exact swept.not_resting_of_taken sound member taken ⟨now, rests, sameId⟩

/-- What rests after an order was processed is what is left of it, or of an order it found. -/
theorem Answered.mem_resting {result : OrderResult}
    (answered : Answered host engine (.processOrder incoming) (.result result) next) {now : Order}
    (member : now ∈ next.book.resting) :
    now = { incoming with qty := now.qty } ∨
      ∃ old ∈ engine.book.resting, now = { old with qty := now.qty } := by
  cases answered with
  | refused order status => exact Or.inr ⟨now, by simpa using member, rfl⟩
  | accepted order ok swept =>
      rcases mem_resting_concluded member with new | rests
      · rw [(eq_of_mem_remainder new).1]
        exact Or.inl swept.taker
      · exact Or.inr (swept.kept now rests)

/-- Processing an order under a new id makes no other id known. -/
theorem Answered.index_of_processOrder {reply : Reply}
    (answered : Answered host engine (.processOrder incoming) reply next)
    (fresh : engine.book.index.find? incoming.id = none) {orderId : Int}
    (other : orderId ≠ incoming.id) (unknown : engine.book.index.find? orderId = none) :
    next.book.index.find? orderId = none := by
  cases answered with
  | refused order status => simpa using unknown
  | accepted order ok swept =>
      rw [← Option.not_isSome_iff_eq_none, swept.index_concluded host fresh, unknown]
      rintro (known | ⟨_, same⟩)
      · cases known
      · exact other same

/-- A cancel leaves the orders of all other ids, and no others. -/
theorem Answered.resting_of_cancelOrder {orderId : Int} {reply : Reply}
    (answered : Answered host engine (.cancelOrder orderId) reply next) (sound : engine.book.Sound)
    (order : Order) :
    order ∈ next.book.resting ↔ order ∈ engine.book.resting ∧ order.id ≠ orderId := by
  cases answered with
  | unknown orderId notFound =>
      have apart : order ∈ engine.book.resting → order.id ≠ orderId :=
        fun member same => sound.not_resting_of_unknown notFound ⟨order, member, same⟩
      exact ⟨fun member => ⟨member, apart member⟩, And.left⟩
  | withdrawn node queued =>
      have perm := sound.resting_withdrawn queued
      have nodup := (perm.map (·.id)).nodup_iff.mp sound.resting_nodup
      rw [book_cancelled]
      constructor
      · intro member
        refine ⟨perm.mem_iff.mpr (.tail _ member), fun same => ?_⟩
        exact (List.nodup_cons.mp nodup).1 (List.mem_map.mpr ⟨order, member, same⟩)
      · rintro ⟨member, apart⟩
        rcases List.mem_cons.mp (perm.mem_iff.mp member) with rfl | other
        · exact absurd rfl apart
        · exact other

theorem Answered.index_of_cancelOrder {orderId other : Int} {reply : Reply}
    (answered : Answered host engine (.cancelOrder orderId) reply next)
    (unknown : engine.book.index.find? other = none) : next.book.index.find? other = none := by
  cases answered with
  | unknown => exact unknown
  | withdrawn node queued =>
      rw [book_cancelled, OrderBook.index_notifyChange, OrderBook.index_withdrawn,
        SortedMap.find?_erase, unknown, ite_self]

end Makers

end MatchingEngine

end OrderBookSimulator
