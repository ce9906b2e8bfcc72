import OrderBookSimulator.Engine.Leaves

/-!
# Splitting an order

An order cut in two, its parts sent one after the other, leaves the market as
the whole order would have.  Along the queue this is one induction: the cut
falls inside a maker, whose two fills are then one fill, or behind a maker
that both runs use up.
-/

namespace OrderBookSimulator

open Library

/-! ## Fills by maker -/

/-- How much one maker was filled by at its price. -/
structure MakerFill where
  makerId : Int
  price : Int
  qty : Int
  deriving DecidableEq, Repr

namespace MakerFill

/-- Put a fill in front, joining it with the next one where that is of the same maker. -/
def join (fill : MakerFill) : List MakerFill → List MakerFill
  | [] => [fill]
  | next :: rest =>
      if next.makerId = fill.makerId ∧ next.price = fill.price then
        { fill with qty := fill.qty + next.qty } :: rest
      else fill :: next :: rest

/-- Successive fills of one maker as one fill. -/
def merge (fills : List MakerFill) : List MakerFill := fills.foldr join []

/-- Filling a maker twice in a row is filling it once by the sum. -/
theorem join_join (makerId price first second : Int) (fills : List MakerFill) :
    join ⟨makerId, price, first⟩ (join ⟨makerId, price, second⟩ fills) =
      join ⟨makerId, price, first + second⟩ fills := by
  cases fills with
  | nil => simp [join]
  | cons next rest =>
      by_cases same : next.makerId = makerId ∧ next.price = price
      · simp [join, same, Int.add_assoc]
      · simp [join, same]

theorem merge_cons (fill : MakerFill) (fills : List MakerFill) :
    merge (fill :: fills) = join fill (merge fills) := rfl

section Totals

variable (select : Int → Prop) [DecidablePred select]

theorem tally_join (fill : MakerFill) (fills : List MakerFill) :
    tally (fun fill => select fill.makerId) qty (join fill fills) =
      tally (fun fill => select fill.makerId) qty (fill :: fills) := by
  cases fills with
  | nil => rfl
  | cons next rest =>
      by_cases same : next.makerId = fill.makerId ∧ next.price = fill.price
      · rw [join, if_pos same]
        simp only [tally_cons, same.1]
        split <;> omega
      · rw [join, if_neg same]

/-- Merging keeps what the makers were filled by in all. -/
theorem tally_merge (fills : List MakerFill) :
    tally (fun fill => select fill.makerId) qty (merge fills) =
      tally (fun fill => select fill.makerId) qty fills := by
  induction fills with
  | nil => rfl
  | cons fill rest ih => rw [merge_cons, tally_join, tally_cons, tally_cons, ih]

end Totals

end MakerFill

def Trade.fill (trade : Trade) : MakerFill := ⟨trade.makerId, trade.price, trade.qty⟩

/-- Which makers were filled, in which order, at which price and by how much. -/
def makerFills (trades : List Trade) : List MakerFill := MakerFill.merge (trades.map Trade.fill)

namespace MatchingEngine

/-! ## The walk in two legs -/

/-- The fill a maker gets when an order takes an amount from it. -/
def makerFillOf (taken : Order × Int) : MakerFill := ⟨taken.1.id, taken.1.price, taken.2⟩

/-- The orders at the front of a queue that are admitted. -/
def admitted (admits : Order → Bool) (queue : OrderList) : List Order :=
  (queue.map (·.order)).takeWhile admits

/-- A limit looks at the price of a maker, not at how much of it is left. -/
def BlindToQty (admits : Order → Bool) : Prop :=
  ∀ maker qty, admits { maker with qty } = admits maker

section Walk

variable {admits : Order → Bool} {maker : Node} {rest : OrderList}

theorem admitted_cons (accepted : admits maker.order = true) :
    admitted admits (maker :: rest) = maker.order :: admitted admits rest :=
  List.takeWhile_cons_of_pos accepted

theorem admitted_of_refused (refused : ¬ admits maker.order = true) :
    admitted admits (maker :: rest) = [] :=
  List.takeWhile_cons_of_neg refused

theorem leaves_of_refused (refused : ¬ admits maker.order = true) (qty : Int) :
    leaves admits qty (maker :: rest) = maker :: rest := by
  rw [leaves, if_neg fun both => refused both.2]

theorem leaves_cons (accepted : admits maker.order = true) {qty : Int} (wants : 0 < qty) :
    leaves admits qty (maker :: rest) =
      queueAfterFill (min qty maker.order.qty) maker
        (leaves admits (qty - min qty maker.order.qty) rest) := by
  rw [leaves, if_pos ⟨wants, accepted⟩]

theorem takes_cons {qty : Int} (wants : 0 < qty) (maker : Order) (queue : List Order) :
    takes qty (maker :: queue) =
      (maker, min qty maker.qty) :: takes (qty - min qty maker.qty) queue := by
  rw [takes, if_pos wants]

/-- Both legs of a walk: what is left behind them, and what they took on the way. -/
def SameWalk (admits : Order → Bool) (first second : Int) (queue : OrderList) : Prop :=
  leaves admits (first + second) queue = leaves admits second (leaves admits first queue) ∧
    MakerFill.merge ((takes (first + second) (admitted admits queue)).map makerFillOf) =
      MakerFill.merge ((takes first (admitted admits queue)).map makerFillOf ++
        (takes second (admitted admits (leaves admits first queue))).map makerFillOf)

/-- The first leg ends inside a maker, which the second leg goes on with. -/
theorem SameWalk.inside (blind : BlindToQty admits) (accepted : admits maker.order = true)
    {first second : Int} (firstPos : 0 < first) (secondPos : 0 < second)
    (short : first < maker.order.qty) : SameWalk admits first second (maker :: rest) := by
  have wholePos : 0 < first + second := by omega
  have firstMin : min first maker.order.qty = first := by omega
  have leftMin : min second (maker.order.qty - first) =
      min (first + second) maker.order.qty - first := by omega
  have leftOver : first + second - min (first + second) maker.order.qty =
      second - min second (maker.order.qty - first) := by omega
  have spared : leaves admits first (maker :: rest) =
      { maker with order := { maker.order with qty := maker.order.qty - first } } :: rest := by
    rw [leaves_cons accepted firstPos, firstMin, leaves_of_sated (by omega), queueAfterFill,
      if_neg (by omega)]
  have stillAccepted : admits { maker.order with qty := maker.order.qty - first } = true := by
    rw [blind, accepted]
  constructor
  · rw [spared, leaves_cons accepted wholePos, leaves_cons stillAccepted secondPos, leftOver]
    have sameLeft : maker.order.qty - first - min second (maker.order.qty - first) =
        maker.order.qty - min (first + second) maker.order.qty := by omega
    simp only [queueAfterFill, sameLeft]
  · rw [spared, admitted_cons accepted, admitted_cons stillAccepted, takes_cons wholePos,
      takes_cons firstPos, takes_cons secondPos, firstMin, leftOver, Int.sub_self,
      takes_of_nonpos (Int.lt_irrefl 0)]
    simp only [List.map_cons, List.map_nil, List.cons_append, List.nil_append, MakerFill.merge_cons,
      makerFillOf, MakerFill.join_join, leftMin]
    congr 2
    omega

/-- The first leg uses up its first maker. -/
theorem SameWalk.behind (accepted : admits maker.order = true) {first second : Int}
    (makerPos : 0 < maker.order.qty) (secondPos : 0 < second) (enough : maker.order.qty ≤ first)
    (later : SameWalk admits (first - maker.order.qty) second rest) :
    SameWalk admits first second (maker :: rest) := by
  have firstPos : 0 < first := by omega
  have wholePos : 0 < first + second := by omega
  have firstMin : min first maker.order.qty = maker.order.qty := by omega
  have wholeMin : min (first + second) maker.order.qty = maker.order.qty := by omega
  have left : first + second - maker.order.qty = first - maker.order.qty + second := by omega
  have usedUp : leaves admits first (maker :: rest) =
      leaves admits (first - maker.order.qty) rest := by
    rw [leaves_cons accepted firstPos, firstMin, queueAfterFill, if_pos (Int.sub_self _)]
  obtain ⟨leavesEq, fillsEq⟩ := later
  constructor
  · rw [usedUp, leaves_cons accepted wholePos, wholeMin, queueAfterFill, if_pos (Int.sub_self _),
      left, leavesEq]
  · rw [usedUp, admitted_cons accepted, takes_cons wholePos, takes_cons firstPos, firstMin,
      wholeMin, left]
    simp only [List.map_cons, List.cons_append, MakerFill.merge_cons, fillsEq]

/-- Going along a queue for a sum is going along it twice. -/
theorem sameWalk (blind : BlindToQty admits) {first second : Int} (firstNonneg : 0 ≤ first)
    (secondPos : 0 < second) {queue : OrderList}
    (positive : ∀ node ∈ queue, 0 < node.order.qty) : SameWalk admits first second queue := by
  induction queue generalizing first with
  | nil => exact ⟨rfl, rfl⟩
  | cons maker rest ih =>
      have makerPos := positive maker (.head _)
      by_cases accepted : admits maker.order = true
      · by_cases wants : 0 < first
        · by_cases short : first < maker.order.qty
          · exact .inside blind accepted wants secondPos short
          · exact .behind accepted makerPos secondPos (by omega)
              (ih (by omega) fun node member => positive node (.tail _ member))
        · obtain rfl : first = 0 := by omega
          rw [SameWalk, leaves_of_sated wants, takes_of_nonpos wants, Int.zero_add]
          exact ⟨rfl, rfl⟩
      · rw [SameWalk, leaves_of_refused accepted, leaves_of_refused accepted,
          leaves_of_refused accepted, admitted_of_refused accepted]
        exact ⟨rfl, rfl⟩

end Walk

/-! ## The two runs -/

/-- The same request cut in two. -/
structure Split (whole first second : Order) : Prop where
  side : first.side = whole.side ∧ second.side = whole.side
  type : first.type = whole.type ∧ second.type = whole.type
  price : first.price = whole.price ∧ second.price = whole.price
  qty : whole.qty = first.qty + second.qty
  positive : 0 < first.qty ∧ 0 < second.qty
  price_pos : whole.type = .limit → 0 < whole.price

/-- None of the three orders is known to the book, and the two parts differ. -/
structure FreshIds (book : OrderBook) (whole first second : Order) : Prop where
  wholeNew : book.index.find? whole.id = none
  firstNew : book.index.find? first.id = none
  secondNew : book.index.find? second.id = none
  distinct : second.id ≠ first.id

/-- What one call and two calls in a row have done to the market alike. -/
structure SameMarket (side : Side) (once part rest : MatchingEngine × OrderResult) : Prop where
  opposing : once.1.book.levels side.opposite = rest.1.book.levels side.opposite
  fills : makerFills once.2.trades = makerFills (part.2.trades ++ rest.2.trades)
  makers : ∀ makerId, makerQty once.2.trades makerId =
    makerQty part.2.trades makerId + makerQty rest.2.trades makerId
  filled : once.2.filledQty = part.2.filledQty + rest.2.filledQty
  own : ∀ price, once.1.book.levelQty side price = rest.1.book.levelQty side price

section Runs

variable {engine after : MatchingEngine} {order whole first second : Order} {result : OrderResult}

/-- The limit of a part is the limit of the whole. -/
theorem admitsMaker_congr (side : order.side = whole.side) (type : order.type = whole.type)
    (price : order.price = whole.price) : admitsMaker order = admitsMaker whole := by
  funext maker
  rw [admitsMaker, admitsMaker, side, type, price]

theorem Outcome.fills (outcome : Outcome engine order after result) :
    result.trades.map Trade.fill =
      (takes order.qty (admitted (admitsMaker order)
        (engine.book.queue order.side.opposite))).map makerFillOf := by
  have traded := congrArg (List.map Trade.fill) outcome.trades
  rw [List.map_map, List.map_map] at traded
  exact traded

/-- A total over makers can be read off the merged fills. -/
theorem tally_makerFills (select : Int → Prop) [DecidablePred select] (trades : List Trade) :
    tally (fun fill => select fill.makerId) MakerFill.qty (makerFills trades) =
      tally (fun trade : Trade => select trade.makerId) (·.qty) trades := by
  rw [makerFills, MakerFill.tally_merge, tally_map]
  rfl

theorem tally_of_makerFills (select : Int → Prop) [DecidablePred select] {first second : List Trade}
    (same : makerFills first = makerFills second) :
    tally (fun trade : Trade => select trade.makerId) (·.qty) first =
      tally (fun trade : Trade => select trade.makerId) (·.qty) second := by
  rw [← tally_makerFills, same, tally_makerFills]

theorem positive_of_queued {book : OrderBook} (sound : book.Sound) (side : Side) :
    ∀ node ∈ book.queue side, 0 < node.order.qty := by
  intro node member
  obtain ⟨price, atLevel⟩ := OrderBook.mem_queue_iff.mp member
  exact sound.positive node (OrderBook.mem_nodes_iff.mpr ⟨side, price, atLevel⟩)

/-- The two parts do together what the whole order does. -/
theorem Outcome.same {part rest : MatchingEngine} {partResult restResult : OrderResult}
    (sound : engine.book.Sound) (split : Split whole first second)
    (fresh : FreshIds engine.book whole first second)
    (once : Outcome engine whole after result)
    (one : Outcome engine first part partResult)
    (two : Outcome part second rest restResult) :
    SameMarket whole.side (after, result) (part, partResult) (rest, restResult) := by
  have firstAdmits := admitsMaker_congr split.side.1 split.type.1 split.price.1
  have secondAdmits := admitsMaker_congr split.side.2 split.type.2 split.price.2
  have firstQueue := one.queue
  have secondQueue := two.queue
  have firstFills := one.fills
  have secondFills := two.fills
  rw [firstAdmits, split.side.1] at firstQueue firstFills
  rw [secondAdmits, split.side.2] at secondQueue secondFills
  rw [firstQueue] at secondQueue secondFills
  have blind : BlindToQty (admitsMaker whole) := fun _ _ => rfl
  obtain ⟨leavesEq, fillsEq⟩ := sameWalk blind (Int.le_of_lt split.positive.1) split.positive.2
    (positive_of_queued sound whole.side.opposite)
  rw [← split.qty] at leavesEq fillsEq
  have fills : makerFills result.trades = makerFills (partResult.trades ++ restResult.trades) := by
    rw [makerFills, makerFills, List.map_append, once.fills, firstFills, secondFills, fillsEq]
  have makers : ∀ makerId, makerQty result.trades makerId =
      makerQty partResult.trades makerId + makerQty restResult.trades makerId := by
    intro makerId
    rw [← makerQty_append]
    exact tally_of_makerFills (· = makerId) fills
  have filled : result.filledQty = partResult.filledQty + restResult.filledQty := by
    rw [once.filled, one.filled, two.filled, ← tally_append]
    exact tally_of_makerFills (fun _ => True) fills
  refine ⟨?_, fills, makers, filled, ?_⟩
  · refine once.sound.levels_eq_of_queue_eq two.sound ?_
    rw [once.queue, leavesEq, secondQueue]
  · intro price
    have onceOwn := once.own fresh.wholeNew price
    have oneOwn := one.own fresh.firstNew price
    have secondNew : part.book.index.find? second.id = none := by
      rw [one.index _ fresh.distinct, fresh.secondNew]
    have twoOwn := two.own secondNew price
    rw [split.side.1, split.type.1, split.price.1] at oneOwn
    rw [split.side.2, split.type.2, split.price.2] at twoOwn
    have qty := split.qty
    simp only
    rw [onceOwn, twoOwn, oneOwn]
    split <;> omega

/--
From every reachable book, an order and the same order cut in two leave the
opposing side, the makers' fills and the quantities resting on the own side
alike, also where the second part is refused because nothing is left to buy.
-/
theorem splitting_changes_nothing {host : Host} {start : MatchingEngine} {log : Log}
    (sound : start.book.Sound) (alone : start.userManager = none)
    (run : AnySession host start log engine) (split : Split whole first second)
    (fresh : FreshIds engine.book whole first second) :
    SameMarket whole.side (engine.processOrder host whole) (engine.processOrder host first)
      ((engine.processOrder host first).1.processOrder host second) := by
  have soundNow := sound_of_anySession sound run
  have aloneNow := noUsers_of_anySession sound alone run
  have wholePos : 0 < whole.qty := by
    have qty := split.qty
    have positive := split.positive
    omega
  have priced : ∀ part : Order, part.type = whole.type → part.price = whole.price →
      part.type = .limit → 0 < part.price := by
    intro part type price limit
    rw [type] at limit
    rw [price]
    exact split.price_pos limit
  have once := outcome_of_processOrder host soundNow aloneNow wholePos split.price_pos
  have one := outcome_of_processOrder host soundNow aloneNow split.positive.1
    (priced first split.type.1 split.price.1)
  have two := outcome_of_processOrder host one.sound one.alone split.positive.2
    (priced second split.type.2 split.price.2)
  exact Outcome.same soundNow split fresh once one two

/-- A market order for more than there is, cut inside the second maker. -/
theorem splitting_changes_nothing_sample :
    ∃ log engine, AnySession (Host.exact (·)) {} log engine ∧
      makerFills (engine.processOrder (Host.exact (·)) ⟨3, 0, .buy, 0, 11, .market⟩).2.trades =
        [⟨1, 100, 3⟩, ⟨2, 101, 4⟩] ∧
      SameMarket .buy (engine.processOrder (Host.exact (·)) ⟨3, 0, .buy, 0, 11, .market⟩)
        (engine.processOrder (Host.exact (·)) ⟨4, 0, .buy, 0, 5, .market⟩)
        ((engine.processOrder (Host.exact (·)) ⟨4, 0, .buy, 0, 5, .market⟩).1.processOrder
          (Host.exact (·)) ⟨5, 0, .buy, 0, 6, .market⟩) := by
  have run := Run.of_isSome (exec (Host.exact (·))) (fun _ _ => True) {}
    [.processOrder ⟨1, 0, .sell, 100, 3, .limit⟩, .processOrder ⟨2, 0, .sell, 101, 4, .limit⟩]
    (by decide)
  have split : Split ⟨3, 0, .buy, 0, 11, .market⟩ ⟨4, 0, .buy, 0, 5, .market⟩
      ⟨5, 0, .buy, 0, 6, .market⟩ :=
    ⟨⟨rfl, rfl⟩, ⟨rfl, rfl⟩, ⟨rfl, rfl⟩, by decide, by decide, by decide⟩
  refine ⟨_, _, run, by decide,
    splitting_changes_nothing (OrderBook.sound_empty none) rfl run split ?_⟩
  exact ⟨by decide, by decide, by decide, by decide⟩

end Runs

end MatchingEngine

end OrderBookSimulator
