import OrderBookSimulator.Engine.Depth
import OrderBookSimulator.Properties.TopUp
import OrderBookSimulator.Sim.SeedBook

/-!
# What seeding establishes

Whatever the generators draw, seeding divides by no zero and builds an uncrossed
book of the orders it adds: their ids count up from one and stay below the ids
of the engine, and each side holds what its levels share out.
-/

namespace OrderBookSimulator

open Library

/-! ## Adding new orders one by one -/

namespace OrderBook

/-- Orders under new ids are all kept. -/
theorem Sound.foldl_addRestingOrder {book : OrderBook} (sound : book.Sound) {orders : List Order}
    (positive : ∀ order ∈ orders, 0 < order.qty) (distinct : (orders.map (·.id)).Nodup)
    (fresh : ∀ order ∈ orders, book.index.find? order.id = none) :
    (orders.foldl OrderBook.addRestingOrder book).Sound ∧
      (orders.foldl OrderBook.addRestingOrder book).resting.Perm (orders ++ book.resting) := by
  induction orders generalizing book with
  | nil => exact ⟨sound, .refl _⟩
  | cons order rest ih =>
      obtain ⟨notLater, distinctRest⟩ := List.nodup_cons.mp distinct
      have wants := positive order (.head _)
      have new := fresh order (.head _)
      have freshRest : ∀ other ∈ rest, (book.addRestingOrder order).index.find? other.id = none := by
        intro other member
        have different : other.id ≠ order.id := fun same =>
          notLater (List.mem_map.mpr ⟨other, member, same⟩)
        rw [index_addRestingOrder wants new, SortedMap.find?_insert, if_neg different]
        exact fresh other (.tail _ member)
      obtain ⟨soundThen, kept⟩ := ih (sound.afterAdd order)
        (fun other member => positive other (.tail _ member)) distinctRest freshRest
      refine ⟨soundThen, kept.trans ?_⟩
      exact ((resting_addRestingOrder wants new).append_left rest).trans List.perm_middle

theorem known_foldl_addRestingOrder {book : OrderBook} {orders : List Order} {orderId : Int}
    (known : ((orders.foldl OrderBook.addRestingOrder book).index.find? orderId).isSome) :
    (book.index.find? orderId).isSome ∨ ∃ order ∈ orders, order.id = orderId := by
  induction orders generalizing book with
  | nil => exact Or.inl known
  | cons order rest ih =>
      rcases ih known with before | ⟨other, member, same⟩
      · rcases known_addRestingOrder before with old | same
        · exact Or.inl old
        · exact Or.inr ⟨order, .head _, same⟩
      · exact Or.inr ⟨other, .tail _ member, same⟩

end OrderBook

/-! ## Splitting a level -/

/-- The orders of one level: nothing of its quantity is lost, and no slice is empty. -/
structure Split (side : Side) (price levelQty : Int) (count : Nat) (chunk : List Order) : Prop where
  total : (chunk.map (·.qty)).sum = levelQty
  few : chunk.length ≤ count
  placed : ∀ order ∈ chunk, order.side = side ∧ order.price = price ∧ 1 ≤ order.qty
  /-- What remains of the level is never negative. -/
  within : ∀ lead, lead <+: chunk → 0 ≤ levelQty - (lead.map (·.qty)).sum

section Split

variable {side : Side} {price : Int} {count : Nat}

theorem split_nil : Split side price 0 count [] where
  total := rfl
  few := Nat.zero_le count
  placed := by
    intro order member
    cases member
  within lead isLead := by
    rw [List.prefix_nil.mp isLead]
    rfl

/-- A slice that leaves no negative rest, before a split of that rest. -/
theorem Split.cons {rest : Int} {chunk : List Order} (split : Split side price rest count chunk)
    (order : Order) (isSide : order.side = side) (isPrice : order.price = price)
    (least : 1 ≤ order.qty) (left : 0 ≤ rest) :
    Split side price (order.qty + rest) (count + 1) (order :: chunk) where
  total := by rw [List.map_cons, List.sum_cons, split.total]
  few := Nat.succ_le_succ split.few
  placed := by
    intro other member
    rcases List.mem_cons.mp member with rfl | later
    · exact ⟨isSide, isPrice, least⟩
    · exact split.placed other later
  within lead isLead := by
    rcases List.prefix_cons_iff.mp isLead with rfl | ⟨lead, rfl, inRest⟩
    · simp only [List.map_nil, List.sum_nil]
      omega
    · have remains := split.within lead inRest
      rw [List.map_cons, List.sum_cons]
      omega

end Split

namespace SeedBook

theorem slice_ok {skew : ℚ} {remaining : Int} {left : Nat} (some : 1 ≤ remaining) (more : 1 ≤ left)
    (nonneg : 0 ≤ skew) (small : skew ≤ 2) :
    ∃ part, slice skew remaining left = .ok part ∧ 1 ≤ part ∧ part ≤ remaining ∧
      (left = 1 → part = remaining) := by
  by_cases last : left = 1
  · exact ⟨remaining, by rw [slice, if_pos last], some, Int.le_refl _, fun _ => rfl⟩
  · have range := slice_range some nonneg small (by omega : 2 ≤ left)
    refine ⟨_, ?_, range.1, range.2, fun isLast => absurd isLast last⟩
    rw [slice, if_neg last, ratio, if_neg (by omega)]
    rfl

/-- The loop over a level's orders splits what it is given. -/
theorem seedOrders_splits (side : Side) (price : Int) {skew : Nat → ℚ}
    (skews : ∀ left, 0 ≤ skew left ∧ skew left ≤ 2) {left : Nat} {remaining : Int}
    (nonneg : 0 ≤ remaining) (more : left = 0 → remaining = 0) (seeding : Seeding) :
    ∃ chunk after, seedOrders side price skew left remaining seeding = .ok after ∧
      seeding.Adds chunk after ∧ Split side price remaining left chunk := by
  induction left generalizing remaining seeding with
  | zero => exact ⟨[], seeding, rfl, .refl seeding, more rfl ▸ split_nil⟩
  | succ left ih =>
      rw [seedOrders]
      by_cases done : remaining ≤ 0
      · obtain rfl : remaining = 0 := by omega
        exact ⟨[], seeding, if_pos done, .refl seeding, split_nil⟩
      · obtain ⟨part, sliced, least, most, whole⟩ :=
          slice_ok (by omega : 1 ≤ remaining) (Nat.succ_pos left) (skews (left + 1)).1
            (skews (left + 1)).2
        obtain ⟨chunk, after, runs, adds, split⟩ := ih (by omega : 0 ≤ remaining - part)
          (by omega) (seeding.add side price part)
        refine ⟨_ :: chunk, after, ?_, (seeding.adds_add side price part).trans adds, ?_⟩
        · rw [if_neg done, sliced]
          exact runs
        · rw [← add_sub_cancel part remaining]
          exact split.cons { id := seeding.nextId, side, price, qty := part, type := .limit }
            rfl rfl least (by omega)

/-! ## Levels -/

theorem weight_pos (draws : LevelDraws) : 1 ≤ draws.weight := by
  have range := draws.fatTail_range
  unfold LevelDraws.weight
  split <;> omega

theorem sum_weights_pos {levels : Nat} (some : 0 < levels) (draws : Nat → LevelDraws) :
    0 < (weights levels draws).sum := by
  refine List.sum_pos _ (fun weight member => ?_) ?_
  · obtain ⟨level, _, rfl⟩ := List.mem_map.mp member
    have := weight_pos (draws level)
    omega
  · simp [weights, List.range_eq_nil]
    omega

/-- The price that a level is given. -/
def levelPrice (side : Side) (startPrice : Int) (draws : Nat → LevelDraws) (level : Nat) : Int :=
  castInt (castInt (startPrice + castInt (direction side * level)) + (draws level).priceJitter)

/-- The quantity that a level shares in. -/
def levelQty (targetDepth : Int) (levels : Nat) (draws : Nat → LevelDraws) (level : Nat) : Int :=
  share targetDepth (weights levels draws).sum (draws level).weight

/-- The orders of one level of a side. -/
def LevelSplit (side : Side) (startPrice : Int) (levels : Nat) (targetDepth : Int)
    (draws : Nat → LevelDraws) (level : Nat) (chunk : List Order) : Prop :=
  Split side (levelPrice side startPrice draws level) (levelQty targetDepth levels draws level)
    (draws level).orderCount chunk

section Levels

variable (side : Side) (startPrice : Int) {targetDepth : Int} (levels : Nat)
  (draws : Nat → LevelDraws) (nonneg : 0 ≤ targetDepth)

include nonneg

theorem seedLevel_splits (some : 0 < levels) (seeding : Seeding) (level : Nat) :
    ∃ chunk after,
      seedLevel side startPrice targetDepth (weights levels draws).sum draws seeding level =
        .ok after ∧
      seeding.Adds chunk after ∧
      LevelSplit side startPrice levels targetDepth draws level chunk := by
  have whole := sum_weights_pos some draws
  have weight := weight_pos (draws level)
  have shared : quotient (targetDepth * (draws level).weight) (weights levels draws).sum =
      .ok (levelQty targetDepth levels draws level) := by
    rw [quotient, if_neg whole.ne',
      Int.tdiv_eq_ediv_of_nonneg (Int.mul_nonneg nonneg (by omega))]
    rfl
  have range := share_nonneg nonneg (Int.le_of_lt whole) (by omega : 0 ≤ (draws level).weight)
  rw [seedLevel, shared]
  by_cases empty : levelQty targetDepth levels draws level ≤ 0
  · have none : levelQty targetDepth levels draws level = 0 := Int.le_antisymm empty range
    refine ⟨[], seeding, if_pos empty, .refl seeding, ?_⟩
    rw [LevelSplit, none]
    exact split_nil
  · have count := (draws level).orderCount_range.1
    have skews : ∀ left, 0 ≤ (draws level).skew left ∧ (draws level).skew left ≤ 2 := by
      intro left
      have range := (draws level).skew_range left
      constructor <;> linarith
    obtain ⟨chunk, after, runs, adds, split⟩ := seedOrders_splits side
      (levelPrice side startPrice draws level) skews range
      (fun none => by omega : (draws level).orderCount = 0 → _) seeding
    exact ⟨chunk, after, (if_neg empty).trans runs, adds, split⟩

theorem foldlM_seedLevel_splits (some : 0 < levels) (rest : List Nat) (seeding : Seeding) :
    ∃ chunks after,
      rest.foldlM (seedLevel side startPrice targetDepth (weights levels draws).sum draws)
        seeding = .ok after ∧
      seeding.Adds chunks.flatten after ∧
      List.Forall₂ (LevelSplit side startPrice levels targetDepth draws) rest chunks := by
  induction rest generalizing seeding with
  | nil => exact ⟨[], seeding, rfl, .refl seeding, .nil⟩
  | cons level rest ih =>
      obtain ⟨chunk, middle, here, addsHere, split⟩ :=
        seedLevel_splits side startPrice levels draws nonneg some seeding level
      obtain ⟨chunks, after, later, addsLater, splits⟩ := ih middle
      refine ⟨chunk :: chunks, after, ?_, addsHere.trans addsLater, .cons split splits⟩
      rw [List.foldlM_cons, here]
      exact later

theorem seedSide_splits (seeding : Seeding) :
    ∃ chunks after, seedSide side startPrice levels targetDepth draws seeding = .ok after ∧
      seeding.Adds chunks.flatten after ∧
      List.Forall₂ (LevelSplit side startPrice levels targetDepth draws) (List.range levels)
        chunks := by
  cases levels with
  | zero => exact ⟨[], seeding, rfl, .refl seeding, .nil⟩
  | succ levels =>
      exact foldlM_seedLevel_splits side startPrice _ draws nonneg (Nat.succ_pos levels) _ seeding

end Levels

end SeedBook

/-! ## Both sides -/

/-- Where the levels of a side start. -/
def bestOf (midPrice spread : Int) (side : Side) : Int :=
  midPrice + SeedBook.direction side * spread.tdiv 2

/-- No price that seeding computes leaves the range of an `int`. -/
structure PricesFit (midPrice spread : Int) (levels : Nat) (draws : Draws) : Prop where
  best : ∀ side, FitsInt (bestOf midPrice spread side)
  base : ∀ side, ∀ level < levels,
    FitsInt (bestOf midPrice spread side + SeedBook.direction side * level)
  price : ∀ side, ∀ level < levels,
    FitsInt (bestOf midPrice spread side + SeedBook.direction side * level +
      (draws side level).priceJitter)

/-- What seeding leaves behind. -/
structure Seeded (midPrice spread : Int) (levels : Nat) (targetDepth : Int) (draws : Draws)
    (seeded : Seeding) : Prop where
  sound : seeded.book.Sound
  book : ∃ onChange, seeded.book = seeded.added.foldl OrderBook.addRestingOrder { onChange }
  ids : seeded.added.map (·.id) =
    (List.range seeded.added.length).map fun index : Nat => (1 : Int) + index
  belowEngine : ∀ order ∈ seeded.added, order.id < ({} : MatchingEngine).nextId
  positive : ∀ order ∈ seeded.added, 1 ≤ order.qty
  noneDropped : seeded.book.resting.Perm seeded.added
  /-- Bids before asks, level by level: each level's quantity is split over its orders. -/
  split : ∃ chunks : Side → List (List Order),
    seeded.added = (chunks .buy).flatten ++ (chunks .sell).flatten ∧
      ∀ side, List.Forall₂
        (fun level => Split side
          (bestOf midPrice spread side + SeedBook.direction side * level +
            (draws side level).priceJitter)
          (targetDepth * (draws side level).weight / (SeedBook.weights levels (draws side)).sum)
          (draws side level).orderCount)
        (List.range levels) (chunks side)
  depth : ∀ side, seeded.book.depth side =
    ((SeedBook.weights levels (draws side)).map fun weight =>
      targetDepth * weight / (SeedBook.weights levels (draws side)).sum).sum
  depth_range : ∀ side, if levels = 0 then seeded.book.depth side = 0
    else targetDepth - levels ≤ seeded.book.depth side ∧ seeded.book.depth side ≤ targetDepth
  uncrossed : ∀ bb ∈ seeded.book.bestBid, ∀ ba ∈ seeded.book.bestAsk, bb < ba

namespace SeedBook

theorem levelPrice_eq {midPrice spread : Int} {levels : Nat} {draws : Draws}
    (few : 12 * levels < 1000) (fits : PricesFit midPrice spread levels draws) (side : Side)
    {level : Nat} (isLevel : level < levels) :
    levelPrice side (bestOf midPrice spread side) (draws side) level =
      bestOf midPrice spread side + direction side * level + (draws side level).priceJitter := by
  have offset : FitsInt (direction side * level) := by
    unfold FitsInt intMax
    cases side <;> simp only [direction] <;> omega
  rw [levelPrice, castInt_of_fits offset, castInt_of_fits (fits.base side level isLevel),
    castInt_of_fits (fits.price side level isLevel)]

/-- What the levels of a side add up to. -/
theorem sum_levelQty (targetDepth : Int) (levels : Nat) (draws : Nat → LevelDraws) :
    ((List.range levels).map (levelQty targetDepth levels draws)).sum =
      ((weights levels draws).map (share targetDepth (weights levels draws).sum)).sum := by
  rw [weights, List.map_map]
  rfl

end SeedBook

/-! ### Splitting several levels -/

section Chunks

variable {side : Side} {price qty : Nat → Int} {count : Nat → Nat} {levels : List Nat}
  {chunks : List (List Order)}

theorem mem_of_splits
    (splits : List.Forall₂ (fun level => Split side (price level) (qty level) (count level))
      levels chunks) {order : Order} (member : order ∈ chunks.flatten) :
    ∃ level ∈ levels, order.side = side ∧ order.price = price level ∧ 1 ≤ order.qty := by
  induction splits with
  | nil => cases member
  | cons split _ ih =>
      rw [List.flatten_cons, List.mem_append] at member
      rcases member with here | later
      · exact ⟨_, .head _, split.placed order here⟩
      · obtain ⟨level, isLevel, placed⟩ := ih later
        exact ⟨level, .tail _ isLevel, placed⟩

theorem sum_of_splits
    (splits : List.Forall₂ (fun level => Split side (price level) (qty level) (count level))
      levels chunks) : (chunks.flatten.map (·.qty)).sum = (levels.map qty).sum := by
  induction splits with
  | nil => rfl
  | cons split _ ih =>
      rw [List.flatten_cons, List.map_append, List.sum_append, split.total, ih, List.map_cons,
        List.sum_cons]

/-- The chunks of one side count for that side only. -/
theorem tally_of_splits
    (splits : List.Forall₂ (fun level => Split side (price level) (qty level) (count level))
      levels chunks) (counted : Side) :
    tally (fun order : Order => order.side = counted) (·.qty) chunks.flatten =
      if side = counted then (levels.map qty).sum else 0 := by
  have placed : ∀ order ∈ chunks.flatten, order.side = side := by
    intro order member
    obtain ⟨_, _, isSide, _⟩ := mem_of_splits splits member
    exact isSide
  split
  · rename_i same
    have all : chunks.flatten.filter (fun order => order.side = counted) = chunks.flatten :=
      List.filter_eq_self.mpr fun order member => by simpa using (placed order member).trans same
    rw [tally, all]
    exact sum_of_splits splits
  · rename_i different
    exact tally_eq_zero fun order member same => different ((placed order member).symm.trans same)

theorem length_of_splits (few : ∀ level ∈ levels, count level ≤ 6)
    (splits : List.Forall₂ (fun level => Split side (price level) (qty level) (count level))
      levels chunks) : chunks.flatten.length ≤ 6 * levels.length := by
  induction splits with
  | nil => exact Nat.zero_le _
  | cons split _ ih =>
      have here := split.few.trans (few _ (.head _))
      have later := ih fun level member => few level (.tail _ member)
      rw [List.flatten_cons, List.length_append, List.length_cons]
      omega

end Chunks

section Sides

variable {price qty : Side → Nat → Int} {count : Side → Nat → Nat} {levels : Nat}
  {chunks : Side → List (List Order)}
  (splits : ∀ side, List.Forall₂
    (fun level => Split side (price side level) (qty side level) (count side level))
    (List.range levels) (chunks side))

include splits

theorem mem_of_sides {order : Order}
    (member : order ∈ (chunks .buy).flatten ++ (chunks .sell).flatten) :
    ∃ level < levels, order.price = price order.side level ∧ 1 ≤ order.qty := by
  have placed : ∀ side, order ∈ (chunks side).flatten →
      ∃ level < levels, order.price = price order.side level ∧ 1 ≤ order.qty := by
    intro side inSide
    obtain ⟨level, isLevel, rfl, placed⟩ := mem_of_splits (splits side) inSide
    exact ⟨level, List.mem_range.mp isLevel, placed⟩
  rcases List.mem_append.mp member with isBid | isAsk
  · exact placed .buy isBid
  · exact placed .sell isAsk

theorem length_of_sides (few : ∀ side, ∀ level < levels, count side level ≤ 6) :
    ((chunks .buy).flatten ++ (chunks .sell).flatten).length ≤ 12 * levels := by
  have least : ∀ side, (chunks side).flatten.length ≤ 6 * (List.range levels).length :=
    fun side => length_of_splits (fun level isLevel => few side level (List.mem_range.mp isLevel))
      (splits side)
  have bids := least .buy
  have asks := least .sell
  rw [List.length_range] at bids asks
  rw [List.length_append]
  omega

theorem tally_of_sides (counted : Side) :
    tally (fun order : Order => order.side = counted) (·.qty)
        ((chunks .buy).flatten ++ (chunks .sell).flatten) =
      ((List.range levels).map (qty counted)).sum := by
  rw [tally_append, tally_of_splits (splits .buy), tally_of_splits (splits .sell)]
  cases counted <;> simp

end Sides

/-! ### The seeded book -/

section Seed

variable {midPrice spread targetDepth : Int} {levels : Nat} {draws : Draws}
  (few : 12 * levels < 1000) (nonneg : 0 ≤ targetDepth)
  (fits : PricesFit midPrice spread levels draws)

include few fits

theorem SeedBook.splits_of_levelSplits {side : Side} {chunks : List (List Order)}
    (splits : List.Forall₂
      (LevelSplit side (bestOf midPrice spread side) levels targetDepth (draws side))
      (List.range levels) chunks) :
    List.Forall₂
      (fun level => Split side
        (bestOf midPrice spread side + direction side * level + (draws side level).priceJitter)
        (targetDepth * (draws side level).weight / (weights levels (draws side)).sum)
        (draws side level).orderCount)
      (List.range levels) chunks := by
  refine (List.forall₂_and_left _ _).mpr ⟨fun level => List.mem_range.mp, splits⟩ |>.imp ?_
  rintro level chunk ⟨isLevel, split⟩
  rw [LevelSplit, levelPrice_eq few fits side isLevel] at split
  exact split

omit few in
theorem SeedBook.bestOf_eq : castInt (midPrice - spread.tdiv 2) = bestOf midPrice spread .buy ∧
    castInt (midPrice + spread.tdiv 2) = bestOf midPrice spread .sell := by
  have below : midPrice - spread.tdiv 2 = bestOf midPrice spread .buy := by
    simp only [bestOf, direction]
    omega
  have above : midPrice + spread.tdiv 2 = bestOf midPrice spread .sell := by
    simp only [bestOf, direction]
    omega
  rw [below, above, castInt_of_fits (fits.best .buy), castInt_of_fits (fits.best .sell)]
  exact ⟨rfl, rfl⟩

include nonneg

omit few in
/-- Seeding adds the split levels of both sides, one order after the other. -/
theorem SeedBook.seedBook_splits (book : OrderBook) :
    ∃ seeded, ∃ chunks : Side → List (List Order),
      seedBook book midPrice spread levels targetDepth draws = .ok seeded ∧
      Seeding.Adds { book } ((chunks .buy).flatten ++ (chunks .sell).flatten) seeded ∧
      ∀ side, List.Forall₂
        (LevelSplit side (bestOf midPrice spread side) levels targetDepth (draws side))
        (List.range levels) (chunks side) := by
  obtain ⟨bidChunks, bids, runBids, addBids, splitBids⟩ :=
    seedSide_splits .buy (bestOf midPrice spread .buy) levels (draws .buy) nonneg { book }
  obtain ⟨askChunks, seeded, runAsks, addAsks, splitAsks⟩ :=
    seedSide_splits .sell (bestOf midPrice spread .sell) levels (draws .sell) nonneg bids
  let chunks : Side → List (List Order) := fun side => if side = .buy then bidChunks else askChunks
  refine ⟨seeded, chunks, ?_, addBids.trans addAsks, fun side => ?_⟩
  · obtain ⟨bestBid, bestAsk⟩ := bestOf_eq fits
    simp only [seedBook, bestBid, bestAsk, runBids]
    exact runAsks
  · cases side with
    | buy => exact splitBids
    | sell => exact splitAsks

omit nonneg few fits in
/-- The sum of rounded shares, within one a level of what is shared. -/
theorem SeedBook.sum_levelQty_range (draws : Nat → LevelDraws) (some : 0 < levels) :
    targetDepth - levels ≤ ((List.range levels).map (levelQty targetDepth levels draws)).sum ∧
      ((List.range levels).map (levelQty targetDepth levels draws)).sum ≤ targetDepth := by
  have whole := sum_weights_pos some draws
  have most := sum_shares_le targetDepth whole
  have least := le_sum_shares targetDepth whole
  rw [← sum_levelQty] at most least
  rw [show (weights levels draws).length = levels by simp [weights]] at least
  omega

omit nonneg few fits in
/-- Where bids and asks are given out from at least two apart, no bid reaches an ask. -/
theorem Seeding.uncrossed_of_placed {seeded : Seeding} (wide : 2 ≤ spread)
    (sound : seeded.book.Sound) (kept : seeded.book.resting.Perm seeded.added)
    (placed : ∀ order ∈ seeded.added, ∃ level < levels,
      order.price = bestOf midPrice spread order.side + SeedBook.direction order.side * level +
        (draws order.side level).priceJitter ∧ 1 ≤ order.qty) :
    ∀ bb ∈ seeded.book.bestBid, ∀ ba ∈ seeded.book.bestAsk, bb < ba := by
  intro bb isBid ba isAsk
  obtain ⟨bid, bidRests, bidSide, rfl⟩ := OrderBook.exists_resting_of_bestPrice sound isBid
  obtain ⟨ask, askRests, askSide, rfl⟩ := OrderBook.exists_resting_of_bestPrice sound isAsk
  obtain ⟨bidLevel, _, bidPrice, _⟩ := placed bid (kept.mem_iff.mp bidRests)
  obtain ⟨askLevel, _, askPrice, _⟩ := placed ask (kept.mem_iff.mp askRests)
  have bidJitter := (draws bid.side bidLevel).priceJitter_range
  have askJitter := (draws ask.side askLevel).priceJitter_range
  have half : 1 ≤ spread.tdiv 2 := by
    rw [Int.tdiv_eq_ediv_of_nonneg (by omega)]
    omega
  rw [bidPrice, askPrice, bidSide, askSide]
  rw [bidSide] at bidJitter
  rw [askSide] at askJitter
  simp only [bestOf, SeedBook.direction]
  omega

omit nonneg in
/-- Split levels of both sides, added to an empty book, are a seeded book. -/
theorem SeedBook.seeded_of_splits (wide : 2 ≤ spread) {onChange : Option (List Snapshot)}
    {seeded : Seeding} {chunks : Side → List (List Order)}
    (adds : Seeding.Adds { book := { onChange } }
      ((chunks .buy).flatten ++ (chunks .sell).flatten) seeded)
    (levelSplits : ∀ side, List.Forall₂
      (LevelSplit side (bestOf midPrice spread side) levels targetDepth (draws side))
      (List.range levels) (chunks side)) :
    Seeded midPrice spread levels targetDepth draws seeded := by
  have splits := fun side => SeedBook.splits_of_levelSplits few fits (levelSplits side)
  have addedEq : seeded.added = (chunks .buy).flatten ++ (chunks .sell).flatten := adds.added
  have placed : ∀ order ∈ seeded.added, ∃ level < levels, _ :=
    fun order member => mem_of_sides splits (addedEq ▸ member)
  have count : seeded.added.length ≤ 12 * levels :=
    addedEq ▸ length_of_sides splits fun side level _ => (draws side level).orderCount_range.2
  have ids : seeded.added.map (·.id) =
      (List.range seeded.added.length).map fun index : Nat => (1 : Int) + index :=
    addedEq ▸ adds.ids
  have distinct : (seeded.added.map (·.id)).Nodup := by
    rw [ids]
    exact List.nodup_range.map fun first second same => by simpa using same
  have positive : ∀ order ∈ seeded.added, 1 ≤ order.qty := by
    intro order member
    obtain ⟨_, _, _, least⟩ := placed order member
    exact least
  have book : seeded.book = seeded.added.foldl OrderBook.addRestingOrder { onChange } :=
    addedEq ▸ adds.book
  obtain ⟨sound, kept⟩ := (OrderBook.sound_empty onChange).foldl_addRestingOrder positive distinct
    fun _ _ => rfl
  rw [← book] at sound kept
  have noneDropped : seeded.book.resting.Perm seeded.added :=
    kept.trans (by simp [OrderBook.resting, OrderBook.nodes])
  have depth : ∀ side, seeded.book.depth side =
      ((List.range levels).map (SeedBook.levelQty targetDepth levels (draws side))).sum := by
    intro side
    rw [sound.depth_eq_tally, tally_perm noneDropped, addedEq, tally_of_sides splits]
    rfl
  exact {
    sound, ids, positive, noneDropped
    book := ⟨onChange, book⟩
    belowEngine := by
      intro order member
      have isId : order.id ∈ seeded.added.map (·.id) := List.mem_map_of_mem member
      rw [ids] at isId
      obtain ⟨index, inRange, isIndex⟩ := List.mem_map.mp isId
      have small := List.mem_range.mp inRange
      rw [← isIndex, show ({} : MatchingEngine).nextId = 1000 from rfl]
      omega
    split := ⟨chunks, addedEq, splits⟩
    depth := by
      intro side
      rw [depth, SeedBook.sum_levelQty]
      rfl
    depth_range := by
      intro side
      rw [depth]
      split
      · rename_i none
        rw [none]
        rfl
      · exact SeedBook.sum_levelQty_range (draws side) (by omega)
    uncrossed := Seeding.uncrossed_of_placed wide sound noneDropped placed }

/--
Whatever is drawn, seeding an empty book divides by no zero and keeps every
order it adds.
-/
theorem seedBook_establishes (onChange : Option (List Snapshot)) (wide : 2 ≤ spread) :
    ∃ seeded, seedBook { onChange } midPrice spread levels targetDepth draws = .ok seeded ∧
      Seeded midPrice spread levels targetDepth draws seeded := by
  obtain ⟨seeded, chunks, runs, adds, splits⟩ := SeedBook.seedBook_splits nonneg fits { onChange }
  exact ⟨seeded, runs, SeedBook.seeded_of_splits few fits wide adds splits⟩

end Seed

/-- The prices that the server's call computes. -/
theorem serverPrice_range (side : Side) {level : Nat} (isLevel : level < 20) :
    80 ≤ bestOf 100 2 side + SeedBook.direction side * level ∧
      bestOf 100 2 side + SeedBook.direction side * level ≤ 120 := by
  have half : (2 : Int).tdiv 2 = 1 := rfl
  cases side <;> simp only [bestOf, SeedBook.direction, half] <;> omega

theorem pricesFit_server (draws : Draws) : PricesFit 100 2 20 draws where
  best side := by cases side <;> decide
  base side level isLevel := by
    have range := serverPrice_range side isLevel
    unfold FitsInt intMax
    omega
  price side level isLevel := by
    have range := serverPrice_range side isLevel
    have jitter := (draws side level).priceJitter_range
    unfold FitsInt intMax
    omega

/-- The same draws for every level: three orders, the weight of a chunky level. -/
def LevelDraws.steady : LevelDraws where
  fatTail := 10
  chunky := 90
  priceJitter := 1
  orderCount := 3
  skew _ := 1
  fatTail_range := by decide
  chunky_range := by decide
  priceJitter_range := by decide
  orderCount_range := by decide
  skew_range := by norm_num

/-- The book that a server starts with, if every level draws the same. -/
theorem seedBook_establishes_server :
    ∃ seeded, seedBook {} 100 2 20 2000 (fun _ _ => .steady) = .ok seeded ∧
      Seeded 100 2 20 2000 (fun _ _ => .steady) seeded :=
  seedBook_establishes (by decide) (by decide) (pricesFit_server _) none (by decide)

/-! ## The engine on a seeded book -/

section Start

variable {midPrice spread targetDepth : Int} {levels : Nat} {draws : Draws} {seeded : Seeding}
  (seeds : Seeded midPrice spread levels targetDepth draws seeded)

include seeds

theorem Seeded.knownBelow : ({ book := seeded.book } : MatchingEngine).KnownBelow := by
  intro orderId found
  obtain ⟨onChange, book⟩ := seeds.book
  rw [book] at found
  rcases OrderBook.known_foldl_addRestingOrder found with old | ⟨order, member, rfl⟩
  · cases old
  · exact seeds.belowEngine order member

theorem Seeded.orderly
    (priced : ∀ side, ∀ level < levels,
      0 < bestOf midPrice spread side + SeedBook.direction side * level ∧
        bestOf midPrice spread side + SeedBook.direction side * level < intMax) :
    seeded.book.Orderly where
  sound := seeds.sound
  uncrossed := (OrderBook.uncrossed_iff seeds.sound).mpr seeds.uncrossed
  priced := by
    intro order member
    obtain ⟨chunks, addedEq, splits⟩ := seeds.split
    have added : order ∈ seeded.added := seeds.noneDropped.mem_iff.mp member
    obtain ⟨level, isLevel, price, _⟩ := mem_of_sides splits (addedEq ▸ added)
    have range := priced order.side level isLevel
    have jitter := (draws order.side level).priceJitter_range
    rw [price]
    omega

end Start

/-- What the server draws seeds its book, whatever it is. -/
theorem seeded_of_server (draws : Draws) :
    ∃ seeded, seedBook {} 100 2 20 2000 draws = .ok seeded ∧
      Seeded 100 2 20 2000 draws seeded := by
  have fits := pricesFit_server draws
  obtain ⟨seeded, chunks, runs, adds, splits⟩ :=
    SeedBook.seedBook_splits (by decide : (0 : Int) ≤ 2000) fits {}
  exact ⟨seeded, runs, SeedBook.seeded_of_splits (by decide) fits (by decide) adds splits⟩

theorem Seeded.orderly_server {draws : Draws} {seeded : Seeding}
    (seeds : Seeded 100 2 20 2000 draws seeded) : seeded.book.Orderly := by
  refine seeds.orderly fun side level isLevel => ?_
  have range := serverPrice_range side isLevel
  unfold intMax
  omega

end OrderBookSimulator
