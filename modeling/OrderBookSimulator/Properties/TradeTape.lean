import OrderBookSimulator.Client.WebSocketContext
import OrderBookSimulator.Library.Run
import OrderBookSimulator.Library.Subsequence

/-!
# The order of the trade tape

The tape shows trades in the order of the journal, newest first and each once,
as long as the fetch does not resolve with trades that are still on their way.
-/

namespace OrderBookSimulator

open Library

namespace TapeFeed

/-- No trade twice, newest first, and not too many. -/
structure TapeInOrder (feed : TapeFeed) : Prop where
  distinct : (feed.trades.map Trade.key).Nodup
  newestFirst : feed.trades.reverse.Sublist feed.journal
  bounded : feed.trades.length ≤ maxTrades

/-- What the client shows and what is still on its way to it, oldest first. -/
def upcoming (feed : TapeFeed) : List Trade :=
  feed.trades.reverse ++ (feed.inFlight ++ feed.unsent.toList)

/-- Each trade read is shown or comes before all that is shown or still on its way. -/
def SeedsOlder (feed : TapeFeed) (seed : List Trade) : Prop :=
  maxTrades ≤ feed.trades.length ∨
    ∀ trade ∈ seed, trade ∉ feed.trades → ∀ later ∈ feed.upcoming, Before feed.journal trade later

/-- The fetch can resolve now. -/
def CanResolve (feed : TapeFeed) : Prop := ∀ seed ∈ feed.seed, feed.SeedsOlder seed

instance (feed : TapeFeed) (seed : List Trade) : Decidable (feed.SeedsOlder seed) :=
  inferInstanceAs (Decidable (maxTrades ≤ feed.trades.length ∨
    ∀ trade ∈ seed, trade ∉ feed.trades →
      ∀ later ∈ feed.upcoming, [trade, later].Sublist feed.journal))

instance (feed : TapeFeed) : Decidable feed.CanResolve :=
  inferInstanceAs (Decidable (∀ seed ∈ feed.seed, feed.SeedsOlder seed))

/-- What holds between the journal, the socket and the tape. -/
structure InOrder (feed : TapeFeed) : Prop where
  kept : feed.upcoming.Sublist feed.journal
  bounded : feed.trades.length ≤ maxTrades
  seed : ∀ seed ∈ feed.seed, seed.reverse.Sublist feed.journal

theorem InOrder.tapeInOrder {feed : TapeFeed} (order : feed.InOrder)
    (distinct : (feed.journal.map Trade.key).Nodup) : feed.TapeInOrder where
  distinct := by
    have shown : feed.trades.reverse.Sublist feed.journal :=
      (List.sublist_append_left _ _).trans order.kept
    have reversed := (shown.map Trade.key).nodup distinct
    rwa [List.map_reverse, List.nodup_reverse] at reversed
  newestFirst := (List.sublist_append_left _ _).trans order.kept
  bounded := order.bounded

/-! ## One event -/

section Step

variable {feed next : TapeFeed} (order : feed.InOrder)

include order

theorem InOrder.journal (trade : Trade) (ready : feed.unsent = none) :
    InOrder { feed with journal := feed.journal ++ [trade], unsent := some trade } where
  kept := by
    have before := order.kept
    rw [upcoming, ready, Option.toList_none, List.append_nil] at before
    have after := before.append (List.Sublist.refl [trade])
    rw [List.append_assoc] at after
    exact after
  bounded := order.bounded
  seed seed isSeed := (order.seed seed isSeed).trans (List.sublist_append_left _ _)

theorem InOrder.send {trade : Trade} (waits : feed.unsent = some trade) :
    InOrder { feed with
      unsent := none
      inFlight := if feed.isOpen then feed.inFlight ++ [trade] else feed.inFlight } where
  kept := by
    have before := order.kept
    rw [upcoming, waits] at before
    unfold upcoming
    split
    · simpa using before
    · refine List.Sublist.trans ?_ before
      simp
  bounded := order.bounded
  seed := order.seed

theorem InOrder.deliver {trade : Trade} {rest : List Trade}
    (arrives : feed.inFlight = trade :: rest) :
    InOrder { feed with inFlight := rest, trades := onTradeMessage trade feed.trades } where
  kept := by
    have before := order.kept
    rw [upcoming, arrives] at before
    refine List.Sublist.trans ?_ before
    have kept := (List.take_sublist maxTrades (trade :: feed.trades)).reverse
    have all := kept.append (List.Sublist.refl (rest ++ feed.unsent.toList))
    simpa [upcoming, onTradeMessage] using all
  bounded := List.length_take_le _ _
  seed := order.seed

theorem InOrder.read :
    InOrder { feed with
      hasRead := true
      seed := some (feed.journal.reverse.take maxTrades) } where
  kept := order.kept
  bounded := order.bounded
  seed := by
    intro seed isSeed
    obtain rfl := Option.some.inj isSeed
    simpa using (List.take_sublist maxTrades feed.journal.reverse).reverse

theorem InOrder.close : InOrder { feed with isOpen := false, inFlight := [] } where
  kept := by
    refine List.Sublist.trans ?_ order.kept
    exact (List.Sublist.refl _).append (List.sublist_append_right _ _)
  bounded := order.bounded
  seed := order.seed

end Step

section Resolve

variable {feed : TapeFeed} {seed : List Trade}

theorem mem_olderTrades {trade : Trade} {live : List Trade} :
    trade ∈ olderTrades seed live ↔ trade ∈ seed ∧ trade.key ∉ live.map Trade.key := by
  simp [olderTrades]

/-- What the fetch adds stands in the journal's order. -/
theorem olderTrades_sublist (isSeed : seed.reverse.Sublist feed.journal) :
    (olderTrades seed feed.trades).reverse.Sublist feed.journal :=
  List.Sublist.trans List.filter_sublist.reverse isSeed

theorem InOrder.resolve (order : feed.InOrder) (distinct : (feed.journal.map Trade.key).Nodup)
    (isSeed : feed.seed = some seed) (older : feed.SeedsOlder seed) :
    InOrder { feed with seed := none, trades := seedTape seed feed.trades } where
  kept := by
    rcases older with full | before
    · have same : seedTape seed feed.trades = feed.trades := by
        rw [seedTape, List.take_append_of_le_length full, List.take_of_length_le order.bounded]
      rw [same]
      exact order.kept
    · have all : ((olderTrades seed feed.trades).reverse ++ feed.upcoming).Sublist feed.journal := by
        refine (append_sublist_iff (List.Nodup.of_map _ distinct)).mpr
          ⟨olderTrades_sublist (order.seed seed isSeed), order.kept, ?_⟩
        intro trade isOlder later isLater
        obtain ⟨inSeed, notShown⟩ := mem_olderTrades.mp (List.mem_reverse.mp isOlder)
        exact before trade inSeed (fun shown => notShown (List.mem_map_of_mem shown)) later isLater
      refine List.Sublist.trans ?_ all
      have cut := (List.take_sublist maxTrades
        (feed.trades ++ olderTrades seed feed.trades)).reverse
      have joined := cut.append (List.Sublist.refl (feed.inFlight ++ feed.unsent.toList))
      rw [List.reverse_append, List.append_assoc] at joined
      exact joined
  bounded := List.length_take_le _ _
  seed := by
    intro other isOther
    cases isOther

/-- The condition is exact: else the tape, or what will be on it, is out of order. -/
theorem kept_resolve_iff (order : feed.InOrder) (distinct : (feed.journal.map Trade.key).Nodup)
    (isSeed : feed.seed = some seed) :
    (upcoming { feed with seed := none, trades := seedTape seed feed.trades }).Sublist
        feed.journal ↔ feed.SeedsOlder seed := by
  refine ⟨fun kept => ?_, fun older => (order.resolve distinct isSeed older).kept⟩
  have single := List.Nodup.of_map _ distinct
  by_cases full : maxTrades ≤ feed.trades.length
  · exact Or.inl full
  refine Or.inr fun trade inSeed notShown later isLater => ?_
  have added := olderTrades_sublist (order.seed seed isSeed)
  have isOlder : trade ∈ olderTrades seed feed.trades := by
    refine mem_olderTrades.mpr ⟨inSeed, fun shown => notShown ?_⟩
    obtain ⟨other, isShown, same⟩ := List.mem_map.mp shown
    have inJournal : other ∈ feed.journal :=
      order.kept.subset (List.mem_append_left _ (List.mem_reverse.mpr isShown))
    have read : trade ∈ feed.journal :=
      (order.seed seed isSeed).subset (List.mem_reverse.mpr inSeed)
    rwa [← List.inj_on_of_nodup_map distinct inJournal read same]
  obtain ⟨first, more, isFirst⟩ := List.exists_cons_of_ne_nil (List.ne_nil_of_mem isOlder)
  -- the newest trade that is added is on the tape, below all that was there
  obtain ⟨room, isRoom⟩ : ∃ room, maxTrades - feed.trades.length = room + 1 :=
    Nat.exists_eq_succ_of_ne_zero (by omega)
  have shown : (more.take room).reverse ++ ([first] ++ feed.upcoming) =
      upcoming { feed with seed := none, trades := seedTape seed feed.trades } := by
    have live : feed.trades.take maxTrades = feed.trades :=
      List.take_of_length_le (Nat.le_of_not_le full)
    simp only [upcoming, seedTape, isFirst]
    rw [List.take_append, live, isRoom, List.take_succ_cons]
    simp
  rw [← shown] at kept
  have below := (append_sublist_iff single).mp ((List.sublist_append_right _ _).trans kept)
  have firstBefore := below.2.2 first (.head _) later isLater
  rw [isFirst] at isOlder added
  rcases List.mem_cons.mp isOlder with rfl | isMore
  · exact firstBefore
  · rw [List.reverse_cons] at added
    have moreBefore := ((append_sublist_iff single).mp added).2.2 trade
      (List.mem_reverse.mpr isMore) first (.head _)
    exact moreBefore.trans single firstBefore

end Resolve

end TapeFeed

/-! ## Runs -/

namespace TapeFeed

theorem InOrder.step {feed next : TapeFeed} {event : TapeEvent} (order : feed.InOrder)
    (distinct : (feed.journal.map Trade.key).Nodup)
    (older : event = .resolve → feed.CanResolve) (steps : feed.step event = .ok (next, ())) :
    next.InOrder := by
  cases event with
  | journal trade =>
      simp only [TapeFeed.step] at steps
      split at steps
      · cases steps
        exact order.journal trade ‹_›
      · cases steps
  | send =>
      simp only [TapeFeed.step] at steps
      split at steps
      · cases steps
      · cases steps
        exact order.send ‹_›
  | deliver =>
      simp only [TapeFeed.step] at steps
      split at steps
      · cases steps
      · cases steps
        exact order.deliver ‹_›
  | read =>
      simp only [TapeFeed.step] at steps
      split at steps
      · cases steps
      · cases steps
        exact order.read
  | resolve =>
      simp only [TapeFeed.step] at steps
      split at steps
      · cases steps
      · rename_i seed isSeed
        cases steps
        exact order.resolve distinct isSeed (older rfl seed isSeed)
  | connect =>
      simp only [TapeFeed.step] at steps
      split at steps
      · cases steps
      · cases steps
        exact ⟨order.kept, order.bounded, order.seed⟩
  | close =>
      simp only [TapeFeed.step] at steps
      split at steps
      · cases steps
        exact order.close
      · cases steps

theorem journal_grows {feed next : TapeFeed} {event : TapeEvent}
    (steps : feed.step event = .ok (next, ())) : feed.journal <+: next.journal := by
  cases event <;> simp only [step] at steps <;> split at steps <;> cases steps
  case journal => exact List.prefix_append _ _
  all_goals exact List.prefix_rfl

theorem inOrder_start (journal : List Trade) : InOrder { journal } where
  kept := List.nil_sublist _
  bounded := Nat.zero_le _
  seed := by
    intro seed isSeed
    cases isSeed

/--
However journalling, sending, delivering, closing, connecting, reading and
resolving interleave: as long as the fetch does not resolve with trades that are
still on their way or newer than what is shown, the tape shows no trade twice,
newest first, and at most as many as it should.
-/
theorem tape_in_order {past : List Trade} {feed : TapeFeed}
    {log : List (Transition TapeFeed TapeEvent Unit)}
    (run : Run TapeFeed.step (fun _ _ => True) { journal := past } log feed)
    (distinct : (feed.journal.map Trade.key).Nodup)
    (older : ∀ entry ∈ log, entry.call = .resolve → entry.before.CanResolve) :
    feed.TapeInOrder := by
  suffices order : feed.InOrder from order.tapeInOrder distinct
  refine run.invariant (fun log feed => (feed.journal.map Trade.key).Nodup →
    (∀ entry ∈ log, entry.call = .resolve → entry.before.CanResolve) → feed.InOrder)
    (fun _ _ => inOrder_start past) ?_ distinct older
  intro log feed event reply next _ soFar _ steps distinct older
  have before : (feed.journal.map Trade.key).Nodup :=
    ((journal_grows steps).sublist.map Trade.key).nodup distinct
  have order := soFar before fun entry member => older entry (List.mem_append_left _ member)
  exact order.step before (older ⟨feed, event, reply, next⟩ (by simp)) steps

/-- A trade that is delivered before the fetch resolves, and one afterwards. -/
theorem tape_in_order_sample :
    ∃ log feed, Run TapeFeed.step (fun _ _ => True) { journal := [] } log feed ∧
      feed.trades.length = 2 ∧ feed.TapeInOrder := by
  have run := Run.of_isSome TapeFeed.step (fun _ _ => True) { journal := [] }
    [.connect, .journal { tradeId := 1, makerId := 1, takerId := 2, price := 100, qty := 5 }, .send,
      .read, .deliver, .resolve,
      .journal { tradeId := 2, makerId := 1, takerId := 3, price := 100, qty := 5 }, .send,
      .deliver] (by decide)
  exact ⟨_, _, run, by decide, tape_in_order run (by decide) (by decide)⟩

/-- A trade that is read before it is delivered: the tape shows it twice. -/
theorem tape_shows_trade_twice :
    ∃ log feed, Run TapeFeed.step (fun _ _ => True) { journal := [] } log feed ∧
      (feed.journal.map Trade.key).Nodup ∧ ¬ feed.TapeInOrder := by
  have run := Run.of_isSome TapeFeed.step (fun _ _ => True) { journal := [] }
    [.connect, .journal { tradeId := 1, makerId := 1, takerId := 2, price := 100, qty := 5 }, .send,
      .read, .resolve, .deliver] (by decide)
  exact ⟨_, _, run, by decide, fun order => absurd order.distinct (by decide)⟩

end TapeFeed

end OrderBookSimulator
