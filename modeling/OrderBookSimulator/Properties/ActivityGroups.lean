import OrderBookSimulator.Client.TradeHistory
import OrderBookSimulator.Properties.JournalTails
import OrderBookSimulator.Properties.OrderEvents

/-!
# Activity groups

The order journal outlives the servers that write it, and each of them numbers
its batches from one.  Read back from the end and grouped by adjacent batch ids,
it shows the engine's calls, unless a server that emitted events for one call
only is followed by another.
-/

namespace OrderBookSimulator

open Library Json

/-! ## The calls of a server -/

/-- What each call emitted that emitted anything. -/
def Log.batches (log : Log) : List (List OrderEvent) :=
  (log.map Entry.events).filter (!·.isEmpty)

namespace MatchingEngine

/-- The batch ids count the calls that emit anything. -/
structure Counted (log : Log) (state : MatchingEngine) : Prop where
  counts : CountsDown OrderEvent.batchId (log.batches.reverse.map List.reverse)
  next : state.batchSeq = log.batches.length + 1

theorem Counted.step {host : Host} {state next : MatchingEngine} {log : Log} {call : Call}
    {reply : Reply} (counted : Counted log state) (batched : Batched log state)
    (answered : Answered host state call reply next) :
    Counted (log ++ [⟨state, call, reply, next⟩]) next := by
  obtain ⟨chunk, emitted, batch⟩ := answered.emitted
  obtain ⟨_, events⟩ := emitted.events batched.sink call reply
  have all : Log.batches (log ++ [⟨state, call, reply, next⟩]) =
      log.batches ++ if chunk.isEmpty then [] else [chunk] := by
    rw [Log.batches, List.map_append, List.filter_append, List.map_singleton, events]
    cases chunk <;> rfl
  rcases batch with ⟨rfl, same⟩ | ⟨some, advances⟩
  · rw [show log.batches ++ (if ([] : List OrderEvent).isEmpty then [] else [[]]) = log.batches
      from List.append_nil _] at all
    exact ⟨all ▸ counted.counts, by rw [all, same, counted.next]⟩
  · have nonempty : chunk ≠ [] := some (by simp [batched.sink])
    rw [if_neg (by simpa using nonempty)] at all
    refine ⟨?_, by rw [all, advances, counted.next]; simp⟩
    rw [all, List.reverse_append, List.map_append]
    refine ⟨by simpa using nonempty, fun event member => ?_, counted.counts⟩
    rw [emitted.batch event (List.mem_reverse.mp member), counted.next]
    simp

end MatchingEngine

/-- One server, from its start on, with the journal it appends to. -/
structure ServerSession where
  host : Host
  start : MatchingEngine
  log : Log
  last : MatchingEngine
  sound : start.book.Sound
  sink : start.orderSink = some []
  eventSeq : start.eventSeq = ({} : MatchingEngine).eventSeq
  batchSeq : start.batchSeq = ({} : MatchingEngine).batchSeq
  run : Run (exec host) (fun _ _ => True) start log last

namespace ServerSession

variable (server : ServerSession)

/-- The events of the server's calls, as the sink received them. -/
def events : List OrderEvent := server.last.orderSink.getD []

theorem batched : server.last.book.Sound ∧ MatchingEngine.Batched server.log server.last ∧
    MatchingEngine.Counted server.log server.last := by
  refine server.run.invariant
    (fun log state => state.book.Sound ∧ MatchingEngine.Batched log state ∧
      MatchingEngine.Counted log state) ?_ ?_
  · exact ⟨server.sound, .nil server.sink, trivial, server.batchSeq⟩
  · rintro log state call reply next _ ⟨sound, batched, counted⟩ _ answer
    have answered := MatchingEngine.answered_of_exec sound answer
    exact ⟨answered.sound sound, batched.step answered, counted.step batched answered⟩

/-- What each call emitted, call by call. -/
def calls : List (List OrderEvent) := server.log.map Entry.events

theorem events_eq : server.events = server.calls.flatten := by
  rw [events, server.batched.2.1.sink, Option.getD_some, Log.events, List.flatMap_def]
  rfl

theorem inSequence {call : List OrderEvent} (member : call ∈ server.calls) : InSequence call := by
  obtain ⟨entry, inLog, rfl⟩ := List.mem_map.mp member
  have increasing := server.batched.2.1.increasing
  rw [Log.events, List.pairwise_flatMap] at increasing
  exact increasing.1 entry inLog

end ServerSession

/-! ## The calls among the last events -/

/-- What of each call is among the last events; calls are given newest first. -/
def callsAmongLast : Nat → List (List OrderEvent) → List (List OrderEvent)
  | _, [] => []
  | limit, call :: older => lastItems limit call :: callsAmongLast (limit - call.length) older

/-- Newest first, the calls with events are cut like chunks. -/
theorem callsAmongLast_eq_cutChunks (limit : Nat) (calls : List (List OrderEvent)) :
    (callsAmongLast limit calls).filter (!·.isEmpty) =
      (cutChunks limit ((calls.filter (!·.isEmpty)).map List.reverse)).map List.reverse := by
  induction calls generalizing limit with
  | nil => cases limit <;> rfl
  | cons call older ih =>
      cases call with
      | nil => simpa [callsAmongLast, lastItems] using ih limit
      | cons event more =>
          have last : lastItems limit (event :: more) =
              (((event :: more).reverse).take limit).reverse := by
            rw [← reverse_lastItems, List.reverse_reverse]
          have keeps : ((event :: more) :: older).filter (!·.isEmpty) =
              (event :: more) :: older.filter (!·.isEmpty) := rfl
          rw [callsAmongLast, last, keeps, List.map_cons]
          cases limit with
          | zero =>
              have none := ih 0
              rw [show cutChunks 0 ((older.filter (!·.isEmpty)).map List.reverse) = [] by
                cases (older.filter (!·.isEmpty)).map List.reverse <;> rfl] at none
              simpa [cutChunks] using none
          | succ limit =>
              rw [List.filter_cons_of_pos (by simp), ih, cutChunks, List.map_cons,
                List.length_reverse]

/-! ## Several servers -/

section Servers

/-- What the servers leave in the journal. -/
def journalled (servers : List (ServerSession)) : List OrderEvent :=
  servers.flatMap ServerSession.events

/-- What each call of any server emitted, in the order of the calls. -/
def allCalls (servers : List (ServerSession)) : List (List OrderEvent) :=
  servers.flatMap ServerSession.calls

/-- A server's calls with events, newest first and each from its last event on. -/
def ServerSession.countdown (server : ServerSession) : List (List OrderEvent) :=
  server.log.batches.reverse.map List.reverse

theorem ServerSession.countdown_eq (server : ServerSession) :
    server.countdown = (server.calls.reverse.filter (!·.isEmpty)).map List.reverse := by
  rw [countdown, Log.batches, List.filter_reverse]
  rfl

theorem ServerSession.length_countdown (server : ServerSession) :
    server.countdown.length = server.log.batches.length := by
  simp [countdown]

variable (servers : List (ServerSession))

theorem countdowns_flatten : (servers.reverse.map ServerSession.countdown).flatten =
    ((allCalls servers).reverse.filter (!·.isEmpty)).map List.reverse := by
  induction servers using List.reverseRecOn with
  | nil => rfl
  | append_singleton earlier server ih =>
      have all : allCalls (earlier ++ [server]) = allCalls earlier ++ server.calls := by
        simp [allCalls]
      rw [List.reverse_concat, List.map_cons, List.flatten_cons, ih, server.countdown_eq, all,
        List.reverse_append, List.filter_append, List.map_append]

theorem allCalls_flatten : (allCalls servers).flatten = journalled servers := by
  rw [allCalls, journalled, List.flatMap_def, List.flatten_flatten, List.map_map, List.flatMap_def]
  exact congrArg List.flatten (List.map_congr_left fun server _ => server.events_eq.symm)

/-- The chunks of all countdowns are the journal, read from its end. -/
theorem countdowns_flatten_flatten :
    (servers.reverse.map ServerSession.countdown).flatten.flatten =
      (journalled servers).reverse := by
  rw [countdowns_flatten, List.filter_reverse, List.map_reverse, ← List.reverse_flatten,
    List.flatten_filter_not_isEmpty, allCalls_flatten]

theorem countsDown_of_countdowns : ∀ count ∈ servers.reverse.map ServerSession.countdown,
    CountsDown OrderEvent.batchId count := by
  intro count member
  obtain ⟨server, _, rfl⟩ := List.mem_map.mp member
  exact server.batched.2.2.counts

theorem chunk_of_countdowns : ∀ chunk ∈ (servers.reverse.map ServerSession.countdown).flatten,
    chunk ≠ [] ∧ ∀ event ∈ chunk, groupKey OrderEvent.batchId chunk = some event.batchId := by
  intro chunk member
  obtain ⟨count, isCount, inCount⟩ := List.mem_flatten.mp member
  exact (countsDown_of_countdowns servers count isCount).chunk chunk inCount

theorem countdowns_ne_nil_iff :
    (servers.reverse.map ServerSession.countdown).flatten ≠ [] ↔ journalled servers ≠ [] := by
  have joined := countdowns_flatten_flatten servers
  constructor
  · intro some none
    obtain ⟨chunk, member⟩ := List.exists_mem_of_ne_nil _ some
    rw [none, List.reverse_nil, List.flatten_eq_nil_iff] at joined
    exact (chunk_of_countdowns servers chunk member).1 (joined chunk member)
  · intro some none
    rw [none] at joined
    exact some (List.reverse_eq_nil_iff.mp joined.symm)

variable (limit : Nat)

/-- What the feed should show: the calls among the last events. -/
def activityOf : List (List OrderEvent) :=
  (callsAmongLast limit (allCalls servers).reverse).filter (!·.isEmpty)

theorem activityOf_reversed : (activityOf servers limit).map List.reverse =
    cutChunks limit (servers.reverse.map ServerSession.countdown).flatten := by
  rw [activityOf, callsAmongLast_eq_cutChunks, countdowns_flatten, List.map_map]
  simp

theorem mem_callsAmongLast {limit : Nat} {calls : List (List OrderEvent)} {group : List OrderEvent}
    (member : group ∈ callsAmongLast limit calls) : ∃ call ∈ calls, group.Sublist call := by
  induction calls generalizing limit with
  | nil => cases member
  | cons call older ih =>
      rcases List.mem_cons.mp member with rfl | later
      · exact ⟨call, .head _, List.drop_sublist _ _⟩
      · obtain ⟨other, inOlder, within⟩ := ih later
        exact ⟨other, .tail _ inOlder, within⟩

theorem inSequence_activityOf : ∀ group ∈ activityOf servers limit, InSequence group := by
  intro group member
  obtain ⟨call, isCall, within⟩ := mem_callsAmongLast (List.mem_of_mem_filter member)
  obtain ⟨server, _, ofServer⟩ := List.mem_flatMap.mp (List.mem_reverse.mp isCall)
  exact (server.inSequence ofServer).sublist within

/-- The window shows the calls if and only if neighbouring calls have different batch ids. -/
theorem groupBatches_window_iff :
    groupBatches ((journalled servers).reverse.take limit) = activityOf servers limit ↔
      ∀ newer count older, servers.reverse.map ServerSession.countdown = newer ++ count :: older →
        count.length = 1 → newer.flatten ≠ [] → limit ≤ newer.flatten.flatten.length := by
  have counts := countsDown_of_countdowns servers
  have each := chunk_of_countdowns servers
  have joined : ((activityOf servers limit).map List.reverse).flatten =
      (journalled servers).reverse.take limit := by
    rw [activityOf_reversed, flatten_cutChunks, countdowns_flatten_flatten]
  rw [groupBatches_eq_iff (inSequence_activityOf servers limit) joined,
    ← apart_iff_of_counts counts limit, ← adjacentGroups_cutChunks_iff each, activityOf_reversed,
    countdowns_flatten_flatten]

/-- A server that emits for one call only, followed by others that emit, and reached by the limit. -/
theorem apart_iff_of_servers :
    (∀ newer count older, servers.reverse.map ServerSession.countdown = newer ++ count :: older →
        count.length = 1 → newer.flatten ≠ [] → limit ≤ newer.flatten.flatten.length) ↔
      ∀ earlier server later, servers = earlier ++ server :: later →
        server.log.batches.length = 1 → journalled later ≠ [] →
          limit ≤ (journalled later).length := by
  have length : ∀ later : List (ServerSession),
      (later.reverse.map ServerSession.countdown).flatten.flatten.length =
        (journalled later).length := by
    intro later
    rw [countdowns_flatten_flatten, List.length_reverse]
  constructor
  · rintro late earlier server later rfl isOne some
    rw [← length]
    refine late _ server.countdown (earlier.reverse.map ServerSession.countdown) ?_ ?_ ?_
    · simp
    · rw [server.length_countdown, isOne]
    · exact (countdowns_ne_nil_iff later).mpr some
  · intro late newer count older split isOne some
    obtain ⟨later, rest, isReverse, rfl, isRest⟩ := List.map_eq_append_iff.mp split
    obtain ⟨server, earlier, rfl, rfl, rfl⟩ := List.map_eq_cons_iff.mp isRest
    have servers_eq : servers = earlier.reverse ++ server :: later.reverse := by
      rw [← List.reverse_reverse servers, isReverse]
      simp
    rw [← List.reverse_reverse later] at some ⊢
    rw [length]
    exact late _ server _ servers_eq (server.length_countdown ▸ isOne)
      ((countdowns_ne_nil_iff _).mp some)

end Servers

/-! ## The journal file -/

/--
What the feed reads from the journal of any number of servers is its end, newest
first.  It shows one group for each call, if and only if no server that emitted
for one call only is reached by the limit and followed by another.
-/
theorem activity_groups_iff (servers : List (ServerSession)) (limit : Nat) :
    Decodes (readArray OrderEvent.read)
        (readLastTradesJsonl
          (journalFile JournalOrderSink.onOrderEvent (servers.map ServerSession.events)) limit)
        ((journalled servers).reverse.take limit) ∧
      (groupBatches ((journalled servers).reverse.take limit) = activityOf servers limit ↔
        ∀ earlier server later, servers = earlier ++ server :: later →
          server.log.batches.length = 1 → journalled later ≠ [] →
            limit ≤ (journalled later).length) := by
  refine ⟨?_, (groupBatches_window_iff servers limit).trans (apart_iff_of_servers servers limit)⟩
  exact decodes_readLastTradesJsonl JournalOrderSink.onOrderEvent_eq OrderEvent.read_value limit
    (servers.map ServerSession.events)

/-- Two servers that take one order each: the feed shows one group. -/
theorem servers_share_a_group :
    ∃ servers : List ServerSession,
      groupBatches ((journalled servers).reverse.take 100) ≠ activityOf servers 100 := by
  let start : MatchingEngine := { orderSink := some [] }
  let server : ServerSession :=
    ⟨_, start, _, _, OrderBook.sound_empty none, rfl, rfl, rfl,
      Run.of_isSome (exec (Host.twosComplement (·))) (fun _ _ => True) start
        [.processOrder ⟨1000, 0, .buy, 100, 5, .limit⟩] (by decide)⟩
  refine ⟨[server, server], fun shows => ?_⟩
  exact absurd (congrArg List.length shows) (by decide)

end OrderBookSimulator
