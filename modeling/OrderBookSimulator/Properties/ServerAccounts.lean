import OrderBookSimulator.Properties.Linearization
import OrderBookSimulator.Properties.Reservations
import OrderBookSimulator.Properties.Solvency
import OrderBookSimulator.Properties.TradeLedger

/-!
# The accounts of the running server

The callbacks into the user manager run after book and engine have changed, and
other threads come in between.  Whenever `book_mtx` is free, all the same, the
accounts agree with the book and with the trades made.
-/

namespace OrderBookSimulator

open Library

/-! ## A single caller is an ordinary one -/

/-- All but the cancels that found nothing. -/
def Entry.Effective (entry : Entry) : Bool := entry.reply ≠ .cancelled false

namespace MatchingEngine

variable {host : Host} {start state : MatchingEngine} {log : Log}

theorem used_of_filter {keep : Entry → Bool} {orderId : Int}
    (used : Used start (List.filter keep log) orderId) : Used start log orderId := by
  rcases used with known | submitted
  · exact Or.inl known
  · obtain ⟨order, found, same⟩ := List.mem_map.mp submitted
    obtain ⟨entry, member, isOrder⟩ := List.mem_filterMap.mp found
    exact Or.inr (List.mem_map.mpr ⟨order,
      List.mem_filterMap.mpr ⟨entry, (List.mem_filter.mp member).1, isOrder⟩, same⟩)

/-- Orders that rest are not completely traded, unless their entry was stale from the start. -/
theorem Tracked.not_fullyFilled (tracked : Tracked start log state) {orderId : Int}
    (resting : state.book.Resting orderId) (current : ¬ start.book.Stale orderId) :
    ¬ FullyFilled start log orderId := by
  have known : (state.book.index.find? orderId).isSome := by
    obtain ⟨node, _, _, found⟩ := tracked.sound.index_of_resting resting
    simp [found]
  have uncancelled : log.cancelledQty orderId = 0 ∧ log.droppedQty orderId = 0 := by
    rcases tracked.live orderId known with stale | ⟨_, _, _, settled⟩
    · exact absurd stale current
    · exact settled
  rintro (stale | ⟨order, member, rfl, filled⟩)
  · exact current stale
  · have ledger := tracked.ledger order member
    have positive := tracked.sound.restingQty_pos resting
    omega

/-- A single caller makes ordinary calls, but for the cancels that find nothing. -/
theorem session_of_serialRun (sound : start.book.Sound)
    (current : ∀ orderId, ¬ start.book.Stale orderId) (run : SerialRun host start log state) :
    Session host start (log.filter Entry.Effective) state := by
  induction run with
  | nil => exact .nil
  | @snoc log state next call reply past fresh answer ih =>
      have tracked := tracked_of_session sound ih
      have effective : ∀ {entry : Entry}, entry.reply ≠ .cancelled false →
          Ordinary start (log.filter Entry.Effective) entry.call →
          exec host state entry.call = .ok (entry.after, entry.reply) → entry.before = state →
          Session host start ((log ++ [entry]).filter Entry.Effective) entry.after := by
        rintro ⟨before, call, reply, after⟩ works allowed answer rfl
        rw [List.filter_append, List.filter_singleton]
        have keeps : Entry.Effective ⟨before, call, reply, after⟩ = true := by
          simpa [Entry.Effective] using works
        rw [keeps]
        exact .snoc ih allowed answer
      cases call with
      | nextOrderId =>
          cases answer
          exact effective (by simp) trivial rfl rfl
      | addRestingOrder order => exact fresh.elim
      | processOrder order =>
          cases answer
          exact effective (by simp) (fun used => fresh (used_of_filter used)) rfl rfl
      | cancelOrder orderId =>
          have answered := answered_of_exec tracked.sound answer
          cases answered with
          | unknown =>
              rw [List.filter_append]
              simpa [Entry.Effective] using ih
          | withdrawn node queued =>
              refine effective (by simp) ?_ answer rfl
              exact tracked.not_fullyFilled ⟨node.order, List.mem_map_of_mem queued, rfl⟩
                (current _)

end MatchingEngine

/-! ## Accounts -/

theorem MatchingEngine.Agrees.resting {first second : MatchingEngine}
    (alike : first.Agrees second) : second.book.resting = first.book.resting := by
  unfold OrderBook.resting
  rw [OrderBook.nodes_eq, OrderBook.nodes_eq]
  simp only [OrderBook.queue, alike.levels]

section Agrees

variable {users other : UserManager} (alike : users.Agrees other)

include alike

theorem UserManager.Agrees.backed {orders : List Order} (backed : Backed orders users) :
    Backed orders other where
  owners := fun order member => (alike.getUserForOrder order.id).trans (backed.owners order member)
  balance := by
    intro user positive
    rw [alike.positions]
    exact backed.balance user positive
  shares := by
    intro user positive
    rw [alike.positions]
    exact backed.shares user positive

theorem UserManager.Agrees.solvent {Careful : Int → Prop} (solvent : Solvent Careful users) :
    Solvent Careful other where
  shares := by
    intro user positive
    rw [alike.positions]
    exact solvent.shares user positive
  cash := by
    intro user positive careful
    rw [alike.positions]
    exact solvent.cash user positive careful

end Agrees

theorem LimitBuyer.filter {log : Log} {user : Int} (buyer : LimitBuyer log user)
    (keep : Entry → Bool) : LimitBuyer (log.filter keep) user :=
  fun entry member => buyer entry (List.mem_filter.mp member).1

section Runs

variable {now : Nat → Int} {start state : Server} {log : List ServerEntry}

/-- Whenever nobody holds `book_mtx`, what is reserved is what the resting orders need. -/
theorem backed_when_free (seeded : start.Seeded) (free : start.held = none)
    (current : ∀ orderId, ¬ start.engine.book.Stale orderId)
    (defaults : ∀ user, start.users.getPosition user = {})
    (run : ServerRun (Host.exact now) start log state)
    (keeps : ∀ entry ∈ log, ServerEntry.KeepsAccounts entry) (unlocked : state.held = none) :
    Backed state.engine.book.resting state.users := by
  obtain ⟨serial, engine, serialized⟩ := serialized_of_serverRun seeded free run keeps
  have sound : start.attached.book.Sound := Server.sound_attached seeded.sound
  have session := MatchingEngine.session_of_serialRun sound current serialized.run
  obtain ⟨users, other, hasUsers, hasOther, alike⟩ := serialized.alike.users
  rw [Server.settled_of_free unlocked] at hasOther
  obtain rfl : state.users = other := Option.some.inj hasOther
  have resting : state.engine.book.resting = engine.book.resting := by
    have same := serialized.alike.resting
    rwa [Server.settled_of_free unlocked] at same
  have house : ∀ order ∈ start.attached.book.resting,
      order.userId = 0 ∧ start.users.orderToUser.find? order.id = none := by
    intro order member
    refine ⟨seeded.house order member, ?_⟩
    rw [seeded.noOwners]
    rfl
  obtain ⟨_, found, backed⟩ := MatchingEngine.mirrored_of_session sound house rfl defaults session
  obtain rfl := Option.some.inj (hasUsers.symm.trans found)
  rw [resting]
  exact alike.backed backed

/--
Whenever nobody holds `book_mtx`, in every run of the server from a seeded book
and default positions in which connecting resets no account: reservations
mirror the book, no user is short of shares, none who bought with limit orders
only is short of cash, and every position is the sum over its user's part of
the trades that a single caller of the same calls is told of.
-/
theorem accounts_agree_when_free (seeded : start.Seeded) (free : start.held = none)
    (current : ∀ orderId, ¬ start.engine.book.Stale orderId)
    (priced : ∀ order ∈ start.engine.book.resting, 0 < order.price)
    (defaults : ∀ user, start.users.getPosition user = {})
    (run : ServerRun (Host.exact now) start log state)
    (keeps : ∀ entry ∈ log, ServerEntry.KeepsAccounts entry) (unlocked : state.held = none) :
    Backed state.engine.book.resting state.users ∧
      ∃ serial engine, SerialRun (Host.exact now) start.attached serial engine ∧
        List.Forall₂ Handed.Matches (handed log) serial ∧
        Solvent (LimitBuyer serial) state.users ∧
        ∀ user, Summarizes serial.tape user (state.users.getPosition user) := by
  obtain ⟨serial, engine, serialized⟩ := serialized_of_serverRun seeded free run keeps
  have sound : start.attached.book.Sound := Server.sound_attached seeded.sound
  have session := MatchingEngine.session_of_serialRun sound current serialized.run
  obtain ⟨users, other, hasUsers, hasOther, alike⟩ := serialized.alike.users
  rw [Server.settled_of_free unlocked] at hasOther
  obtain rfl : state.users = other := Option.some.inj hasOther
  refine ⟨backed_when_free seeded free current defaults run keeps unlocked, serial, engine,
    serialized.run, serialized.matched, ?_, fun user => ?_⟩
  · obtain ⟨_, _, found, solvent⟩ :=
      MatchingEngine.solvent_of_session sound priced rfl defaults session
    obtain rfl := Option.some.inj (hasUsers.symm.trans found)
    exact alike.solvent (solvent.mono fun _ buyer => buyer.filter _)
  · have booked : ∃ users', engine.userManager = some users' ∧ Booked serial.tape users' :=
      serialized.run.invariant (fun (log : Log) state => ∃ users', state.userManager = some users' ∧
        Booked log.tape users') ⟨start.users, rfl, .initial defaults⟩
        fun _ _ _ _ _ _ ⟨_, hasUsers', booked⟩ _ answer =>
          MatchingEngine.booked_exec hasUsers' booked answer
    obtain ⟨_, found, booked⟩ := booked
    obtain rfl := Option.some.inj (hasUsers.symm.trans found)
    rw [alike.positions]
    exact booked.positions user

theorem current_seededServer (orderId : Int) : ¬ seededServer.engine.book.Stale orderId := by
  rintro ⟨known, notResting⟩
  rw [seededServer, OrderBook.index_addRestingOrder (by decide) rfl,
    SortedMap.find?_insert] at known
  split at known
  · rename_i same
    exact notResting ⟨seededOrder, by decide, same.symm⟩
  · cases known

/-- A buyer takes part of what a seller offers, in between the steps of the seller's call. -/
theorem accounts_agree_when_free_sample :
    ∃ log state, ServerRun (Host.exact (·)) seededServer log state ∧
      (state.users.getPosition 2).reservedShares = 2 ∧
      Backed state.engine.book.resting state.users := by
  have run := Run.of_isSome (Server.step (Host.exact (·))) (fun _ _ => True) seededServer
    [.postOrder "\x7b\"side\":\"BUY\",\"qty\":5,\"price\":100,\"user_id\":1\x7d".toList,
      .postOrder "\x7b\"side\":\"SELL\",\"qty\":7,\"price\":100,\"user_id\":2\x7d".toList,
      .advance 0 false, .advance 1 false, .advance 1 false, .callback, .broadcast, .broadcast,
      .unlock, .advance 0 false, .broadcast, .callback, .broadcast, .broadcast, .unlock]
    (by decide)
  exact ⟨_, _, run, by decide, (accounts_agree_when_free seeded_seededServer rfl
    current_seededServer (by decide) (fun _ => rfl) run
    (fun entry member connects => absurd connects (by revert entry; decide)) rfl).1⟩

end Runs

end OrderBookSimulator
