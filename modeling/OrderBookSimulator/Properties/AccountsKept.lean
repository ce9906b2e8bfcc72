import OrderBookSimulator.Server.Moves

/-!
# Connecting and the accounts

`reconnect_user` leaves an existing position alone, `next_user_id` overwrites
it.  Orders may carry a user id before it is handed out, so the two differ.
-/

namespace OrderBookSimulator

open Library

namespace Position

/-- Nothing has been bought or sold, and nothing is reserved. -/
structure Untouched (pos : Position) : Prop where
  bought : pos.totalBuyQty = 0 ∧ pos.totalBuyValue = 0
  sold : pos.totalSellQty = 0 ∧ pos.totalSellValue = 0
  reserved : pos.reservedBalance = 0 ∧ pos.reservedShares = 0

instance (pos : Position) : Decidable pos.Untouched :=
  decidable_of_iff
    ((pos.totalBuyQty = 0 ∧ pos.totalBuyValue = 0) ∧
      (pos.totalSellQty = 0 ∧ pos.totalSellValue = 0) ∧
      pos.reservedBalance = 0 ∧ pos.reservedShares = 0)
    ⟨fun ⟨bought, sold, reserved⟩ => ⟨bought, sold, reserved⟩,
      fun ⟨bought, sold, reserved⟩ => ⟨bought, sold, reserved⟩⟩

/-- Cash and shares are what the trades have made of the opening position. -/
structure Accounted (pos : Position) : Prop where
  balance : pos.balance = 100000 - pos.totalBuyValue + pos.totalSellValue
  shares : pos.shares = 100 + pos.totalBuyQty - pos.totalSellQty
  netQty : pos.netQty = pos.totalBuyQty - pos.totalSellQty

theorem accounted_default : Accounted {} := ⟨rfl, rfl, rfl⟩

theorem Accounted.untouched_iff {pos : Position} (accounted : pos.Accounted) :
    {} = pos ↔ pos.Untouched := by
  constructor
  · rintro rfl
    exact ⟨⟨rfl, rfl⟩, ⟨rfl, rfl⟩, rfl, rfl⟩
  · rintro ⟨⟨buyQty, buyValue⟩, ⟨sellQty, sellValue⟩, reservedBalance, reservedShares⟩
    obtain ⟨balance, shares, netQty⟩ := accounted
    cases pos
    simp only at *
    simp only [mk.injEq]
    omega

/-- Every callback keeps every position accounted for. -/
theorem kept_accounted (now : Nat → Int) :
    UserManager.Kept (Host.exact now) fun users => ∀ user, (users.getPosition user).Accounted := by
  apply UserManager.kept_of_positions
  · rintro pos qty value ⟨balance, shares, netQty⟩
    constructor <;> simp only [bought, Host.exact_longLong] <;> omega
  · rintro pos qty value ⟨balance, shares, netQty⟩
    constructor <;> simp only [sold, Host.exact_longLong] <;> omega
  · exact fun pos value accounted => ⟨accounted.balance, accounted.shares, accounted.netQty⟩
  · exact fun pos qty accounted => ⟨accounted.balance, accounted.shares, accounted.netQty⟩
  · exact fun pos value accounted => ⟨accounted.balance, accounted.shares, accounted.netQty⟩
  · exact fun pos qty accounted => ⟨accounted.balance, accounted.shares, accounted.netQty⟩

end Position

namespace ServerEntry

/-- The step of `next_user_id` or `reconnect_user` that is taken, if it is one. -/
def connecting (entry : ServerEntry) : Option Connecting :=
  match entry.call with
  | .advance index _ =>
      entry.before.threads[index]?.bind fun thread =>
        match thread.task with
        | .connect _ stage => some stage
        | _ => none
  | _ => none

/-- Connecting changes no position. -/
def KeepsAccounts (entry : ServerEntry) : Prop :=
  entry.connecting.isSome →
    ∀ user, entry.after.users.getPosition user = entry.before.users.getPosition user

/-- The order a request submits. -/
def submitted (entry : ServerEntry) : Option Order :=
  match entry.call with
  | .advance index _ =>
      entry.before.threads[index]?.bind fun thread =>
        match thread.task with
        | .submit order => some order
        | _ => none
  | _ => none

/-- The id whose position `next_user_id` is about to assign. -/
def assigned (entry : ServerEntry) : Option Int :=
  match entry.connecting with
  | some (.assign id) => some id
  | _ => none

/-- A position that `next_user_id` is about to assign has not been touched. -/
def AssignsUntouched (entry : ServerEntry) : Prop :=
  ∀ id ∈ entry.assigned, (entry.before.users.getPosition id).Untouched

instance (entry : ServerEntry) : Decidable entry.AssignsUntouched :=
  inferInstanceAs (Decidable (∀ id ∈ entry.assigned, _))

theorem assigned_eq_some_iff {entry : ServerEntry} {id : Int} :
    entry.assigned = some id ↔ entry.connecting = some (.assign id) := by
  unfold assigned
  split <;> simp_all

end ServerEntry

section Runs

variable {host : Host} {server next : Server}

theorem users_of_connecting {action : Action} {reply : Unit} {stage : Connecting}
    (steps : server.step host action = .ok (next, reply))
    (connects : ServerEntry.connecting ⟨server, action, reply, next⟩ = some stage) :
    ∃ spurious, next.users = (stage.step host spurious server.ids server.users).2.1 := by
  unfold ServerEntry.connecting at connects
  split at connects
  · rename_i index spurious isAdvance
    dsimp only at isAdvance connects
    cases isAdvance
    obtain ⟨thread, found, taskStage⟩ := Option.bind_eq_some_iff.mp connects
    split at taskStage
    · rename_i reclaimUid atStage task
      cases taskStage
      simp only [Server.step, found, Server.advance, task] at steps
      cases steps
      exact ⟨spurious, rfl⟩
    · cases taskStage
  · cases connects

/-- Whatever happens, cash and shares stay accounted for. -/
theorem Moves.accounted {now : Nat → Int} {action : Action}
    (moves : Moves (Host.exact now) server action next) (sound : server.engine.book.Sound)
    (accounted : ∀ user, (server.users.getPosition user).Accounted) :
    ∀ user, (next.users.getPosition user).Accounted := by
  have kept := Position.kept_accounted now
  cases moves with
  | connected index spurious thread reclaimUid stage =>
      intro user
      change ((stage.step _ spurious server.ids server.users).2.1.getPosition user).Accounted
      rw [Connecting.getPosition_step]
      split
      · exact Position.accounted_default
      · exact accounted user
  | withdrew index spurious thread orderId withdrawn ok found task free cancels =>
      have sameUsers := (locked_cancelOrder sound cancels).users
      intro user
      change (withdrawn.users.getPosition user).Accounted
      rw [sameUsers]
      exact accounted user
  | calledBack held call => exact kept.apply accounted call
  | opened | turned | sent | drew | submitted | ticked | tickOrdered | broadcast | unlocked =>
      exact accounted

/--
In every run of the server, each step of connecting leaves every position as it
is if and only if every position that `next_user_id` assigns was untouched.
-/
theorem accounts_kept_iff {now : Nat → Int} {start : Server} {log : List ServerEntry}
    (sound : start.engine.book.Sound)
    (accounted : ∀ user, (start.users.getPosition user).Accounted)
    (run : ServerRun (Host.exact now) start log server) :
    (∀ entry ∈ log, ServerEntry.KeepsAccounts entry) ↔
      ∀ entry ∈ log, ServerEntry.AssignsUntouched entry := by
  have accountedAt : ∀ {past : List ServerEntry} {state : Server},
      ServerRun (Host.exact now) start past state →
      ∀ user, (state.users.getPosition user).Accounted := by
    intro past state soFar
    refine soFar.invariant (fun _ server => ∀ user, (server.users.getPosition user).Accounted)
      accounted ?_
    intro log server action reply next earlier held _ steps
    exact (moves_of_step steps).accounted (sound_of_serverRun sound earlier) held
  refine forall₂_congr fun entry member => ?_
  obtain ⟨past, earlier, _, steps, _⟩ := run.of_mem member
  have accountedThen := accountedAt earlier
  constructor
  · intro keeps id assigned
    have assigns := ServerEntry.assigned_eq_some_iff.mp assigned
    obtain ⟨spurious, users⟩ := users_of_connecting steps assigns
    have kept := keeps (by rw [assigns]; rfl) id
    rw [users, Connecting.getPosition_step, if_pos rfl] at kept
    exact (accountedThen id).untouched_iff.mp kept
  · intro untouched connects user
    obtain ⟨stage, connects⟩ := Option.isSome_iff_exists.mp connects
    obtain ⟨spurious, users⟩ := users_of_connecting steps connects
    rw [users, Connecting.getPosition_step]
    split
    · rename_i assigns
      exact (accountedThen user).untouched_iff.mpr
        (untouched user (ServerEntry.assigned_eq_some_iff.mpr (assigns ▸ connects)))
    · rfl

/-- What holds of a user for whom no request has submitted an order yet. -/
structure Bystander (server : Server) (user : Int) : Prop where
  ownsNone : ∀ orderId, server.users.orderToUser.find? orderId ≠ some user
  untouched : (server.users.getPosition user).Untouched

theorem Bystander.of_position {user : Int} (bystander : Bystander server user)
    (sameOwners : next.users.orderToUser = server.users.orderToUser)
    (samePosition : next.users.getPosition user = server.users.getPosition user) :
    Bystander next user where
  ownsNone := by
    rw [sameOwners]
    exact bystander.ownsNone
  untouched := by
    rw [samePosition]
    exact bystander.untouched

theorem Bystander.register {user : Int} (bystander : Bystander server user) {order : Order}
    (other : order.userId ≠ user)
    (registered : next.users = server.users.registerOrder order.id order.userId) :
    Bystander next user where
  ownsNone := by
    intro orderId
    rw [registered, UserManager.registerOrder, SortedMap.find?_insert]
    split
    · simpa using other
    · exact bystander.ownsNone orderId
  untouched := by
    rw [registered]
    exact bystander.untouched

/-- Until a request submits an order for a user, that user's position stays untouched. -/
theorem bystander_of_serverRun {start : Server} {log : List ServerEntry} {user : Int}
    (sound : start.engine.book.Sound) (notHouse : user ≠ 0) (bystander : Bystander start user)
    (run : ServerRun host start log server)
    (notSubmitted : ∀ entry ∈ log, ∀ order ∈ ServerEntry.submitted entry, order.userId ≠ user) :
    Bystander server user := by
  revert notSubmitted
  refine run.invariant (fun log server =>
    (∀ entry ∈ log, ∀ order ∈ ServerEntry.submitted entry, order.userId ≠ user) →
      Bystander server user) (fun _ => bystander) ?_
  intro log server action reply next earlier soFar _ steps notSubmitted
  rw [List.forall_mem_append, List.forall_mem_singleton] at notSubmitted
  have held := soFar notSubmitted.1
  cases moves_of_step steps with
  | connected index spurious thread reclaimUid stage =>
      refine ⟨?_, ?_⟩
      · intro orderId
        change (stage.step _ spurious server.ids server.users).2.1.orderToUser.find? orderId ≠ _
        rw [Connecting.orderToUser_step]
        exact held.ownsNone orderId
      · change ((stage.step _ spurious server.ids server.users).2.1.getPosition user).Untouched
        rw [Connecting.getPosition_step]
        split
        · decide
        · exact held.untouched
  | submitted index spurious thread order found task free =>
      refine held.register (notSubmitted.2 order ?_) rfl
      simp [ServerEntry.submitted, found, task]
  | tickOrdered thread request rest => exact held.register (Ne.symm notHouse) rfl
  | withdrew index spurious thread orderId withdrawn ok found task free cancels =>
      have sameUsers := (locked_cancelOrder (sound_of_serverRun sound earlier) cancels).users
      exact held.of_position (congrArg _ sameUsers) (congrArg (·.getPosition user) sameUsers)
  | calledBack holder call =>
      exact held.of_position (UserManager.orderToUser_apply _ _ _)
        (UserManager.getPosition_apply_of_not_owner _ notHouse held.ownsNone call)
  | opened | turned | sent | drew | ticked | broadcast | unlocked => exact held.of_position rfl rfl

/-- A user who reconnects while an order of theirs is being filled. -/
theorem accounts_kept_sample :
    ∃ log state, ServerRun (Host.exact (·)) {} log state ∧
      (state.users.getPosition 1).shares = 105 ∧ (state.users.getPosition 2).shares = 95 ∧
      ∀ entry ∈ log, ServerEntry.KeepsAccounts entry := by
  have run := Run.of_isSome (Server.step (Host.exact (·))) (fun _ _ => True) {}
    [.postConnect, .advance 0 false, .advance 0 false, .dial 0, .advance 1 false, .advance 1 false,
      .postOrder "\x7b\"side\":\"SELL\",\"qty\":5,\"price\":100,\"user_id\":2\x7d".toList,
      .advance 2 false, .advance 2 false, .callback, .broadcast, .broadcast, .unlock,
      .dial 2, .advance 3 false,
      .postOrder "\x7b\"side\":\"BUY\",\"qty\":5,\"price\":100,\"user_id\":1\x7d".toList,
      .advance 4 false, .advance 4 false, .broadcast, .advance 3 false, .callback]
    (by decide)
  have opening : ∀ user, (({} : Server).users.getPosition user).Accounted :=
    fun _ => Position.accounted_default
  exact ⟨_, _, run, by decide, by decide,
    (accounts_kept_iff (OrderBook.sound_empty none) opening run).mpr (by decide)⟩

/-- An order of user 1 rests before user 1 has connected; connecting forgets what it reserved. -/
theorem reservation_reset_by_connect :
    ∃ log state, ServerRun (Host.exact (·)) {} log state ∧
      ∃ entry ∈ log, ServerEntry.connecting entry = some (.assign 1) ∧
        (entry.before.users.getPosition 1).reservedBalance = 500 ∧
        (entry.after.users.getPosition 1).reservedBalance = 0 ∧
        ¬ ServerEntry.KeepsAccounts entry := by
  have run := Run.of_isSome (Server.step (Host.exact (·))) (fun _ _ => True) {}
    [.postOrder "\x7b\"side\":\"BUY\",\"qty\":5,\"price\":100,\"user_id\":1\x7d".toList,
      .advance 0 false, .advance 0 false, .callback, .broadcast, .broadcast, .unlock,
      .postConnect, .advance 1 false, .advance 1 false] (by decide)
  refine ⟨_, _, run, _, List.getLast_mem (by decide), by decide, by decide, by decide, ?_⟩
  intro keeps
  have same := congrArg Position.reservedBalance (keeps (by decide) 1)
  revert same
  decide

end Runs

end OrderBookSimulator
