import OrderBookSimulator.Server.Broadcasting

/-!
# What clients hear of broadcasts

The loop of `broadcast` erases the clients it cannot write to from the vector
that it goes through.  Nobody is skipped or served twice for that: what a client
has heard is the beginning of what was broadcast since it joined.
-/

namespace OrderBookSimulator

open Library

namespace Clients

abbrev WriteEntry := Transition Clients Writing Unit

/-- What a client has heard of broadcasts, among all that its socket has taken. -/
def heard (state : Clients) (client : Nat) : List Message :=
  (state.received client).filterMap Frame.broadcast?

def Writing.shouts : Writing → Option Message
  | .broadcast message => some message
  | _ => none

/-- What was broadcast. -/
def shouted (log : List WriteEntry) : List Message := log.filterMap (Writing.shouts ·.call)

variable {state next : Clients} {call : Writing} {client : Nat} {since : List Message}

theorem heard_deliver (state : Clients) (client other : Nat) (message : Message) :
    (state.deliver other (.broadcast message)).heard client =
      state.heard client ++ if client = other then [message] else [] := by
  by_cases same : client = other
  · subst same
    simp [heard, deliver, Frame.broadcast?]
  · simp [heard, deliver, same]

theorem heard_answer (state : Clients) (client other : Nat) (message : Message) :
    (state.deliver other (.answer message)).heard client = state.heard client := by
  by_cases same : client = other
  · subst same
    simp [heard, deliver, Frame.broadcast?]
  · simp [heard, deliver, same]

/-- The vector holds each client once, and the iterator is within it. -/
structure Sound (state : Clients) : Prop where
  made : ∀ client ∈ state.clients, client ∈ state.made
  distinct : state.clients.Nodup
  within : ∀ message it, state.loop = some (message, it) → it ≤ state.clients.length

/-- What a client has heard of what was broadcast since it joined. -/
structure Heard (state : Clients) (client : Nat) (since : List Message) : Prop where
  isPrefix : state.heard client <+: since
  all : client ∈ state.clients → state.loop = none → state.heard client = since
  visited : ∀ message it, state.loop = some (message, it) → client ∈ state.clients.take it →
    state.heard client = since
  waiting : ∀ message it, state.loop = some (message, it) → client ∈ state.clients.drop it →
    state.heard client ++ [message] = since

section Found

variable {it other : Nat} (found : state.clients[it]? = some other)

include found

theorem take_succ_of_found : state.clients.take (it + 1) = state.clients.take it ++ [other] := by
  rw [List.take_add_one, found, Option.toList_some]

theorem drop_of_found : state.clients.drop it = other :: state.clients.drop (it + 1) := by
  obtain ⟨inside, rfl⟩ := List.getElem?_eq_some_iff.mp found
  exact List.drop_eq_getElem_cons inside

/-- Who comes after the iterator stays there when the client at the iterator is erased. -/
theorem parts_eraseIdx : (state.clients.eraseIdx it).take it = state.clients.take it ∧
    (state.clients.eraseIdx it).drop it = state.clients.drop (it + 1) := by
  have inside := (List.getElem?_eq_some_iff.mp found).1
  have reach : (state.clients.take it).length = it := by
    rw [List.length_take]
    omega
  rw [List.eraseIdx_eq_take_drop_succ]
  exact ⟨List.take_left' reach, List.drop_left' reach⟩

theorem Sound.notAfter (sound : state.Sound) : other ∉ state.clients.drop (it + 1) := by
  have rest := sound.distinct.sublist (List.drop_sublist it state.clients)
  rw [drop_of_found found] at rest
  exact (List.nodup_cons.mp rest).1

end Found

/-- What a step does, and when. -/
inductive Steps (state : Clients) : Writing → Clients → Prop where
  | join (client : Nat) (fresh : client ∉ state.made) (idle : state.loop = none) :
      Steps state (.join client)
        { state with clients := state.clients ++ [client], made := state.made ++ [client] }
  | remove (client : Nat) (idle : state.loop = none) :
      Steps state (.remove client) { state with clients := state.clients.filter (· ≠ client) }
  | broadcast (message : Message) (idle : state.loop = none) :
      Steps state (.broadcast message) { state with loop := some (message, 0) }
  | wrote (message : Message) (it client : Nat) (loop : state.loop = some (message, it))
      (found : state.clients[it]? = some client) :
      Steps state (.write true)
        { state.deliver client (.broadcast message) with loop := some (message, it + 1) }
  | dropped (message : Message) (it client : Nat) (loop : state.loop = some (message, it))
      (found : state.clients[it]? = some client) :
      Steps state (.write false) { state with clients := state.clients.eraseIdx it }
  | finish (message : Message) (it : Nat) (loop : state.loop = some (message, it))
      (atEnd : it = state.clients.length) : Steps state .finish { state with loop := none }
  | sent (client : Nat) (message : Message) :
      Steps state (.send client message true) (state.deliver client (.answer message))
  | lost (client : Nat) (message : Message) : Steps state (.send client message false) state
  | clear (idle : state.loop = none) : Steps state .clear { state with clients := [] }

theorem steps_of_step (steps : state.step call = .ok (next, ())) : state.Steps call next := by
  cases call with
  | join client =>
      simp only [step] at steps
      split at steps
      · cases steps
      · rename_i fresh
        split at steps
        · cases steps
        · rename_i idle
          cases steps
          exact .join client fresh (by simpa using idle)
  | remove client =>
      simp only [step] at steps
      split at steps
      · cases steps
      · rename_i idle
        cases steps
        exact .remove client (by simpa using idle)
  | broadcast message =>
      simp only [step] at steps
      split at steps
      · cases steps
      · rename_i idle
        cases steps
        exact .broadcast message (by simpa using idle)
  | write ok =>
      simp only [step] at steps
      split at steps
      · cases steps
      · rename_i message it loop
        split at steps
        · cases steps
        · rename_i client found
          cases ok with
          | true =>
              cases steps
              exact .wrote message it client loop found
          | false =>
              cases steps
              exact .dropped message it client loop found
  | finish =>
      simp only [step] at steps
      split at steps
      · cases steps
      · rename_i message it loop
        split at steps
        · rename_i atEnd
          cases steps
          exact .finish message it loop atEnd
        · cases steps
  | send client message ok =>
      cases ok with
      | true =>
          cases steps
          exact .sent client message
      | false =>
          cases steps
          exact .lost client message
  | clear =>
      simp only [step] at steps
      split at steps
      · cases steps
      · rename_i idle
        cases steps
        exact .clear (by simpa using idle)

theorem Sound.steps (sound : state.Sound) (steps : state.Steps call next) : next.Sound := by
  obtain ⟨made, distinct, within⟩ := sound
  cases steps with
  | join client fresh idle =>
      refine ⟨fun other member => ?_, ?_, by simp [idle]⟩
      · rcases List.mem_append.mp member with old | new
        · exact List.mem_append_left _ (made other old)
        · exact List.mem_append_right _ new
      · refine List.nodup_append.mpr ⟨distinct, by simp, ?_⟩
        rintro other old _ new rfl
        exact fresh (List.mem_singleton.mp new ▸ made other old)
  | remove client idle =>
      exact ⟨fun other member => made other (List.mem_filter.mp member).1, distinct.filter _,
        by simp [idle]⟩
  | broadcast message idle =>
      refine ⟨made, distinct, ?_⟩
      rintro _ _ loop
      cases loop
      exact Nat.zero_le _
  | wrote message it client loop found =>
      refine ⟨made, distinct, ?_⟩
      rintro _ _ loop
      cases loop
      exact (List.getElem?_eq_some_iff.mp found).1
  | dropped message it client loop found =>
      refine ⟨fun other member => made other (List.mem_of_mem_eraseIdx member),
        distinct.sublist (List.eraseIdx_sublist _ _), ?_⟩
      intro message' it' loop'
      obtain ⟨rfl, rfl⟩ := Prod.mk.inj (Option.some.inj (loop.symm.trans loop'))
      have inside := (List.getElem?_eq_some_iff.mp found).1
      simp only [List.length_eraseIdx, inside, if_true]
      omega
  | finish message it loop atEnd => exact ⟨made, distinct, by simp⟩
  | sent client message => exact ⟨made, distinct, within⟩
  | lost client message => exact ⟨made, distinct, within⟩
  | clear idle => exact ⟨by simp, List.nodup_nil, by simp [idle]⟩

/-- Who has joined, hears of every message what it has not heard yet, and of none twice. -/
theorem Heard.steps (sound : state.Sound) (heard : state.Heard client since)
    (made : client ∈ state.made) (steps : state.Steps call next) :
    next.Heard client (since ++ (Writing.shouts call).toList) := by
  obtain ⟨isPrefix, all, visited, waiting⟩ := heard
  cases steps with
  | join other fresh idle =>
      have distinct : client ≠ other := fun same => fresh (same ▸ made)
      simp only [Writing.shouts, Option.toList_none, List.append_nil]
      refine ⟨isPrefix, fun member _ => all ?_ idle, by simp [idle], by simp [idle]⟩
      simpa [distinct] using member
  | remove other idle =>
      simp only [Writing.shouts, Option.toList_none, List.append_nil]
      exact ⟨isPrefix, fun member _ => all (List.mem_filter.mp member).1 idle, by simp [idle],
        by simp [idle]⟩
  | broadcast message idle =>
      simp only [Writing.shouts, Option.toList_some]
      refine ⟨isPrefix.trans (List.prefix_append _ _), by simp, ?_, ?_⟩
      · rintro _ _ loop member
        cases loop
        simp at member
      · rintro _ _ loop member
        cases loop
        have present : client ∈ state.clients := by simpa using member
        exact congrArg (· ++ [message]) (all present idle)
  | wrote message it other loop found =>
      simp only [Writing.shouts, Option.toList_none, List.append_nil]
      have onward := drop_of_found found
      by_cases own : client = other
      · subst own
        have now : state.heard client ++ [message] = since :=
          waiting message it loop (onward ▸ List.mem_cons_self)
        have heardNow : (state.deliver client (.broadcast message)).heard client = since := by
          rw [heard_deliver, if_pos rfl, now]
        refine ⟨heardNow ▸ List.prefix_refl _, fun _ _ => heardNow, fun _ _ _ _ => heardNow, ?_⟩
        rintro _ _ same member
        cases same
        exact (sound.notAfter found member).elim
      · have heardStill : (state.deliver other (.broadcast message)).heard client =
            state.heard client := by
          rw [heard_deliver, if_neg own, List.append_nil]
        refine ⟨?_, by simp, ?_, ?_⟩
        · exact heardStill.symm ▸ isPrefix
        · rintro _ _ same member
          cases same
          have before : client ∈ state.clients.take it := by
            have among : client ∈ state.clients.take (it + 1) := member
            rw [take_succ_of_found found] at among
            simpa [own] using among
          exact heardStill.trans (visited message it loop before)
        · rintro _ _ same member
          cases same
          have after : client ∈ state.clients.drop it := onward ▸ List.mem_cons_of_mem _ member
          exact (congrArg (· ++ [message]) heardStill).trans (waiting message it loop after)
  | dropped message it other loop found =>
      simp only [Writing.shouts, Option.toList_none, List.append_nil]
      obtain ⟨before, after⟩ := parts_eraseIdx found
      refine ⟨isPrefix, by simp [loop], ?_, ?_⟩
      · intro message' it' loop' member
        obtain ⟨rfl, rfl⟩ := Prod.mk.inj (Option.some.inj (loop.symm.trans loop'))
        exact visited message it loop (before ▸ member)
      · intro message' it' loop' member
        obtain ⟨rfl, rfl⟩ := Prod.mk.inj (Option.some.inj (loop.symm.trans loop'))
        refine waiting message it loop ?_
        rw [drop_of_found found, ← after]
        exact List.mem_cons_of_mem _ member
  | finish message it loop atEnd =>
      simp only [Writing.shouts, Option.toList_none, List.append_nil]
      refine ⟨isPrefix, fun member _ => visited message it loop ?_, by simp, by simp⟩
      rw [atEnd, List.take_length]
      exact member
  | sent other message =>
      simp only [Writing.shouts, Option.toList_none, List.append_nil]
      have same := heard_answer state client other message
      exact ⟨same ▸ isPrefix, fun member idle => same.trans (all member idle),
        fun message it loop member => same.trans (visited message it loop member),
        fun message' it loop member => same ▸ waiting message' it loop member⟩
  | lost other message =>
      simp only [Writing.shouts, Option.toList_none, List.append_nil]
      exact ⟨isPrefix, all, visited, waiting⟩
  | clear idle =>
      simp only [Writing.shouts, Option.toList_none, List.append_nil]
      exact ⟨isPrefix, by simp, by simp [idle], by simp [idle]⟩

/-! ## Runs -/

/-- Runs from construction on, with writes that may fail. -/
abbrev WriteRun (log : List WriteEntry) (state : Clients) : Prop :=
  Run Clients.step (fun _ _ => True) {} log state

/-- What holds between the log and what the clients have heard. -/
structure Hearing (log : List WriteEntry) (state : Clients) : Prop where
  sound : state.Sound
  unmade : ∀ client, client ∉ state.made → state.heard client = []
  since : ∀ past entry future client, log = past ++ entry :: future → entry.call = .join client →
    client ∈ state.made ∧ state.Heard client (shouted future)

theorem heard_of_unmade (sound : state.Sound) (steps : state.Steps call next)
    (unmade : client ∉ state.made) : next.heard client = state.heard client := by
  cases steps with
  | join | remove | broadcast | dropped | finish | lost | clear => rfl
  | wrote message it other loop found =>
      have notHere : client ≠ other := fun same =>
        unmade (sound.made client (same ▸ List.mem_of_getElem? found))
      refine (heard_deliver state client other message).trans ?_
      rw [if_neg notHere, List.append_nil]
  | sent other message => exact heard_answer state client other message

theorem made_of_steps (steps : state.Steps call next) (made : client ∈ state.made) :
    client ∈ next.made := by
  cases steps with
  | join => exact List.mem_append_left _ made
  | remove | broadcast | wrote | dropped | finish | sent | lost | clear => exact made

theorem Hearing.step {log : List WriteEntry} (hearing : Hearing log state)
    (steps : state.step call = .ok (next, ())) :
    Hearing (log ++ [⟨state, call, (), next⟩]) next := by
  have stepped := steps_of_step steps
  refine ⟨hearing.sound.steps stepped, fun client unmade => ?_, ?_⟩
  · have before : client ∉ state.made := fun made => unmade (made_of_steps stepped made)
    exact (heard_of_unmade hearing.sound stepped before).trans (hearing.unmade client before)
  · intro past entry future client parts joins
    rcases List.eq_nil_or_concat future with rfl | ⟨earlier, last, rfl⟩
    · -- the client joins with this very step
      obtain ⟨rfl, same⟩ := List.append_inj' parts rfl
      cases same
      cases joins
      cases stepped with
      | join client fresh idle =>
          have nothing : state.heard client = [] := hearing.unmade client fresh
          exact ⟨by simp, nothing ▸ List.nil_prefix, fun _ _ => nothing, by simp [idle],
            by simp [idle]⟩
    · rw [List.concat_eq_append] at parts ⊢
      rw [← List.cons_append, ← List.append_assoc] at parts
      obtain ⟨rfl, same⟩ := List.append_inj' parts rfl
      cases same
      obtain ⟨made, heard⟩ := hearing.since past entry earlier client rfl joins
      refine ⟨made_of_steps stepped made, ?_⟩
      have now := heard.steps hearing.sound made stepped
      have both : shouted (earlier ++ [⟨state, call, (), next⟩]) =
          shouted earlier ++ (Writing.shouts call).toList := by
        cases shouts : Writing.shouts call <;> simp [shouted, shouts]
      rwa [both]

theorem hearing_of_run {log : List WriteEntry} (run : WriteRun log state) :
    Hearing log state := by
  refine run.invariant Hearing ⟨⟨by simp, List.nodup_nil, by simp⟩, fun _ _ => rfl, by simp⟩ ?_
  intro log state call reply next _ hearing _ steps
  exact hearing.step steps

/-- A client leaves the vector when it is removed, when all are, or by a failed write of its own. -/
theorem leaves_cases (steps : state.Steps call next) (present : client ∈ state.clients)
    (gone : client ∉ next.clients) : call = .remove client ∨ call = .clear ∨
      call = .write false ∧ ∃ message it, state.loop = some (message, it) ∧
        state.clients[it]? = some client := by
  cases steps with
  | join => exact (gone (List.mem_append_left _ present)).elim
  | remove other =>
      by_cases own : client = other
      · exact .inl (own ▸ rfl)
      · exact (gone (List.mem_filter.mpr ⟨present, by simpa using own⟩)).elim
  | dropped message it other loop found =>
      refine .inr (.inr ⟨rfl, message, it, loop, ?_⟩)
      by_contra notFound
      rw [found, Option.some.injEq] at notFound
      refine gone ?_
      rw [List.eraseIdx_eq_take_drop_succ]
      rw [← List.take_append_drop it state.clients, drop_of_found found] at present
      rcases List.mem_append.mp present with before | after
      · exact List.mem_append_left _ before
      · rcases List.mem_cons.mp after with same | later
        · exact (notFound same.symm).elim
        · exact List.mem_append_right _ later
  | clear => exact .inr (.inl rfl)
  | broadcast | wrote | finish | sent | lost => exact (gone present).elim

/--
However writes fail and clients come, are answered and go, in between: what a
client has heard is the beginning of what was broadcast since it joined, and all
of it as long as it is in `clients_` and no loop is under way.  A client is taken
from `clients_` by its own failed write only, or by `remove_client` or `stop`.
-/
theorem broadcasts_reach_clients {log : List WriteEntry} (run : WriteRun log state) :
    (∀ past entry future client, log = past ++ entry :: future → entry.call = .join client →
      state.heard client <+: shouted future ∧
        (client ∈ state.clients → state.loop = none → state.heard client = shouted future)) ∧
    ∀ entry ∈ log, ∀ client ∈ entry.before.clients, client ∉ entry.after.clients →
      entry.call = .remove client ∨ entry.call = .clear ∨
        entry.call = .write false ∧ ∃ message it, entry.before.loop = some (message, it) ∧
          entry.before.clients[it]? = some client := by
  constructor
  · intro past entry future client parts joins
    obtain ⟨_, heard⟩ := (hearing_of_run run).since past entry future client parts joins
    exact ⟨heard.isPrefix, heard.all⟩
  · intro entry member client present gone
    obtain ⟨_, _, _, steps, _⟩ := run.of_mem member
    exact leaves_cases (steps_of_step steps) present gone

/-- Of three clients the second fails, after the third has been answered within the loop. -/
theorem broadcasts_reach_clients_sample :
    ∃ (log : List WriteEntry) (state : Clients) (first second : Message),
      WriteRun log state ∧ shouted log = [first, second] ∧ state.clients = [1, 3] ∧
        state.heard 1 = [first, second] ∧ state.heard 3 = [first, second] ∧
        state.heard 2 <+: [first, second] ∧ (state.received 3).length = 3 := by
  let first : Message := .session 1 false
  let second : Message := .session 2 false
  have run := Run.of_isSome Clients.step (fun _ _ => True) {}
    [.join 1, .join 2, .join 3, .broadcast first, .write true, .write false,
      .send 3 (.session 3 false) true, .write true, .finish, .broadcast second, .write true,
      .write true, .finish] (by decide)
  obtain ⟨reach, _⟩ := broadcasts_reach_clients run
  have cut : ∀ {log : List WriteEntry} (index : Nat) (inside : index < log.length),
      log = log.take index ++ log[index] :: log.drop (index + 1) := fun index inside => by
    rw [← List.drop_eq_getElem_cons inside, List.take_append_drop]
  have secondHeard := (reach _ _ _ 2 (cut 1 (by decide)) (by decide)).1
  have thirdHeard := (reach _ _ _ 3 (cut 2 (by decide)) (by decide)).2 (by decide) rfl
  exact ⟨_, _, first, second, run, by decide, by decide, by decide, thirdHeard, secondHeard,
    by decide⟩

end Clients

end OrderBookSimulator
