import Mathlib.Logic.Function.Basic
import OrderBookSimulator.Library.Run
import OrderBookSimulator.Server.Messages

/-!
# Writing to the clients

`clients_`, the loop of `broadcast`, `send_to_client` and `remove_client` of
`server/ws_server.cpp`, where a write may fail.  The loop holds `clients_mtx_`
from its first turn to its last, and each of its writes is one step: answers to
single clients, which only take the client's `write_mtx`, come in between.
-/

namespace OrderBookSimulator

open Library

/-- What a socket has taken. -/
inductive Frame where
  | broadcast (message : Message)
  | answer (message : Message)
  deriving DecidableEq

def Frame.message : Frame → Message
  | .broadcast message | .answer message => message

def Frame.broadcast? : Frame → Option Message
  | .broadcast message => some message
  | .answer _ => none

/-- Each client is an object of its own, named by a number. -/
structure Clients where
  /-- The vector `clients_`. -/
  clients : List Nat := []
  made : List Nat := []
  /-- What the socket of each client has taken. -/
  received : Nat → List Frame := fun _ => []
  /-- The message and the place of `it`, where `broadcast` holds `clients_mtx_`. -/
  loop : Option (Message × Nat) := none

inductive Writing where
  /-- Make a client and push it back. -/
  | join (client : Nat)
  | remove (client : Nat)
  | broadcast (message : Message)
  /-- The turn of the loop at `it`, and whether its write succeeds. -/
  | write (ok : Bool)
  /-- `it` is the end, and the mutex is released. -/
  | finish
  | send (client : Nat) (message : Message) (ok : Bool)
  /-- `clients_.clear()`, in `stop`. -/
  | clear
  deriving DecidableEq

/-- Why a step is not taken now. -/
inductive NotNow where
  | waits
  | elsewhere
  deriving DecidableEq

namespace Clients

/-- A successful write to the socket of a client. -/
def deliver (state : Clients) (client : Nat) (frame : Frame) : Clients :=
  { state with
    received := Function.update state.received client (state.received client ++ [frame]) }

def step (state : Clients) : Writing → Except NotNow (Clients × Unit)
  | .join client =>
      if client ∈ state.made then .error .elsewhere
      else if state.loop.isSome then .error .waits
      else
        .ok ({ state with
          clients := state.clients ++ [client], made := state.made ++ [client] }, ())
  | .remove client =>
      if state.loop.isSome then .error .waits
      else .ok ({ state with clients := state.clients.filter (· ≠ client) }, ())
  | .broadcast message =>
      if state.loop.isSome then .error .waits
      else .ok ({ state with loop := some (message, 0) }, ())
  | .write ok =>
      match state.loop with
      | none => .error .elsewhere
      | some (message, it) =>
          match state.clients[it]? with
          | none => .error .elsewhere
          | some client =>
              if ok then
                .ok ({ state.deliver client (.broadcast message) with
                  loop := some (message, it + 1) }, ())
              else .ok ({ state with clients := state.clients.eraseIdx it }, ())
  | .finish =>
      match state.loop with
      | none => .error .elsewhere
      | some (_, it) =>
          if it = state.clients.length then .ok ({ state with loop := none }, ())
          else .error .elsewhere
  | .send client message ok =>
      if ok then .ok (state.deliver client (.answer message), ()) else .ok (state, ())
  | .clear =>
      if state.loop.isSome then .error .waits else .ok ({ state with clients := [] }, ())

end Clients

end OrderBookSimulator
