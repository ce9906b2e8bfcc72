import OrderBookSimulator.Types

/-!
# The trade tape

`context/WebSocketContext.tsx` of the client, and what reaches it.  The sinks of
`main` take each trade in turn, the journal before the WebSocket server.  A
socket delivers in order what is sent while it is open; the client connects
again after a close.  The fetch of `/trades` reads the journal at one moment and
resolves at a later one.
-/

namespace OrderBookSimulator

/-- `MAX_TRADES` -/
def maxTrades : Nat := 200

/-- What identifies a trade on the tape. -/
def Trade.key (t : Trade) : Int × Int := (t.tradeId, t.timestamp)

/-- The update of the tape by a trade message. -/
def onTradeMessage (trade : Trade) (prev : List Trade) : List Trade :=
  (trade :: prev).take maxTrades

/-- The trades of the fetch that the tape does not show. -/
def olderTrades (seed live : List Trade) : List Trade :=
  seed.filter fun t => t.key ∉ live.map Trade.key

/-- The update of the tape by the resolved fetch. -/
def seedTape (seed live : List Trade) : List Trade :=
  (live ++ olderTrades seed live).take maxTrades

/-- The server's journal and sinks, one client, and what is between them. -/
structure TapeFeed where
  /-- Every trade in the journal, oldest first. -/
  journal : List Trade
  /-- The trade that has been journalled and not yet sent. -/
  unsent : Option Trade := none
  isOpen : Bool := false
  /-- What has been sent on the open socket and not yet delivered. -/
  inFlight : List Trade := []
  /-- Whether the fetch has read the journal. -/
  hasRead : Bool := false
  /-- What the fetch has read and not yet resolved with. -/
  seed : Option (List Trade) := none
  /-- The state `trades` of the provider, newest first. -/
  trades : List Trade := []
  deriving DecidableEq

inductive TapeEvent where
  | journal (trade : Trade)
  | send
  | deliver
  | read
  | resolve
  | connect
  | close
  deriving DecidableEq, Repr

/-- An event that cannot happen now. -/
inductive NotEnabled where
  | notEnabled
  deriving DecidableEq, Repr

def TapeFeed.step (feed : TapeFeed) : TapeEvent → Except NotEnabled (TapeFeed × Unit)
  | .journal trade =>
      if feed.unsent = none then
        .ok ({ feed with journal := feed.journal ++ [trade], unsent := some trade }, ())
      else .error .notEnabled
  | .send =>
      match feed.unsent with
      | none => .error .notEnabled
      | some trade =>
          let inFlight := if feed.isOpen then feed.inFlight ++ [trade] else feed.inFlight
          .ok ({ feed with unsent := none, inFlight }, ())
  | .deliver =>
      match feed.inFlight with
      | [] => .error .notEnabled
      | trade :: inFlight =>
          .ok ({ feed with inFlight, trades := onTradeMessage trade feed.trades }, ())
  | .read =>
      if feed.hasRead then .error .notEnabled
      else
        .ok ({ feed with hasRead := true, seed := some (feed.journal.reverse.take maxTrades) }, ())
  | .resolve =>
      match feed.seed with
      | none => .error .notEnabled
      | some seed => .ok ({ feed with seed := none, trades := seedTape seed feed.trades }, ())
  | .connect =>
      if feed.isOpen then .error .notEnabled else .ok ({ feed with isOpen := true }, ())
  -- what was on its way is lost
  | .close =>
      if feed.isOpen then .ok ({ feed with isOpen := false, inFlight := [] }, ())
      else .error .notEnabled

end OrderBookSimulator
