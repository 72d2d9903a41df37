import CandleHistory.Exchange.Reply
import CandleHistory.Paging.Request

/-!
The client of the exchange: which sessions it opens, and the requests that it sends on them. A
session is opened when a request needs one and the newest is closed, so at most the newest is ever
open.
-/

namespace CandleHistory

open Number (Binary64)

/-- A session of connections to the exchange. -/
structure Session where
  isClosed : Bool
  /-- The time that a request may take, in seconds. -/
  timeout : Binary64
  deriving DecidableEq, Repr

/-- A call for the bars that open from `start` to `last`, both included, in the exchange's words.
-/
structure KlineQuery where
  symbol : String
  interval : String
  category : String
  start : Int
  last : Int
  limit : Int
  deriving DecidableEq, Inhabited, Repr

/-- The parameters of a query, by name, in the order in which they are sent. -/
def KlineQuery.parameters (query : KlineQuery) : List (String × String) :=
  [("category", query.category), ("symbol", query.symbol), ("interval", query.interval),
    ("start", toString query.start), ("end", toString query.last), ("limit", toString query.limit)]

/-- A request over the network. -/
structure HttpRequest where
  url : String
  parameters : List (String × String)
  deriving DecidableEq, Inhabited, Repr

/-- A client: the address of the exchange, the time that a request may take, and all sessions that
were opened, the newest first. -/
structure Client where
  address : String
  timeout : Binary64
  sessions : List Session := []
  deriving Repr

namespace Client

/-- The time that a request may take unless something else is said. -/
def defaultTimeout : Binary64 := .ofInt 10

/-- A client of the exchange at an address. Slashes at the end of the address do not count. -/
def make (address : String) (timeout : Binary64) : Client :=
  { address := String.ofList (Text.trimEndWith (· == '/') address.toList), timeout }

/-- Whether the newest session is open. -/
def isOpen (client : Client) : Bool :=
  match client.sessions with
  | [] => false
  | newest :: _ => !newest.isClosed

/-- Sees to it that there is an open session. -/
def ensureOpen (client : Client) : Client :=
  if client.isOpen then client
  else { client with sessions := ⟨false, client.timeout⟩ :: client.sessions }

/-- Closes the newest session, if there is one. -/
def close (client : Client) : Client :=
  match client.sessions with
  | [] => client
  | newest :: older => { client with sessions := { newest with isClosed := true } :: older }

/-- The request for a query. -/
def request (client : Client) (query : KlineQuery) : HttpRequest :=
  ⟨client.address ++ klineEndpoint, query.parameters⟩

end Client

end CandleHistory
