import CandleHistory.Fault
import CandleHistory.Log

/-!
Replies of the exchange, and what is made of them. A reply is a page of rows, a reason to try
again, or a refusal. Server errors, rate limits, lost connections and bodies that cannot be
understood are passing; a return code decides about the rest.
-/

namespace CandleHistory

/-- The body of a response. -/
inductive Body where
  | decoded (document : Value)
  /-- The body is no JSON document, for the given reason. -/
  | undecodable (reason : String)
  deriving Repr

/-- What a request over the network comes to. -/
inductive Reply where
  | response (status : Int) (body : Body)
  /-- The connection failed, or took too long; the text tells how. -/
  | lost (text : String)
  | broke (fault : Fault)
  deriving Repr

/-- The part of the exchange's address at which pages of bars are found. -/
def klineEndpoint : String := "/v5/market/kline"

/-- What is made of a reply: what is reported about it, and a result. -/
structure Reading (α : Type) where
  log : List LogRecord := []
  result : α
  deriving Repr

namespace Reply

/-- The return codes that ask for another attempt: the server timed out, limits the rate, or is
busy. -/
def transientCodes : List Int := [10000, 10006, 10016]

/-- The beginning of every message about a reply. -/
def subject : String := s!"GET {klineEndpoint}"

/-- The result of an object with a return code of zero. -/
def resultObject (fields : List (String × Value)) : PageAnswer :=
  match Value.field? "result" fields with
  | some (.object result) =>
    let rows := (Value.field? "list" result).getD .null
    .page (if rows.isPresent then rows else .list [])
  | _ => .failed (.rejected (.integer 0) (.text "No result data"))

/-- The reading of a return code other than zero. -/
def refusal (code message : Value) : PageAnswer :=
  if !code.isKey then .broke .codeNotKey
  else if transientCodes.any code.equalsInt then
    .failed (.transient s!"{subject} retCode={code.display}: {message.display}")
  else .failed (.rejected (if code.isInteger then code else .integer (-1)) message)

/-- The reading of a document. -/
def readDocument : Value → Reading PageAnswer
  | .object fields =>
    let code := (Value.field? "retCode" fields).getD .null
    if code.equalsInt 0 then { result := resultObject fields }
    else
      let message := (Value.field? "retMsg" fields).getD (.text "")
      let text := s!"[REST] {subject} Error: code={code.display}, msg={message.display}"
      { log := [⟨.error, .client, text⟩], result := refusal code message }
  | _ => { result := .failed (.transient s!"{subject} returned non-object body") }

/-- The reading of a response. -/
def readResponse (status : Int) (body : Body) : Reading PageAnswer :=
  if 500 ≤ status ∨ status = 429 then
    { result := .failed (.transient s!"{subject} returned HTTP {status}") }
  else
    match body with
    | .decoded document => readDocument document
    | .undecodable reason =>
      if 400 ≤ status then
        let text := s!"{subject} returned HTTP {status} with unparsable body"
        { result := .failed (.rejected (.integer status) (.text text)) }
      else
        let text := s!"{subject} returned unparsable body (HTTP {status}): {reason}"
        { result := .failed (.transient text) }

/-- The reading of a reply. -/
def read : Reply → Reading PageAnswer
  | .response status body => readResponse status body
  | .lost text =>
    { log := [⟨.warning, .client, s!"[REST] {subject} Exception: {text}"⟩]
      result := .failed (.transient s!"{subject} failed: {text}") }
  | .broke fault => { result := .broke fault }

end Reply

end CandleHistory
