import CandleHistory.Json.Reader
import CandleHistory.Json.Writer
import CandleHistory.Program.World

/-!
The words that are exchanged with a gateway to the network. A request and its reply are one JSON
document each. A reply holds a status and the text of a body, or tells how the connection failed; it
may also say that someone wishes to cancel.
-/

namespace CandleHistory.Program.Gateway

/-- A request as a document. It holds nothing but texts, so it can always be written. -/
def requestDocument (request : HttpRequest) : Value :=
  .object [("url", .text request.url),
    ("parameters", .object (request.parameters.map fun (name, value) => (name, .text value)))]

/-- A body, from its text. It is decoded however deep its lists and objects are nested; there is no
depth at which the reader gives up and the program breaks off. -/
def readBody (text : String) : Body :=
  match Json.read? text with
  | some document => .decoded document
  | none => .undecodable "the body is not a JSON document"

/-- A reply, from the fields of a document. -/
def readReply (fields : List (String × Value)) : Reply :=
  match Value.field? "status" fields, Value.field? "body" fields with
  | some (.integer status), some (.text body) => .response status (readBody body)
  | _, _ => .lost ((Value.field? "failure" fields).getD .null).display

/-- What is told of a line that is not the document of a reply. -/
def misunderstood : String := "the reply of the gateway cannot be understood"

/-- What a request comes to, from the line that the gateway answers. If it answers nothing at all,
the program is interrupted. -/
def readSent (line : String) : Sent :=
  match Json.read? line with
  | some (.object fields) =>
    { reply := readReply fields
      cancelRequested := ((Value.field? "cancel" fields).getD .null).isPresent }
  | some _ => { reply := .lost misunderstood }
  | none => { reply := if line.isEmpty then .broke .interrupted else .lost misunderstood }

end CandleHistory.Program.Gateway
