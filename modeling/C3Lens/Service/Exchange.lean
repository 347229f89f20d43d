import C3Lens.Json.Parser
import C3Lens.Json.Printer
import C3Lens.Message.Reply
import C3Lens.Message.Request
import C3Lens.Service.Notice
import C3Lens.Service.Request

/-!
# The exchange of messages

On the wire a message is a JSON object with a method, parameters, and, where an answer is
wanted, an id that the answer repeats. In front of each stands a header that tells the number of
its bytes.

Every message of the editor leads to a list of messages of the server: the answer, if one is
wanted, and what the server announces.
-/

namespace C3Lens

/-- A message of the editor as it is sent. -/
structure Envelope where
  id? : Option Json
  method : String
  parameters? : Option Json
deriving Inhabited

namespace Envelope

/-- Reads a message; answers to the server's own requests are none. -/
def read? (j : Json) : Option Envelope := do
  let method ← (j.get? "method").bind Json.string?
  return ⟨j.get? "id", method, j.get? "params"⟩

/-- An object with the version of the protocol. -/
def versioned (members : List (String × Json)) : Json :=
  .object (("jsonrpc", .string "2.0") :: members)

/-- Writes the answer to a request. -/
def ofReply (id : Json) : Except Refusal Reply → Json
  | .ok reply => versioned [("id", id), ("result", reply.toJson)]
  | .error refusal =>
    versioned [("id", id), ("error", .object
      [("code", .int refusal.code), ("message", .string refusal.message)])]

/-- Writes an announcement. One that is answered has its method as id. -/
def ofAnnouncement (a : Announcement) : Json :=
  versioned ((if a.isRequest then [("id", .string a.method)] else []) ++
    [("method", .string a.method), ("params", a.parameters)])

/-! ## Frames -/

/-- The name of the header that tells the number of bytes. -/
def lengthHeader : String := "content-length"

/-- The number of bytes that a line of the header tells. -/
def length? (line : String) : Option Nat :=
  let name := line.toList.takeWhile (· != ':')
  if String.ofList (name.map Char.toLower) = lengthHeader then
    (Text.trim (String.ofList (line.toList.drop (name.length + 1)))).toNat?
  else none

/-- A message with its header. -/
def frame (j : Json) : String :=
  let text := j.print
  "Content-Length: " ++ toString text.utf8ByteSize ++ "\r\n\r\n" ++ text

end Envelope

/-! ## Messages and their answers -/

namespace Service

/-- Takes a message in its envelope; the result is also what the server sends. -/
def receive (s : Service) (e : Envelope) : Service × List Json :=
  if s.isReleased then (s, [])
  else match e.id? with
  | some id =>
    let (s, outcome?) := s.request e.method e.parameters?
    (s, (outcome?.map (Envelope.ofReply id)).toList)
  | none =>
    let (s, announced) := s.notify e.method e.parameters?
    (s, announced.map Envelope.ofAnnouncement)

/-- Takes a message and then makes the check that is scheduled. -/
def exchange (s : Service) (e : Envelope) : Service × List Json :=
  let (s, sent) := s.receive e
  let (s, announced) := s.runCheck
  (s, sent ++ announced.map Envelope.ofAnnouncement)

end Service

end C3Lens
