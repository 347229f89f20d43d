import C3Lens.Answer.Declaration
import C3Lens.Message.Request
import C3Lens.Service.Basic

/-!
# What requests are answered

Questions about a position are answered from the workspace and change nothing. Of the requests
that come at the wrong time none is answered.
-/

namespace C3Lens.Service

/-- Where the name of a symbol stands; symbols of documents without a URL stand nowhere. -/
def targetOf? (s : Symbol) : Option Target :=
  s.doc.url?.map fun url => ⟨url, s.nameRange⟩

/-- Answers a question about a position of a document. -/
def answer (w : Workspace) (doc : DocId) (p : Position) : Question → Reply
  | .declaration => (((w.declaration? doc p).bind targetOf?).map .target).getD .nothing
  | .hover => ((w.hover? doc p).map .hover).getD .nothing
  | .completion => .completions (w.completions doc p)
  | .signature => ((w.signature? doc p).map .signature).getD .nothing
  | .implementation => .targets ((w.implementations doc p).filterMap targetOf?)

/-- Replies to a request. -/
def reply (s : Service) : Request → Service × Reply
  | .start start => (s.begin start, .abilities)
  | .ask question doc p => (s, answer s.workspace (.ofUrl doc) p question)

/-- Ends the session. It is over even if the request is refused, which it is with any
parameters; the check that is scheduled is made then. -/
def shutDown (s : Service) (parameters? : Option Json) : Service × Except Refusal Reply :=
  match parameters? with
  | none => ({ s.unschedule with stage := .over }, .ok .nothing)
  | some _ => ({ s with stage := .over }, .error .badParameters)

/-- Why a request may not be made now. A session begins once, and everything else is asked while
it runs. -/
def untimely? (stage : Stage) (isStart : Bool) : Option Refusal :=
  match stage, isStart with
  | .waiting, true => none
  | .waiting, false => some .notStarted
  | .running, true => some .untimely
  | .running, false => none
  | .over, _ | .released, _ => some .untimely

/-- Replies to a request of the protocol that comes at the right time. Of one that this server
does not answer the parameters are checked too. -/
def replyTo (s : Service) (method : String) (parameters? : Option Json) :
    Service × Except Refusal Reply :=
  if method = Request.shutdownMethod then s.shutDown parameters?
  else
    match Request.parameters? method parameters? with
    | none => (s, .error .badParameters)
    | some j =>
      match Request.read? method j with
      | some request =>
        let (s, reply) := s.reply request
        (s, .ok reply)
      | none => (s, .error .unknownMethod)

/-- Replies to a request as it was sent. To let go of the server is not answered, nor is a
method that a server may choose to know. -/
def request (s : Service) (method : String) (parameters? : Option Json) :
    Service × Option (Except Refusal Reply) :=
  if method = Notice.exitMethod then (s.release, none)
  else if method = Notice.cancelMethod then (s, some (.error .notice))
  else if Request.isKnown method || Notice.isKnown method then
    match untimely? s.stage (method == Request.startMethod) with
    | some refusal => (s, some (.error refusal))
    | none =>
      if Notice.isKnown method then (s, some (.error .notice))
      else
        let (s, reply) := s.replyTo method parameters?
        (s, some reply)
  else if Request.isOptional method then (s, none)
  else (s, some (.error .unknownMethod))

end C3Lens.Service
