import C3Lens.CommandLine
import C3Lens.Service.Exchange

/-!
# The program

Reads its arguments and serves one editor over standard input and output until the session is
over. The program sees the documents that the editor opens; it runs no compiler.
-/

namespace C3Lens.Main

/-- Reads the lines of a header; the result is the length of the message behind it. -/
partial def readLength (input : IO.FS.Stream) (length? : Option Nat) : IO (Option Nat) := do
  let line ← input.getLine
  if line.isEmpty then return none
  else if Text.trim line == "" then return length?
  else readLength input ((Envelope.length? line) <|> length?)

/-- Reads a number of bytes, or as many as there are. -/
partial def readBytes (input : IO.FS.Stream) (wanted : Nat) (found : ByteArray) : IO ByteArray := do
  if found.size ≥ wanted then return found
  let more ← input.read (wanted - found.size).toUSize
  if more.isEmpty then return found
  readBytes input wanted (found ++ more)

/-- Serves the editor until the session is over or the input ends. -/
partial def serve (input output : IO.FS.Stream) (service : Service) : IO Unit := do
  let some length ← readLength input none | return
  let bytes ← readBytes input length .empty
  let message? := ((String.fromUTF8? bytes).bind Json.parse?).bind Envelope.read?
  match message? with
  | none => serve input output service
  | some message =>
    let (service, sent) := service.exchange message
    for j in sent do
      output.putStr (Envelope.frame j)
    output.flush
    if service.isReleased then return
    serve input output service

end C3Lens.Main

/-- Reads the arguments and serves the editor. -/
def main (arguments : List String) : IO UInt32 := do
  match C3Lens.CommandLine.parse arguments with
  | .error stop =>
    if stop.isError then
      (← IO.getStderr).putStr stop.message
      return 2
    else
      (← IO.getStdout).putStr stop.message
      return 0
  | .ok taken =>
    C3Lens.Main.serve (← IO.getStdin) (← IO.getStdout)
      { host := {}, versionOption? := taken.version? }
    return 0
