import C3Lens.Document.Id
import C3Lens.Table
import C3Lens.Text.Blank
import C3Lens.Text.Line
import C3Lens.Text.Word

/-!
# What the compiler says

The compiler writes a line of text for every problem that it finds: a severity, a file, a
line, a column and a message, between bars. Lines and columns count from one, and column zero
stands for the whole line. Other lines do not count.

It also tells its version in a line of text, as three numbers with dots between them.
-/

namespace C3Lens

/-- How bad a problem is. -/
inductive Severity where
  | error | warning | note
deriving DecidableEq, Inhabited

namespace Severity

/-- Reads a severity in large or small letters; an unknown one is an error. -/
def parse (s : String) : Severity :=
  let s := String.ofList (s.toList.map Char.toLower)
  if s == "warning" then .warning
  else if s == "note" || s == "info" then .note
  else .error

end Severity

/-- A problem that the compiler found. -/
structure Diagnostic where
  /-- The path of the file, as the compiler names it. -/
  file : String
  /-- The line, counted from zero. -/
  line : Nat
  /-- The column, counted from zero; without one the whole line is meant. -/
  column? : Option Nat
  severity : Severity
  message : String
deriving DecidableEq, Inhabited

/-- What the compiler said. -/
structure Report where
  diagnostics : List Diagnostic
deriving DecidableEq, Inhabited

/-- Why a report could not be had. -/
inductive ReportError where
  | unusable
deriving DecidableEq, Inhabited

namespace ReportError

/-- The text of the error. -/
def message : ReportError → String
  | .unusable => "compiler output has no LSPERR lines; is c3c too old?"

end ReportError

namespace Diagnostic

/-! ## The place in the text -/

/-- Whether a character can stand in a name, with its mark in front. -/
def isNamePart (c : Char) : Bool :=
  c.isAlphanum || c == '_' || c == '$' || c == '@'

/-- Number of columns that a problem at a column takes: those of the name that stands there,
or one. -/
def columnsAt (line : List Char) (column : Nat) : Nat :=
  max 1 ((dropWithin utf16Size column line).takeWhile isNamePart).length

/-- The range of a problem, when the text of its line is known. -/
def range (d : Diagnostic) (line? : Option String) : Range :=
  match d.column? with
  | none =>
    let chars := (line?.map fun s => (Text.trimRight (· == '\r') s).toList).getD []
    Range.of d.line 0 d.line (utf16Length chars)
  | some column =>
    let width := (line?.map fun s => columnsAt s.toList column).getD 1
    Range.of d.line column d.line (column + width)

/-! ## Reading a line -/

/-- Reads the characters of a class, at least one, and the mark behind them. -/
def readField (p : Char → Bool) (mark : List Char) (cs : List Char) : Option (String × List Char) :=
  let field := cs.takeWhile p
  let rest := cs.dropWhile p
  if !field.isEmpty && mark.isPrefixOf rest then
    some (String.ofList field, rest.drop mark.length)
  else none

/-- Largest number that is read. -/
def mostNumber : Nat := 4294967295

/-- The number that digits write. What is no such number counts as zero. -/
def numberOf (digits : String) : Nat :=
  match digits.toNat? with
  | some n => if n ≤ mostNumber then n else 0
  | none => 0

/-- What follows the file's name: line, column and message. -/
def readBehindFile (cs : List Char) : Option (Nat × Nat × String) := do
  if !(['\x22', '|']).isPrefixOf cs then none
  let (line, rest) ← readField Text.isDigit ['|'] (cs.drop 2)
  let (column, rest) ← readField Text.isDigit ['|', '\x22'] rest
  if rest.getLast? != some '\x22' then none
  return (numberOf line, numberOf column, String.ofList rest.dropLast)

/-- The name of the file, which ends at the first place where the rest can be read, and what
follows it. `name` holds the characters before the place, last first. -/
def readFile (name : List Char) : List Char → Option (String × Nat × Nat × String)
  | [] => none
  | c :: cs =>
    match readBehindFile (c :: cs) with
    | some found => some (String.ofList name.reverse, found)
    | none => readFile (c :: name) cs

/-- Removes the backslashes in front of quotes. -/
def unquote : List Char → List Char
  | [] => []
  | '\\' :: '\x22' :: cs => '\x22' :: unquote cs
  | c :: cs => c :: unquote cs

/-- The word that marks a line of the report. -/
def mark : String := "LSPERR|"

/-- Reads a line of the compiler's output. -/
def ofLine? (line : String) : Option Diagnostic := do
  let line := Text.trim line
  let body ← Text.afterStart? ">" line
  let body ← Text.afterStart? mark (Text.trimLeft Text.isSpace body)
  let (severity, rest) ← readField Text.isWord ['|', '\x22'] body.toList
  let (file, line, column, message) ← readFile [] rest
  return {
    file := file
    line := line - 1
    column? := if column == 0 then none else some (column - 1)
    severity := .parse severity
    message := String.ofList (unquote message.toList) }

end Diagnostic

namespace Report

/-- Reads the compiler's output. Output that is not blank has to hold a problem. -/
def parse (output : String) : Except ReportError Report :=
  let found := (Text.lines [] output.toList).filterMap Diagnostic.ofLine?
  if found.isEmpty && Text.trim output != "" then .error .unusable else .ok ⟨found⟩

/-- The problems of each document, in the order in which they were found. Paths of files are
taken relative to `root`. -/
def byDocument (r : Report) (root : String) : Table (List Diagnostic) :=
  r.diagnostics.foldl (fun table d =>
    let doc := (DocId.ofPath (Path.join root d.file)).text
    table.insert doc ((table.get? doc).getD [] ++ [d])) .empty

end Report

/-! ## The version of the compiler -/

namespace Compiler

/-- What stands in front of the version. -/
def versionMark : String := "C3 Compiler Version:"

/-- The version used where nothing names one. -/
def defaultVersion : String := "0.7.1"

/-- Digits, at least one, and what follows them. -/
def digits? (cs : List Char) : Option (List Char × List Char) :=
  if (cs.takeWhile Text.isDigit).isEmpty then none
  else some (cs.takeWhile Text.isDigit, cs.dropWhile Text.isDigit)

/-- What follows a dot. -/
def afterDot? : List Char → Option (List Char)
  | '.' :: cs => some cs
  | _ => none

/-- The version behind the mark and white space. -/
def versionAt? (cs : List Char) : Option String := do
  if !versionMark.toList.isPrefixOf cs then none
  let rest := cs.drop versionMark.length
  if !(rest.head?.any Text.isSpace) then none
  let (major, rest) ← digits? (rest.dropWhile Text.isSpace)
  let (minor, rest) ← digits? (← afterDot? rest)
  let (patch, _) ← digits? (← afterDot? rest)
  return String.ofList (major ++ '.' :: minor ++ '.' :: patch)

/-- The first version that stands behind the mark. -/
def findVersion : List Char → Option String
  | [] => none
  | c :: cs => (versionAt? (c :: cs)) <|> findVersion cs

/-- The version that the compiler's output tells. -/
def version? (output : String) : Option String :=
  findVersion output.toList

end Compiler

end C3Lens
