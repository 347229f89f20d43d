import C3Lens.Compiler.Report
import C3Lens.Files.Tree
import C3Lens.Json.Parser

/-!
# Settings

What a user can set: in a file of the workspace and in messages of the editor, both of the same
form. A change names only what it sets; all else stays. Sections are found under their names in
small letters, or else in any mixture of large and small letters.
-/

namespace C3Lens

/-- Settings of the compiler and the standard library. -/
structure CompilerSettings where
  /-- The version of the language, which selects the standard library. -/
  version? : Option String := none
  /-- The path of the compiler. -/
  path? : Option String := none
  /-- The folder with the sources of the standard library. -/
  libraryPath? : Option String := none
  /-- Further arguments for the compiler. -/
  arguments : List String := []
deriving DecidableEq, Inhabited

/-- Settings of the checks by the compiler. -/
structure CheckSettings where
  enabled : Bool := true
  /-- Milliseconds to wait for further changes before the compiler runs. -/
  delay : Nat := 2000
deriving DecidableEq, Inhabited

/-- All settings. -/
structure Settings where
  compiler : CompilerSettings := {}
  checks : CheckSettings := {}
  logPath? : Option String := none
  debug : Bool := false
deriving DecidableEq, Inhabited

/-- Why settings could not be taken over. -/
inductive SettingsError where
  | unreadable (path : String) (cause : FileError)
  | malformed
deriving DecidableEq, Inhabited

namespace SettingsError

/-- The text of the error. -/
def message : SettingsError → String
  | .unreadable path cause => "failed to read " ++ path ++ ": " ++ cause.message
  | .malformed => "invalid configuration"

end SettingsError

namespace CompilerSettings

/-- The compiler to run. -/
def program (c : CompilerSettings) : String :=
  c.path?.getD "c3c"

/-- The folder with the sources of the standard library: the one that is set, or else the one
beside the compiler. -/
def libraryRoot? (c : CompilerSettings) (files : FileTree) : Option String :=
  match c.libraryPath? with
  | some path => some path
  | none => do
    let program ← c.path?
    let folder ← if files.isFolder program then some program else Path.parent? program
    return Path.join (Path.join folder "lib") "std"

end CompilerSettings

namespace Settings

/-- The version of the language: the one that is set, or else the one that the compiler told. -/
def version (s : Settings) (told? : Option String) : String :=
  (s.compiler.version? <|> told?).getD Compiler.defaultVersion

/-! ## Equal settings -/

/-- Whether both name the same path, or neither names one. -/
def samePath : Option String → Option String → Bool
  | some a, some b => Path.same a b
  | none, none => true
  | _, _ => false

/-- Whether two settings mean the same; paths may be written in different ways. -/
def same (s t : Settings) : Bool :=
  s.compiler.version? == t.compiler.version? && samePath s.compiler.path? t.compiler.path? &&
  samePath s.compiler.libraryPath? t.compiler.libraryPath? &&
  s.compiler.arguments == t.compiler.arguments && s.checks == t.checks &&
  samePath s.logPath? t.logPath? && s.debug == t.debug

/-! ## Reading changes -/

/-- Whether two names differ in large and small letters only. -/
def sameLetters (a b : String) : Bool :=
  a.toList.map Char.toLower == b.toList.map Char.toLower

/-- The least name of a list. -/
def least? : List String → Option String
  | [] => none
  | name :: names =>
    match least? names with
    | some other => some (if other < name then other else name)
    | none => some name

/-- The section of the name; of several that differ from it in large and small letters, the
first in the order of their names. -/
def section? (name : String) (change : Json) : Option Json :=
  change.get? name <|> do
    let members ← change.members?
    let key ← least? ((members.map Prod.fst).filter (sameLetters name))
    change.get? key

/-- The values of a section's fields, `null` for those that are missing. A section is an object,
or an array with the values in the order of the fields. -/
def fields? (names : List String) : Json → Option (List Json)
  | .array items =>
    if items.length ≤ names.length then
      some (items ++ List.replicate (names.length - items.length) .null)
    else none
  | .object members => some (names.map fun name => ((Json.object members).get? name).getD .null)
  | _ => none

/-- Reads a value that may be `null`, in which case `old` stays. -/
def orOld {α : Type} (old : α) (read : Json → Option α) (j : Json) : Option α :=
  if j.isNull then some old else read j

/-- Reads a list of texts. -/
def texts? (j : Json) : Option (List String) :=
  j.items?.bind fun items => items.mapM Json.string?

/-- Largest delay that can be set. -/
def mostDelay : Nat := 18446744073709551615

/-- Takes over the section of the compiler. -/
def setCompiler? (c : CompilerSettings) (given : Json) : Option CompilerSettings := do
  match ← fields? ["version", "path", "stdlib-path", "compile-args"] given with
  | [version, path, libraryPath, arguments] =>
    let text (j : Json) := j.string?.map some
    return {
      version? := ← orOld c.version? text version
      path? := ← orOld c.path? text path
      libraryPath? := ← orOld c.libraryPath? text libraryPath
      arguments := ← orOld c.arguments texts? arguments }
  | _ => none

/-- Takes over the section of the checks. -/
def setChecks? (c : CheckSettings) (given : Json) : Option CheckSettings := do
  match ← fields? ["enabled", "delay"] given with
  | [enabled, delay] =>
    return {
      enabled := ← orOld c.enabled Json.bool? enabled
      delay := ← orOld c.delay (Json.natUpTo? mostDelay) delay }
  | _ => none

/-- Takes over the values outside of sections; those of a wrong kind do not count. -/
def setRest (s : Settings) (change : Json) : Settings :=
  { s with
    logPath? := ((section? "log-path" change).bind Json.string?) <|> s.logPath?
    debug := ((section? "debug" change).bind Json.bool?).getD s.debug }

/-- Takes over a change. If a section is malformed, it and what comes after it does not count.
The result is also whether anything changed. -/
def change (s : Settings) (change : Json) : Settings × Except SettingsError Bool :=
  match setCompiler? s.compiler ((section? "c3" change).getD (.object [])) with
  | none => (s, .error .malformed)
  | some compiler =>
    let t := { s with compiler := compiler }
    match setChecks? t.checks ((section? "diagnostics" change).getD (.object [])) with
    | none => (t, .error .malformed)
    | some checks =>
      let t := setRest { t with checks := checks } change
      (t, .ok (!same s t))

/-! ## Writing settings -/

/-- The settings in the form of a change, with `null` for those that have no value. -/
def toJson (s : Settings) : Json :=
  .object [
    ("c3", .object [
      ("version", .orNull .string s.compiler.version?), ("path", .orNull .string s.compiler.path?),
      ("stdlib-path", .orNull .string s.compiler.libraryPath?),
      ("compile-args", .list .string s.compiler.arguments)]),
    ("diagnostics", .object [("enabled", .bool s.checks.enabled), ("delay", .nat s.checks.delay)]),
    ("log-path", .orNull .string s.logPath?), ("debug", .bool s.debug)]

/-! ## The settings file -/

/-- The name of the settings file of a workspace. -/
def fileName : String := "c3lsp.json"

/-- Takes over the settings file of a workspace. The result is also whether there is one. -/
def load (s : Settings) (files : FileTree) (root : String) : Settings × Except SettingsError Bool :=
  let path := Path.join root fileName
  match files.text path with
  | .error .notFound => (s, .ok false)
  | .error cause => (s, .error (.unreadable path cause))
  | .ok text =>
    match Json.parse? text with
    | none => (s, .error .malformed)
    | some j =>
      match s.change j with
      | (t, .ok _) => (t, .ok true)
      | (t, .error e) => (t, .error e)

end Settings

end C3Lens
