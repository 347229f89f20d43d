import C3Lens.Files.Tree
import C3Lens.Json.Parser
import C3Lens.Json.Printer
import C3Lens.Outline.Unit
import C3Lens.Symbol.Decode
import C3Lens.Symbol.Encode

/-!
# The standard library

Reading the sources of the standard library takes time, so its symbols are kept in a file, one
for each version of the language. The file tells the format in which it is written and the
version that it is for; a file of another format or version is not used.

All sources of the standard library together make one unit. It is taken from the cache, else
from the sources, and where there is neither it is empty.
-/

namespace C3Lens.Library

/-!
## What is read of a cache

A symbol may have fields of which only later versions know, so all members of a symbol are
read. The file itself, the types and the notes on parameters have fixed fields; their other
members are skipped.
-/

/-- The parts of a cache that differ in what is read of them. -/
inductive CachePart where
  /-- A value that is read whole. -/
  | whole
  /-- A list or table of parts of one kind. -/
  | each (part : CachePart)
  | file
  | unit
  | global
  | function
  | struct
  | member
  | bitstruct
  | enum
  | fault
  | aliased
  | target
  | distinct
  | interface
  | type
  | parameter
deriving DecidableEq, Inhabited

namespace CachePart

/-- The names of the fields of a file. -/
def fileFields : List String :=
  ["format-version", "language-version", "doc-id", "modules"]

/-- How the field of a file is read. -/
def ofFile (field : String) : CachePart :=
  if field = "modules" then each unit else whole

/-- How the field of a type is read. -/
def ofType (field : String) : CachePart :=
  if field = "generic_arguments" then each type else whole

/-- How the field of a module is read. -/
def ofModule (field : String) : CachePart :=
  match field with
  | "variables" => each global
  | "enums" => each enum
  | "faults" => each fault
  | "structs" => each struct
  | "bitstructs" => each bitstruct
  | "defs" => each aliased
  | "distincts" => each distinct
  | "interfaces" => each interface
  | "functions" => each function
  | _ => whole

/-- How the field of a symbol other than a module is read. -/
def ofSymbol (part : CachePart) (field : String) : CachePart :=
  match part, field with
  | global, "type" => type
  | global, "arg" => parameter
  | function, "return_type" => type
  | function, "args" => each global
  | function, "locals" => each global
  | struct, "members" => each member
  | member, "type" => type
  | member, "substruct" => struct
  | bitstruct, "backing_type" => type
  | bitstruct, "members" => each member
  | enum, "associated_values" => each global
  | aliased, "target" => target
  | distinct, "base_type" => type
  | interface, "methods" => each function
  | _, _ => whole

/-- How a member of a part is read; `none` where it is skipped. -/
def member? (part : CachePart) (field : String) : Option CachePart :=
  match part with
  | whole => some whole
  | each part => some part
  | file => if field ∈ fileFields then some (ofFile field) else none
  | type => if field ∈ TypeRef.fieldNames then some (ofType field) else none
  | parameter => if field ∈ ParameterInfo.fieldNames then some whole else none
  | target => some (if field = "Type" then type else whole)
  | unit => some (ofModule field)
  | symbol => some (ofSymbol symbol field)

/-- How the field at a place is read, where a record is written as an array. -/
def fieldAt (names : List String) (read : String → CachePart) (place : Nat) : CachePart :=
  ((names[place]?).map read).getD whole

/-- How the item at a place of a part is read. -/
def item (part : CachePart) (place : Nat) : CachePart :=
  match part with
  | each part => part
  | file => fieldAt fileFields ofFile place
  | type => fieldAt TypeRef.fieldNames ofType place
  | _ => whole

/-- What is read of a cache. -/
def guide : Json.Guide CachePart :=
  ⟨member?, item⟩

end CachePart

/-- The format of the files that are written. -/
def cacheFormat : Nat := 1

/-- Why a cache could not be used. -/
inductive CacheError where
  | inaccessible (cause : FileError)
  | malformed
  | otherFormat (found : Nat)
  | otherVersion (found expected : String)
deriving DecidableEq, Inhabited

namespace CacheError

/-- The text of the error. -/
def message : CacheError → String
  | .inaccessible cause => cause.message
  | .malformed => "malformed stdlib cache"
  | .otherFormat found =>
    "stdlib cache format " ++ toString found ++ " is not supported (expected " ++
      toString cacheFormat ++ ")"
  | .otherVersion found expected =>
    "stdlib cache is for version " ++ found ++ ", expected " ++ expected

end CacheError

/-- The file that holds the cache of a version. -/
def cachePath (folder version : String) : String :=
  Path.join folder ("stdlib_" ++ version ++ ".json")

/-- What a cache file holds. -/
structure CacheFile where
  format : Nat
  version : String
  doc : DocId
  modules : List Module
deriving Inhabited

namespace CacheFile

/-- The file's text as JSON. -/
def toJson (c : CacheFile) : Json :=
  .object [("format-version", .nat c.format), ("language-version", .string c.version),
    ("doc-id", .string c.doc.text), ("modules", .list Module.toJson c.modules)]

/-- Reads a file's text. -/
def ofJson? (j : Json) : Option CacheFile := do
  let ms ← j.record? CachePart.fileFields 4
  return {
    format := ← ms.required "format-version" coordinate?
    version := ← ms.required "language-version" Json.string?
    doc := ⟨← ms.required "doc-id" Json.string?⟩
    modules := ← ms.required "modules" (Json.itemsOf? Module.ofJson?) }

/-- The cache of a unit. -/
def ofUnit (version : String) (u : SourceUnit) : CacheFile :=
  ⟨cacheFormat, version, u.doc, u.modules.values⟩

/-- The unit that is cached. -/
def unit (c : CacheFile) : SourceUnit :=
  c.modules.foldl SourceUnit.register (.ofDoc c.doc)

end CacheFile

/-- Reads the text of a cache for a version. -/
def parseCache (version text : String) : Except CacheError SourceUnit :=
  match (Json.parseBy? CachePart.guide .file text).bind CacheFile.ofJson? with
  | none => .error .malformed
  | some file =>
    if file.format ≠ cacheFormat then .error (.otherFormat file.format)
    else if file.version ≠ version then .error (.otherVersion file.version version)
    else .ok file.unit

/-- The text of a cache for a version. -/
def cacheText (version : String) (u : SourceUnit) : String :=
  (CacheFile.ofUnit version u).toJson.print

/-- Reads the cache of a version. -/
def readCache (files : FileTree) (folder version : String) : Except CacheError SourceUnit :=
  match files.text (cachePath folder version) with
  | .error cause => .error (.inaccessible cause)
  | .ok text => parseCache version text

/-- Writes the cache of a version; the result is also the path of the file. -/
def writeCache (files : FileTree) (folder version : String) (u : SourceUnit) :
    Except CacheError (FileTree × String) :=
  let path := cachePath folder version
  match files.makeFolder folder with
  | .error cause => .error (.inaccessible cause)
  | .ok files =>
    match files.write path (Utf8.encode (cacheText version u)) with
    | .error cause => .error (.inaccessible cause)
    | .ok files => .ok (files, path)

/-!
## Loading
-/

/-- The document that the standard library of a version is registered as. -/
def docOf (version : String) : DocId :=
  ⟨"_stdlib_" ++ version⟩

/-- Where a library was taken from. -/
inductive Origin where
  | cache | sources | nowhere
deriving DecidableEq, Inhabited

/-- A library with the work that is left to do for it. -/
structure Loaded where
  unit : SourceUnit
  pending : Pending
  origin : Origin
deriving Inhabited

/-- Adds the symbols of a source file. The modules keep the document in which they are
declared, the pending work is that of the whole library. A file that cannot be read is left
out. -/
def addSource (files : FileTree) (l : Loaded) (path : String) : Loaded :=
  match files.text path with
  | .error _ => l
  | .ok text =>
    let (unit, pending) := outlineOfText (DocId.ofPath path) text
    { l with
      unit := unit.modules.values.foldl SourceUnit.register l.unit
      pending := l.pending.append (pending.rename unit.doc l.unit.doc) }

/-- The library of the sources in a folder. -/
def ofSources? (files : FileTree) (root : String) (doc : DocId) : Option Loaded :=
  if files.isFolder root then
    match files.sources root with
    | .error _ => none
    | .ok paths => some (paths.foldl (addSource files) ⟨.ofDoc doc, .empty, .sources⟩)
  else none

/-- The library in the cache. Its work is done. -/
def ofCache? (files : FileTree) (folder version : String) : Option Loaded :=
  match readCache files folder version with
  | .error _ => none
  | .ok unit => some ⟨{ unit with doc := docOf version }, .empty, .cache⟩

/-- The library of a version. -/
def load (files : FileTree) (version : String) (root? cache? : Option String) : Loaded :=
  ((cache?.bind fun folder => ofCache? files folder version) <|>
    (root?.bind fun root => ofSources? files root (docOf version))).getD
    ⟨.ofDoc (docOf version), .empty, .nowhere⟩

end C3Lens.Library
