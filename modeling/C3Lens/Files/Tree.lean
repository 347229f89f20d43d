import C3Lens.Files.Path
import C3Lens.Text.Utf8

/-!
# Trees of files

The files that the server reads and writes, as a value. A folder lists its entries in the
order of the bytes of their names, which is also the order of a walk. Paths are followed as
an operating system does: a double dot leads to the folder above, and only a folder has
anything below it. A path that does not begin with a slash starts at the root folder too.
-/

namespace C3Lens

/-- Why a file could not be used. -/
inductive FileError where
  | notFound | notFolder | isFolder | alreadyExists | tooLong | notText | badName
deriving DecidableEq, Inhabited

namespace FileError

/-- The text of the operating system for the error. -/
def message : FileError → String
  | .notFound => "No such file or directory (os error 2)"
  | .notFolder => "Not a directory (os error 20)"
  | .isFolder => "Is a directory (os error 21)"
  | .alreadyExists => "File exists (os error 17)"
  | .tooLong => "File name too long (os error 36)"
  | .notText => "stream did not contain valid UTF-8"
  | .badName => "file name contained an unexpected NUL byte"

end FileError

/-- A file with its bytes, or a folder. -/
inductive FileNode where
  | file (bytes : List UInt8)
  | folder (entries : List (String × FileNode))
deriving Inhabited

namespace FileNode

/-- Whether the node is a folder. -/
def isFolder : FileNode → Bool
  | .folder _ => true
  | .file _ => false

/-- The entry of a folder. -/
def entry? (name : String) : FileNode → Option FileNode
  | .folder entries => entries.lookup name
  | .file _ => none

/-- Sets an entry among others, keeping their order. -/
def setEntry (name : String) (node : FileNode) :
    List (String × FileNode) → List (String × FileNode)
  | [] => [(name, node)]
  | e :: es =>
    if e.1 = name then (name, node) :: es
    else if name < e.1 then (name, node) :: e :: es
    else e :: setEntry name node es

/-- Follows names that lead down from a node. -/
def descend? : List String → FileNode → Option FileNode
  | [], node => some node
  | name :: names, .folder entries =>
    match entries.lookup name with
    | some node => descend? names node
    | none => none
  | _ :: _, .file _ => none

/-- Puts a node at the end of names that lead down through folders. -/
def put (node : FileNode) : List String → Option FileNode → FileNode
  | [], _ => node
  | name :: names, here =>
    let entries := match here with
      | some (.folder entries) => entries
      | _ => []
    .folder (setEntry name (put node names (entries.lookup name)) entries)

/-- Removes what stands at the end of names that lead down. -/
def remove : List String → FileNode → FileNode
  | [], _ => .folder []
  | [name], .folder entries => .folder (entries.filter fun e => e.1 != name)
  | name :: names, .folder entries =>
    .folder (entries.map fun e => if e.1 = name then (e.1, remove names e.2) else e)
  | _ :: _, .file bytes => .file bytes

mutual

/-- The paths of all files at and below a node that stands at `path`. -/
def walk (path : String) : FileNode → List String
  | .file _ => [path]
  | .folder entries => walkEntries path entries

/-- The paths of all files at and below the entries of a folder that stands at `path`. -/
def walkEntries (path : String) : List (String × FileNode) → List String
  | [] => []
  | (name, node) :: entries => walk (Path.join path name) node ++ walkEntries path entries

end

end FileNode

/-- All files, below the root folder. -/
structure FileTree where
  root : FileNode
deriving Inhabited

namespace FileTree

/-- The tree without files. -/
def empty : FileTree :=
  ⟨.folder []⟩

/-- Most bytes of a name. -/
def longestName : Nat := 255

/-- Most bytes of a path. -/
def longestPath : Nat := 4095

/-- What stands in a folder under a name. -/
def entry (entries : List (String × FileNode)) (name : String) :
    Except FileError (Option FileNode) :=
  if name.utf8ByteSize > longestName then .error .tooLong else .ok (entries.lookup name)

/-- Follows the parts of a path from the folder or file that the names `above`, last first,
lead to; the result is where they lead, last name first. -/
def follow (t : FileTree) : List String → List String → Except FileError (List String)
  | above, [] => .ok above
  | above, part :: parts =>
    match t.root.descend? above.reverse with
    | none => .error .notFound
    | some (.file _) => .error .notFolder
    | some (.folder entries) =>
      if part == "" || part == "." then t.follow above parts
      else if part == ".." then t.follow above.tail parts
      else
        match entry entries part with
        | .ok (some _) => t.follow (part :: above) parts
        | .ok none => .error .notFound
        | .error e => .error e

/-- The parts of a path that an operating system takes, between its slashes. -/
def partsOf (path : String) : Except FileError (List String) :=
  if path.toList.contains '\x00' then .error .badName
  else if path.utf8ByteSize > longestPath then .error .tooLong
  else if path == "" then .error .notFound
  else .ok (Path.parts path)

/-- The names that lead from the root to what stands at a path. -/
def names (t : FileTree) (path : String) : Except FileError (List String) := do
  return (← t.follow [] (← partsOf path)).reverse

/-- What stands at a path. -/
def node (t : FileTree) (path : String) : Except FileError FileNode := do
  match t.root.descend? (← t.names path) with
  | some node => return node
  | none => throw .notFound

/-- Whether a folder stands at the path. -/
def isFolder (t : FileTree) (path : String) : Bool :=
  match t.node path with
  | .ok node => node.isFolder
  | .error _ => false

/-- The bytes of a file. -/
def bytes (t : FileTree) (path : String) : Except FileError (List UInt8) := do
  match ← t.node path with
  | .file bytes => return bytes
  | .folder _ => throw .isFolder

/-- The text of a file. -/
def text (t : FileTree) (path : String) : Except FileError String := do
  match Utf8.decode? (← t.bytes path) with
  | some text => return text
  | none => throw .notText

/-- A place in a folder under which something may be made. -/
structure Vacancy where
  /-- The names that lead to the folder. -/
  folder : List String
  name : String
  /-- Whether the path can only be that of a folder, for it ends with a slash. -/
  forFolder : Bool
  /-- What stands there. -/
  taken? : Option FileNode
deriving Inhabited

/-- The place that a path names in a folder; none if it is made of dots at its end, for it
names a folder then. The folder has to be there, and what is to stand in it need not be. -/
def vacancy? (t : FileTree) (path : String) : Except FileError (Option Vacancy) := do
  let parts := (← partsOf path).reverse
  match parts.dropWhile (· == "") with
  | [] => return none
  | name :: above =>
    let folder ← t.follow [] (above.reverse ++ [""])
    if name == "." || name == ".." then return none
    match t.root.descend? folder.reverse with
    | some (.folder entries) =>
      return some ⟨folder.reverse, name, parts.head? == some "", ← entry entries name⟩
    | _ => throw .notFound

/-- Puts a node under the name of a place. -/
def fill (t : FileTree) (v : Vacancy) (node : FileNode) : FileTree :=
  ⟨.put node (v.folder ++ [v.name]) (some t.root)⟩

/-- Makes a folder in one that is there. -/
def makeEntry (t : FileTree) (path : String) : Except FileError FileTree := do
  match ← t.vacancy? path with
  | none => throw .alreadyExists
  | some v => if v.taken?.isSome then throw .alreadyExists else return t.fill v (.folder [])

/-- Makes the first of some folders, each of which is in the next one; the next ones are
made only where the first needs them. A folder that is there is left as it is. -/
def makeFolders (t : FileTree) : List String → Except FileError FileTree
  | [] => .ok t
  | path :: above =>
    match t.makeEntry path with
    | .ok t => .ok t
    | .error .notFound => do
      let t ← t.makeFolders above
      match t.makeEntry path with
      | .ok t => return t
      | .error e => if t.isFolder path then return t else throw e
    | .error e => if t.isFolder path then .ok t else .error e

/-- Makes a folder and those above it. -/
def makeFolder (t : FileTree) (path : String) : Except FileError FileTree :=
  t.makeFolders (Path.chain path)

/-- Writes a file into a folder that is there. -/
def write (t : FileTree) (path : String) (bytes : List UInt8) : Except FileError FileTree := do
  match ← t.vacancy? path with
  | none => throw .isFolder
  | some v =>
    if v.forFolder || v.taken?.any FileNode.isFolder then throw .isFolder
    else return t.fill v (.file bytes)

/-- Writes a file, and makes the folders above it first. -/
def provide (t : FileTree) (path : String) (bytes : List UInt8) : Except FileError FileTree := do
  match Path.parent? path with
  | some folder => (← t.makeFolder folder).write path bytes
  | none => t.write path bytes

/-- Removes a file or a folder with all that is in it. -/
def remove (t : FileTree) (path : String) : FileTree :=
  match t.names path with
  | .ok names => ⟨t.root.remove names⟩
  | .error _ => t

/-- The paths of all source files at and below a path, in the order of the walk. -/
def sources (t : FileTree) (path : String) : Except FileError (List String) := do
  return ((← t.node path).walk path).filter Path.isSource

end FileTree

end C3Lens
