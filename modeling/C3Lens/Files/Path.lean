/-!
# Paths of files

Paths are texts with slashes. A path is taken apart into its components; empty components
and single dots inside it do not count, double dots do.
-/

namespace C3Lens.Path

/-- Whether a path begins at the root. -/
def isAbsolute (path : String) : Bool :=
  path.startsWith "/"

/-- The parts between the slashes. -/
def parts (path : String) : List String :=
  path.splitOn "/"

/-- The components of a path, without the root. A dot counts only at the start of a
relative path. -/
def components (path : String) : List String :=
  let named := (parts path).filter fun part => part != "" && part != "."
  if (parts path).head? == some "." then "." :: named else named

/-- A path with no superfluous slashes and dots. -/
def normalize (path : String) : String :=
  (if isAbsolute path then "/" else "") ++ "/".intercalate (components path)

/-- The last component, unless it is made of dots. -/
def fileName? (path : String) : Option String :=
  match (components path).getLast? with
  | some name => if name == ".." || name == "." then none else some name
  | none => none

/-- The part of a file name behind its last dot, if there is something before the dot. -/
def extension? (path : String) : Option String := do
  let name ← fileName? path
  let reversed := name.toList.reverse
  let behind := reversed.takeWhile (· != '.')
  match reversed.dropWhile (· != '.') with
  | [] => none
  | [_] => none
  | _ => some (String.ofList behind.reverse)

/-- The extensions of C3 source files. -/
def sourceExtensions : List String := ["c3", "c3i"]

/-- Whether a path names a C3 source file. -/
def isSource (path : String) : Bool :=
  match extension? path with
  | some ext => sourceExtensions.contains ext
  | none => false

/-- The path `tail` below the directory `base`; an absolute `tail` stands for itself. -/
def join (base tail : String) : String :=
  if isAbsolute tail then tail
  else if base == "" || base.endsWith "/" then base ++ tail
  else base ++ "/" ++ tail

/-- The parts in front of those at the end that name nothing. -/
def trimParts (parts : List String) : List String :=
  (parts.reverse.dropWhile fun part => part == "" || part == ".").reverse

/-- The directory that holds a path, as written in it; the root is in none. -/
def parent? (path : String) : Option String :=
  match parts path with
  | [] => none
  | first :: rest =>
    match trimParts rest with
    | [] => if first == "" then none else some ""
    | named =>
      let above := trimParts named.dropLast
      if first == "" then some ("/" ++ "/".intercalate above)
      else some ("/".intercalate (first :: above))

/-- Whether a path is in no folder. -/
def isOutermost (path : String) : Bool :=
  path == "" || (parent? path).isNone

/-- A path and the folders above it that have a name, the innermost one first; `n` bounds their
number. -/
def chainWithin : Nat → String → List String
  | 0, _ => []
  | n + 1, path =>
    if isOutermost path then []
    else path :: ((parent? path).map (chainWithin n)).getD []

/-- A path and the folders above it that have a name, the innermost one first. -/
def chain (path : String) : List String :=
  chainWithin path.length path

/-- Whether two texts name the same path. -/
def same (path other : String) : Bool :=
  normalize path == normalize other

end C3Lens.Path
