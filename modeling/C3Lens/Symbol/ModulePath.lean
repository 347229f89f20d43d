import C3Lens.Text.Blank

/-!
# Module paths

The path of a module is a list of names, written with `::` between them.
-/

namespace C3Lens

/-- The path of a module. -/
structure ModulePath where
  names : List String
deriving DecidableEq, Inhabited, Hashable

namespace ModulePath

/-- Splits a text at every `::`. -/
def splitColons (current : List Char) : List Char → List String
  | [] => [String.ofList current.reverse]
  | [c] => [String.ofList (c :: current).reverse]
  | c :: d :: cs =>
    if c = ':' ∧ d = ':' then String.ofList current.reverse :: splitColons [] cs
    else splitColons (c :: current) (d :: cs)

/-- Cuts a text at the last `::`, if it has one. -/
def cutLast? : List Char → Option (List Char × List Char)
  | [] => none
  | c :: cs =>
    match cutLast? cs with
    | some (qualifier, name) => some (c :: qualifier, name)
    | none => if c = ':' ∧ cs.head? = some ':' then some ([], cs.tail) else none

/-- Reads a path; the empty text is the empty path. -/
def parse (s : String) : ModulePath :=
  if s == "" then ⟨[]⟩ else ⟨(splitColons [] s.toList).map Text.trim⟩

/-- The written form. -/
def text (p : ModulePath) : String :=
  "::".intercalate p.names

/-- Whether the path has no names. -/
def isEmpty (p : ModulePath) : Bool :=
  p.names.isEmpty

/-- The last name. -/
def last? (p : ModulePath) : Option String :=
  p.names.getLast?

/-- Whether `p` is `parent` or lies below it. -/
def isWithin (p parent : ModulePath) : Bool :=
  parent.names.isPrefixOf p.names

/-- Whether one of the paths is the other or lies below it: such modules see each other
without an import. -/
def isRelative (p q : ModulePath) : Bool :=
  p.isWithin q || q.isWithin p

/-- Whether `p` ends with the names of `tail`, which has to have some. -/
def endsWith (p tail : ModulePath) : Bool :=
  !tail.isEmpty && tail.names.isSuffixOf p.names

/-- Compares paths name by name, names by their bytes. -/
def compareNames : List String → List String → Ordering
  | [], [] => .eq
  | [], _ => .lt
  | _, [] => .gt
  | a :: as, b :: bs => (compare a b).then (compareNames as bs)

/-- The order of paths. -/
def order (p q : ModulePath) : Ordering :=
  compareNames p.names q.names

/-- Number of characters of the longest name that `nameOfFile` gives. -/
def longestFileModule : Nat := 31

/-- The name of the module that a file without a module declaration stands for: the file's
name in small letters, with an underscore for all but letters and digits. -/
def nameOfFile (fileName : String) : String :=
  let stem := (Text.beforeEnd? ".c3" fileName).getD fileName
  String.ofList ((stem.toList.map fun c => if c.isAlphanum then c.toLower else '_').take longestFileModule)

end ModulePath

end C3Lens
