import C3Lens.Lookup.Path

/-!
# The declaration under the cursor

A cursor on the name of a member, enumerator, fault value or interface method that is declared
there means this declaration. Everywhere else the word at the cursor is resolved.
-/

namespace C3Lens

/-- Whether the name of a symbol stands at a position. -/
def Symbol.isNamedAt (p : Position) (s : Symbol) : Bool :=
  s.nameRange.contains p

/-- The declarations of a module that stand inside of others, in the order in which they are
looked through. -/
def Module.nestedSymbols (m : Module) : List Symbol :=
  (m.structs.values.flatMap fun s => s.members.map .member) ++
  (m.bitstructs.values.flatMap fun b => b.members.map .member) ++
  (m.enums.values.flatMap fun e => e.enumerators.map (.enumerator · e)) ++
  (m.faults.values.flatMap fun f => f.constants.map .faultConstant) ++
  (m.interfaces.values.flatMap fun i => i.methods.values.map (.interfaceMethod · i))

namespace Workspace

/-- The word at a position of a document, its module path matched against the imports. -/
def word? (w : Workspace) (doc : DocId) (p : Position) : Option Word := do
  let word := Word.ofPosition (← w.document? doc) p
  match w.moduleAt? doc p with
  | some m => return word.withImportsOf m
  | none => return word

/-- The declaration inside another one whose name stands at a position. -/
def declaredAt? (w : Workspace) (doc : DocId) (p : Position) : Option Symbol :=
  (w.moduleAt? doc p).bind fun m => m.nestedSymbols.find? (·.isNamedAt p)

/-- The declaration that a word at a position means. -/
def meaning? (w : Workspace) (doc : DocId) (p : Position) (word : Word) : Option Symbol :=
  (if word.access.isEmpty && word.modules.isEmpty then w.declaredAt? doc p else none) <|>
    (w.viewpoint doc p).resolve? word

/-- The declaration under the cursor. -/
def declaration? (w : Workspace) (doc : DocId) (p : Position) : Option Symbol :=
  (w.word? doc p).bind (w.meaning? doc p)

end Workspace

/-!
## What is shown under the cursor

The declaration in one line, the module that it stands in, and its doc comment.
-/

/-- A text to show and the range that it is about. -/
structure Hover where
  /-- In Markdown. -/
  text : String
  range : Range
deriving DecidableEq, Inhabited

/-- The doc comment of a symbol as it is shown; one without text counts as none. -/
def Symbol.documentation? (s : Symbol) : Option String :=
  (s.declaration.comment?.map DocComment.text).filter (· != "")

/-- A symbol in Markdown. -/
def Symbol.markdown (s : Symbol) : String :=
  "\x60\x60\x60c3\n" ++ s.signature ++ "\n\x60\x60\x60" ++
    (if s.kind == .module then ""
    else "\n\nIn module **[" ++ s.declaration.modulePath.text ++ "]**") ++
    match s.documentation? with
    | some text => "\n\n" ++ text
    | none => ""

/-- What is shown at a position of a document. -/
def Workspace.hover? (w : Workspace) (doc : DocId) (p : Position) : Option Hover := do
  let word ← w.word? doc p
  return ⟨(← w.meaning? doc p word).markdown, word.range⟩

/-!
## Implementations of interfaces

An interface is implemented by the types that list it, and a method of an interface by the
methods of its name that these types have.
-/

/-- Whether a list of interfaces, as written, names an interface: by its name, its qualified
name, or the end of the latter. -/
def Interface.isListedIn (i : Interface) (names : List String) : Bool :=
  names.any fun name =>
    name == i.name || name == i.qualifiedName || i.qualifiedName.endsWith ("::" ++ name)

/-- The types of a module that list an interface. -/
def Module.implementorsOf (m : Module) (i : Interface) : List Symbol :=
  (m.structs.values.filter fun s => i.isListedIn s.interfaces).map .aggregate ++
  (m.bitstructs.values.filter fun b => i.isListedIn b.interfaces).map .bitstruct ++
  (m.enums.values.filter fun e => i.isListedIn e.interfaces).map .enum

namespace Viewpoint

/-- The types that list an interface. -/
def implementorsOf (v : Viewpoint) (i : Interface) : List Symbol :=
  v.workspace.symbols.modules.flatMap (·.implementorsOf i)

/-- The methods of the name that the types have which list an interface, each once. -/
def methodsImplementing (v : Viewpoint) (i : Interface) (name : String) : List Symbol :=
  ((v.implementorsOf i).filterMap fun s =>
    v.method? s.name s.declaration.modulePath name).foldl (fun found m =>
      if found.any (·.isSame m) then found else found ++ [m]) []

/-- The implementations of a symbol. -/
def implementations (v : Viewpoint) : Symbol → List Symbol
  | .interface i => v.implementorsOf i
  | .interfaceMethod f i => v.methodsImplementing i f.name
  | _ => []

end Viewpoint

/-- The implementations of what stands at a position of a document. -/
def Workspace.implementations (w : Workspace) (doc : DocId) (p : Position) : List Symbol :=
  ((w.declaration? doc p).map (w.viewpoint doc p).implementations).getD []

end C3Lens
