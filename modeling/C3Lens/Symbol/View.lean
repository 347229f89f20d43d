import C3Lens.Symbol.Module

/-!
# Symbols of all kinds

A `Symbol` is any declared thing together with its kind. An enumerator comes with its enum,
whose associated values it has as fields, and a method of an interface with the interface.
-/

namespace C3Lens

/-- The kinds of symbols. -/
inductive SymbolKind where
  | module | variable | function | struct | union | bitstruct | enum | enumerator | fault
  | faultConstant | alias | distinct | interface | member
deriving DecidableEq, Inhabited

namespace SymbolKind

/-- The kind as it is shown. -/
def label : SymbolKind → String
  | .module => "Module"
  | .variable => "Variable"
  | .function => "Function"
  | .struct => "Struct"
  | .union => "Union"
  | .bitstruct => "Bitstruct"
  | .enum => "Enum"
  | .enumerator => "Enumerator"
  | .fault => "Fault"
  | .faultConstant => "Fault Constant"
  | .alias => "Def"
  | .distinct => "Distinct"
  | .interface => "Interface"
  | .member => "Member"

end SymbolKind

/-- A symbol of any kind. -/
inductive Symbol where
  | module (m : Module)
  | variable (v : Variable)
  | function (f : Function)
  | interfaceMethod (f : Function) (owner : Interface)
  | aggregate (s : Struct)
  | bitstruct (b : Bitstruct)
  | enum (e : Enum)
  | enumerator (e : Enumerator) (owner : Enum)
  | fault (f : Fault)
  | faultConstant (c : FaultConstant)
  | alias (a : Alias)
  | distinct (d : Distinct)
  | interface (i : Interface)
  | member (m : Member)
deriving Inhabited

namespace Symbol

/-- What all kinds have in common. -/
def declaration : Symbol → Declaration
  | .module m => m.toDeclaration
  | .variable v => v.toDeclaration
  | .function f | .interfaceMethod f _ => f.toDeclaration
  | .aggregate s => s.toDeclaration
  | .bitstruct b => b.toDeclaration
  | .enum e => e.toDeclaration
  | .enumerator e _ => e.toDeclaration
  | .fault f => f.toDeclaration
  | .faultConstant c => c.toDeclaration
  | .alias a => a.toDeclaration
  | .distinct d => d.toDeclaration
  | .interface i => i.toDeclaration
  | .member m => m.toDeclaration

/-- The kind of a symbol. -/
def kind : Symbol → SymbolKind
  | .module _ => .module
  | .variable _ => .variable
  | .function _ | .interfaceMethod _ _ => .function
  | .aggregate s => if s.isUnion then .union else .struct
  | .bitstruct _ => .bitstruct
  | .enum _ => .enum
  | .enumerator _ _ => .enumerator
  | .fault _ => .fault
  | .faultConstant _ => .faultConstant
  | .alias _ => .alias
  | .distinct _ => .distinct
  | .interface _ => .interface
  | .member _ => .member

/-- The name. -/
def name (s : Symbol) : String :=
  s.declaration.name

/-- The document that declares the symbol. -/
def doc (s : Symbol) : DocId :=
  s.declaration.doc

/-- Where the name stands. -/
def nameRange (s : Symbol) : Range :=
  s.declaration.nameRange

/-- The type that a member or enumerator belongs to; empty for all other symbols. -/
def owner : Symbol → String
  | .member m => m.owner
  | .enumerator _ e => e.name
  | _ => ""

/-- The fully qualified name: path and name, for members and enumerators with the type in
between, for modules the path alone. -/
def qualifiedName (s : Symbol) : String :=
  match s with
  | .module m => m.modulePath.text
  | s =>
    if s.owner == "" then s.declaration.qualifiedName
    else s.declaration.modulePath.qualify (s.owner ++ "." ++ s.name)

/-- The type that a variable or member has or a function returns. -/
def type? : Symbol → Option TypeRef
  | .variable v => some v.type
  | .function f | .interfaceMethod f _ => some f.returns
  | .member m => some m.type
  | _ => none

/-- Whether the symbol names a type, not a value. -/
def isType : Symbol → Bool
  | .aggregate _ | .bitstruct _ | .enum _ | .fault _ | .distinct _ | .interface _ => true
  | .alias a => a.type?.isSome
  | _ => false

/-- Whether the symbol is an alias. -/
def isAlias : Symbol → Bool
  | .alias _ => true
  | _ => false

/-- Whether two symbols are the same declaration. -/
def isSame (s t : Symbol) : Bool :=
  s.kind == t.kind && s.name == t.name && s.doc == t.doc && s.nameRange == t.nameRange

/-- The declaration in one line. -/
def signature : Symbol → String
  | .variable v => v.signature
  | .function f | .interfaceMethod f _ => f.signature
  | .member m => m.signature
  | .alias a => a.signature
  | .distinct d => d.signature
  | .enumerator e _ => e.signature
  | s => s.name

/-- What stands beside the name in a list of completions. -/
def detail : Symbol → String
  | .variable v => v.type.text
  | .member m => m.type.text
  | .function f | .interfaceMethod f _ => f.signature
  | .aggregate _ | .alias _ | .distinct _ | .bitstruct _ => "Type"
  | .enumerator _ e => e.name ++ " value"
  | .interface _ => "Interface"
  | s => s.kind.label

end Symbol

namespace Module

/-- The declaration of the name: the first kind in this order that has one. -/
def child? (m : Module) (name : String) : Option Symbol :=
  (m.globals.get? name).map .variable <|>
  (m.enums.get? name).map .enum <|>
  (m.faults.get? name).map .fault <|>
  (m.structs.get? name).map .aggregate <|>
  (m.bitstructs.get? name).map .bitstruct <|>
  (m.aliases.get? name).map .alias <|>
  (m.distincts.get? name).map .distinct <|>
  (m.interfaces.get? name).map .interface <|>
  (m.faultConstants.get? name).map .faultConstant <|>
  (m.function? name).map .function

/-- Whether the module declares the name. -/
def declares (m : Module) (name : String) : Bool :=
  (m.child? name).isSome

/-- All declarations, kind after kind. -/
def children (m : Module) : List Symbol :=
  m.globals.values.map .variable ++ m.enums.values.map .enum ++ m.faults.values.map .fault ++
  m.faultConstants.values.map .faultConstant ++ m.structs.values.map .aggregate ++
  m.bitstructs.values.map .bitstruct ++ m.aliases.values.map .alias ++
  m.distincts.values.map .distinct ++ m.interfaces.values.map .interface ++
  m.functions.map .function

/-- Whether the module declares nothing. -/
def isEmpty (m : Module) : Bool :=
  m.children.isEmpty

end Module

end C3Lens
