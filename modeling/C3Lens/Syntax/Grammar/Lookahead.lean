import C3Lens.Syntax.Grammar.Reader
import C3Lens.Syntax.Kind

/-!
# Looking ahead

Pure functions on the tokens to come. A function that recognises a construct gives the
tokens behind it. Bracket groups are measured by depth alone: any opening bracket goes one
level down and any closing bracket one level up.
-/

namespace C3Lens.Lookahead

/-- The depth after a token at depth `depth`. -/
def deeper (depth : Nat) (kind : TokenKind) : Nat :=
  if kind.isOpener then depth + 1 else if kind.isCloser then depth - 1 else depth

/-- The tokens behind the bracket group that is open to depth `depth`; none if the text
ends inside it. -/
def afterGroup? (depth : Nat) : List Lexeme → Option (List Lexeme)
  | [] => none
  | l :: ls =>
    if deeper depth l.kind = 0 then some ls else afterGroup? (deeper depth l.kind) ls

/-- The tokens behind a leading module path with its last `::`. -/
def afterPath : List Lexeme → List Lexeme
  | a :: b :: ls =>
    if a.kind = .ident ∧ b.kind = .colonColon then afterPath ls else a :: b :: ls
  | ls => ls

/-- The tokens behind the pointer, optional and array marks of a type; `depth` is the depth
of the open array brackets. -/
def afterSuffixes? (depth : Nat) : List Lexeme → Option (List Lexeme)
  | [] => if depth = 0 then some [] else none
  | l :: ls =>
    if depth = 0 then
      match l.kind with
      | .star | .question | .bang => afterSuffixes? 0 ls
      | .leftBracket => afterSuffixes? 1 ls
      | _ => some (l :: ls)
    else afterSuffixes? (deeper depth l.kind) ls

/-- Whether a token spells the name of a user-defined type. -/
def isUserType (l : Lexeme) : Bool :=
  l.kind == .ident && isTypeName l.text

/-- Whether a token can be the name in a type. -/
def isTypeHead (l : Lexeme) : Bool :=
  match l.kind with
  | .ident => isTypeName l.text || isBuiltinType l.text
  | .faultKw => true
  | .ctIdent => isTypeName (String.ofList (l.text.toList.dropWhile (· == '$')))
  | _ => false

/-- The tokens behind the generic arguments of a type whose name is `head`, if there are
arguments; none if their brackets do not close. -/
def afterArguments? (head : Lexeme) (ls : List Lexeme) : Option (List Lexeme) :=
  match ls.head?.map Lexeme.kind with
  | some .leftGeneric => afterGroup? 0 ls
  | some .leftBrace => if isUserType head then afterGroup? 0 ls else some ls
  | _ => some ls

/-- The tokens behind a type, if the tokens look like a type at all. -/
def afterType? (ls : List Lexeme) : Option (List Lexeme) :=
  match afterPath ls with
  | [] => none
  | head :: rest =>
    if isTypeHead head then (afterArguments? head rest).bind (afterSuffixes? 0) else none

/-- The kind of the first token. -/
def headKind? (ls : List Lexeme) : Option TokenKind :=
  ls.head?.map Lexeme.kind

/-- Whether the first token is in the class. -/
def headIs (p : TokenKind → Bool) (ls : List Lexeme) : Bool :=
  ((headKind? ls).map p).getD false

/-- The words in front of a declaration inside a body. -/
def isLocalModifier : TokenKind → Bool
  | .constKw | .staticKw | .tlocalKw => true
  | _ => false

/-- Whether the tokens begin the declaration of a local variable. -/
def atLocalVariable (ls : List Lexeme) : Bool :=
  let rest := ls.dropWhile (fun l => isLocalModifier l.kind)
  match rest with
  | [] => false
  | l :: tail =>
    if l.kind = .varKw then headIs TokenKind.isVariableName tail
    else if rest.length < ls.length && l.kind = .ident && headKind? tail = some .equal then true
    else
      match afterType? rest with
      | none => false
      | some behind =>
        headIs TokenKind.isVariableName behind &&
          headIs (fun kind => kind matches
            .equal | .semicolon | .comma | .atIdent | .colon | .rightParen) behind.tail

/-- Whether the tokens begin with the type of a method's receiver and its dot. -/
def atReceiver (ls : List Lexeme) : Bool :=
  match afterPath ls with
  | a :: b :: _ => a.kind = .ident && b.kind = .dot
  | _ => false

/-- Whether the tokens begin with a type that a variable name follows. -/
def atTypedName (ls : List Lexeme) : Bool :=
  ((afterType? ls).map (headIs TokenKind.isVariableName)).getD false

/-- Compile-time words that stand alone between declarations and statements. -/
def directives : List String := [
  "$if", "$elif", "$else", "$endif", "$switch", "$case", "$default", "$endswitch", "$for",
  "$endfor", "$foreach", "$endforeach", "$assert", "$include", "$exec", "$echo", "$error"]

/-- Whether the tokens begin with a compile-time directive. -/
def atDirective : List Lexeme → Bool
  | l :: _ => l.kind == .ctIdent && directives.contains l.text
  | [] => false

end C3Lens.Lookahead
