import C3Lens.Syntax.Grammar.Declarations

/-!
# Parsing

`Parse.ofString` reads a source text into one tree that holds all its tokens, and the list
of syntax errors in the order in which they were noticed.
-/

namespace C3Lens

/-- The syntax tree of a text and the errors found in it. -/
structure Parse where
  tree : Tree
  errors : List SyntaxError
deriving Inhabited

namespace Parse

/-- Reads the tokens of a text. -/
def ofTokens (ts : List Token) : Parse :=
  let r := Grammar.sourceFile.after (.ofTokens ts)
  ⟨r.tree?.getD (.node .sourceFile []), r.errors.reverse⟩

/-- Reads a text. It never fails; what is no declaration becomes an error node. -/
def ofString (s : String) : Parse :=
  ofTokens (Token.ofString s)

/-- The whole tree as a place. -/
def root (p : Parse) : Place :=
  ⟨0, p.tree⟩

end Parse

end C3Lens
