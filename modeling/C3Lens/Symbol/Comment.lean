import C3Lens.Text.Blank

/-!
# Doc comments

A doc comment holds a text and then contracts: every line that begins with `@` opens a
contract, and the lines after it continue that contract.
-/

namespace C3Lens

/-- A contract such as `@require x > 0`. -/
structure Contract where
  /-- The name with its `@`. -/
  name : String
  body : String
deriving DecidableEq, Inhabited

namespace Contract

/-- Opens a contract from a line that begins with `@`. -/
def ofLine (line : String) : Contract :=
  let cs := line.toList
  let name := cs.takeWhile fun c => !Text.isSpace c
  ⟨String.ofList name, Text.trim (String.ofList (cs.drop (name.length + 1)))⟩

/-- Continues a contract with a further line. -/
def extend (c : Contract) (line : String) : Contract :=
  if line == "" then c
  else if c.body == "" then { c with body := line }
  else { c with body := c.body ++ " " ++ line }

/-- A contract as a paragraph, its name in bold. -/
def text (c : Contract) : String :=
  "**" ++ c.name ++ "**" ++ (if c.body == "" then "" else " " ++ c.body)

end Contract

/-- The text and the contracts of a doc comment. -/
structure DocComment where
  body : String
  contracts : List Contract
deriving DecidableEq, Inhabited

namespace DocComment

/-- Removes `a b` at the start as often as it is there. -/
def dropPairs (a b : Char) : List Char → List Char
  | x :: y :: s => if x = a ∧ y = b then dropPairs a b s else x :: y :: s
  | s => s

/-- What stands between the marks of a comment. -/
def inner (raw : String) : List Char :=
  let text := dropPairs '<' '*' (Text.trim raw).toList
  (dropPairs '>' '*' text.reverse).reverse

/-- A line without the blanks around it and a star in front. -/
def bare (line : String) : String :=
  let line := Text.trim line
  match Text.afterStart? "*" line with
  | some rest => Text.trimLeft Text.isSpace rest
  | none => line

/-- Reads lines. `contract?` is the contract that is open, if one is. The result is the
lines of the text and the contracts. -/
def readLines (contract? : Option Contract) : List String → List String × List Contract
  | [] => ([], contract?.toList)
  | line :: rest =>
    if line.startsWith "@" then
      let (body, contracts) := readLines (some (Contract.ofLine line)) rest
      (body, contract?.toList ++ contracts)
    else
      match contract? with
      | some contract => readLines (some (contract.extend line)) rest
      | none =>
        let (body, contracts) := readLines none rest
        (line :: body, contracts)

/-- Drops empty lines at both ends. -/
def dropEmptyEnds (lines : List String) : List String :=
  ((lines.dropWhile (· == "")).reverse.dropWhile (· == "")).reverse

/-- Reads a comment with its marks. -/
def parse (raw : String) : DocComment :=
  let (body, contracts) := readLines none ((Text.lines [] (inner raw)).map bare)
  ⟨"\n".intercalate (dropEmptyEnds body), contracts⟩

/-- The text, and a paragraph for each contract. -/
def text (d : DocComment) : String :=
  "\n\n".intercalate ((if d.body == "" then [] else [d.body]) ++ d.contracts.map Contract.text)

end DocComment

end C3Lens
