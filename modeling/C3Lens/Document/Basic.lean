import C3Lens.Document.Id
import C3Lens.Syntax.Parse
import C3Lens.Text.Line

/-!
# Documents

A document is a source text with its syntax tree and its lines. Tree and lines are derived
from the text whenever it changes, so they always describe the current text.
-/

namespace C3Lens

/-- A source text as the server sees it. -/
structure Document where
  id : DocId
  text : String
  version : Int
  parse : Parse
  lines : LineTable
  /-- Whether the editor has the document open, so that its text, not the file's, counts. -/
  ownedByEditor : Bool
deriving Inhabited

namespace Document

/-- A document with the given text. -/
def ofText (id : DocId) (text : String) (version : Int) : Document :=
  ⟨id, text, version, Parse.ofString text, LineTable.ofString text, false⟩

/-- Replaces the text. -/
def setText (d : Document) (text : String) (version : Int) : Document :=
  { ofText d.id text version with ownedByEditor := d.ownedByEditor }

/-- Applies edits in order. -/
def applyEdits (d : Document) (edits : List Edit) (version : Int) : Document :=
  d.setText (Edit.applyAll edits d.text) version

/-- The byte offset of a position, moved into the text. -/
def offset (d : Document) (p : Position) : Nat :=
  d.lines.offset p

/-- The position of a byte offset, moved into the text. -/
def position (d : Document) (offset : Nat) : Position :=
  d.lines.position offset

end Document

end C3Lens
