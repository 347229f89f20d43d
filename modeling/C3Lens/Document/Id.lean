import C3Lens.Files.Url
import C3Lens.Text.Blank

/-!
# Document ids

A document is known by the URL that the editor gives it. Documents that no editor knows,
such as the standard library, have a plain name instead; so an id is just a text.
-/

namespace C3Lens

/-- The name under which a document is known. -/
structure DocId where
  text : String
deriving DecidableEq, Inhabited, Hashable

namespace DocId

theorem text_inj {a b : DocId} : a.text = b.text ↔ a = b :=
  ⟨fun h => congrArg DocId.mk h, fun h => congrArg DocId.text h⟩

/-- The last segment of the path, without query and fragment. -/
def fileName (id : DocId) : String :=
  let path := id.text.toList.takeWhile fun c => c != '?' && c != '#'
  String.ofList (path.reverse.takeWhile fun c => c != '/' && c != '\\').reverse

/-- Whether the document is the directory `directory` or lies below it. -/
def isUnder (id : DocId) (directory : String) : Bool :=
  let directory := Text.trimRight (· == '/') directory
  id.text == directory ||
    match Text.afterStart? directory id.text with
    | some rest => rest.startsWith "/"
    | none => false

/-- The id of the document in a file: the URL of an absolute path, else the path itself. -/
def ofPath (path : String) : DocId :=
  match Url.ofPath? path with
  | some url => ⟨url.text⟩
  | none => ⟨path⟩

/-- The path of the file that holds the document, if its id names one. -/
def path? (id : DocId) : Option String :=
  (Url.parse? id.text).bind Url.filePath?

end DocId

end C3Lens
