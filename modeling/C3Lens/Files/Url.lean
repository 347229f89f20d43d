import C3Lens.Files.Path
import C3Lens.Files.Url.Route

/-!
# URLs

The documents that an editor shows are named by URLs. `Url.parse?` reads one in the way
that browsers do, and `Url.text` gives its normal form: a lower-case scheme, a path without
dot segments, and percent codes for what must not stand in a URL.
-/

namespace C3Lens

/-- A URL. A path that does not begin with a slash is opaque and kept in one piece. -/
structure Url where
  scheme : String
  /-- The part between `//` and the path, if there is one. -/
  authority? : Option Url.Authority
  path : String
  query? : Option String
  fragment? : Option String
deriving DecidableEq, Inhabited

namespace Url

/-! ## Reading -/

/-- The scheme and what follows its colon. -/
def splitScheme? (gs : List Glyph) : Option (String × List Glyph) :=
  let isPart := fun c : Char => c.isAlphanum || c == '+' || c == '-' || c == '.'
  let name := (chars gs).takeWhile isPart
  match name, gs.drop name.length with
  | first :: _, ⟨':', _⟩ :: rest =>
    if first.isAlpha then some ((String.ofList name).toLower, rest) else none
  | _, _ => none

/-- The part before the query and the fragment, and these. -/
def splitTail (gs : List Glyph) : List Glyph × List Char :=
  let inside := fun g : Glyph => g.char != '?' && g.char != '#'
  (gs.takeWhile inside, chars (gs.dropWhile inside))

/-- What stands between `//` and the query of a URL. -/
abbrev Place := Option Authority × List Char

/-- The place that a path behind the host of a file leads to. A drive is on no host. -/
def ofRoute (host : Host) (route : Route) : Place :=
  (some (.ofHost (if route.onDrive then .empty else host)), rooted route.path)

/-- Reads the path of a file in front of which no slash has been read. -/
def filePath (gs : List Glyph) : Place :=
  ofRoute .empty (Route.read .file ⟨['/'], false⟩ gs)

/-- Reads what follows `file://`. The own machine is no host, and a drive is no host but the
path. -/
def hostAndPath? (gs : List Glyph) : Option Place :=
  let inside := fun g : Glyph => !SchemeKind.file.isSlash g.char
  let hostText := chars (gs.takeWhile inside)
  let behind := gs.dropWhile inside
  if isDrive hostText then some (filePath gs)
  else if hostText.isEmpty then some (filePath behind)
  else do
    let host ← Host.ofDomain? hostText
    if host == .own then return filePath behind
    else return ofRoute host (Route.read .file ⟨['/'], false⟩ (behind.drop 1))

/-- Reads what follows the scheme of a file. -/
def filePlace? : List Glyph → Option Place
  | first :: second :: rest =>
    if SchemeKind.file.isSlash first.char && SchemeKind.file.isSlash second.char then
      hostAndPath? rest
    else if SchemeKind.file.isSlash first.char then some (filePath (second :: rest))
    else some (filePath (first :: second :: rest))
  | [only] => some (filePath (if SchemeKind.file.isSlash only.char then [] else [only]))
  | [] => some (filePath [])

/-- Reads an authority and the path behind it. `tail` is what stands behind the path. -/
def authorityPlace? (scheme : String) (tail : List Char) (gs : List Glyph) : Option Place := do
  let kind := SchemeKind.ofScheme scheme
  let inside := fun g : Glyph => !kind.endsAuthority g.char
  let behind := gs.dropWhile inside
  let followed := !behind.isEmpty || !tail.isEmpty
  let (authority, rest) ← Authority.read? scheme followed (chars (gs.takeWhile inside))
  let path := rest.map (⟨·, false⟩) ++ behind
  let path := if path.head?.any (fun g => kind.isSlash g.char) then path.drop 1 else path
  if kind == .other && rest.isEmpty && behind.isEmpty then return (some authority, [])
  else return (some authority, (Route.read kind ⟨['/'], false⟩ path).path)

/-- Reads what follows the scheme, up to the query. -/
def place? (scheme : String) (tail : List Char) (gs : List Glyph) : Option Place :=
  match SchemeKind.ofScheme scheme, gs with
  | .file, gs => filePlace? gs
  | .web, gs =>
    authorityPlace? scheme tail (gs.dropWhile fun g => SchemeKind.web.isSlash g.char)
  | .other, ⟨'/', _⟩ :: ⟨'/', _⟩ :: rest => authorityPlace? scheme tail rest
  | .other, ⟨'/', _⟩ :: rest => some (none, (Route.read .other ⟨['/'], false⟩ rest).path)
  | .other, gs => some (none, percentEncodeChars isControl (chars gs))

/-- The query and the fragment. -/
def readTail (kind : SchemeKind) (tail : List Char) : Option String × Option String :=
  let query := tail.takeWhile (· != '#')
  let fragment := tail.drop query.length
  let inQuery := if kind == .other then inQuerySet else inWebQuerySet
  let encode := fun inSet (cs : List Char) => String.ofList (percentEncodeChars inSet (cs.drop 1))
  (if query.isEmpty then none else some (encode inQuery query),
    if fragment.isEmpty then none else some (encode inFragmentSet fragment))

/-- Reads a URL. -/
def parse? (s : String) : Option Url := do
  let (scheme, rest) ← splitScheme? (glyphs s)
  let (body, tail) := splitTail rest
  let (authority?, path) ← place? scheme tail body
  let (query?, fragment?) := readTail (.ofScheme scheme) tail
  return ⟨scheme, authority?, String.ofList path, query?, fragment?⟩

/-! ## Writing -/

/-- What is written in front of the path. Without an authority, two slashes at its start must
not look like one. -/
def beforePath (u : Url) : String :=
  match u.authority? with
  | some authority => "//" ++ authority.text
  | none => if u.path.startsWith "//" then "/." else ""

/-- The normal form of a URL. -/
def text (u : Url) : String :=
  u.scheme ++ ":" ++ u.beforePath ++ u.path ++
    (match u.query? with
      | some query => "?" ++ query
      | none => "") ++
    (match u.fragment? with
      | some fragment => "#" ++ fragment
      | none => "")

/-! ## Files -/

/-- A path with a slash behind it if it ends with the letter and the mark of a drive, since it
then names the root folder of the drive. -/
def closeDrive (path : String) : String :=
  match path.toList.reverse with
  | mark :: letter :: _ =>
    if letter.isAlpha && (mark == ':' || mark == '|') then path ++ "/" else path
  | _ => path

/-- Whether a URL names a place on the own machine. -/
def isLocal (u : Url) : Bool :=
  match u.authority? with
  | some authority => authority.host == .empty || authority.host == .own
  | none => true

/-- The path of the file that a URL names. Only a URL without a foreign host and with a path
made of segments names one. -/
def filePath? (u : Url) : Option String :=
  if u.path.startsWith "/" && u.isLocal then
    some (closeDrive ("/".intercalate ((u.path.splitOn "/").map percentDecode)))
  else none

/-- The URL of a file with an absolute path. -/
def ofPath? (path : String) : Option Url :=
  if Path.isAbsolute path then
    some {
      scheme := "file"
      authority? := some (.ofHost .empty)
      path := "/" ++ "/".intercalate ((Path.components path).map (percentEncode inSegmentSet))
      query? := none
      fragment? := none }
  else none

end Url

end C3Lens
