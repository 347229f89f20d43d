import C3Lens.Files.Url.Authority

/-!
# Paths of URLs

A path is read segment by segment. The dot segments, which may be written with percent codes,
mean "here" and "one level up". The path of a file can begin with a drive, a letter and a
colon: no step up leaves it, and a URL with one names no host.
-/

namespace C3Lens.Url

/-- A character of a URL, with whether a tab or a line end in front of it was left out. -/
structure Glyph where
  char : Char
  afterBreak : Bool
deriving DecidableEq, Inhabited

/-- The characters that count: without blanks and controls around and without tabs and line
ends inside. -/
def glyphs (s : String) : List Glyph :=
  let blank := fun c : Char => decide (c.toNat ≤ 0x20)
  let isBreak := fun c : Char => c == '\t' || c == '\n' || c == '\r'
  let cs := ((s.toList.dropWhile blank).reverse.dropWhile blank).reverse
  let step := fun (seen : List Glyph × Bool) (c : Char) =>
    if isBreak c then (seen.1, true) else (⟨c, seen.2⟩ :: seen.1, false)
  (cs.foldl step ([], false)).1.reverse

/-- The characters of glyphs. -/
def chars (gs : List Glyph) : List Char :=
  gs.map Glyph.char

/-! ## Segments -/

/-- Segments that mean "here". -/
def isSingleDot (segment : List Char) : Bool :=
  [".", "%2e"].contains (String.ofList segment).toLower

/-- Segments that mean "one level up". -/
def isDoubleDot (segment : List Char) : Bool :=
  ["..", ".%2e", "%2e.", "%2e%2e"].contains (String.ofList segment).toLower

/-- Whether a text is a letter and a colon or bar. -/
def isDrive : List Char → Bool
  | [letter, mark] => letter.isAlpha && (mark == ':' || mark == '|')
  | _ => false

/-- Whether a text is a letter and a colon. -/
def isPlainDrive (cs : List Char) : Bool :=
  isDrive cs && cs.getLast? == some ':'

/-- A drive with a colon for its mark. -/
def plainDrive (cs : List Char) : List Char :=
  cs.take 1 ++ [':']

/-- The part of a path behind its last slash. -/
def lastSegment (path : List Char) : List Char :=
  (path.reverse.takeWhile (· != '/')).reverse

/-- A path up to its last slash. -/
def upToSlash (path : List Char) : List Char :=
  (path.reverse.dropWhile (· != '/')).reverse

/-- Whether a segment is a drive, or a drive with a backslash behind it. -/
def startsWithDrive (segment : List Char) : Bool :=
  isDrive (segment.take 2) && (segment.drop 2).head?.all (· == '\\')

/-- A path without the slash at its end, which stays if it is the only one or stands behind a
drive. -/
def withoutSlash (path : List Char) : List Char :=
  let shorter := path.dropLast
  if path.getLast? == some '/' && shorter.contains '/' &&
      !startsWithDrive (lastSegment shorter) then shorter
  else path

/-- The path one level above a path that ends with a slash. A drive is not left. -/
def levelUp (path : List Char) : List Char :=
  upToSlash (withoutSlash path)

/-- A path with a slash at its end. -/
def withSlash (path : List Char) : List Char :=
  if path.getLast? == some '/' then path else path ++ ['/']

/-! ## Reading -/

/-- A path on its way. -/
structure Route where
  path : List Char
  /-- Whether the path begins with a drive. -/
  onDrive : Bool
deriving Inhabited

/-- Whether a segment goes on behind a drive from which it is parted by a tab or a line end. -/
def runsOn : List Glyph → Bool
  | letter :: mark :: next :: _ => isPlainDrive [letter.char, mark.char] && next.afterBreak
  | _ => false

/-- Takes the next segment, which a slash may end. -/
def Route.next (isFile : Bool) (r : Route) (segment : List Glyph) (ended : Bool) : Route :=
  let text := percentEncodeChars inPathSet (chars segment)
  let slash := if ended then ['/'] else []
  let leads := isFile && r.path == ['/']
  if leads && runsOn segment then
    { r with path := r.path ++ text.take 2 ++ ['/'] ++ text.drop 2 ++ slash }
  else if isDoubleDot text then
    { r with path := if ended then withSlash (levelUp r.path) else levelUp r.path }
  else if isSingleDot text then { r with path := withSlash r.path }
  else if leads && isDrive text then ⟨r.path ++ plainDrive text ++ slash, true⟩
  else { r with path := r.path ++ text ++ slash }

/-- Reads segments up to the query or the fragment. -/
def Route.read (kind : SchemeKind) (r : Route) (gs : List Glyph) : Route :=
  let inside := fun g : Glyph => !kind.isSlash g.char
  match _h : gs.dropWhile inside with
  | [] => r.next (kind == .file) gs false
  | _ :: rest => (r.next (kind == .file) (gs.takeWhile inside) true).read kind rest
termination_by gs.length
decreasing_by
  have := (List.dropWhile_sublist inside (l := gs)).length_le
  simp only [_h, List.length_cons] at this
  omega

/-- The path of a file, which begins with one slash. -/
def rooted (path : List Char) : List Char :=
  '/' :: path.dropWhile (· == '/')

end C3Lens.Url
