import C3Lens.Files.Url.Host

/-!
# Authorities

What stands between the two slashes and the path of a URL: a user with a password, a host and
a port. Only the host has to be there.
-/

namespace C3Lens.Url

/-- The kinds of schemes: those of the web, which know domain names and backslashes, that of
files, which knows them too, and all others. -/
inductive SchemeKind where
  | web
  | file
  | other
deriving DecidableEq, Inhabited

/-- The schemes of the web, with their usual ports. -/
def webSchemes : List (String × Nat) :=
  [("http", 80), ("https", 443), ("ws", 80), ("wss", 443), ("ftp", 21)]

namespace SchemeKind

/-- The kind of a scheme. -/
def ofScheme (scheme : String) : SchemeKind :=
  if scheme == "file" then .file
  else if (webSchemes.lookup scheme).isSome then .web
  else .other

/-- Whether a character parts the segments of a path. -/
def isSlash (kind : SchemeKind) (c : Char) : Bool :=
  c == '/' || (c == '\\' && kind != .other)

/-- Whether a character ends the authority. -/
def endsAuthority (kind : SchemeKind) (c : Char) : Bool :=
  kind.isSlash c || c == '?' || c == '#'

end SchemeKind

/-- The authority of a URL. -/
structure Authority where
  user : String
  password : String
  host : Host
  /-- The port, unless it is the usual one. -/
  port? : Option Nat
deriving DecidableEq, Inhabited

namespace Authority

/-- The authority of a URL without user and port. -/
def ofHost (host : Host) : Authority :=
  ⟨"", "", host, none⟩

/-- The written form of an authority. -/
def text (a : Authority) : String :=
  let password := if a.password == "" then "" else ":" ++ a.password
  let user := a.user ++ password
  (if user == "" then "" else user ++ "@") ++ a.host.text ++
    (match a.port? with
      | some port => ":" ++ toString port
      | none => "")

/-- What stands before the last `mark` and behind it. -/
def splitLast? (mark : Char) (cs : List Char) : Option (List Char × List Char) :=
  match cs.reverse.dropWhile (· != mark) with
  | [] => none
  | _ :: before => some (before.reverse, (cs.reverse.takeWhile (· != mark)).reverse)

/-- The name and the password of a user; the first colon stands between them. -/
def credentials (cs : List Char) : String × String :=
  let encode := fun part => String.ofList (percentEncodeChars inUserSet part)
  (encode (cs.takeWhile (· != ':')), encode ((cs.dropWhile (· != ':')).drop 1))

/-- The number of characters in front of the first colon outside brackets. -/
def hostLength (inBrackets : Bool) : List Char → Nat
  | [] => 0
  | c :: rest =>
    if c == ':' && !inBrackets then 0
    else hostLength (c == '[' || (inBrackets && c != ']')) rest + 1

/-- Reads what follows the host: nothing, or a colon and a port. A backslash ends the port;
it belongs to the path. -/
def readPort? (scheme : String) : List Char → Option (Option Nat × List Char)
  | ':' :: cs => do
    let digits := cs.takeWhile Char.isDigit
    let rest := cs.drop digits.length
    let port ← Host.numberIn? 10 digits
    if port > 65535 || rest.head?.any (· != '\\') then none
    else
      let usual := digits.isEmpty || webSchemes.lookup scheme == some port
      return (if usual then none else some port, rest)
  | cs => some (none, cs)

/-- Reads the authority in the text up to the path, with what belongs to the path already.
`followed` tells whether anything stands behind the text. -/
def read? (scheme : String) (followed : Bool) (cs : List Char) :
    Option (Authority × List Char) := do
  let kind := SchemeKind.ofScheme scheme
  let (user?, cs) := match splitLast? '@' cs with
    | some (user, rest) => (some user, rest)
    | none => (none, cs)
  if user? == some [] && cs.isEmpty && followed then none
  else
    let (user, password) := credentials (user?.getD [])
    let hostText := cs.take (hostLength false cs)
    let rest := cs.drop hostText.length
    let host ← if kind == .other then Host.ofOpaque? hostText else Host.ofDomain? hostText
    if hostText.isEmpty && (rest.head? == some ':' || user != "" || password != "") then none
    else
      let (port?, rest) ← readPort? scheme rest
      return (⟨user, password, host, port?⟩, rest)

end Authority

end C3Lens.Url
