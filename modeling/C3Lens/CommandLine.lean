/-!
# The command line

The program takes two options with a value and two flags, each at most once, and no other
arguments. A value stands in the argument after its option, or in the same argument behind an
equals sign. What follows an option does not count as its value if it looks like an option
itself; a single dash does not. An option is settled, with its value checked, when the next
known option begins or the arguments end, so what makes no sense at all is told first.
-/

namespace C3Lens

/-- What the user asks for on the command line. -/
structure CommandLine where
  /-- The version of the language, instead of the one in the settings. -/
  version? : Option String := none
  /-- The file that takes the log. -/
  logPath? : Option String := none
  debug : Bool := false
  sendCrashReports : Bool := false
deriving DecidableEq, Inhabited

namespace CommandLine

/-- Options with a value. -/
inductive ValueOption where
  | version | logPath
deriving DecidableEq, Inhabited

/-- Options without a value. -/
inductive Flag where
  | debug | sendCrashReports | help | version
deriving DecidableEq, Inhabited

/-- An option that the program knows. -/
inductive KnownOption where
  | value (option : ValueOption)
  | flag (flag : Flag)
deriving DecidableEq, Inhabited

/-- Why the program does not go on with its work. -/
inductive Stop where
  /-- The user wants to read how the program is used. -/
  | help
  /-- The user wants to read the version of the program. -/
  | version
  /-- An argument that the program does not know. -/
  | unknownArgument (argument : String)
  /-- An option without a value, or with one that it does not take. -/
  | badValue (name : String)
  /-- An option that is given twice. -/
  | repeated (name : String)
  /-- A value for a flag. -/
  | needlessValue (name value : String)
deriving DecidableEq, Inhabited

/-! ## Names of options -/

/-- The name of an option with a value. -/
def ValueOption.name : ValueOption → String
  | .version => "--lang-version"
  | .logPath => "--log-path"

/-- The name of a flag. -/
def Flag.name : Flag → String
  | .debug => "--debug"
  | .sendCrashReports => "--send-crash-reports"
  | .help => "--help"
  | .version => "--version"

/-- The option of a long name, without its dashes. -/
def KnownOption.ofLong? : String → Option KnownOption
  | "lang-version" => some (.value .version)
  | "log-path" => some (.value .logPath)
  | "debug" => some (.flag .debug)
  | "send-crash-reports" => some (.flag .sendCrashReports)
  | "help" => some (.flag .help)
  | "version" => some (.flag .version)
  | _ => none

/-- The flag of a letter. -/
def Flag.ofLetter? : Char → Option Flag
  | 'h' => some .help
  | 'V' => some .version
  | _ => none

/-! ## Arguments -/

/-- The form of an argument. -/
inductive Argument where
  /-- Two dashes alone. -/
  | separator
  | long (name : String) (value? : Option String)
  /-- A dash with letters, of which the first counts. -/
  | letters (first : Char)
  | plain
deriving DecidableEq, Inhabited

/-- The form of an argument. -/
def Argument.ofString (argument : String) : Argument :=
  match argument.toList with
  | ['-', '-'] => .separator
  | '-' :: '-' :: cs =>
    let name := cs.takeWhile (· != '=')
    .long (String.ofList name)
      (if name.length < cs.length then some (String.ofList (cs.drop (name.length + 1))) else none)
  | '-' :: c :: _ => .letters c
  | _ => .plain

/-! ## Taking arguments -/

/-- The options taken so far. -/
structure Progress where
  taken : CommandLine := {}
  /-- The last option, with its value if that was given, while it is not settled. -/
  open? : Option (ValueOption × Option String) := none
deriving Inhabited

namespace Progress

/-- Sets an option to a value. -/
def setValue (p : Progress) (option : ValueOption) (value : String) : Except Stop Progress :=
  match option with
  | .version =>
    if p.taken.version?.isSome then .error (.repeated option.name)
    else .ok ⟨{ p.taken with version? := some value }, none⟩
  | .logPath =>
    if p.taken.logPath?.isSome then .error (.repeated option.name)
    else if value == "" then .error (.badValue option.name)
    else .ok ⟨{ p.taken with logPath? := some value }, none⟩

/-- Settles the last option. -/
def settle (p : Progress) : Except Stop Progress :=
  match p.open? with
  | none => .ok p
  | some (option, none) => .error (.badValue option.name)
  | some (option, some value) => p.setValue option value

/-- Sets a flag. -/
def setFlag (p : Progress) : Flag → Except Stop Progress
  | .help => .error .help
  | .version => .error .version
  | .debug =>
    if p.taken.debug then .error (.repeated Flag.debug.name)
    else .ok { p with taken := { p.taken with debug := true } }
  | .sendCrashReports =>
    if p.taken.sendCrashReports then .error (.repeated Flag.sendCrashReports.name)
    else .ok { p with taken := { p.taken with sendCrashReports := true } }

/-- Takes an argument that looks like no option: the value that the last option waits for. -/
def takePlain (p : Progress) (argument : String) : Except Stop Progress :=
  match p.open? with
  | some (option, none) => .ok { p with open? := some (option, some argument) }
  | _ => .error (.unknownArgument argument)

/-- Takes an option with the value behind its equals sign. -/
def takeOption (p : Progress) (option : KnownOption) (value? : Option String) :
    Except Stop Progress :=
  match option, value? with
  | .flag flag, some value => .error (.needlessValue flag.name value)
  | .flag flag, none => do (← p.settle).setFlag flag
  | .value option, some value => do (← p.settle).setValue option value
  | .value option, none => do return { (← p.settle) with open? := some (option, none) }

/-- Takes an argument in front of any separator. -/
def take (p : Progress) (argument : String) : Except Stop Progress :=
  match Argument.ofString argument with
  | .long name value? =>
    match KnownOption.ofLong? name with
    | some option => p.takeOption option value?
    | none => .error (.unknownArgument ("--" ++ name))
  | .letters c =>
    match Flag.ofLetter? c with
    | some flag => p.takeOption (.flag flag) none
    | none => .error (.unknownArgument (String.ofList ['-', c]))
  | .separator | .plain => p.takePlain argument

end Progress

/-- Takes arguments one by one. Nothing may stand behind a separator. -/
def takeAll (p : Progress) : List String → Except Stop CommandLine
  | [] => p.settle.map (·.taken)
  | argument :: arguments =>
    if Argument.ofString argument = .separator then
      match arguments with
      | [] => p.settle.map (·.taken)
      | next :: _ => .error (.unknownArgument next)
    else
      match p.take argument with
      | .ok p => takeAll p arguments
      | .error e => .error e

/-- Reads the arguments of the program. -/
def parse (arguments : List String) : Except Stop CommandLine :=
  takeAll {} arguments

/-! ## Texts -/

/-- The name of the program. -/
def programName : String := "c3-lsp"

/-- The version of the program. -/
def programVersion : String := "0.4.0"

/-- How the program is used. -/
def usage : String :=
  "Usage: " ++ programName ++ " [OPTIONS]"

/-- What the program does and which options it has. -/
def helpText : String :=
  "Language server for the C3 programming language, speaking LSP over stdio\n\n" ++ usage ++
  "\n\nOptions:\n" ++
  "      --lang-version <LANG_VERSION>  Load the stdlib of this language version\n" ++
  "      --log-path <LOG_PATH>          Write logs to this file instead of stderr\n" ++
  "      --debug                        Log at debug level\n" ++
  "      --send-crash-reports           Send crash reports\n" ++
  "  -h, --help                         Print help\n" ++
  "  -V, --version                      Print version\n"

namespace Stop

/-- Whether the arguments were wrong. -/
def isError : Stop → Bool
  | .help | .version => false
  | _ => true

/-- What is wrong with the arguments. -/
def complaint? : Stop → Option String
  | .help | .version => none
  | .unknownArgument argument => some ("unexpected argument '" ++ argument ++ "' found")
  | .badValue name => some ("a value is required for '" ++ name ++ "' but none was supplied")
  | .repeated name => some ("the argument '" ++ name ++ "' cannot be used multiple times")
  | .needlessValue name value =>
    some ("unexpected value '" ++ value ++ "' for '" ++ name ++ "' found; no more were expected")

/-- What is printed. -/
def message : Stop → String
  | .help => helpText
  | .version => programName ++ " " ++ programVersion ++ "\n"
  | stop =>
    "error: " ++ stop.complaint?.getD "" ++ "\n\n" ++ usage ++
      "\n\nFor more information, try '--help'.\n"

end Stop

end CommandLine

end C3Lens
