import C3Lens.Proofs.Files.Path
import C3Lens.Proofs.Json.Written
import C3Lens.Proofs.Text.Utf8
import C3Lens.Settings

/-!
# Changes of settings

What a section of a change sets does not depend on the settings it meets: it is read as a patch
(`CompilerPatch.read?`, `CheckPatch.read?`), and the patches are applied one after the other (`change_eq`).

Results:

* `unchanged_iff_of_error`: a change or a settings file that is refused leaves all settings but those of the
  compiler as they are. It leaves these too exactly if the section of the compiler, where it can be read, sets
  nothing new; otherwise it has set them before the section of the checks was refused
  (`compiler_set_by_refused`).
* `change_toJson`: the settings `t`, written as a change and applied to the settings `s`, give those of `t`
  that have a value and those of `s` otherwise. The answer tells whether this differs from `s`, up to the
  spelling of paths, and to apply the change again does nothing. Of every accepted change, what it does not
  name stays.
-/

namespace C3Lens

/-! ## What a section sets -/

/-- What a change sets of the compiler's settings. -/
structure CompilerPatch where
  version? : Option String
  path? : Option String
  libraryPath? : Option String
  arguments? : Option (List String)

/-- What a change sets of the settings of the checks. -/
structure CheckPatch where
  enabled? : Option Bool
  delay? : Option Nat

namespace Settings

/-- Reads a value that may be `null`, which sets nothing. -/
def given? {α : Type} (read : Json → Option α) (j : Json) : Option (Option α) :=
  if j.isNull then some none else (read j).map some

theorem orOld_eq {α : Type} (old : α) (read : Json → Option α) (j : Json) :
    orOld old read j = (given? read j).map fun set? => set?.getD old := by
  rw [orOld, given?]
  split
  · rfl
  · cases read j <;> rfl

theorem orOld_some {α : Type} (old? : Option α) (read : Json → Option α) (j : Json) :
    orOld old? (fun j => (read j).map some) j = (given? read j).map fun set? => set? <|> old? := by
  rw [orOld, given?]
  split
  · rfl
  · cases read j <;> rfl

end Settings

namespace CompilerPatch

open Settings

/-- Reads the section of the compiler. -/
def read? (given : Json) : Option CompilerPatch := do
  match ← fields? ["version", "path", "stdlib-path", "compile-args"] given with
  | [version, path, libraryPath, arguments] =>
    return ⟨← given? Json.string? version, ← given? Json.string? path, ← given? Json.string? libraryPath,
      ← given? texts? arguments⟩
  | _ => none

def applyTo (p : CompilerPatch) (c : CompilerSettings) : CompilerSettings where
  version? := p.version? <|> c.version?
  path? := p.path? <|> c.path?
  libraryPath? := p.libraryPath? <|> c.libraryPath?
  arguments := p.arguments?.getD c.arguments

theorem setCompiler?_eq (c : CompilerSettings) (given : Json) :
    setCompiler? c given = (read? given).map fun p => p.applyTo c := by
  rw [setCompiler?, read?]
  cases fields? ["version", "path", "stdlib-path", "compile-args"] given with
  | none => rfl
  | some values =>
    match values with
    | [version, path, libraryPath, arguments] =>
      simp only [Option.bind_eq_bind, Option.bind_some, orOld_some, orOld_eq c.arguments]
      cases given? Json.string? version <;> cases given? Json.string? path <;>
        cases given? Json.string? libraryPath <;> cases given? texts? arguments <;> rfl
    | [] | [_] | [_, _] | [_, _, _] | _ :: _ :: _ :: _ :: _ :: _ => rfl

end CompilerPatch

namespace CheckPatch

open Settings

/-- Reads the section of the checks. -/
def read? (given : Json) : Option CheckPatch := do
  match ← fields? ["enabled", "delay"] given with
  | [enabled, delay] => return ⟨← given? Json.bool? enabled, ← given? (Json.natUpTo? mostDelay) delay⟩
  | _ => none

def applyTo (p : CheckPatch) (c : CheckSettings) : CheckSettings where
  enabled := p.enabled?.getD c.enabled
  delay := p.delay?.getD c.delay

theorem setChecks?_eq (c : CheckSettings) (given : Json) :
    setChecks? c given = (read? given).map fun p => p.applyTo c := by
  rw [setChecks?, read?]
  cases fields? ["enabled", "delay"] given with
  | none => rfl
  | some values =>
    match values with
    | [enabled, delay] =>
      simp only [Option.bind_eq_bind, Option.bind_some, orOld_eq]
      cases given? Json.bool? enabled <;> cases given? (Json.natUpTo? mostDelay) delay <;> rfl
    | [] | [_] | _ :: _ :: _ :: _ => rfl

end CheckPatch

namespace Settings

variable {s t : Settings} {v : Json}

/-- A section of a change, an empty one where there is none. -/
def sectionOf (name : String) (v : Json) : Json :=
  (section? name v).getD (.object [])

/-- What a change comes to: each section is applied if it and the one before can be read. -/
theorem change_eq (s : Settings) (v : Json) : s.change v =
    match CompilerPatch.read? (sectionOf "c3" v), CheckPatch.read? (sectionOf "diagnostics" v) with
    | none, _ => (s, .error .malformed)
    | some p, none => ({ s with compiler := p.applyTo s.compiler }, .error .malformed)
    | some p, some q =>
      let t := setRest { s with compiler := p.applyTo s.compiler, checks := q.applyTo s.checks } v
      (t, .ok (!same s t)) := by
  rw [change, ← sectionOf, ← sectionOf, CompilerPatch.setCompiler?_eq]
  cases CompilerPatch.read? (sectionOf "c3" v) with
  | none => rfl
  | some p =>
    simp only [Option.map_some, CheckPatch.setChecks?_eq]
    cases CheckPatch.read? (sectionOf "diagnostics" v) <;> rfl

/-! ## Refused changes -/

/-- What a change `v` that is refused leaves of the settings `s`: all settings but the compiler's are as they
were, and these are too exactly if the section of the compiler is malformed or sets nothing new. -/
structure LeftBy (v : Json) (s t : Settings) : Prop where
  others : t = { s with compiler := t.compiler }
  eq_iff : t = s ↔ ∀ p, CompilerPatch.read? (sectionOf "c3" v) = some p → p.applyTo s.compiler = s.compiler

theorem leftBy_of_change_eq_error {e : SettingsError} (h : s.change v = (t, .error e)) : LeftBy v s t := by
  rw [change_eq] at h
  cases compiler : CompilerPatch.read? (sectionOf "c3" v) with
  | none =>
    rw [compiler] at h
    cases h
    exact ⟨rfl, by simp [compiler]⟩
  | some p =>
    rw [compiler] at h
    cases checks : CheckPatch.read? (sectionOf "diagnostics" v) with
    | none =>
      rw [checks] at h
      cases h
      refine ⟨rfl, ?_⟩
      rw [compiler]
      constructor
      · rintro same _ ⟨⟩
        exact congrArg Settings.compiler same
      · intro nothing
        rw [nothing p rfl]
    | some q =>
      rw [checks] at h
      cases h

/-- Neither a change nor a settings file that is refused touches any settings but the compiler's, and the
compiler's only where the section of the compiler can be read and sets something new. A file that cannot be
read or that is no JSON touches nothing. -/
theorem unchanged_iff_of_error (s : Settings) :
    (∀ v t e, s.change v = (t, .error e) → LeftBy v s t) ∧
      ∀ files root t e, s.load files root = (t, .error e) →
        (t = s ∧ ∀ text v, files.text (Path.join root fileName) = .ok text → Json.parse? text ≠ some v) ∨
          ∃ text v, files.text (Path.join root fileName) = .ok text ∧ Json.parse? text = some v ∧
            LeftBy v s t := by
  refine ⟨fun v t e => leftBy_of_change_eq_error, fun files root t e h => ?_⟩
  rw [load] at h
  cases read : files.text (Path.join root fileName) with
  | error cause =>
    have same : t = s := by
      rw [read] at h
      cases cause <;> cases h <;> rfl
    exact .inl ⟨same, fun text v eq => nomatch eq⟩
  | ok text =>
    rw [read] at h
    dsimp only at h
    cases parsed : Json.parse? text with
    | none =>
      rw [parsed] at h
      cases h
      refine .inl ⟨rfl, ?_⟩
      rintro _ v ⟨⟩ some
      rw [parsed] at some
      cases some
    | some v =>
      rw [parsed] at h
      dsimp only at h
      cases changed : s.change v with
      | mk r result =>
        rw [changed] at h
        cases result with
        | ok b => cases h
        | error cause =>
          cases h
          exact .inr ⟨text, v, rfl, parsed, leftBy_of_change_eq_error changed⟩

/-- A version beside a delay that is no number. -/
def halfRead : Json :=
  .object [("c3", .object [("version", .string "0.6.8")]), ("diagnostics", .object [("delay", .string "soon")])]

theorem unchanged_of_same_version :
    ({ compiler := { version? := some "0.6.8" } } : Settings).change halfRead =
        ({ compiler := { version? := some "0.6.8" } }, .error .malformed) ∧
      LeftBy halfRead { compiler := { version? := some "0.6.8" } } { compiler := { version? := some "0.6.8" } } := by
  have refused : ({ compiler := { version? := some "0.6.8" } } : Settings).change halfRead =
      ({ compiler := { version? := some "0.6.8" } }, .error .malformed) := by decide
  exact ⟨refused, (unchanged_iff_of_error _).1 halfRead _ _ refused⟩

/-- A workspace with nothing but its settings file. -/
def settingsFile (text : String) : FileTree :=
  ⟨.folder [(fileName, .file (Utf8.encode text))]⟩

theorem text_settingsFile (text : String) : (settingsFile text).text (Path.join "/" fileName) = .ok text := by
  have parts : FileTree.partsOf (Path.join "/" fileName) = .ok ["", fileName] := by
    rw [Path.join_root (by decide), FileTree.partsOf, Path.parts_eq]
    decide
  have bytes : (settingsFile text).bytes (Path.join "/" fileName) = .ok (Utf8.encode text) := by
    rw [FileTree.bytes, FileTree.node, FileTree.names, parts]
    rfl
  rw [FileTree.text, bytes]
  dsimp only [Bind.bind, Except.bind]
  rw [Utf8.decode?_encode]
  rfl

/-- A change that is refused for the delay has set the version, and so has the settings file. -/
theorem compiler_set_by_refused :
    ({} : Settings).change halfRead = ({ compiler := { version? := some "0.6.8" } }, .error .malformed) ∧
      ({} : Settings).load (settingsFile halfRead.print) "/" =
        ({ compiler := { version? := some "0.6.8" } }, .error .malformed) := by
  have refused : ({} : Settings).change halfRead =
      ({ compiler := { version? := some "0.6.8" } }, .error .malformed) := by decide
  have taken : Json.Guide.Takes .everything () halfRead :=
    ⟨⟨(), rfl, ⟨⟨(), rfl, trivial⟩, trivial⟩⟩, ⟨⟨(), rfl, ⟨⟨(), rfl, trivial⟩, trivial⟩⟩, trivial⟩⟩
  have parsed : Json.parse? halfRead.print = some halfRead := by
    rw [Json.parse?, Json.parseBy?_print taken]
    rfl
  refine ⟨refused, ?_⟩
  rw [load, text_settingsFile]
  dsimp only
  rw [parsed]
  dsimp only
  rw [refused]

/-! ## Equal settings -/

/-- Two paths that are missing, or that name the same path. -/
def PathsAlike : Option String → Option String → Prop :=
  Option.Rel fun a b => Path.isAbsolute a = Path.isAbsolute b ∧ Path.components a = Path.components b

theorem samePath_iff {a b : Option String} : samePath a b = true ↔ PathsAlike a b := by
  cases a <;> cases b <;> simp [samePath, PathsAlike, Path.same_iff_components]

/-- Settings that do not differ, up to the spelling of paths. -/
structure Alike (s t : Settings) : Prop where
  version : s.compiler.version? = t.compiler.version?
  path : PathsAlike s.compiler.path? t.compiler.path?
  libraryPath : PathsAlike s.compiler.libraryPath? t.compiler.libraryPath?
  arguments : s.compiler.arguments = t.compiler.arguments
  checks : s.checks = t.checks
  logPath : PathsAlike s.logPath? t.logPath?
  debug : s.debug = t.debug

theorem same_iff : same s t = true ↔ Alike s t := by
  simp only [same, Bool.and_eq_true, beq_iff_eq, samePath_iff]
  constructor
  · rintro ⟨⟨⟨⟨⟨⟨version, path⟩, libraryPath⟩, arguments⟩, checks⟩, logPath⟩, debug⟩
    exact ⟨version, path, libraryPath, arguments, checks, logPath, debug⟩
  · rintro ⟨version, path, libraryPath, arguments, checks, logPath, debug⟩
    exact ⟨⟨⟨⟨⟨⟨version, path⟩, libraryPath⟩, arguments⟩, checks⟩, logPath⟩, debug⟩

theorem PathsAlike.refl (a : Option String) : PathsAlike a a := by
  cases a with
  | none => exact .none
  | some path => exact .some ⟨rfl, rfl⟩

theorem Alike.refl (s : Settings) : Alike s s :=
  ⟨rfl, .refl _, .refl _, rfl, rfl, .refl _, rfl⟩

/-! ## Settings as a change -/

/-- The settings of `t` that have a value, and those of `s` otherwise. -/
def merge (s t : Settings) : Settings where
  compiler := {
    version? := t.compiler.version? <|> s.compiler.version?
    path? := t.compiler.path? <|> s.compiler.path?
    libraryPath? := t.compiler.libraryPath? <|> s.compiler.libraryPath?
    arguments := t.compiler.arguments }
  checks := t.checks
  logPath? := t.logPath? <|> s.logPath?
  debug := t.debug

theorem merge_merge (s t : Settings) : (s.merge t).merge t = s.merge t := by
  have twice (a b : Option String) : (a <|> (a <|> b)) = (a <|> b) := by
    cases a <;> rfl
  simp only [merge, twice]

theorem texts?_list (ts : List String) : texts? (.list .string ts) = some ts := by
  show (ts.map Json.string).mapM Json.string? = some ts
  induction ts with
  | nil => rfl
  | cons t ts ih =>
    rw [List.map_cons, List.mapM_cons, ih]
    rfl

theorem given?_orNull (a : Option String) : given? Json.string? (.orNull .string a) = some a := by
  cases a <;> rfl

theorem compilerPatch_toJson (t : Settings) : CompilerPatch.read? (sectionOf "c3" t.toJson) =
    some ⟨t.compiler.version?, t.compiler.path?, t.compiler.libraryPath?, some t.compiler.arguments⟩ := by
  have fields : fields? ["version", "path", "stdlib-path", "compile-args"] (sectionOf "c3" t.toJson) =
      some [.orNull .string t.compiler.version?, .orNull .string t.compiler.path?,
        .orNull .string t.compiler.libraryPath?, .list .string t.compiler.arguments] := by
    simp [sectionOf, section?, toJson, Json.get?, fields?]
  have arguments : given? texts? (.list .string t.compiler.arguments) = some (some t.compiler.arguments) := by
    rw [given?, texts?_list]
    rfl
  rw [CompilerPatch.read?, fields]
  simp only [Option.bind_eq_bind, Option.bind_some, given?_orNull, arguments]
  rfl

theorem checkPatch_toJson (t : Settings) (delay : t.checks.delay ≤ mostDelay) :
    CheckPatch.read? (sectionOf "diagnostics" t.toJson) = some ⟨some t.checks.enabled, some t.checks.delay⟩ := by
  have fields : fields? ["enabled", "delay"] (sectionOf "diagnostics" t.toJson) =
      some [.bool t.checks.enabled, .nat t.checks.delay] := by
    simp [sectionOf, section?, toJson, Json.get?, fields?]
  have number : given? (Json.natUpTo? mostDelay) (.nat t.checks.delay) = some (some t.checks.delay) := by
    simp [given?, Json.nat, Json.isNull, Json.natUpTo?, delay]
  rw [CheckPatch.read?, fields]
  simp only [Option.bind_eq_bind, Option.bind_some, number]
  rfl

theorem setRest_toJson (s t : Settings) :
    setRest s t.toJson = { s with logPath? := t.logPath? <|> s.logPath?, debug := t.debug } := by
  have logPath : (section? "log-path" t.toJson).bind Json.string? = t.logPath? := by
    cases h : t.logPath? <;> simp [section?, toJson, Json.get?, Json.orNull, Json.string?, h]
  have debug : (section? "debug" t.toJson).bind Json.bool? = some t.debug := by
    simp [section?, toJson, Json.get?, Json.bool?]
  rw [setRest, logPath, debug]
  rfl

theorem change_toJson_eq (s t : Settings) (delay : t.checks.delay ≤ mostDelay) :
    s.change t.toJson = (s.merge t, .ok (!same s (s.merge t))) := by
  rw [change_eq, compilerPatch_toJson, checkPatch_toJson t delay]
  dsimp only
  rw [setRest_toJson]
  rfl

/-- The answer to an accepted change is whether the settings differ now. -/
theorem changed_iff {r : Settings} {changed : Bool} (h : s.change v = (r, .ok changed)) :
    changed = true ↔ ¬Alike s r := by
  rw [change_eq] at h
  split at h
  · cases h
  · cases h
  · cases h
    rw [← same_iff, Bool.not_eq_true', Bool.not_eq_true]

/-- The text of settings is read back. -/
theorem parse?_print_toJson (t : Settings) (delay : t.checks.delay ≤ mostDelay) :
    Json.parse? t.toJson.print = some t.toJson := by
  have text (a : Option String) : Json.Guide.Takes .everything () (.orNull .string a) := by
    cases a <;> trivial
  have texts : ∀ (ts : List String) (place : Nat), Json.Guide.TakesItems .everything () place (ts.map .string) := by
    intro ts
    induction ts with
    | nil => exact fun _ => trivial
    | cons t ts ih => exact fun place => ⟨trivial, ih (place + 1)⟩
  have number : Json.Guide.Takes .everything () (.nat t.checks.delay) :=
    ⟨Int.natCast_nonneg _, Int.ofNat_le.2 delay⟩
  have taken : Json.Guide.Takes .everything () t.toJson :=
    ⟨⟨(), rfl, ⟨(), rfl, text _⟩, ⟨(), rfl, text _⟩, ⟨(), rfl, text _⟩, ⟨(), rfl, texts _ 0⟩, trivial⟩,
      ⟨(), rfl, ⟨(), rfl, trivial⟩, ⟨(), rfl, number⟩, trivial⟩, ⟨(), rfl, text _⟩, ⟨(), rfl, trivial⟩, trivial⟩
  have levels : Json.levels t.toJson < Json.nestingLimit := by
    have flat (a : Option String) : Json.levels (.orNull .string a) = 0 := by
      cases a <;> rfl
    have items : Json.levelsOfItems (t.compiler.arguments.map .string) ≤ 0 :=
      Json.levelsOfItems_le_iff.2 (List.forall_mem_map.2 fun _ _ => Nat.le_refl 0)
    simp only [toJson, Json.list, Json.nat, Json.levels, Json.levelsOfMembers, flat, Json.nestingLimit]
    omega
  rw [Json.parse?, Json.parseBy?_print taken, if_pos levels]

/-! ## What a change does not name -/

/-- Whether a section says something about the field that stands at a place among its fields. -/
def Mentions (place : Nat) (field : String) : Json → Prop
  | .object members => ∃ m ∈ members, m.1 = field
  | .array items => place < items.length
  | _ => False

/-- Whether a change with the given members names a setting: the field of the name, at a place among the
fields of a section, whose name may be written in large and small letters. -/
def Names (members : List (String × Json)) (name : String) (place : Nat) (field : String) : Prop :=
  ∃ m ∈ members, sameLetters name m.1 = true ∧ Mentions place field m.2

/-- What a change does not name is the same in `s` and in `r`. -/
structure KeepsUnnamed (members : List (String × Json)) (s r : Settings) : Prop where
  version : ¬Names members "c3" 0 "version" → r.compiler.version? = s.compiler.version?
  path : ¬Names members "c3" 1 "path" → r.compiler.path? = s.compiler.path?
  libraryPath : ¬Names members "c3" 2 "stdlib-path" → r.compiler.libraryPath? = s.compiler.libraryPath?
  arguments : ¬Names members "c3" 3 "compile-args" → r.compiler.arguments = s.compiler.arguments
  enabled : ¬Names members "diagnostics" 0 "enabled" → r.checks.enabled = s.checks.enabled
  delay : ¬Names members "diagnostics" 1 "delay" → r.checks.delay = s.checks.delay
  logPath : (∀ m ∈ members, sameLetters "log-path" m.1 = false) → r.logPath? = s.logPath?
  debug : (∀ m ∈ members, sameLetters "debug" m.1 = false) → r.debug = s.debug

theorem sameLetters_refl (name : String) : sameLetters name name = true :=
  beq_self_eq_true _

theorem exists_of_get? {members : List (String × Json)} {name : String} {j : Json}
    (h : Json.get? name (.object members) = some j) : ∃ m ∈ members, m.1 = name ∧ m.2 = j := by
  obtain ⟨m, found, rfl⟩ := Option.map_eq_some_iff.1 h
  have same := List.find?_some found
  rw [beq_iff_eq] at same
  exact ⟨m, List.mem_reverse.1 (List.mem_of_find?_eq_some found), same, rfl⟩

theorem mem_of_least? {names : List String} {name : String} (h : least? names = some name) : name ∈ names := by
  induction names generalizing name with
  | nil => cases h
  | cons first names ih =>
    rw [least?] at h
    cases rest : least? names with
    | none =>
      rw [rest] at h
      cases h
      exact List.mem_cons_self
    | some other =>
      rw [rest] at h
      dsimp only at h
      split at h
      · cases h
        exact List.mem_cons_of_mem _ (ih rest)
      · cases h
        exact List.mem_cons_self

/-- A section that is found stands under the name, in large or small letters. -/
theorem exists_of_section? {members : List (String × Json)} {name : String} {j : Json}
    (h : section? name (.object members) = some j) : ∃ m ∈ members, sameLetters name m.1 = true ∧ m.2 = j := by
  rw [section?] at h
  cases exact : Json.get? name (.object members) with
  | some found =>
    rw [exact] at h
    cases h
    obtain ⟨m, hm, rfl, value⟩ := exists_of_get? exact
    exact ⟨m, hm, sameLetters_refl _, value⟩
  | none =>
    rw [exact] at h
    change (least? ((members.map Prod.fst).filter (sameLetters name))).bind
      (fun key => Json.get? key (.object members)) = some j at h
    obtain ⟨key, least, found⟩ := Option.bind_eq_some_iff.1 h
    obtain ⟨m, hm, rfl, value⟩ := exists_of_get? found
    exact ⟨m, hm, (List.mem_filter.1 (mem_of_least? least)).2, value⟩

theorem not_mentions_sectionOf {members : List (String × Json)} {name field : String} {place : Nat}
    (h : ¬Names members name place field) : ¬Mentions place field (sectionOf name (.object members)) := by
  rw [sectionOf]
  cases found : section? name (.object members) with
  | none => exact fun ⟨m, hm, _⟩ => nomatch hm
  | some j =>
    obtain ⟨m, hm, same, rfl⟩ := exists_of_section? found
    exact fun mentioned => h ⟨m, hm, same, mentioned⟩

theorem section?_eq_none {members : List (String × Json)} {name : String}
    (h : ∀ m ∈ members, sameLetters name m.1 = false) : section? name (.object members) = none := by
  by_contra some
  obtain ⟨j, found⟩ := Option.ne_none_iff_exists'.1 some
  obtain ⟨m, hm, same, -⟩ := exists_of_section? found
  rw [h m hm] at same
  cases same

/-- The value of a field that a section does not mention is `null`. -/
theorem fields?_of_not_mentions {names : List String} {given : Json} {values : List Json}
    (h : fields? names given = some values) {place : Nat} {field : String} (name : names[place]? = some field)
    (unnamed : ¬Mentions place field given) : values[place]? = some .null := by
  cases given with
  | array items =>
    rw [fields?, Option.ite_none_right_eq_some] at h
    obtain ⟨-, ⟨⟩⟩ := h
    have beyond : items.length ≤ place := Nat.le_of_not_lt unnamed
    have within : place < names.length := (List.getElem?_eq_some_iff.1 name).1
    rw [List.getElem?_append_right beyond, List.getElem?_replicate, if_pos (by omega)]
  | object members =>
    cases h
    have missing : Json.get? field (.object members) = none := by
      by_contra some
      obtain ⟨j, found⟩ := Option.ne_none_iff_exists'.1 some
      obtain ⟨m, hm, same, -⟩ := exists_of_get? found
      exact unnamed ⟨m, hm, same⟩
    rw [List.getElem?_map, name, Option.map_some, missing]
    rfl
  | _ => cases h

/-- A field that a section does not mention is not set. -/
theorem unset_of_not_mentions {α : Type} {names : List String} {given : Json} {values : List Json}
    (h : fields? names given = some values) {place : Nat} {field : String} (name : names[place]? = some field)
    {j : Json} (value : values[place]? = some j) {read : Json → Option α} {set? : Option α}
    (isSet : given? read j = some set?) (unnamed : ¬Mentions place field given) : set? = none := by
  rw [fields?_of_not_mentions h name unnamed] at value
  cases value
  cases isSet
  rfl

/-- What a change sets of the compiler's settings leaves those that it does not name. -/
theorem compiler_of_not_names {members : List (String × Json)} {p : CompilerPatch}
    (h : CompilerPatch.read? (sectionOf "c3" (.object members)) = some p) :
    (¬Names members "c3" 0 "version" → p.version? = none) ∧ (¬Names members "c3" 1 "path" → p.path? = none) ∧
      (¬Names members "c3" 2 "stdlib-path" → p.libraryPath? = none) ∧
      (¬Names members "c3" 3 "compile-args" → p.arguments? = none) := by
  rw [CompilerPatch.read?, Option.bind_eq_bind, Option.bind_eq_some_iff] at h
  obtain ⟨values, fields, h⟩ := h
  match values, fields, h with
  | [version, path, libraryPath, arguments], fields, h =>
    simp only [Option.bind_eq_bind, Option.bind_eq_some_iff] at h
    obtain ⟨version?, setsVersion, path?, setsPath, libraryPath?, setsLibraryPath, arguments?, setsArguments, h⟩ := h
    cases h
    exact ⟨fun unnamed => unset_of_not_mentions fields rfl rfl setsVersion (not_mentions_sectionOf unnamed),
      fun unnamed => unset_of_not_mentions fields rfl rfl setsPath (not_mentions_sectionOf unnamed),
      fun unnamed => unset_of_not_mentions fields rfl rfl setsLibraryPath (not_mentions_sectionOf unnamed),
      fun unnamed => unset_of_not_mentions fields rfl rfl setsArguments (not_mentions_sectionOf unnamed)⟩

theorem checks_of_not_names {members : List (String × Json)} {p : CheckPatch}
    (h : CheckPatch.read? (sectionOf "diagnostics" (.object members)) = some p) :
    (¬Names members "diagnostics" 0 "enabled" → p.enabled? = none) ∧
      (¬Names members "diagnostics" 1 "delay" → p.delay? = none) := by
  rw [CheckPatch.read?, Option.bind_eq_bind, Option.bind_eq_some_iff] at h
  obtain ⟨values, fields, h⟩ := h
  match values, fields, h with
  | [enabled, delay], fields, h =>
    simp only [Option.bind_eq_bind, Option.bind_eq_some_iff] at h
    obtain ⟨enabled?, setsEnabled, delay?, setsDelay, h⟩ := h
    cases h
    exact ⟨fun unnamed => unset_of_not_mentions fields rfl rfl setsEnabled (not_mentions_sectionOf unnamed),
      fun unnamed => unset_of_not_mentions fields rfl rfl setsDelay (not_mentions_sectionOf unnamed)⟩

/-- What an accepted change does not name stays. -/
theorem keepsUnnamed_of_change {members : List (String × Json)} {r : Settings} {changed : Bool}
    (h : s.change (.object members) = (r, .ok changed)) : KeepsUnnamed members s r := by
  rw [change_eq] at h
  cases compiler : CompilerPatch.read? (sectionOf "c3" (.object members)) with
  | none =>
    rw [compiler] at h
    cases h
  | some p =>
    rw [compiler] at h
    cases checks : CheckPatch.read? (sectionOf "diagnostics" (.object members)) with
    | none =>
      rw [checks] at h
      cases h
    | some q =>
      rw [checks] at h
      cases h
      obtain ⟨version, path, libraryPath, arguments⟩ := compiler_of_not_names compiler
      obtain ⟨enabled, delay⟩ := checks_of_not_names checks
      refine ⟨fun unnamed => ?_, fun unnamed => ?_, fun unnamed => ?_, fun unnamed => ?_, fun unnamed => ?_,
        fun unnamed => ?_, fun unnamed => ?_, fun unnamed => ?_⟩
      · simp [setRest, CompilerPatch.applyTo, version unnamed]
      · simp [setRest, CompilerPatch.applyTo, path unnamed]
      · simp [setRest, CompilerPatch.applyTo, libraryPath unnamed]
      · simp [setRest, CompilerPatch.applyTo, arguments unnamed]
      · simp [setRest, CheckPatch.applyTo, enabled unnamed]
      · simp [setRest, CheckPatch.applyTo, delay unnamed]
      · simp [setRest, section?_eq_none unnamed]
      · simp [setRest, section?_eq_none unnamed]

/-- Settings that are written as a change and applied to others are merged into them. To apply the change again
does nothing, and the answer tells whether the settings differ now. So it does for every accepted change, and
what that does not name stays. -/
theorem change_toJson (s t : Settings) (delay : t.checks.delay ≤ mostDelay) :
    Json.parse? t.toJson.print = some t.toJson ∧
      (∃ changed, s.change t.toJson = (s.merge t, .ok changed) ∧ (changed = true ↔ ¬Alike s (s.merge t))) ∧
      (s.merge t).change t.toJson = (s.merge t, .ok false) ∧
      ∀ members r changed, s.change (.object members) = (r, .ok changed) →
        (changed = true ↔ ¬Alike s r) ∧ KeepsUnnamed members s r := by
  have first := change_toJson_eq s t delay
  have again := change_toJson_eq (s.merge t) t delay
  rw [merge_merge, same_iff.2 (.refl _)] at again
  exact ⟨parse?_print_toJson t delay, ⟨_, first, changed_iff first⟩, again,
    fun members r changed accepted => ⟨changed_iff accepted, keepsUnnamed_of_change accepted⟩⟩

/-- Settings before a change. -/
def older : Settings :=
  { compiler := { version? := some "0.6.8", path? := some "/opt//c3c" }, logPath? := some "/tmp/c3.log" }

/-- Settings that are written as a change. -/
def newer : Settings :=
  { compiler := { path? := some "/opt/c3c", arguments := ["--trust=full"] }, checks := ⟨false, 500⟩ }

/-- Settings after the change. -/
def newest : Settings :=
  { compiler := { version? := some "0.6.8", path? := some "/opt/c3c", arguments := ["--trust=full"] },
    checks := ⟨false, 500⟩, logPath? := some "/tmp/c3.log" }

theorem change_toJson_newer :
    newer.checks.delay ≤ mostDelay ∧ Json.parse? newer.toJson.print = some newer.toJson ∧
      (∃ changed, older.change newer.toJson = (newest, .ok changed) ∧ (changed = true ↔ ¬Alike older newest)) ∧
      newest.change newer.toJson = (newest, .ok false) ∧
      ∀ members r changed, older.change (.object members) = (r, .ok changed) →
        (changed = true ↔ ¬Alike older r) ∧ KeepsUnnamed members older r := by
  have delay : newer.checks.delay ≤ mostDelay := by decide
  have merged : older.merge newer = newest := rfl
  rw [← merged]
  exact ⟨delay, change_toJson older newer delay⟩

end Settings

end C3Lens
