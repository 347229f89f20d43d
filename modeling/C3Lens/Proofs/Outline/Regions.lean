import C3Lens.Proofs.Outline.Children
import C3Lens.Proofs.Outline.Moved
import C3Lens.Proofs.Text.Boundary

/-!
# The regions of modules

A module declaration opens a module, whose region goes on to the next one. The module at a position is found by
the ranges of the modules, of which there is one for each name. The range is set where a declaration is put into
the module, and once more at the end of the text; so a region that is opened again replaces the one before it,
unless it stays empty.

Around an import or a declaration of the top level three things are known of the ranges. What was read in front
of it ends in front of it (`Passed`), what is opened behind it begins behind it, and the region that it stands in
reaches from its beginning behind it if no later one of the same name replaces it (`Leads`). From these it
follows which module is found inside of it (`moduleAt?_outline_iff`).
-/

namespace C3Lens

/-! ## The parts of the top level -/

namespace Place

/-- The name of the module that a module declaration opens; without a path it opens none. -/
def opened? (p : Place) : Option String :=
  match p.tree.nodeKind?, p.child? .modulePath with
  | some .moduleDecl, some q =>
    let path := ModulePath.parse q.tree.compactText
    if path.isEmpty then none else some path.text
  | _, _ => none

/-- Whether the part is read inside a module, the one named for the file if none is open. -/
def isInside (p : Place) : Bool :=
  match p.tree.nodeKind? with
  | none | some .error | some .moduleDecl => false
  | some _ => true

/-- Whether the part is an import or a declaration inside a module, behind which the region reaches. -/
def isItem (p : Place) : Bool :=
  p.tree.nodeKind?.any fun kind => kind ∈ .importDecl :: OutlineState.declaringKinds

theorem isInside_of_isItem {p : Place} (item : p.isItem = true) : p.isInside = true := by
  rw [isItem] at item
  rw [isInside]
  cases same : p.tree.nodeKind? with
  | none =>
    rw [same] at item
    cases item
  | some kind =>
    rw [same, Option.any_some] at item
    cases kind <;> first | rfl | exact absurd item (by decide)

theorem opened?_of_isInside {p : Place} (inside : p.isInside = true) : p.opened? = none := by
  rw [isInside] at inside
  rw [opened?]
  split
  next same _ => rw [same] at inside; cases inside
  next => rfl

end Place

/-- The names of the modules that are opened, in order. That named for the file is among them if something in
front of the first module declaration stands inside a module. -/
def openedIn (file : String) : List Place → List String
  | [] => []
  | p :: parts =>
    match p.opened? with
    | some name => name :: parts.filterMap Place.opened?
    | none => if p.isInside then file :: parts.filterMap Place.opened? else openedIn file parts

/-- The name of the module in force behind the parts: that of the last module declaration, else that named
for the file. -/
def nameInForce (file : String) (parts : List Place) : String :=
  (parts.filterMap Place.opened?).getLast?.getD file

/-- Whether a region that goes on with the parts is recorded for its module: there is an item before the
next module declaration, or none of these is left. -/
def isRecorded : List Place → Bool
  | [] => true
  | p :: parts => p.isItem || p.opened?.isNone && isRecorded parts

/-- Whether a region of the module is opened and recorded. -/
def isReopened (name : String) : List Place → Bool
  | [] => false
  | p :: parts => p.opened? == some name && isRecorded parts || isReopened name parts

section

variable {file : String} {parts : List Place}

theorem filterMap_of_openedIn_eq_nil (h : openedIn file parts = []) : parts.filterMap Place.opened? = [] := by
  induction parts with
  | nil => rfl
  | cons p parts ih =>
    rw [openedIn] at h
    split at h
    · cases h
    next none =>
      split at h
      · cases h
      · rw [List.filterMap_cons_none none]
        exact ih h

/-- Without module declarations there is no other module than that named for the file. -/
theorem openedIn_of_filterMap_eq_nil (h : parts.filterMap Place.opened? = []) :
    openedIn file parts = [] ∨ openedIn file parts = [file] := by
  induction parts with
  | nil => exact .inl rfl
  | cons p parts ih =>
    rw [openedIn]
    cases found : p.opened? with
    | some name =>
      rw [List.filterMap_cons_some found] at h
      cases h
    | none =>
      rw [List.filterMap_cons_none found] at h
      dsimp only
      rw [h]
      split
      · exact .inr rfl
      · exact ih h

theorem openedIn_concat (p : Place) :
    openedIn file (parts ++ [p]) =
      if openedIn file parts = [] ∧ p.opened? = none then if p.isInside then [file] else []
      else openedIn file parts ++ p.opened?.toList := by
  induction parts with
  | nil =>
    rw [List.nil_append, openedIn, openedIn]
    cases p.opened? with
    | some name => rfl
    | none => rfl
  | cons q parts ih =>
    have tail : (parts ++ [p]).filterMap Place.opened? = parts.filterMap Place.opened? ++ p.opened?.toList := by
      rw [List.filterMap_append]
      cases found : p.opened? <;> simp [found]
    have some : ∀ (first : String) (rest : List String), ¬(first :: rest = [] ∧ p.opened? = none) :=
      fun first rest empty => List.cons_ne_nil first rest empty.1
    rw [List.cons_append, openedIn, openedIn, tail]
    cases q.opened? with
    | some name => exact (if_neg (some _ _)).symm
    | none =>
      dsimp only
      split
      · exact (if_neg (some _ _)).symm
      · exact ih

theorem nameInForce_concat (p : Place) :
    nameInForce file (parts ++ [p]) = p.opened?.getD (nameInForce file parts) := by
  rw [nameInForce, List.filterMap_append]
  cases found : p.opened? <;> simp [found, nameInForce]

theorem mem_of_isReopened {name : String} (h : isReopened name parts = true) :
    name ∈ parts.filterMap Place.opened? := by
  induction parts with
  | nil => cases h
  | cons p parts ih =>
    rw [isReopened, Bool.or_eq_true, Bool.and_eq_true, beq_iff_eq] at h
    rcases h with ⟨here, -⟩ | later
    · rw [List.filterMap_cons_some here]
      exact List.mem_cons_self
    · exact List.filterMap_append (l := [p]) ▸ List.mem_append_right _ (ih later)

theorem nameInForce_mem (h : openedIn file parts ≠ []) : nameInForce file parts ∈ openedIn file parts := by
  induction parts with
  | nil => exact absurd rfl h
  | cons p parts ih =>
    have last : ∀ first : String, (parts.filterMap Place.opened?).getLast?.getD first ∈
        first :: parts.filterMap Place.opened? := by
      intro first
      cases latest : (parts.filterMap Place.opened?).getLast? with
      | none => exact List.mem_cons_self
      | some name => exact List.mem_cons_of_mem _ (List.mem_of_getLast? latest)
    rw [openedIn] at h ⊢
    rw [nameInForce]
    cases found : p.opened? with
    | some name =>
      rw [List.filterMap_cons_some found, List.getLast?_cons]
      exact last name
    | none =>
      rw [found] at h
      rw [List.filterMap_cons_none found]
      dsimp only at h ⊢
      split
      · exact last file
      next outside =>
        rw [if_neg outside] at h
        exact ih h

end

/-! ## Ranges of modules -/

/-- The range of the module of the name. -/
def SourceUnit.range? (u : SourceUnit) (name : String) : Option Range :=
  (u.module? name).map (·.range)

section

variable {u : SourceUnit}

/-- What is registered without declarations has its range only where no module has the name. -/
theorem SourceUnit.range?_register {m : Module} (nothing : ∀ k : Module, k.merge m = k) (name : String) :
    (u.register m).range? name = if name = m.name then some ((u.range? name).getD m.range) else u.range? name := by
  rw [range?, range?, module?, module?, register]
  by_cases same : name = m.name
  · subst same
    rw [if_pos rfl]
    cases known : u.modules.get? m.name with
    | none => exact congrArg (Option.map _) (Table.get?_insert_self _ _ _)
    | some k =>
      dsimp only
      rw [nothing, Table.get?_insert_self]
      rfl
  · rw [if_neg same]
    cases known : u.modules.get? m.name with
    | none => exact congrArg (Option.map _) ((Table.get?_insert _ _ _ _).trans (if_neg same))
    | some k => exact congrArg (Option.map _) ((Table.get?_insert _ _ _ _).trans (if_neg same))

end

/-- The function is built from the part in the scope. -/
def Function.IsReadFrom (g : Function) (scope : Scope) (p : Place) : Prop :=
  ∃ comment? pending, g = ((Outline.functionOf p comment?).result scope pending).1

namespace OutlineState

variable {s : OutlineState}

theorem range?_extendRegion (stop : Nat) (name : String) :
    (s.extendRegion stop).unit.range? name =
      if name = s.scope.moduleName then
        (s.unit.range? name).map fun _ => ⟨s.regionStart, s.scope.lines.position stop⟩
      else s.unit.range? name := by
  have found : (s.extendRegion stop).unit.module? name = _ := Table.get?_modify _ _ _ _
  rw [SourceUnit.range?, found, SourceUnit.range?]
  split
  · rw [Option.map_map, Option.map_map]
    rfl
  · rfl

theorem range?_modifyModule {f : Module → Module} (kept : ∀ m, (f m).range = m.range) (name : String) :
    (s.modifyModule f).unit.range? name = s.unit.range? name := by
  have found : (s.modifyModule f).unit.module? name = _ := Table.get?_modify _ _ _ _
  rw [SourceUnit.range?, found, SourceUnit.range?]
  split
  · rw [Option.map_map, Function.comp_def]
    simp only [kept]
    rfl
  · rfl

/-- The four ways in which a part of the top level changes the state. -/
inductive Reads (s : OutlineState) (p : Place) : OutlineState → Prop
  /-- Nothing is read. -/
  | nothing (opened : p.opened? = none) (inside : p.isInside = false) : Reads s p s
  /-- A module is opened. -/
  | opens {m : Module} {scope : Scope} (opened : p.opened? = some m.name)
      (bare : ∀ k : Module, k.merge m = k) (functions : m.functions = []) (range : m.range = s.scope.range p)
      (name : scope.moduleName = m.name) (lines : scope.lines = s.scope.lines) :
      Reads s p ⟨scope, s.unit.register m, s.pending, true, (s.scope.range p).start⟩
  /-- Something is put into the open module, and its region reaches behind it. -/
  | item {f : Module → Module} {pending : Pending} {function? : Option Function} (item : p.isItem = true)
      (name : ∀ m, (f m).name = m.name) (range : ∀ m, (f m).range = m.range)
      (functions : ∀ m, (f m).functions = m.functions ++ function?.toList)
      (read : ∀ g ∈ function?, g.IsReadFrom s.scope p) :
      Reads s p (({ s.openModule with pending := pending }.modifyModule f).extendRegion p.stop)
  /-- No more happens than that a module is open. -/
  | inside (inside : p.isInside = true) (item : p.isItem = false) : Reads s p s.openModule

/-- Declarations other than functions add none. -/
theorem Declares.functions_add {α : Type} {kind : NodeKind} {builder : Place → Option DocComment → Outline α}
    {add : α → Module → Module} {symbols : α → List Symbol} (h : Declares kind builder add symbols)
    (scope : Scope) (p : Place) (comment? : Option DocComment) :
    Outline.Gives scope (builder p comment?) fun a => ∃ function? : Option Function,
      (∀ m, (add a m).functions = m.functions ++ function?.toList) ∧ ∀ g ∈ function?, g.IsReadFrom scope p := by
  cases h with
  | function =>
    intro pending
    refine ⟨some _, fun _ => rfl, fun g hg => ?_⟩
    cases hg
    exact ⟨comment?, pending, rfl⟩
  | _ => exact fun _ => ⟨none, fun m => (List.append_nil m.functions).symm, fun g hg => nomatch hg⟩

theorem reads_declareModule (s : OutlineState) {p : Place} (kind : p.tree.nodeKind? = some .moduleDecl)
    (comment? : Option DocComment) : s.Reads p (s.declareModule p comment?) := by
  have outside : p.isInside = false := by
    rw [Place.isInside, kind]
  rw [declareModule]
  cases found : p.child? .modulePath with
  | none =>
    refine .nothing ?_ outside
    rw [Place.opened?, kind, found]
  | some q =>
    dsimp only
    have opened : p.opened? = if (ModulePath.parse q.tree.compactText).isEmpty then none
        else some (ModulePath.parse q.tree.compactText).text := by
      rw [Place.opened?, kind, found]
    split
    next empty => exact .nothing (opened.trans (if_pos empty)) outside
    next path =>
      exact .opens (opened.trans (if_neg path)) (fun k => k.merge_ofPath _ _ _ _ _ _ _ _) rfl rfl rfl rfl

theorem reads_declare (s : OutlineState) {kind : NodeKind} {p : Place} (same : p.tree.nodeKind? = some kind)
    (inside : p.isInside = true) (other : kind ≠ .importDecl) (comment? : Option DocComment) :
    s.Reads p (s.openModule.declare kind p comment?) := by
  have item : p.isItem = decide (kind ∈ declaringKinds) := by
    rw [Place.isItem, same, Option.any_some, decide_eq_decide, List.mem_cons]
    exact or_iff_right other
  by_cases declares : kind ∈ declaringKinds
  · obtain ⟨_, builder, add, _, reads, read⟩ := s.openModule.exists_declares declares p comment?
    obtain ⟨function?, functions, built⟩ := reads.functions_add s.openModule.scope p comment? s.openModule.pending
    rw [scope_openModule] at built
    rw [read, build_eq]
    exact @Reads.item s p _ _ function? (item.trans (decide_eq_true declares))
      (fun m => congrArg Declaration.name (reads.toDeclaration_add _ m))
      (fun m => congrArg Declaration.range (reads.toDeclaration_add _ m)) functions built
  · rw [declare_of_notMem _ declares]
    exact .inside inside (item.trans (decide_eq_false declares))

theorem reads_step (s : OutlineState) (previous : List Tree) (p : Place) : s.Reads p (s.step previous p) := by
  have closed : p.tree.nodeKind? ≠ some .moduleDecl → p.opened? = none := by
    intro other
    rw [Place.opened?]
    split
    next same _ => exact absurd same other
    next => rfl
  unfold step
  split
  next token => exact .nothing (closed (by rw [token]; nofun)) (by rw [Place.isInside, token])
  next error => exact .nothing (closed (by rw [error]; nofun)) (by rw [Place.isInside, error])
  next kind => exact s.reads_declareModule kind _
  next kind =>
    have added : ∀ m : Module, ∃ imports, m.addImports (importsOf p) = { m with imports := imports } :=
      fun m => m.addImports_eq (importsOf p)
    refine @Reads.item s p (·.addImports (importsOf p)) s.openModule.pending none ?_ ?_ ?_ ?_ nofun
    · rw [Place.isItem, kind]
      rfl
    · exact fun m => m.name_addImports _
    · intro m
      obtain ⟨imports, same⟩ := added m
      rw [same]
    · intro m
      obtain ⟨imports, same⟩ := added m
      rw [same]
      exact (List.append_nil _).symm
  next kind notError notModule notImport same =>
    refine s.reads_declare same ?_ notImport _
    rw [Place.isInside, same]
    split
    next none => cases none
    next found => exact absurd (Option.some.inj found) notError
    next found => exact absurd (Option.some.inj found) notModule
    next => rfl

/-! ## What was read up to an offset -/

/-- The state behind the parts that end at an offset of a text, for a document whose file names the module
`file`: the open module is the one in force, the unit has the modules that were opened, and all ranges end in
front of the offset. -/
structure Passed (text file : String) (parts : List Place) (here : Nat) (s : OutlineState) : Prop where
  lines : s.scope.lines = .ofString text
  keyed : s.unit.modules.KeyedBy (·.name)
  inForce : s.scope.moduleName = nameInForce file parts
  isOpen : s.isOpen = true ↔ openedIn file parts ≠ []
  opened : ∀ name, (s.unit.range? name).isSome = true ↔ name ∈ openedIn file parts
  first : s.unit.modules.names.head? = (openedIn file parts).head?
  start : s.regionStart ≤ (LineTable.ofString text).position here
  ranges : ∀ name r, s.unit.range? name = some r →
    r.start ≤ (LineTable.ofString text).position here ∧ r.stop ≤ (LineTable.ofString text).position here

section Passed

variable {text file : String} {parts : List Place} {here there : Nat} {p : Place}

theorem passed_start (doc : DocId) (text : String) :
    Passed text doc.filePath.text [] 0 (start doc (.ofString text)) := by
  rw [start_eq]
  generalize doc.filePath = path
  refine ⟨rfl, Table.keyedBy_empty, rfl, ?_, fun other => ?_, rfl, Position.zero_le _, fun other r known => ?_⟩
  · exact iff_of_false Bool.false_ne_true fun h => h rfl
  · exact iff_of_false Bool.false_ne_true List.not_mem_nil
  · cases known

/-- A part that opens nothing leaves the state as it is. -/
theorem Passed.stay (h : Passed text file parts here s) (le : here ≤ there) (closed : p.opened? = none)
    (same : openedIn file (parts ++ [p]) = openedIn file parts) : Passed text file (parts ++ [p]) there s := by
  have mono := LineTable.position_mono text le
  refine ⟨h.lines, h.keyed, ?_, ?_, ?_, ?_, Position.le_trans h.start mono, fun name r known => ?_⟩
  · rw [h.inForce, nameInForce_concat, closed, Option.getD_none]
  · rw [same, h.isOpen]
  · rw [same]
    exact h.opened
  · rw [same, h.first]
  · obtain ⟨start, stop⟩ := h.ranges name r known
    exact ⟨Position.le_trans start mono, Position.le_trans stop mono⟩

theorem head?_names_register_eq (u : SourceUnit) (m : Module) :
    (u.register m).modules.names.head? = some (u.modules.names.head?.getD m.name) := by
  cases first : u.modules.names.head? with
  | some name => exact head?_names_register first m
  | none =>
    have empty : u.modules.names = [] := List.head?_eq_none_iff.1 first
    have unknown : u.modules.get? m.name = none := by
      rw [Table.get?_eq_none_iff, empty]
      exact List.not_mem_nil
    rw [SourceUnit.register, unknown, Table.names_insert, empty]
    rfl

/-- A part that opens a module leaves it in force. -/
theorem Passed.register (h : Passed text file parts here s) (le : here ≤ there) {m : Module} {scope : Scope}
    {start : Position} (bare : ∀ k : Module, k.merge m = k) (name : scope.moduleName = m.name)
    (lines : scope.lines = s.scope.lines)
    (opened : openedIn file (parts ++ [p]) = openedIn file parts ++ [m.name])
    (force : nameInForce file (parts ++ [p]) = m.name)
    (begins : start ≤ (LineTable.ofString text).position there)
    (starts : m.range.start ≤ (LineTable.ofString text).position there)
    (stops : m.range.stop ≤ (LineTable.ofString text).position there) :
    Passed text file (parts ++ [p]) there ⟨scope, s.unit.register m, s.pending, true, start⟩ := by
  have mono := LineTable.position_mono text le
  refine ⟨lines.trans h.lines, SourceUnit.keyed_register h.keyed m, name.trans force.symm, ?_, fun other => ?_, ?_,
    begins, fun other r known => ?_⟩
  · rw [opened]
    exact iff_of_true rfl (by simp)
  · rw [opened, List.mem_append, List.mem_singleton, SourceUnit.range?_register bare, ← h.opened other]
    split
    next same => exact iff_of_true rfl (.inr same)
    next different => exact (or_iff_left different).symm
  · rw [head?_names_register_eq, h.first, opened]
    cases openedIn file parts <;> rfl
  · rw [SourceUnit.range?_register bare] at known
    split at known
    · cases old : s.unit.range? other with
      | none =>
        rw [old] at known
        cases known
        exact ⟨starts, stops⟩
      | some r' =>
        rw [old] at known
        cases known
        obtain ⟨start', stop'⟩ := h.ranges other _ old
        exact ⟨Position.le_trans start' mono, Position.le_trans stop' mono⟩
    · obtain ⟨start', stop'⟩ := h.ranges other r known
      exact ⟨Position.le_trans start' mono, Position.le_trans stop' mono⟩

theorem Passed.inside (h : Passed text file parts here s) (le : here ≤ there) (inside : p.isInside = true) :
    Passed text file (parts ++ [p]) there s.openModule := by
  have closed := Place.opened?_of_isInside inside
  have concat : openedIn file (parts ++ [p]) = _ := openedIn_concat p
  rw [closed, inside, if_pos rfl, Option.toList_none, List.append_nil] at concat
  by_cases first : openedIn file parts = []
  · have shut : s.isOpen = false := Bool.eq_false_iff.2 fun isOpen => h.isOpen.1 isOpen first
    have unnamed : nameInForce file parts = file := by
      rw [nameInForce, filterMap_of_openedIn_eq_nil first]
      rfl
    have named : s.scope.path.text = file := h.inForce.trans unnamed
    rw [if_pos ⟨first, rfl⟩] at concat
    rw [openModule, if_neg (by rw [shut]; exact Bool.false_ne_true)]
    refine h.register le (m := .ofPath s.scope.path s.scope.doc default default)
      (fun k => k.merge_ofPath _ _ _ _ none [] false []) rfl rfl ?_ ?_ (Position.zero_le _) (Position.zero_le _)
      (Position.zero_le _)
    · rw [concat, first]
      exact congrArg ([·]) named.symm
    · rw [nameInForce_concat, closed, Option.getD_none, unnamed]
      exact named.symm
  · rw [if_neg fun both => first both.1] at concat
    rw [openModule, if_pos (h.isOpen.2 first)]
    exact h.stay le closed concat

/-- The ranges behind an item: that of the open module reaches from its region's start behind the item. -/
theorem range?_item {f : Module → Module} (kept : ∀ m, (f m).range = m.range) (pending : Pending) (stop : Nat)
    (name : String) :
    (({ s with pending := pending }.modifyModule f).extendRegion stop).unit.range? name =
      if name = s.scope.moduleName then
        (s.unit.range? name).map fun _ => ⟨s.regionStart, s.scope.lines.position stop⟩
      else s.unit.range? name := by
  rw [range?_extendRegion, range?_modifyModule kept]
  rfl

theorem Passed.item (h : Passed text file parts here s) {f : Module → Module} (name : ∀ m, (f m).name = m.name)
    (range : ∀ m, (f m).range = m.range) (pending : Pending) :
    Passed text file parts here (({ s with pending := pending }.modifyModule f).extendRegion here) := by
  refine ⟨h.lines, (h.keyed.modify _ name).modify _ fun _ => rfl, h.inForce, h.isOpen, fun other => ?_, ?_,
    h.start, fun other r known => ?_⟩
  · rw [range?_item range, ← h.opened other]
    split
    · rw [Option.isSome_map]
    · rfl
  · rw [← h.first, extendRegion, names_modifyModule, names_modifyModule]
  · rw [range?_item range] at known
    split at known
    · obtain ⟨-, -, rfl⟩ := Option.map_eq_some_iff.1 known
      rw [h.lines]
      exact ⟨h.start, Position.le_refl _⟩
    · exact h.ranges other r known

theorem Passed.step {s' : OutlineState} (h : Passed text file parts here s) (start : p.start = here)
    (reads : s.Reads p s') : Passed text file (parts ++ [p]) p.stop s' := by
  have le : here ≤ p.stop := start ▸ Nat.le_add_right _ _
  have concat : openedIn file (parts ++ [p]) = _ := openedIn_concat p
  cases reads with
  | nothing opened inside =>
    refine h.stay le opened (concat.trans ?_)
    rw [opened, inside, Option.toList_none, List.append_nil]
    split
    next both => exact both.1.symm
    next => rfl
  | opens opened bare _ range name lines =>
    rw [opened, if_neg (fun both => nomatch both.2)] at concat
    rw [Scope.range, Scope.rangeOf, h.lines] at range ⊢
    have begins := LineTable.position_mono text (Nat.le_add_right p.start p.tree.width)
    refine h.register le bare name lines concat ?_ begins ?_ ?_
    · rw [nameInForce_concat, opened, Option.getD_some]
    · rw [range]
      exact begins
    · rw [range]
      exact Position.le_refl _
  | item item name range _ _ =>
    exact (h.inside le (Place.isInside_of_isItem item)).item name range _
  | inside inside _ => exact h.inside le inside

/-- The parts stand one behind the other between two offsets. -/
def Tiles (here : Nat) : List (List Tree × Place) → Nat → Prop
  | [], stop => here = stop
  | part :: parts, stop => part.2.start = here ∧ Tiles part.2.stop parts stop

theorem tiles_placesWithPrevious (start : Nat) (previous ts : List Tree) :
    Tiles start (placesWithPrevious start previous ts)
      (start + utf8Length (Token.charsOf (Tree.tokensOfList ts))) := by
  induction ts generalizing start previous with
  | nil => rfl
  | cons t ts ih =>
    refine ⟨rfl, ?_⟩
    have rest := ih (start + t.width) (t :: previous)
    rw [Tree.tokensOfList, Token.charsOf_append, utf8Length_append, ← t.width_eq, ← Nat.add_assoc]
    exact rest

theorem tiles_append {before after : List (List Tree × Place)} {stop : Nat} :
    Tiles here (before ++ after) stop ↔ ∃ between, Tiles here before between ∧ Tiles between after stop := by
  induction before generalizing here with
  | nil => exact ⟨fun h => ⟨here, rfl, h⟩, fun ⟨_, same, h⟩ => same ▸ h⟩
  | cons part before ih =>
    rw [List.cons_append, Tiles, ih]
    constructor
    · rintro ⟨start, between, front, rest⟩
      exact ⟨between, ⟨start, front⟩, rest⟩
    · rintro ⟨between, ⟨start, front⟩, rest⟩
      exact ⟨start, between, front, rest⟩

/-- The state behind parts of a document. -/
theorem Passed.steps {more : List (List Tree × Place)} (h : Passed text file parts here s)
    (tiles : Tiles here more there) :
    Passed text file (parts ++ more.map (·.2)) there (more.foldl (fun s part => s.step part.1 part.2) s) := by
  induction more generalizing parts here s with
  | nil =>
    rw [List.map_nil, List.append_nil]
    exact tiles ▸ h
  | cons part more ih =>
    have rest := ih (h.step tiles.1 (s.reads_step part.1 part.2)) tiles.2
    rwa [List.append_assoc, List.singleton_append] at rest

end Passed

/-! ## What becomes of the ranges -/

end OutlineState

/-- The range does not begin in front of the position. -/
def Range.IsBehind (r : Range) (p : Position) : Prop :=
  p ≤ r.start ∧ p ≤ r.stop

theorem Range.IsBehind.mono {r : Range} {p q : Position} (h : r.IsBehind q) (le : p ≤ q) : r.IsBehind p :=
  ⟨Position.le_trans le h.1, Position.le_trans le h.2⟩

namespace OutlineState

/-- What becomes of the ranges in a state when the rest of the text is read, up to the unit `u`. The last
region of a module that is recorded gives it the range; new modules and new regions are behind the offset. -/
structure Leads (text : String) (rest : List Place) (here : Nat) (s : OutlineState) (u : SourceUnit) : Prop where
  reopened : ∀ name, isReopened name rest = true →
    ∃ r, u.range? name = some r ∧ r.IsBehind ((LineTable.ofString text).position here)
  recorded : isReopened s.scope.moduleName rest = false → isRecorded rest = true →
    ∃ r, u.range? s.scope.moduleName = some r ∧ r.start = s.regionStart ∧
      (LineTable.ofString text).position here ≤ r.stop
  kept : ∀ name r, isReopened name rest = false → (name = s.scope.moduleName → isRecorded rest = false) →
    s.unit.range? name = some r → u.range? name = some r
  added : ∀ name r, isReopened name rest = false → s.unit.range? name = none → u.range? name = some r →
    r.IsBehind ((LineTable.ofString text).position here)

section Leads

variable {text : String} {rest : List Place} {here there : Nat} {p : Place} {u : SourceUnit}

theorem isReopened_cons (closed : p.opened? = none) (name : String) :
    isReopened name (p :: rest) = isReopened name rest := by
  rw [isReopened, closed]
  rfl

/-- A part that changes nothing. -/
theorem Leads.stay (h : Leads text rest there s u) (le : here ≤ there) (closed : p.opened? = none)
    (other : p.isItem = false) : Leads text (p :: rest) here s u := by
  have mono := LineTable.position_mono text le
  have recorded : isRecorded (p :: rest) = isRecorded rest := by
    rw [isRecorded, other, closed]
    rfl
  refine ⟨fun name re => ?_, fun notRe rec => ?_, fun name r notRe => ?_, fun name r notRe unknown known => ?_⟩
  · rw [isReopened_cons closed] at re
    obtain ⟨r, known, behind⟩ := h.reopened name re
    exact ⟨r, known, behind.mono mono⟩
  · rw [isReopened_cons closed] at notRe
    rw [recorded] at rec
    obtain ⟨r, known, start, stop⟩ := h.recorded notRe rec
    exact ⟨r, known, start, Position.le_trans mono stop⟩
  · rw [isReopened_cons closed] at notRe
    rw [recorded]
    exact h.kept name r notRe
  · rw [isReopened_cons closed] at notRe
    exact (h.added name r notRe unknown known).mono mono

/-- An item: the region is recorded up to its end. -/
theorem Leads.item {f : Module → Module} {pending : Pending} (le : here ≤ there)
    (lines : s.scope.lines = .ofString text) (known : (s.unit.range? s.scope.moduleName).isSome = true)
    (range : ∀ m, (f m).range = m.range) (item : p.isItem = true)
    (h : Leads text rest there (({ s with pending := pending }.modifyModule f).extendRegion there) u) :
    Leads text (p :: rest) here s u := by
  have mono := LineTable.position_mono text le
  have closed := Place.opened?_of_isInside (Place.isInside_of_isItem item)
  have recorded : isRecorded (p :: rest) = true := by
    rw [isRecorded, item, Bool.true_or]
  have ranges := range?_item (s := s) range pending there
  refine ⟨fun name re => ?_, fun notRe _ => ?_, fun name r notRe notRec old => ?_,
    fun name r notRe unknown new => ?_⟩
  · rw [isReopened_cons closed] at re
    obtain ⟨r, here, behind⟩ := h.reopened name re
    exact ⟨r, here, behind.mono mono⟩
  · rw [isReopened_cons closed] at notRe
    cases more : isRecorded rest with
    | true =>
      obtain ⟨r, here, start, stop⟩ := h.recorded notRe more
      exact ⟨r, here, start, Position.le_trans mono stop⟩
    | false =>
      obtain ⟨r, old⟩ := Option.isSome_iff_exists.1 known
      have now := ranges s.scope.moduleName
      rw [if_pos rfl, old, Option.map_some, lines] at now
      exact ⟨_, h.kept _ _ notRe (fun _ => more) now, rfl, mono⟩
  · rw [isReopened_cons closed] at notRe
    have different : name ≠ s.scope.moduleName := fun same => by simp [notRec same] at recorded
    have now := ranges name
    rw [if_neg different, old] at now
    exact h.kept name r notRe (fun same => absurd same different) now
  · rw [isReopened_cons closed] at notRe
    have different : name ≠ s.scope.moduleName := by
      rintro rfl
      rw [unknown] at known
      cases known
    have now := ranges name
    rw [if_neg different, unknown] at now
    exact (h.added name r notRe now new).mono mono

/-- A module declaration: what was known keeps its range until the new region is recorded. -/
theorem Leads.opens {m : Module} {scope : Scope} (opened : p.opened? = some m.name)
    (bare : ∀ k : Module, k.merge m = k) (name : scope.moduleName = m.name)
    (range : m.range = ⟨(LineTable.ofString text).position p.start, (LineTable.ofString text).position p.stop⟩)
    (h : Leads text rest p.stop
      ⟨scope, s.unit.register m, s.pending, true, (LineTable.ofString text).position p.start⟩ u) :
    Leads text (p :: rest) p.start s u := by
  have mono := LineTable.position_mono text (Nat.le_add_right p.start p.tree.width)
  have other : p.isItem = false := by
    rw [Bool.eq_false_iff]
    intro item
    rw [Place.opened?_of_isInside (Place.isInside_of_isItem item)] at opened
    cases opened
  have unrecorded : isRecorded (p :: rest) = false := by
    rw [isRecorded, other, opened]
    rfl
  have again : ∀ n, isReopened n (p :: rest) = false ↔
      isReopened n rest = false ∧ (n = m.name → isRecorded rest = false) := by
    intro n
    rw [isReopened, opened, Bool.or_eq_false_iff, Bool.and_eq_false_imp, beq_iff_eq, Option.some_inj, and_comm]
    exact and_congr_right fun _ => imp_congr_left eq_comm
  have recorded : isReopened m.name rest = false → isRecorded rest = true →
      ∃ r, u.range? m.name = some r ∧ r.start = (LineTable.ofString text).position p.start ∧
        (LineTable.ofString text).position p.stop ≤ r.stop := name ▸ h.recorded
  have kept : ∀ n r, isReopened n rest = false → (n = m.name → isRecorded rest = false) →
      (s.unit.register m).range? n = some r → u.range? n = some r := name ▸ h.kept
  have registered := SourceUnit.range?_register (u := s.unit) bare
  refine ⟨fun n re => ?_, fun _ rec => ?_, fun n r notRe _ old => ?_, fun n r notRe unknown new => ?_⟩
  · by_cases later : isReopened n rest = true
    · obtain ⟨r, known, behind⟩ := h.reopened n later
      exact ⟨r, known, behind.mono mono⟩
    · -- The region that is opened here is the last one recorded for the module.
      rw [Bool.not_eq_true] at later
      have here : ¬(n = m.name → isRecorded rest = false) := by
        intro notHere
        rw [(again n).2 ⟨later, notHere⟩] at re
        cases re
      push Not at here
      obtain ⟨rfl, rec⟩ := here
      obtain ⟨r, known, start, stop⟩ := recorded later (Bool.of_not_eq_false rec)
      exact ⟨r, known, start ▸ Position.le_refl _, Position.le_trans mono stop⟩
  · rw [unrecorded] at rec
    cases rec
  · obtain ⟨later, here⟩ := (again n).1 notRe
    refine kept n r later here ?_
    rw [registered, old]
    split
    · rfl
    · rfl
  · obtain ⟨later, here⟩ := (again n).1 notRe
    by_cases same : n = m.name
    · have known := kept n m.range later here (by rw [registered, if_pos same, unknown]; rfl)
      rw [known] at new
      cases new
      rw [range]
      exact ⟨Position.le_refl _, mono⟩
    · refine (h.added n r later ?_ new).mono mono
      exact (registered n).trans ((if_neg same).trans unknown)

/-- What becomes of the ranges of an open module and of all others when a text is read to its end. -/
theorem leads_read {parts : List (List Tree × Place)} {stop : Nat} (isOpen : s.isOpen = true)
    (lines : s.scope.lines = .ofString text) (known : (s.unit.range? s.scope.moduleName).isSome = true)
    (tiles : Tiles here parts stop) : Leads text (parts.map (·.2)) here s (s.read parts stop).unit := by
  induction parts generalizing here s with
  | nil =>
    have ranges : ∀ name, (s.read [] stop).unit.range? name = _ := s.openModule.range?_extendRegion stop
    have same : s.openModule = s := if_pos isOpen
    rw [same, lines] at ranges
    refine ⟨nofun, fun _ _ => ?_, fun name r _ notRec old => ?_, fun name r _ unknown new => ?_⟩
    · obtain ⟨r, old⟩ := Option.isSome_iff_exists.1 known
      rw [ranges, if_pos rfl, old, tiles]
      exact ⟨_, rfl, rfl, Position.le_refl _⟩
    · rw [ranges, if_neg (fun same => nomatch notRec same), old]
    · have different : name ≠ s.scope.moduleName := by
        rintro rfl
        rw [unknown] at known
        cases known
      rw [ranges, if_neg different, unknown] at new
      cases new
  | cons part parts ih =>
    have same : s.openModule = s := if_pos isOpen
    have le : here ≤ part.2.stop := tiles.1 ▸ Nat.le_add_right _ _
    have first := s.reads_step part.1 part.2
    have onward : s.read (part :: parts) stop = (s.step part.1 part.2).read parts stop := rfl
    rw [onward, List.map_cons]
    generalize s.step part.1 part.2 = next at first
    cases first with
    | nothing closed inside =>
      have other : part.2.isItem = false :=
        Bool.eq_false_iff.2 fun item => Bool.eq_false_iff.1 inside (Place.isInside_of_isItem item)
      exact (ih isOpen lines known tiles.2).stay le closed other
    | opens opened bare _ range name sameLines =>
      rw [Scope.range, Scope.rangeOf, lines] at range ⊢
      refine tiles.1 ▸ Leads.opens opened bare name range (ih rfl (sameLines.trans lines) ?_ tiles.2)
      rw [SourceUnit.range?_register bare, if_pos name]
      rfl
    | item item name range _ _ =>
      rw [same]
      refine Leads.item le lines known range item (ih isOpen lines ?_ tiles.2)
      rw [range?_item range]
      split
      · rw [Option.isSome_map]
        exact known
      · exact known
    | inside inside other =>
      rw [same]
      exact (ih isOpen lines known tiles.2).stay le (Place.opened?_of_isInside inside) other

end Leads

end OutlineState

/-! ## The module at a position -/

namespace SourceUnit

variable {u : SourceUnit} {p : Position}

theorem endsBefore_of_lastBefore? {ms : List Module} {m : Module} (h : lastBefore? p ms = some m) :
    m.range.endsBefore p = true := by
  cases ms with
  | nil => cases h
  | cons first rest =>
    suffices kept : ∀ q : Module, lastBefore? p (first :: rest) = some q → q.range.endsBefore p = true from
      kept m h
    refine List.foldlRecOn (motive := fun prior? => ∀ q : Module, prior? = some q → q.range.endsBefore p = true)
      (first :: rest) _ nofun fun prior? known n _ q => ?_
    split
    next ends =>
      cases prior? with
      | none =>
        rintro ⟨⟩
        exact ends
      | some r =>
        dsimp only
        split
        · rintro ⟨⟩
          exact ends
        · exact known q
    · exact known q

/-- If a module ends before the position, one that does is found. -/
theorem isSome_lastBefore? {ms : List Module} {m : Module} (h : m ∈ ms) (ends : m.range.endsBefore p = true) :
    (lastBefore? p ms).isSome = true := by
  obtain ⟨before, after, rfl⟩ := List.append_of_mem h
  rw [lastBefore?, List.foldl_append, List.foldl_cons, if_pos ends]
  · refine List.foldlRecOn (motive := fun prior? : Option Module => prior?.isSome = true) after _ ?_
      fun prior? known n _ => ?_
    · split
      · rfl
      next same =>
        split
        · rfl
        · rw [same]
          rfl
    · split
      · split
        · rfl
        · split
          · rfl
          · exact known
      · exact known
  · exact List.append_ne_nil_of_right_ne_nil _ (List.cons_ne_nil _ _)

theorem lastBefore?_eq_none_iff {ms : List Module} :
    lastBefore? p ms = none ↔ ∀ m ∈ ms, m.range.endsBefore p = false := by
  constructor
  · intro none m hm
    rw [Bool.eq_false_iff]
    intro ends
    have found := isSome_lastBefore? hm ends
    rw [none] at found
    cases found
  · intro none
    rw [Option.eq_none_iff_forall_ne_some]
    intro m found
    have ends := endsBefore_of_lastBefore? found
    rw [none m (mem_of_lastBefore? found)] at ends
    cases ends

theorem range?_of_mem (keyed : u.modules.KeyedBy (·.name)) {m : Module} (h : m ∈ u.modules.values) :
    u.range? m.name = some m.range :=
  congrArg (Option.map _) (keyed.get?_of_mem h)

/-- If no other module holds the position, and the module does not end before it, then it is the one at the
position if it holds it, or if it is the first one and none ends before the position. -/
theorem moduleAt?_eq_some_iff {m : Module} (h : m ∈ u.modules.values)
    (only : ∀ k ∈ u.modules.values, k.range.contains p = true → k = m)
    (behind : m.range.endsBefore p = false) :
    u.moduleAt? p = some m ↔ m.range.contains p = true ∨
      u.modules.values.head? = some m ∧ ∀ k ∈ u.modules.values, k.range.endsBefore p = false := by
  have unfolded : u.moduleAt? p = ((u.modules.values.find? (·.range.contains p)) <|>
    lastBefore? p u.modules.values <|> u.modules.values.head?) := rfl
  rw [unfolded]
  cases holds : m.range.contains p with
  | true =>
    cases found : u.modules.values.find? (·.range.contains p) with
    | none => exact absurd holds (List.find?_eq_none.1 found m h)
    | some k =>
      have inside : k.range.contains p = true := by simpa using List.find?_some found
      rw [only k (List.mem_of_find?_eq_some found) inside]
      exact iff_of_true rfl (.inl rfl)
  | false =>
    have nowhere : u.modules.values.find? (·.range.contains p) = none := by
      rw [List.find?_eq_none]
      intro k hk inside
      rw [only k hk inside, holds] at inside
      cases inside
    rw [nowhere, or_iff_right Bool.false_ne_true]
    cases found : lastBefore? p u.modules.values with
    | none =>
      exact (and_iff_left (lastBefore?_eq_none_iff.1 found)).symm
    | some k =>
      have ends := endsBefore_of_lastBefore? found
      refine iff_of_false ?_ fun both => ?_
      · rintro ⟨⟩
        rw [behind] at ends
        cases ends
      · rw [both.2 k (mem_of_lastBefore? found)] at ends
        cases ends

end SourceUnit

/-- The ranges of a unit around the part of a text that stands between two positions, in front of the parts
`after`: `opened` are the modules that are opened so far, and `name` is the one in force. -/
structure SeenFrom (u : SourceUnit) (opened : List String) (name : String) (after : List Place)
    (start stop : Position) : Prop where
  keyed : u.modules.KeyedBy (·.name)
  first : u.modules.names.head? = opened.head?
  inForce : name ∈ opened
  known : ∀ n ∈ opened, ∃ r, u.range? n = some r
  around : isReopened name after = false → ∀ r, u.range? name = some r → r.start ≤ start ∧ stop ≤ r.stop
  before : ∀ n ∈ opened, n ≠ name → isReopened n after = false → ∀ r, u.range? n = some r → r.stop ≤ start
  behind : ∀ n, isReopened n after = true ∨ n ∉ opened → ∀ r, u.range? n = some r → r.IsBehind stop

section

variable {u : SourceUnit} {opened : List String} {name : String} {after : List Place} {start stop p : Position}

theorem Range.IsBehind.not_contains {r : Range} (h : r.IsBehind stop) (lt : p < stop) : r.contains p = false := by
  rw [Range.contains, Bool.and_eq_false_iff, decide_eq_false_iff_not]
  exact .inl fun le => le (Position.lt_of_lt_of_le lt h.1)

theorem Range.IsBehind.not_endsBefore {r : Range} (h : r.IsBehind stop) (lt : p < stop) :
    r.endsBefore p = false := by
  rw [Range.endsBefore, decide_eq_false_iff_not]
  exact fun ends => Position.le_of_lt (Position.lt_of_lt_of_le lt h.2) ends

/-- Every module is behind the part, around it or in front of it. -/
theorem SeenFrom.cases (h : SeenFrom u opened name after start stop) {k : Module} (hk : k ∈ u.modules.values) :
    (isReopened k.name after = true ∨ k.name ∉ opened) ∧ k.range.IsBehind stop ∨
      (k.name = name ∧ isReopened k.name after = false) ∧ k.range.start ≤ start ∧ stop ≤ k.range.stop ∨
      (k.name ∈ opened ∧ k.name ≠ name ∧ isReopened k.name after = false) ∧ k.range.stop ≤ start := by
  have range := SourceUnit.range?_of_mem h.keyed hk
  by_cases later : isReopened k.name after = true ∨ k.name ∉ opened
  · exact .inl ⟨later, h.behind _ later _ range⟩
  · rw [not_or, Bool.not_eq_true, not_not] at later
    by_cases same : k.name = name
    · rw [same] at range later
      exact .inr (.inl ⟨⟨same, same ▸ later.1⟩, h.around later.1 _ range⟩)
    · exact .inr (.inr ⟨⟨later.2, same, later.1⟩, h.before _ later.2 same later.1 _ range⟩)

/-- In the part no module but the one in force holds a position. -/
theorem SeenFrom.contains_iff (h : SeenFrom u opened name after start stop) (lt : start < p) (lt' : p < stop)
    {k : Module} (hk : k ∈ u.modules.values) :
    k.range.contains p = true ↔ k.name = name ∧ isReopened k.name after = false := by
  rcases h.cases hk with ⟨later, behind⟩ | ⟨here, first, last⟩ | ⟨earlier, ends⟩
  · rw [behind.not_contains lt']
    refine iff_of_false Bool.false_ne_true fun here => ?_
    rw [here.2, here.1] at later
    exact later.elim Bool.false_ne_true fun unknown => unknown h.inForce
  · refine iff_of_true ?_ here
    rw [Range.contains, Bool.and_eq_true, decide_eq_true_eq, decide_eq_true_eq]
    exact ⟨Position.le_trans first (Position.le_of_lt lt), Position.le_trans (Position.le_of_lt lt') last⟩
  · refine iff_of_false ?_ fun here => earlier.2.1 here.1
    rw [Range.contains, Bool.and_eq_true, decide_eq_true_eq, decide_eq_true_eq]
    exact fun inside => inside.2 (Position.lt_of_le_of_lt ends lt)

/-- The modules that end before a position of the part are those opened before and not again. -/
theorem SeenFrom.endsBefore_iff (h : SeenFrom u opened name after start stop) (lt : start < p) (lt' : p < stop)
    {k : Module} (hk : k ∈ u.modules.values) :
    k.range.endsBefore p = true ↔ k.name ∈ opened ∧ k.name ≠ name ∧ isReopened k.name after = false := by
  rcases h.cases hk with ⟨later, behind⟩ | ⟨here, -, last⟩ | ⟨earlier, ends⟩
  · rw [behind.not_endsBefore lt']
    refine iff_of_false Bool.false_ne_true fun earlier => ?_
    rw [earlier.2.2] at later
    exact later.elim Bool.false_ne_true fun unknown => unknown earlier.1
  · refine iff_of_false ?_ fun earlier => earlier.2.1 here.1
    rw [Range.endsBefore, decide_eq_true_eq]
    exact fun ends => last (Position.lt_of_lt_of_le ends (Position.le_of_lt lt'))
  · refine iff_of_true ?_ earlier
    rw [Range.endsBefore, decide_eq_true_eq]
    exact Position.lt_of_le_of_lt ends lt

theorem SeenFrom.moduleAt?_iff (h : SeenFrom u opened name after start stop) (lt : start < p) (lt' : p < stop) :
    ∃ m, u.module? name = some m ∧
      (u.moduleAt? p = some m ↔ isReopened name after = false ∨
        opened.head? = some name ∧ ∀ n ∈ opened, isReopened n after = true) := by
  obtain ⟨r, known⟩ := h.known name h.inForce
  obtain ⟨m, found, -⟩ := Option.map_eq_some_iff.1 known
  have named : m.name = name := h.keyed name m found
  have inUnit : m ∈ u.modules.values := Table.mem_values_iff.2 ⟨name, found⟩
  have unique : ∀ k ∈ u.modules.values, k.name = name → k = m := by
    rintro k hk rfl
    exact Option.some.inj ((h.keyed.get?_of_mem hk).symm.trans found)
  have front : m.range.endsBefore p = false := by
    rw [Bool.eq_false_iff]
    exact fun ends => ((h.endsBefore_iff lt lt' inUnit).1 ends).2.1 named
  have first : u.modules.values.head? = some m ↔ opened.head? = some name := by
    rw [← h.first, h.keyed.names_eq, List.head?_map, Option.map_eq_some_iff]
    constructor
    · exact fun head => ⟨m, head, named⟩
    · rintro ⟨k, head, same⟩
      rw [head, unique k (List.mem_of_head? head) same]
  have none : (∀ k ∈ u.modules.values, k.range.endsBefore p = false) ↔
      ∀ n ∈ opened, n ≠ name → isReopened n after = true := by
    constructor
    · intro none n hn other
      obtain ⟨r, known⟩ := h.known n hn
      obtain ⟨k, there, -⟩ := Option.map_eq_some_iff.1 known
      have same : k.name = n := h.keyed n k there
      have hk : k ∈ u.modules.values := Table.mem_values_iff.2 ⟨n, there⟩
      by_contra kept
      rw [Bool.not_eq_true] at kept
      have ends := (h.endsBefore_iff lt lt' hk).2 ⟨same ▸ hn, same ▸ other, same ▸ kept⟩
      rw [none k hk] at ends
      cases ends
    · intro all k hk
      rw [Bool.eq_false_iff]
      intro ends
      obtain ⟨hn, other, kept⟩ := (h.endsBefore_iff lt lt' hk).1 ends
      rw [all k.name hn other] at kept
      cases kept
  refine ⟨m, found, ?_⟩
  rw [SourceUnit.moduleAt?_eq_some_iff inUnit
    (fun k hk inside => unique k hk ((h.contains_iff lt lt' hk).1 inside).1) front, h.contains_iff lt lt' inUnit,
    and_iff_right named, named, first, none]
  cases again : isReopened name after with
  | false => exact iff_of_true (.inl rfl) (.inl rfl)
  | true =>
    refine or_congr_right (and_congr_right fun _ => ⟨fun all n hn => ?_, fun all n hn _ => all n hn⟩)
    by_cases same : n = name
    · rw [same, again]
    · exact all n hn same

end

/-- The position is strictly inside of a part of the top level of a text, an import or a declaration, which
stands behind the parts `before` and in front of the parts `after`. -/
structure InItem (text : String) (before : List Place) (d : Place) (after : List Place) (p : Position) :
    Prop where
  parts : (Parse.ofString text).root.children = before ++ d :: after
  item : d.isItem = true
  start : (LineTable.ofString text).position d.start < p
  stop : p < (LineTable.ofString text).position d.stop

theorem map_placesWithPrevious (start : Nat) (previous ts : List Tree) :
    (placesWithPrevious start previous ts).map (·.2) = Place.line start ts := by
  induction ts generalizing start previous with
  | nil => rfl
  | cons t ts ih => rw [placesWithPrevious, List.map_cons, ih, Place.line]

/-- The ranges around an item, in front of which the state is `s` and behind which it is `t`. -/
theorem OutlineState.Passed.seenFrom {text file : String} {parts after : List Place} {s t : OutlineState}
    {u : SourceUnit} {start here : Nat} (h : Passed text file parts start s) (isOpen : s.isOpen = true)
    (leads : Leads text after here t u)
    (item : ∀ name, t.unit.range? name =
      if name = nameInForce file parts then
        (s.unit.range? name).map fun _ => ⟨s.regionStart, (LineTable.ofString text).position here⟩
      else s.unit.range? name)
    (scope : t.scope = s.scope) (region : t.regionStart = s.regionStart)
    (keyed : u.modules.KeyedBy (·.name)) (first : u.modules.names.head? = s.unit.modules.names.head?) :
    SeenFrom u (openedIn file parts) (nameInForce file parts) after
      ((LineTable.ofString text).position start) ((LineTable.ofString text).position here) := by
  have inForce := nameInForce_mem (h.isOpen.1 isOpen)
  have recorded := leads.recorded
  have keeps := leads.kept
  rw [scope, h.inForce] at recorded keeps
  rw [region] at recorded
  have known : ∀ n ∈ openedIn file parts, ∃ r, t.unit.range? n = some r := by
    intro n hn
    obtain ⟨r, old⟩ := Option.isSome_iff_exists.1 ((h.opened n).2 hn)
    rw [item, old]
    split
    · exact ⟨_, rfl⟩
    · exact ⟨_, rfl⟩
  refine ⟨keyed, first.trans h.first, inForce, fun n hn => ?_, fun again r there => ?_,
    fun n hn other again r there => ?_, fun n later r there => ?_⟩
  · obtain ⟨r, old⟩ := known n hn
    cases again : isReopened n after with
    | true =>
      obtain ⟨r, there, -⟩ := leads.reopened n again
      exact ⟨r, there⟩
    | false =>
      by_cases current : n = nameInForce file parts ∧ isRecorded after = true
      · rw [current.1] at again
        obtain ⟨r, there, -⟩ := recorded again current.2
        exact ⟨r, current.1 ▸ there⟩
      · exact ⟨r, keeps n r again (fun same => Bool.eq_false_iff.2 fun rec => current ⟨same, rec⟩) old⟩
  · cases rec : isRecorded after with
    | true =>
      obtain ⟨r', there', begins, stops⟩ := recorded again rec
      rw [there] at there'
      cases there'
      exact ⟨begins ▸ h.start, stops⟩
    | false =>
      obtain ⟨old, oldKnown⟩ := Option.isSome_iff_exists.1 ((h.opened _).2 inForce)
      have now := item (nameInForce file parts)
      rw [if_pos rfl, oldKnown, Option.map_some] at now
      rw [keeps _ _ again (fun _ => rec) now] at there
      cases there
      exact ⟨h.start, Position.le_refl _⟩
  · obtain ⟨old, oldKnown⟩ := Option.isSome_iff_exists.1 ((h.opened n).2 hn)
    have now := item n
    rw [if_neg other, oldKnown] at now
    rw [keeps n old again (fun same => absurd same other) now] at there
    cases there
    exact (h.ranges n _ oldKnown).2
  · by_cases again : isReopened n after = true
    · obtain ⟨r', there', behind⟩ := leads.reopened n again
      rw [there] at there'
      cases there'
      exact behind
    · have new := later.resolve_left again
      have other : n ≠ nameInForce file parts := fun same => new (same ▸ inForce)
      have unknown := item n
      rw [if_neg other] at unknown
      refine leads.added n r (Bool.not_eq_true _ ▸ again) (unknown.trans ?_) there
      exact Option.not_isSome_iff_eq_none.1 fun some => new ((h.opened n).1 some)

/-- The parts of a text stand one behind the other from its beginning to its end. -/
theorem tiles_ofString (text : String) :
    OutlineState.Tiles 0 (placesWithPrevious 0 [] (Parse.ofString text).tree.children)
      (LineTable.ofString text).byteSize := by
  obtain ⟨children, -, tree, tokens, -⟩ := Parse.lossless text
  have whole := OutlineState.tiles_placesWithPrevious 0 [] (Parse.ofString text).tree.children
  have chars : Token.charsOf (Token.ofString text) = text.toList := Token.flatMap_ofChars text.toList
  have leaves : Tree.tokensOfList (Parse.ofString text).tree.children = Token.ofString text := by
    rw [tree] at tokens ⊢
    exact tokens
  rwa [Nat.zero_add, leaves, chars, ← LineTable.byteSize_ofString] at whole

theorem exists_parts (text : String) {before after : List Place} {d : Place}
    (parts : (Parse.ofString text).root.children = before ++ d :: after) :
    ∃ previous front rest, placesWithPrevious 0 [] (Parse.ofString text).tree.children =
        front ++ (previous, d) :: rest ∧ before = front.map (·.2) ∧ after = rest.map (·.2) ∧
      OutlineState.Tiles 0 front d.start ∧
      OutlineState.Tiles d.stop rest (LineTable.ofString text).byteSize := by
  have whole := tiles_ofString text
  have mapped := map_placesWithPrevious 0 [] (Parse.ofString text).tree.children
  rw [show Place.line 0 (Parse.ofString text).tree.children = before ++ d :: after from parts] at mapped
  obtain ⟨front, rest', split, rfl, tail⟩ := List.map_eq_append_iff.1 mapped
  obtain ⟨⟨previous, d'⟩, rest, rfl, rfl, rfl⟩ := List.map_eq_cons_iff.1 tail
  rw [split, OutlineState.tiles_append] at whole
  obtain ⟨between, first, start, last⟩ := whole
  exact ⟨previous, front, rest, split, rfl, rfl, start ▸ first, last⟩

/-- The outline of a text is read up to a part, then at the part, then behind it. -/
theorem exists_reading (doc : DocId) {text : String} {before after : List Place} {d : Place}
    (parts : (Parse.ofString text).root.children = before ++ d :: after) :
    ∃ s t rest, OutlineState.Passed text doc.filePath.text before d.start s ∧ s.Reads d t ∧
      after = rest.map (·.2) ∧ OutlineState.Tiles d.stop rest (LineTable.ofString text).byteSize ∧
      (outlineOfText doc text).1 = (t.read rest (LineTable.ofString text).byteSize).unit := by
  obtain ⟨previous, front, rest, split, rfl, rfl, tiles, tiles'⟩ := exists_parts text parts
  have passed := (OutlineState.passed_start doc text).steps tiles
  rw [List.nil_append] at passed
  refine ⟨_, _, rest, passed, OutlineState.reads_step _ previous d, rfl, tiles', ?_⟩
  rw [outlineOfText, outline]
  dsimp only
  rw [split, List.foldl_append, List.foldl_cons]
  rfl

theorem seenFrom_outline (doc : DocId) {text : String} {before after : List Place} {d : Place}
    (parts : (Parse.ofString text).root.children = before ++ d :: after) (item : d.isItem = true) :
    SeenFrom (outlineOfText doc text).1 (openedIn doc.filePath.text (before ++ [d]))
      (nameInForce doc.filePath.text before) after
      ((LineTable.ofString text).position d.start) ((LineTable.ofString text).position d.stop) := by
  obtain ⟨s, t, rest, passed, reads, rfl, tiles, read⟩ := exists_reading doc parts
  have keyed : (outlineOfText doc text).1.modules.KeyedBy (·.name) := (declared_outline _ _ _).1
  have inside := Place.isInside_of_isItem item
  have closed := Place.opened?_of_isInside inside
  have front := passed.inside (Nat.le_refl _) inside
  have behind := passed.step rfl reads
  have isOpen : s.openModule.isOpen = true := by
    rw [OutlineState.openModule]
    split
    next isOpen => exact isOpen
    next => rfl
  have force : nameInForce doc.filePath.text (before ++ [d]) = nameInForce doc.filePath.text before := by
    rw [nameInForce_concat, closed, Option.getD_none]
  have opened := front.isOpen.1 isOpen
  have known := (behind.opened _).2 (nameInForce_mem opened)
  rw [← behind.inForce] at known
  have leads := OutlineState.leads_read (behind.isOpen.2 opened) behind.lines known tiles
  rw [← read] at leads
  have sameFirst : (outlineOfText doc text).1.modules.names.head? = s.openModule.unit.modules.names.head? := by
    obtain ⟨first, others, names⟩ := List.exists_cons_of_ne_nil opened
    have head := behind.first
    rw [names] at head
    rw [read, OutlineState.head?_names_read head, front.first, names]
    rfl
  cases reads with
  | nothing _ outside =>
    rw [inside] at outside
    cases outside
  | opens opens =>
    rw [closed] at opens
    cases opens
  | inside _ other =>
    rw [item] at other
    cases other
  | item _ name range _ _ =>
    rw [← force]
    refine front.seenFrom isOpen leads (fun n => ?_) rfl rfl keyed sameFirst
    rw [OutlineState.range?_item range, front.inForce, front.lines]

/-- Inside of an import or a declaration, the module at a position is the one in force there exactly if its
region there is the last one that is recorded for it; or else if it is the first module of all and each one
that was opened so far is opened again. -/
theorem moduleAt?_outline_iff (doc : DocId) {text : String} {before after : List Place} {d : Place}
    {p : Position} (h : InItem text before d after p) :
    ∃ m, (outlineOfText doc text).1.module? (nameInForce doc.filePath.text before) = some m ∧
      ((outlineOfText doc text).1.moduleAt? p = some m ↔
        isReopened (nameInForce doc.filePath.text before) after = false ∨
          (openedIn doc.filePath.text (before ++ [d])).head? = some (nameInForce doc.filePath.text before) ∧
            ∀ name ∈ openedIn doc.filePath.text (before ++ [d]), isReopened name after = true) :=
  (seenFrom_outline doc h.parts h.item).moduleAt?_iff h.start h.stop

/-- Two regions of one module, the first of which is forgotten. -/
def reopened : String := "module a;int x;module b;int y;module b;int z;"

theorem inItem_of_getElem? {i : Nat} {text : String} {d : Place} {p : Position}
    (part : (Parse.ofString text).root.children[i]? = some d) (item : d.isItem = true)
    (start : (LineTable.ofString text).position d.start < p)
    (stop : p < (LineTable.ofString text).position d.stop) :
    InItem text ((Parse.ofString text).root.children.take i) d
      ((Parse.ofString text).root.children.drop (i + 1)) p := by
  obtain ⟨lt, rfl⟩ := List.getElem?_eq_some_iff.1 part
  refine ⟨?_, item, start, stop⟩
  rw [List.getElem_cons_drop, List.take_append_drop]

set_option maxRecDepth 100000 in
/-- In the last region of the module that is the one found. -/
theorem moduleAt?_last_region :
    ∃ before d after, InItem reopened before d after ⟨0, 43⟩ ∧
      nameInForce (⟨"file:///a.c3"⟩ : DocId).filePath.text before = "b" ∧
      (outlineOfText ⟨"file:///a.c3"⟩ reopened).1.moduleAt? ⟨0, 43⟩ =
        (outlineOfText ⟨"file:///a.c3"⟩ reopened).1.module? "b" := by
  have checks : ((Parse.ofString reopened).root.children[5]?.any fun d => d.isItem &&
      ((LineTable.ofString reopened).position d.start < ⟨0, 43⟩ &&
        (⟨0, 43⟩ : Position) < (LineTable.ofString reopened).position d.stop) &&
      (nameInForce (⟨"file:///a.c3"⟩ : DocId).filePath.text
          ((Parse.ofString reopened).root.children.take 5) == "b" &&
        !isReopened "b" ((Parse.ofString reopened).root.children.drop 6))) = true := by
    decide +kernel
  simp only [Option.any_eq_true, Bool.and_eq_true, decide_eq_true_eq, beq_iff_eq, Bool.not_eq_true'] at checks
  obtain ⟨d, part, ⟨item, start, stop⟩, force, last⟩ := checks
  have inside := inItem_of_getElem? part item start stop
  obtain ⟨m, found, there⟩ := moduleAt?_outline_iff ⟨"file:///a.c3"⟩ inside
  rw [force] at found there
  exact ⟨_, d, _, inside, force, (there.2 (.inl last)).trans found.symm⟩

set_option maxRecDepth 100000 in
/-- In its first region the module found is the one before it, whose region does not reach there. -/
theorem moduleAt?_first_region :
    ∃ before d after, InItem reopened before d after ⟨0, 28⟩ ∧
      nameInForce (⟨"file:///a.c3"⟩ : DocId).filePath.text before = "b" ∧
      ((outlineOfText ⟨"file:///a.c3"⟩ reopened).1.moduleAt? ⟨0, 28⟩).map (·.name) = some "a" := by
  have checks : ((Parse.ofString reopened).root.children[3]?.any fun d => d.isItem &&
      ((LineTable.ofString reopened).position d.start < ⟨0, 28⟩ &&
        (⟨0, 28⟩ : Position) < (LineTable.ofString reopened).position d.stop) &&
      (nameInForce (⟨"file:///a.c3"⟩ : DocId).filePath.text
          ((Parse.ofString reopened).root.children.take 3) == "b" &&
        ((outlineOfText ⟨"file:///a.c3"⟩ reopened).1.moduleAt? ⟨0, 28⟩).map (·.name) == some "a")) = true := by
    decide +kernel
  simp only [Option.any_eq_true, Bool.and_eq_true, decide_eq_true_eq, beq_iff_eq] at checks
  obtain ⟨d, part, ⟨item, start, stop⟩, force, found⟩ := checks
  exact ⟨_, d, _, inItem_of_getElem? part item start stop, force, found⟩

end C3Lens
