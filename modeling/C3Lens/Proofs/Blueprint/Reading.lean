import C3Lens.Proofs.Blueprint.Symbols

/-!
# The module of a blueprint

One declaration after the other is read into the module (`Blueprint.Reading`): what was read of it so far
is described by the part of the blueprint in front. So the tree of a blueprint gives one module, which the
whole blueprint describes (`Blueprint.outline_tree`).
-/

namespace C3Lens

namespace Blueprint

open Outline (Gives)

/-- The module is described, and its tables are in order. -/
structure Holds (b : Blueprint) (m : Module) : Prop extends b.Describes m where
  keyedGlobals : m.globals.KeyedBy (·.name)
  keyedStructs : m.structs.KeyedBy (·.name)
  keyedEnums : m.enums.KeyedBy (·.name)

/-- The blueprint with one more item. -/
def add (b : Blueprint) (item : Item) : Blueprint :=
  { b with items := b.items ++ [item] }

/-- No item of the kind has the name so far. -/
def Admits (b : Blueprint) : Item → Prop
  | .global s => s.name ∉ b.globals.map Slot.name
  | .struct name _ => name ∉ b.structs.map Prod.fst
  | .enum name _ => name ∉ b.enums.map Prod.fst
  | .function _ _ => True

/-- Where names are distinct, each item is new when it is read. -/
theorem IsProper.admits {b : Blueprint} (proper : b.IsProper) {front rest : List Item} {item : Item}
    (items : b.items = front ++ item :: rest) : Admits { b with items := front } item := by
  cases item with
  | global s =>
    have nodup := proper.globals
    rw [Blueprint.globals, items, List.filterMap_append, List.map_append] at nodup
    exact fun mem => (List.nodup_append.1 nodup).2.2 _ mem _ List.mem_cons_self rfl
  | struct name members =>
    have nodup := proper.structs
    rw [Blueprint.structs, items, List.filterMap_append, List.map_append] at nodup
    exact fun mem => (List.nodup_append.1 nodup).2.2 _ mem _ List.mem_cons_self rfl
  | enum name enumerators =>
    have nodup := proper.enums
    rw [Blueprint.enums, items, List.filterMap_append, List.map_append] at nodup
    exact fun mem => (List.nodup_append.1 nodup).2.2 _ mem _ List.mem_cons_self rfl
  | function head parameters => trivial

section

variable (b : Blueprint)

theorem add_global (s : Slot) : (b.add (.global s)).globals = b.globals ++ [s] ∧
    (b.add (.global s)).structs = b.structs ∧ (b.add (.global s)).enums = b.enums ∧
    (b.add (.global s)).functions = b.functions := by
  simp [add, globals, structs, enums, functions]

theorem add_struct (name : String) (members : List Slot) :
    (b.add (.struct name members)).structs = b.structs ++ [(name, members)] ∧
    (b.add (.struct name members)).globals = b.globals ∧ (b.add (.struct name members)).enums = b.enums ∧
    (b.add (.struct name members)).functions = b.functions := by
  simp [add, globals, structs, enums, functions]

theorem add_enum (name : String) (enumerators : List String) :
    (b.add (.enum name enumerators)).enums = b.enums ++ [(name, enumerators)] ∧
    (b.add (.enum name enumerators)).globals = b.globals ∧ (b.add (.enum name enumerators)).structs = b.structs ∧
    (b.add (.enum name enumerators)).functions = b.functions := by
  simp [add, globals, structs, enums, functions]

theorem add_function (head : Slot) (parameters : List Slot) :
    (b.add (.function head parameters)).functions = b.functions ++ [(head, parameters)] ∧
    (b.add (.function head parameters)).globals = b.globals ∧
      (b.add (.function head parameters)).structs = b.structs ∧
    (b.add (.function head parameters)).enums = b.enums := by
  simp [add, globals, structs, enums, functions]

end

namespace Holds

variable {b : Blueprint} {m : Module}

theorem range (h : b.Holds m) (range : Range) : b.Holds { m with range := range } :=
  ⟨⟨h.path, h.imports, h.globals, h.structs, h.enums, h.functions, h.generics, h.others⟩, h.keyedGlobals,
    h.keyedStructs, h.keyedEnums⟩

theorem importPath (h : b.Holds m) {path : List String} (new : path ∉ b.imports) :
    Holds { b with imports := b.imports ++ [path] } (m.addImports [⟨path⟩]) := by
  have other : ¬ m.imports.contains ⟨path⟩ = true := by
    intro mem
    have there := List.mem_map_of_mem (f := ModulePath.names) (List.contains_iff_mem.1 mem)
    rw [h.imports] at there
    exact new there
  have added : m.addImports [⟨path⟩] = { m with imports := m.imports ++ [⟨path⟩] } := if_neg other
  rw [added]
  refine ⟨⟨h.path, ?_, h.globals, h.structs, h.enums, h.functions, h.generics, h.others⟩, h.keyedGlobals,
    h.keyedStructs, h.keyedEnums⟩
  rw [List.map_append, h.imports]
  rfl

/-- A table with one entry more, under a new name, is described by one entry more. -/
theorem map_values_insert {α γ : Type} {t : Table α} {key : α → String} (keyed : t.KeyedBy key) {f : α → γ}
    {g : γ → String} (named : ∀ a, g (f a) = key a) {cs : List γ} (values : t.values.map f = cs) {a : α} {c : γ}
    (read : f a = c) (new : g c ∉ cs.map g) : (t.insert (key a) a).values.map f = cs ++ [c] := by
  have names : cs.map g = t.values.map key := by
    rw [← values, List.map_map]
    exact List.map_congr_left fun a _ => named a
  rw [keyed.values_insert (by rwa [← names, ← named, read]), List.map_append, values, List.map_singleton, read]

theorem global (h : b.Holds m) {s : Slot} {v : Variable} (read : globalEntry v = (s.entry, false))
    (new : s.name ∉ b.globals.map Slot.name) : (b.add (.global s)).Holds (m.addVariables [v]) := by
  obtain ⟨globals, structs, enums, functions⟩ := b.add_global s
  refine ⟨⟨h.path, h.imports, ?_, structs ▸ h.structs, enums ▸ h.enums, functions ▸ h.functions, h.generics,
    h.others⟩, h.keyedGlobals.insert rfl, h.keyedStructs, h.keyedEnums⟩
  rw [globals, List.map_append]
  refine map_values_insert h.keyedGlobals (g := fun entry => entry.1.1) (fun _ => rfl) h.globals read ?_
  rwa [List.map_map]

theorem struct (h : b.Holds m) {name : String} {members : List Slot} {a : Struct}
    (read : structEntry a = (name, false, members.map Slot.entry)) (new : name ∉ b.structs.map Prod.fst) :
    (b.add (.struct name members)).Holds { m with structs := m.structs.insert a.name a } := by
  obtain ⟨structs, globals, enums, functions⟩ := b.add_struct name members
  refine ⟨⟨h.path, h.imports, globals ▸ h.globals, ?_, enums ▸ h.enums, functions ▸ h.functions, h.generics,
    h.others⟩, h.keyedGlobals, h.keyedStructs.insert rfl, h.keyedEnums⟩
  rw [structs, List.map_append]
  refine map_values_insert h.keyedStructs (g := Prod.fst) (fun _ => rfl) h.structs read ?_
  rwa [List.map_map]

theorem enum (h : b.Holds m) {name : String} {enumerators : List String} {e : Enum}
    (read : enumEntry e = (name, "", enumerators.map fun name => (name, ""))) (new : name ∉ b.enums.map Prod.fst) :
    (b.add (.enum name enumerators)).Holds { m with enums := m.enums.insert e.name e } := by
  obtain ⟨enums, globals, structs, functions⟩ := b.add_enum name enumerators
  refine ⟨⟨h.path, h.imports, globals ▸ h.globals, structs ▸ h.structs, ?_, functions ▸ h.functions, h.generics,
    h.others⟩, h.keyedGlobals, h.keyedStructs, h.keyedEnums.insert rfl⟩
  rw [enums, List.map_append]
  refine map_values_insert h.keyedEnums (g := Prod.fst) (fun _ => rfl) h.enums read ?_
  rwa [List.map_map]

theorem function (h : b.Holds m) {head : Slot} {parameters : List Slot} {f : Function}
    (read : functionEntry f = (.free, head.entry, parameters.map fun s => (s.entry, some ⟨false, none⟩))) :
    (b.add (.function head parameters)).Holds { m with functions := m.functions ++ [f] } := by
  obtain ⟨functions, globals, structs, enums⟩ := b.add_function head parameters
  refine ⟨⟨h.path, h.imports, globals ▸ h.globals, structs ▸ h.structs, enums ▸ h.enums, ?_, h.generics,
      h.others⟩,
    h.keyedGlobals, h.keyedStructs, h.keyedEnums⟩
  rw [functions, List.map_append, List.map_append, h.functions, List.map_singleton, List.map_singleton, read]

end Holds

/-! ## Paths -/

/-- The tokens of a path behind its first name. -/
def tailTokens (names : List String) : List Token :=
  names.flatMap fun name => [⟨.colonColon, "::"⟩, ⟨.ident, name⟩]

theorem tokens_path (name : String) (names : List String) :
    (pathTree (name :: names)).tokens = ⟨.ident, name⟩ :: tailTokens names := by
  have tail : Tree.tokensOfList (pathTail names) = tailTokens names := by
    induction names with
    | nil => rfl
    | cons name names ih => exact congrArg (fun ts => ⟨.colonColon, "::"⟩ :: ⟨.ident, name⟩ :: ts) ih
  rw [pathTree, intersperse_path, ← tail]
  rfl

theorem pathTail_tailTokens (names : List String) : Token.PathTail (tailTokens names) := by
  induction names with
  | nil => exact .nil
  | cons name names ih => exact .cons rfl rfl ih

theorem namesOf_tailTokens (names : List String) : ModulePath.namesOf (tailTokens names) = names := by
  induction names with
  | nil => rfl
  | cons name names ih => exact congrArg (name :: ·) ih

theorem isPlain_tailTokens {names : List String} (h : ∀ name ∈ names, IsName name) :
    ∀ t ∈ tailTokens names, t.IsPlain := by
  intro t mem
  obtain ⟨name, hname, mem⟩ := List.mem_flatMap.1 mem
  rcases List.mem_cons.1 mem with rfl | mem
  · exact ⟨by decide, nofun, fun _ => rfl, nofun⟩
  · rw [List.mem_singleton.1 mem]
    exact (h name hname).isPlain

theorem parse_path {path : List String} (h : IsPath path) :
    ModulePath.parse (pathTree path).compactText = ⟨path⟩ := by
  obtain ⟨some, names⟩ := h
  obtain ⟨name, rest, rfl⟩ := List.exists_cons_of_ne_nil some
  have spelled : Token.PathTokens (⟨.ident, name⟩ :: tailTokens rest) := .name rfl (pathTail_tailTokens rest)
  have significant :
      Token.significant (⟨.ident, name⟩ :: tailTokens rest) = ⟨.ident, name⟩ :: tailTokens rest :=
    List.filter_eq_self.2 fun t mem => by rw [spelled.significant t mem]; rfl
  have plain : ∀ t ∈ (⟨.ident, name⟩ :: tailTokens rest : List Token), t.IsPlain :=
    List.forall_mem_cons.2 ⟨(names name List.mem_cons_self).isPlain,
      isPlain_tailTokens fun name mem => names name (List.mem_cons_of_mem _ mem)⟩
  rw [Tree.compactText, tokens_path, List.dropWhile_cons_of_neg Bool.false_ne_true,
    ModulePath.parse_joinCompact (by rwa [significant]) plain, significant]
  exact congrArg ModulePath.mk (congrArg (name :: ·) (namesOf_tailTokens rest))

/-! ## One declaration after the other -/

/-- The module is open, it is the only one, and it holds what was read so far. -/
structure Reading (b : Blueprint) (s : OutlineState) : Prop where
  isOpen : s.isOpen = true
  free : s.scope.genericParameters = []
  only : ∃ m, s.unit.modules.entries = [(s.scope.moduleName, m)] ∧ b.Holds m

namespace Reading

variable {b b' : Blueprint} {s : OutlineState}

theorem modifyModule (h : b.Reading s) {f : Module → Module} (step : ∀ m, b.Holds m → b'.Holds (f m)) :
    b'.Reading (s.modifyModule f) := by
  obtain ⟨m, entries, holds⟩ := h.only
  refine ⟨h.isOpen, h.free, f m, ?_, step m holds⟩
  have modified : (s.modifyModule f).unit.modules.entries =
      s.unit.modules.entries.map fun e => (e.1, if e.1 = s.scope.moduleName then f e.2 else e.2) := rfl
  rw [modified, entries, List.map_singleton, if_pos rfl]
  rfl

theorem extendRegion (h : b.Reading s) (stop : Nat) : b.Reading (s.extendRegion stop) :=
  h.modifyModule fun _ holds => holds.range _

theorem openModule (h : b.Reading s) : s.openModule = s :=
  if_pos h.isOpen

/-- What a builder gives comes into the module. -/
theorem build (h : b.Reading s) {α : Type} {builder : Outline α} {add : α → Module → Module} {P : α → Prop}
    (gives : Gives s.scope builder P) (step : ∀ a m, P a → b.Holds m → b'.Holds (add a m)) :
    b'.Reading (s.build builder add) := by
  have after : b.Reading { s with pending := (builder.result s.scope s.pending).2 } := ⟨h.isOpen, h.free, h.only⟩
  rw [OutlineState.build_eq]
  exact after.modifyModule fun m => step _ m (gives s.pending)

/-- An item whose name is new is read. -/
theorem item (h : b.Reading s) {item : Item} (proper : item.IsProper) (new : b.Admits item) (previous : List Tree)
    (start : Nat) : (b.add item).Reading (s.step previous ⟨start, item.tree⟩) := by
  cases item with
  | global slot =>
    have step : s.step previous ⟨start, (Item.global slot).tree⟩ =
        s.openModule.declare .globalVarDecl ⟨start, (Item.global slot).tree⟩ (commentBefore? previous) := rfl
    rw [step, h.openModule]
    refine (h.build (gives_global proper h.free start _) fun vs m read holds => ?_).extendRegion _
    obtain ⟨v, rfl, read⟩ := read
    exact holds.global read new
  | struct name members =>
    have step : s.step previous ⟨start, (Item.struct name members).tree⟩ =
        s.openModule.declare .structDef ⟨start, (Item.struct name members).tree⟩ (commentBefore? previous) := rfl
    rw [step, h.openModule]
    exact (h.build (gives_struct proper h.free start _) fun a m read holds => holds.struct read new).extendRegion _
  | enum name enumerators =>
    have step : s.step previous ⟨start, (Item.enum name enumerators).tree⟩ =
        s.openModule.declare .enumDef ⟨start, (Item.enum name enumerators).tree⟩ (commentBefore? previous) := rfl
    rw [step, h.openModule]
    exact (h.build (gives_enum name enumerators start _) fun e m read holds => holds.enum read new).extendRegion _
  | function head parameters =>
    have step : s.step previous ⟨start, (Item.function head parameters).tree⟩ =
        s.openModule.declare .fnDef ⟨start, (Item.function head parameters).tree⟩ (commentBefore? previous) := rfl
    rw [step, h.openModule]
    exact (h.build (gives_function proper h.free start _) fun f m read holds => holds.function read).extendRegion _

/-- An import is read. -/
theorem importPath (h : b.Reading s) {path : List String} (proper : IsPath path) (new : path ∉ b.imports)
    (previous : List Tree) (start : Nat) :
    Reading { b with imports := b.imports ++ [path] } (s.step previous ⟨start, importTree path⟩) := by
  have step : s.step previous ⟨start, importTree path⟩ = (s.openModule.modifyModule
      (·.addImports ([ModulePath.parse (pathTree path).compactText].filter fun path => !path.isEmpty))).extendRegion
        (Place.mk start (importTree path)).stop := rfl
  have kept : [ModulePath.mk path].filter (fun path => !path.isEmpty) = [⟨path⟩] :=
    List.filter_cons_of_pos (by simpa [ModulePath.isEmpty] using proper.1)
  rw [step, h.openModule, parse_path proper, kept]
  exact (h.modifyModule fun m holds => holds.importPath new).extendRegion _

end Reading

/-- The module declaration is read first. -/
theorem reading_module {path : List String} (proper : IsPath path) (doc : DocId) (lines : LineTable)
    (previous : List Tree) (start : Nat) :
    Reading ⟨path, [], []⟩ ((OutlineState.start doc lines).step previous ⟨start, moduleTree path⟩) := by
  have step : (OutlineState.start doc lines).step previous ⟨start, moduleTree path⟩ =
      (OutlineState.start doc lines).declareModule ⟨start, moduleTree path⟩ (commentBefore? previous) := rfl
  have some : ¬ (ModulePath.mk path).isEmpty = true := by simpa [ModulePath.isEmpty] using proper.1
  have found : (Place.mk start (moduleTree path)).child? .modulePath = .some ⟨_, pathTree path⟩ := rfl
  rw [step, OutlineState.declareModule, found]
  dsimp only
  rw [parse_path proper, if_neg some]
  exact ⟨rfl, rfl, _, rfl, ⟨rfl, rfl, rfl, rfl, rfl, rfl, ⟨rfl, rfl⟩, rfl, rfl, rfl, rfl, rfl, rfl⟩,
    Table.keyedBy_empty, Table.keyedBy_empty, Table.keyedBy_empty⟩

variable {b : Blueprint} {s : OutlineState}

/-- The items are read, one after the other. -/
theorem Reading.items (proper : b.IsProper) {front items : List Item} (all : b.items = front ++ items)
    (h : Reading { b with items := front } s) (start : Nat) (previous : List Tree) :
    b.Reading ((placesWithPrevious start previous (items.map Item.tree)).foldl
      (fun s part => s.step part.1 part.2) s) := by
  induction items generalizing front s start previous with
  | nil =>
    rw [List.append_nil] at all
    subst all
    exact h
  | cons item items ih =>
    have itemProper : item.IsProper := proper.items item (by rw [all]; exact List.mem_append_right _ List.mem_cons_self)
    exact ih (by rw [all, List.append_assoc]; rfl)
      (h.item itemProper (proper.admits all) previous start) _ _

/-- The imports are read, one after the other, and then the items. -/
theorem Reading.imports (proper : b.IsProper) {front paths : List (List String)} (all : b.imports = front ++ paths)
    (h : Reading ⟨b.path, front, []⟩ s) (start : Nat) (previous : List Tree) :
    b.Reading ((placesWithPrevious start previous (paths.map importTree ++ b.items.map Item.tree)).foldl
      (fun s part => s.step part.1 part.2) s) := by
  induction paths generalizing front s start previous with
  | nil =>
    rw [List.append_nil] at all
    subst all
    exact Reading.items proper rfl h start previous
  | cons path paths ih =>
    have mem : path ∈ b.imports := by
      rw [all]
      exact List.mem_append_right _ List.mem_cons_self
    have new : path ∉ front := by
      have nodup := proper.imports.2
      rw [all] at nodup
      exact fun mem => (List.nodup_append.1 nodup).2.2 _ mem _ List.mem_cons_self rfl
    exact ih (by rw [all, List.append_assoc]; rfl)
      (h.importPath (proper.imports.1 path mem) new previous start) _ _

/-- The tree of a blueprint gives one module, which the blueprint describes. -/
theorem outline_tree (proper : b.IsProper) (doc : DocId) (lines : LineTable) :
    ∃ m, (outline doc lines b.tree).1.modules.values = [m] ∧ b.Describes m := by
  have module := reading_module proper.path doc lines [] 0
  have whole := Reading.imports proper rfl module (0 + (moduleTree b.path).width) [moduleTree b.path]
  have done := whole.extendRegion lines.byteSize
  rw [← whole.openModule] at done
  obtain ⟨m, entries, holds⟩ := done.only
  exact ⟨m, congrArg (List.map Prod.snd) entries, holds.toDescribes⟩

/-! ## The text of a blueprint -/

theorem memberEntry_eraseRanges (m : Member) : memberEntry m.eraseRanges = memberEntry m := by
  obtain ⟨_, _, _, _, _, _, _⟩ := m
  simp only [memberEntry, Member.eraseRanges]

/-- What is compared does not depend on the ranges. -/
theorem describes_eraseRanges {m : Module} : b.Describes m.eraseRanges ↔ b.Describes m := by
  have globals : m.eraseRanges.globals.values.map globalEntry = m.globals.values.map globalEntry := by
    simp [Module.eraseRanges, Function.comp_def, globalEntry, Variable.eraseRanges]
  have structs : m.eraseRanges.structs.values.map structEntry = m.structs.values.map structEntry := by
    simp [Module.eraseRanges, Function.comp_def, structEntry, Aggregate.eraseRanges, memberEntry_eraseRanges]
  have enums : m.eraseRanges.enums.values.map enumEntry = m.enums.values.map enumEntry := by
    simp [Module.eraseRanges, Function.comp_def, enumEntry, Enum.eraseRanges, Enumerator.eraseRanges]
  have functions : m.eraseRanges.functions.map functionEntry = m.functions.map functionEntry := by
    simp [Module.eraseRanges, Function.comp_def, functionEntry, C3Lens.Function.eraseRanges, parameterEntry,
      Variable.eraseRanges]
  have others : (m.eraseRanges.bitstructs.values = [] ∧ m.eraseRanges.faults.values = [] ∧
      m.eraseRanges.faultConstants.values = [] ∧ m.eraseRanges.aliases.values = [] ∧
      m.eraseRanges.distincts.values = [] ∧ m.eraseRanges.interfaces.values = []) ↔
      (m.bitstructs.values = [] ∧ m.faults.values = [] ∧ m.faultConstants.values = [] ∧ m.aliases.values = [] ∧
        m.distincts.values = [] ∧ m.interfaces.values = []) := by
    simp [Module.eraseRanges]
  constructor
  · intro h
    exact ⟨h.path, h.imports, globals ▸ h.globals, structs ▸ h.structs, enums ▸ h.enums, functions ▸ h.functions,
      h.generics, others.1 h.others⟩
  · intro h
    exact ⟨h.path, h.imports, globals.trans h.globals, structs.trans h.structs, enums.trans h.enums,
      functions.trans h.functions, h.generics, others.2 h.others⟩

end Blueprint

end C3Lens
