import C3Lens.Proofs.Lookup.Unique
import C3Lens.Proofs.Workspace.Shelves

/-!
# Where the entries of the index lead

An entry of the index keeps the unit, the module and the name of a declaration, and it is led back to a
declaration by these alone (`Workspace.symbolAt?`): the kind and the place of the name do not count, unless a
module is meant. A name is looked up in one kind of declaration after the other, which is not the order in
which the declarations are indexed. `leads_of_entry`: in a workspace that is reached, every entry leads to the
first declaration of its name in that order (`Module.inLookupOrder`). That is its own declaration, as long as
no declaration in front has its name; `misled_entry` is a struct behind a variable of its name.

All of this needs the entries to be those of the units (`Lists`). A document that is moved to the id of
another one, and a library that is put in the place of a document, leave entries of what was there
(`Action.KeepsApart`).
-/

namespace C3Lens

/-! ## The order of lookup -/

namespace Module

/-- The declarations in the order in which a name is looked up among them. -/
def inLookupOrder (m : Module) : List Symbol :=
  m.globals.values.map .variable ++ m.enums.values.map .enum ++ m.faults.values.map .fault ++
  m.structs.values.map .aggregate ++ m.bitstructs.values.map .bitstruct ++ m.aliases.values.map .alias ++
  m.distincts.values.map .distinct ++ m.interfaces.values.map .interface ++
  m.faultConstants.values.map .faultConstant ++ m.functions.map .function

variable {m : Module} {s : Symbol}

theorem mem_inLookupOrder_iff : s ∈ m.inLookupOrder ↔ s ∈ m.children := by
  rw [mem_children_iff]
  cases s <;> simp [inLookupOrder, Holds]

theorem kind_ne_module_of_mem_children (h : s ∈ m.children) : s.kind ≠ .module := by
  rw [mem_children_iff] at h
  cases s with
  | module | interfaceMethod | enumerator | member => exact absurd h id
  | aggregate a =>
    rw [Symbol.kind]
    intro same
    split at same
    · cases same
    · cases same
  | _ =>
    intro same
    cases same

/-- In a table of names the value of a name is the only one that is called so. -/
theorem find?_map_of_keyedBy {α : Type} {t : Table α} {key : α → String} (keyed : t.KeyedBy key)
    (symbol : α → Symbol) (named : ∀ a, (symbol a).name = key a) (name : String) :
    (t.values.map symbol).find? (·.name == name) = (t.get? name).map symbol := by
  have called : ∀ {a}, ((symbol a).name == name) = true → key a = name := by
    intro a same
    rw [← named a]
    exact beq_iff_eq.1 same
  cases found : t.get? name with
  | none =>
    rw [Option.map_none, List.find?_eq_none]
    intro s hs same
    obtain ⟨a, ha, rfl⟩ := List.mem_map.1 hs
    have there := keyed.get?_of_mem ha
    rw [called same, found] at there
    cases there
  | some a =>
    cases first : (t.values.map symbol).find? (·.name == name) with
    | none =>
      have mem : symbol a ∈ t.values.map symbol :=
        List.mem_map_of_mem (Table.mem_values_iff.2 ⟨name, found⟩)
      have own : (symbol a).name = name := (named a).trans (keyed name a found)
      exact absurd (beq_iff_eq.2 own) (List.find?_eq_none.1 first _ mem)
    | some s =>
      obtain ⟨b, hb, rfl⟩ := List.mem_map.1 (List.mem_of_find?_eq_some first)
      have own : ((symbol b).name == name) = true := List.find?_some (p := fun s : Symbol => s.name == name) first
      have there := keyed.get?_of_mem hb
      rw [called own, found] at there
      cases there
      rfl

/-- A module finds by a name the first declaration that is called so. -/
theorem Named.child?_eq (h : m.Named) (name : String) :
    m.child? name = m.inLookupOrder.find? (·.name == name) := by
  have functions : (m.functions.map Symbol.function).find? (·.name == name) =
      (m.function? name).map .function := by
    rw [List.find?_map, function?]
    rfl
  simp only [inLookupOrder, List.find?_append, Option.or_assoc, functions,
    find?_map_of_keyedBy h.globals .variable fun _ => rfl,
    find?_map_of_keyedBy h.enums .enum fun _ => rfl,
    find?_map_of_keyedBy h.faults .fault fun _ => rfl,
    find?_map_of_keyedBy h.structs .aggregate fun _ => rfl,
    find?_map_of_keyedBy h.bitstructs .bitstruct fun _ => rfl,
    find?_map_of_keyedBy h.aliases .alias fun _ => rfl,
    find?_map_of_keyedBy h.distincts .distinct fun _ => rfl,
    find?_map_of_keyedBy h.interfaces .interface fun _ => rfl,
    find?_map_of_keyedBy h.faultConstants .faultConstant fun _ => rfl]
  simp only [Module.child?, Option.or_eq_orElse]
  rfl

end Module

/-! ## The entries of a store -/

/-- Every entry of the index is the location of a declaration in the unit of the entry. -/
def Lists (s : SymbolStore) (names : NameIndex) : Prop :=
  ∀ l ∈ names.entries, ∃ u, s.unit? l.unit = some u ∧ l ∈ u.locations

namespace Lists

variable {s : SymbolStore} {names : NameIndex}

/-- A unit is registered and indexed that has no entries yet. -/
theorem register (h : Lists s names) {u : SourceUnit} (absent : ∀ l ∈ names.entries, l.unit ≠ u.doc)
    (p : Pending) : Lists (s.register u p) (names.insertUnit u) := by
  have resolved : ∀ doc v, (s.placed u p).unit? doc = some v →
      ∃ w, (s.register u p).unit? doc = some w ∧ w.locations = v.locations := by
    intro doc v placed
    obtain ⟨w, found, resolves⟩ := SymbolStore.exists_unit?_register placed
    exact ⟨w, found, resolves.locations_eq⟩
  intro l hl
  rcases NameIndex.mem_entries_insertUnit.1 hl with ⟨new, -⟩ | before
  · have unit := SourceUnit.unit_of_mem_locations new
    obtain ⟨w, found, same⟩ := resolved l.unit u (by rw [SymbolStore.unit?_placed, if_pos unit])
    exact ⟨w, found, same ▸ new⟩
  · obtain ⟨v, unit, listed⟩ := h l before
    obtain ⟨w, found, same⟩ := resolved l.unit v (by rw [SymbolStore.unit?_placed, if_neg (absent l before), unit])
    exact ⟨w, found, same ▸ listed⟩

theorem delete (h : Lists s names) (doc : DocId) : Lists (s.delete doc) (names.clear doc) := by
  intro l hl
  obtain ⟨before, other⟩ := NameIndex.mem_entries_clear.1 hl
  obtain ⟨u, unit, listed⟩ := h l before
  refine ⟨u, ?_, listed⟩
  rw [SymbolStore.unit?_delete, if_neg other, unit]

/-- A document is read in place of the unit that it had. -/
theorem read (h : Lists s names) {u : SourceUnit} {doc : DocId} (own : u.doc = doc) (p : Pending) :
    Lists (s.register u p) ((names.clear doc).insertUnit u) := by
  have cleared : Lists s (names.clear doc) := fun l hl => h l (NameIndex.mem_entries_clear.1 hl).1
  exact cleared.register (fun l hl => own ▸ (NameIndex.mem_entries_clear.1 hl).2) p

/-- An id that is not registered has no entries. -/
theorem absent_of_contains (h : Lists s names) {doc : DocId} (free : s.contains doc = false) :
    ∀ l ∈ names.entries, l.unit ≠ doc := by
  rintro l hl rfl
  obtain ⟨u, unit, -⟩ := h l hl
  have known : s.contains l.unit = true := Table.contains_iff.2 (Table.mem_names_iff.2 ⟨u, unit⟩)
  rw [known] at free
  cases free

end Lists

/-! ## Workspaces -/

namespace Workspace

/-- Documents are moved one after the other, none of them to an id that is then registered. -/
def MovesApart (w : Workspace) : List (DocId × DocId) → Prop
  | [] => True
  | (old, new) :: moves => w.symbols.contains new = false ∧ (w.renameDocument old new).MovesApart moves

/-- The documents of a directory that is renamed, and what they are renamed to. -/
def movesUnder (w : Workspace) (old new : String) : List (DocId × DocId) :=
  (w.docsUnder (Text.trimRight (· == '/') old)).map fun doc =>
    (doc, ⟨Text.trimRight (· == '/') new ++ (Text.afterStart? (Text.trimRight (· == '/') old) doc.text).getD ""⟩)

end Workspace

/-- No document is moved to an id that is registered, and no library is put in the place of a document. -/
def Action.KeepsApart (w : Workspace) : Action → Prop
  | .renameDocument _ new => w.symbols.contains new = false
  | .renameUnder old new => w.MovesApart (w.movesUnder old new)
  | .setVersion _ version _ _ => w.dropLibrary.symbols.contains (Library.docOf version) = false
  | _ => True

namespace Workspace

section Steps

variable {w : Workspace}

theorem lists_refresh (h : Lists w.symbols w.names) (doc : DocId) :
    Lists (w.refresh doc).symbols (w.refresh doc).names := by
  rw [refresh]
  split
  · exact h
  next d _ => exact h.read (outline_sound doc d.lines d.parse.tree).1 _

theorem lists_indexDocument (h : Lists w.symbols w.names) (doc : DocId) (text : String) :
    Lists (w.indexDocument doc text).symbols (w.indexDocument doc text).names := by
  have put : Lists (w.setDocument (Document.ofText doc text 0)).symbols
      (w.setDocument (Document.ofText doc text 0)).names := h
  rw [indexDocument]
  split
  · exact h
  · exact lists_refresh put doc

/-- A document is moved to a free id. -/
theorem lists_renameDocument (h : Lists w.symbols w.names) {old new : DocId}
    (free : w.symbols.contains new = false) :
    Lists (w.renameDocument old new).symbols (w.renameDocument old new).names := by
  show Lists (w.symbols.rename old new) (w.renameDocument old new).names
  cases unit : w.symbols.unit? old with
  | none =>
    rw [names_renameDocument_of_none unit, SymbolStore.rename, unit]
    exact fun l hl => h l (NameIndex.mem_entries_clear.1 hl).1
  | some u =>
    rw [names_renameDocument unit]
    intro l hl
    rw [SymbolStore.unit?_rename unit]
    rcases NameIndex.mem_entries_insertUnit.1 hl with ⟨new', -⟩ | left
    · have moved : l.unit = new := SourceUnit.unit_of_mem_locations new'
      rw [if_pos moved]
      exact ⟨_, rfl, new'⟩
    · obtain ⟨before, other⟩ := NameIndex.mem_entries_clear.1 left
      rw [if_neg (h.absent_of_contains free l before), if_neg other]
      exact h l before

theorem lists_moves {moves : List (DocId × DocId)} (h : Lists w.symbols w.names) (apart : w.MovesApart moves) :
    Lists (moves.foldl (fun w m => w.renameDocument m.1 m.2) w).symbols
      (moves.foldl (fun w m => w.renameDocument m.1 m.2) w).names := by
  induction moves generalizing w with
  | nil => exact h
  | cons m moves ih => exact ih (lists_renameDocument h apart.1) apart.2

theorem lists_setVersion (h : Lists w.symbols w.names) (files : FileTree) (version : String)
    (root? cache? : Option String) (free : w.dropLibrary.symbols.contains (Library.docOf version) = false) :
    Lists (w.setVersion files version root? cache?).1.symbols (w.setVersion files version root? cache?).1.names := by
  have dropped : Lists w.dropLibrary.symbols w.dropLibrary.names := by
    rw [dropLibrary]
    split
    · exact h
    next doc _ => exact h.delete doc
  refine dropped.register ?_ _
  rw [Library.doc_load]
  exact dropped.absent_of_contains free

theorem lists_act (h : Lists w.symbols w.names) {a : Action} (apart : a.KeepsApart w) :
    Lists (w.act a).symbols (w.act a).names := by
  cases a with
  | openDocument doc text version => exact lists_refresh (w := w.setDocument _) h doc
  | indexDocument doc text => exact lists_indexDocument h doc text
  | changeDocument doc edits version =>
    rw [act, changeDocument]
    split
    · exact h
    next d _ => exact lists_refresh (w := w.setDocument _) h doc
  | refresh doc => exact lists_refresh h doc
  | closeDocument doc => exact h
  | deleteDocument doc => exact h.delete doc
  | deleteUnder directory =>
    exact deleteUnder_induct (P := fun w => Lists w.symbols w.names) h fun _ h doc _ => h.delete doc
  | renameDocument old new => exact lists_renameDocument h apart
  | renameUnder old new =>
    have moved := lists_moves h apart
    rw [movesUnder, List.foldl_map] at moved
    exact moved
  | loadFiles files paths =>
    exact loadFiles_induct (P := fun w => Lists w.symbols w.names) h fun w hw path _ text =>
      lists_indexDocument hw (DocId.ofPath path) text
  | setVersion files version root? cache? => exact lists_setVersion h files version root? cache? apart
  | setReports reports => exact h

theorem lists_of_reachable {w : Workspace} (h : Reachable (fun w a => a.KeepsApart w) w) :
    Lists w.symbols w.names :=
  h.induct (P := fun w => Lists w.symbols w.names) (fun _ hl => absurd hl List.not_mem_nil)
    fun _ _ lists apart => lists_act lists apart

end Steps

end Workspace

/-! ## Cached libraries -/

/-- What comes about in a workspace has its declarations under their names. -/
theorem SourceUnit.Produced.named {u : SourceUnit} (h : u.Produced) : u.Named := by
  induction h with
  | read doc text _ => exact named_outline _ _ _
  | none doc => exact fun m hm => absurd hm List.not_mem_nil
  | merged _ _ ih ih' => exact ih.foldl_register ih'
  | @resolved s u v doc p _ _ found ih ih' =>
    have before : s.Every Module.Named := by
      intro m hm
      obtain ⟨name, w, key, hw, hm⟩ := SymbolStore.mem_modules_iff.1 hm
      exact ih' name w hw m (Table.mem_values_iff.2 ⟨key, hm⟩)
    intro m hm
    obtain ⟨name, stands⟩ := Table.mem_values_iff.1 hm
    exact before.register Module.stable_named ih p m
      (SymbolStore.mem_modules_iff.2 ⟨doc.text, v, name, found, stands⟩)
  | withDoc doc _ ih => exact ih
  | moved doc _ ih => exact Table.forall_values_map fun m hm => (ih m hm).setDoc doc

theorem Action.TrustsCache.readsNamed {a : Action} (h : a.TrustsCache) : a.ReadsNamed := by
  cases a with
  | setVersion files version root? cache? =>
    intro folder l known found
    rw [Library.ofCache?] at found
    split at found
    · cases found
    next u read =>
      cases found
      exact (h folder u known read).named
  | _ => trivial

/-! ## Where an entry leads -/

namespace Workspace

variable {w : Workspace}

/-- An entry is that of a module or of one of its declarations, and its unit has the module under the path
of the entry. -/
theorem origin_of_entry (lists : Lists w.symbols w.names) (shelved : w.symbols.Shelved) (sited : w.Sited)
    {l : SymbolLocation} (hl : l ∈ w.names.entries) :
    ∃ u, w.symbols.unit? l.unit = some u ∧ ∃ m ∈ u.modules.values, m.isPrivate = false ∧
      u.module? l.modulePath.text = some m ∧
      ∃ s, (s = .module m ∨ s ∈ m.children) ∧ l = .ofSymbol l.unit s := by
  obtain ⟨u, unit, listed⟩ := lists l hl
  obtain ⟨m, hm, inside⟩ := List.mem_flatMap.1 listed
  obtain ⟨hm, isPublic⟩ := List.mem_filter.1 hm
  obtain ⟨s, hs, location⟩ := List.mem_map.1 inside
  have stands : u.modules.get? m.name = some m := (shelved.units _ u unit).keyed.get?_of_mem hm
  have name : m.name = m.modulePath.text := (shelved.units _ u unit).named m hm
  have known : m ∈ w.symbols.modules := SymbolStore.mem_modules_iff.2 ⟨_, u, _, unit, stands⟩
  have path : l.modulePath = m.modulePath := by
    rw [← location]
    rcases List.mem_cons.1 hs with rfl | child
    · rfl
    · exact ((sited.modules m known).children s child).declaration.path
  have own : l.unit = u.doc := SourceUnit.unit_of_mem_locations listed
  refine ⟨u, unit, m, hm, ?_, ?_, s, List.mem_cons.1 hs, ?_⟩
  · rw [Bool.not_eq_true'] at isPublic
    exact isPublic
  · rw [path, ← name]
    exact stands
  · rw [own]
    exact location.symm

/-- Every entry of the index in a workspace that is reached is that of a public module or of a declaration of
one, which its unit still has. The entry of a module leads to the module. The entry of a declaration leads to
the first declaration of its name in the order of lookup. So it leads to a symbol of its kind, its name, its
document and its range, if no declaration in front has its name. -/
theorem leads_of_entry (h : Reachable (fun w a => a.KeepsApart w ∧ a.TrustsCache) w) :
    ∀ l ∈ w.names.entries, ∃ u, w.symbols.unit? l.unit = some u ∧
      ∃ m ∈ u.modules.values, m.isPrivate = false ∧
        ((l = .ofSymbol l.unit (.module m) ∧ w.symbolAt? l = some (.module m)) ∨
          ∃ front s behind, m.inLookupOrder = front ++ s :: behind ∧ l = .ofSymbol l.unit s ∧
            w.symbolAt? l = (front ++ [s]).find? (·.name == l.name) ∧
            ((∀ r ∈ front, r.name ≠ l.name) → ∃ t, w.symbolAt? l = some t ∧
              t.kind = l.kind ∧ t.name = l.name ∧ t.doc = l.doc ∧ t.nameRange = l.nameRange)) := by
  have trusting : Reachable (fun _ a => a.TrustsCache) w :=
    h.induct .empty fun _ _ reached allowed => reached.act allowed.2
  have shelving : Reachable (fun _ a => a.ReadsShelved) w :=
    trusting.induct .empty fun _ _ reached trusts => reached.act trusts.readsShelved
  have naming : Reachable (fun _ a => a.ReadsNamed) w :=
    trusting.induct .empty fun _ _ reached trusts => reached.act trusts.readsNamed
  have lists : Lists w.symbols w.names :=
    lists_of_reachable (h.induct .empty fun _ _ reached allowed => reached.act allowed.1)
  intro l hl
  obtain ⟨u, unit, m, hm, isPublic, stands, s, which, location⟩ :=
    origin_of_entry lists (shelved_of_reachable shelving) (sited_of_reachable trusting) hl
  have known : m ∈ w.symbols.modules := SymbolStore.mem_modules_iff.2 ⟨_, u, _, unit, stands⟩
  have leads : w.symbolAt? l = if l.kind == .module then some (.module m) else m.child? l.name := by
    rw [symbolAt?, unit]
    show (u.module? l.modulePath.text).bind _ = _
    rw [stands]
    rfl
  refine ⟨u, unit, m, hm, isPublic, ?_⟩
  rcases which with rfl | child
  · left
    refine ⟨location, ?_⟩
    rw [leads, location]
    rfl
  · right
    have kind : (l.kind == .module) = false := by
      have other : l.kind = s.kind := congrArg SymbolLocation.kind location
      rw [other, beq_eq_false_iff_ne]
      exact Module.kind_ne_module_of_mem_children child
    have name : s.name = l.name := (congrArg SymbolLocation.name location).symm
    obtain ⟨front, behind, order⟩ := List.append_of_mem (Module.mem_inLookupOrder_iff.2 child)
    have first : w.symbolAt? l = (front ++ [s]).find? (·.name == l.name) := by
      rw [leads, kind, if_neg Bool.false_ne_true, ((named_of_reachable naming).modules m known).child?_eq, order,
        List.find?_append, List.find?_append, List.find?_cons, List.find?_cons, name, beq_self_eq_true]
    refine ⟨front, s, behind, order, location, first, fun alone => ⟨s, ?_, ?_⟩⟩
    · have none : front.find? (·.name == l.name) = none :=
        List.find?_eq_none.2 fun r hr => by
          rw [beq_iff_eq]
          exact alone r hr
      rw [first, List.find?_append, none, List.find?_cons, name, beq_self_eq_true]
      rfl
    · rw [location]
      exact ⟨rfl, rfl, rfl, rfl⟩

/-- The editor opens a document with a variable and a struct. -/
def variableAndStruct (global type : String) : List Action :=
  [.openDocument ⟨"file:///a.c3"⟩
    ("module lib;\nint " ++ global ++ ";\nstruct " ++ type ++ " { int x; }") 1]

theorem reachable_variableAndStruct (global type : String) :
    Reachable (fun w a => a.KeepsApart w ∧ a.TrustsCache) (run (variableAndStruct global type)) := by
  rw [variableAndStruct, ← List.nil_append [_], run_concat]
  exact Reachable.act .empty ⟨trivial, trivial⟩

theorem leads_of_variableAndStruct :
    Reachable (fun w a => a.KeepsApart w ∧ a.TrustsCache) (run (variableAndStruct "foo" "Foo")) ∧
      ∀ l ∈ (run (variableAndStruct "foo" "Foo")).names.entries, ∃ t,
        (run (variableAndStruct "foo" "Foo")).symbolAt? l = some t ∧ t.name = l.name := by
  have reachable := reachable_variableAndStruct "foo" "Foo"
  refine ⟨reachable, fun l hl => ?_⟩
  obtain ⟨u, -, m, -, -, ⟨location, leads⟩ | ⟨front, s, behind, -, location, leads, -⟩⟩ :=
    leads_of_entry reachable l hl
  · exact ⟨_, leads, (congrArg SymbolLocation.name location).symm⟩
  · cases found : (front ++ [s]).find? (·.name == l.name) with
    | none =>
      have name : s.name = l.name := (congrArg SymbolLocation.name location).symm
      have mem : s ∈ front ++ [s] := List.mem_append_right front (List.mem_singleton_self s)
      exact absurd (beq_iff_eq.2 name) (List.find?_eq_none.1 found s mem)
    | some t =>
      rw [found] at leads
      exact ⟨t, leads, beq_iff_eq.1 (List.find?_some (p := fun s : Symbol => s.name == l.name) found)⟩

/-- A struct has the name of a variable. Its entry leads to the variable. -/
theorem misled_entry :
    Reachable (fun w a => a.KeepsApart w ∧ a.TrustsCache) (run (variableAndStruct "Foo" "Foo")) ∧
      ¬ (∀ l ∈ (run (variableAndStruct "Foo" "Foo")).names.entries, ∃ t,
        (run (variableAndStruct "Foo" "Foo")).symbolAt? l = some t ∧ t.kind = l.kind ∧ t.nameRange = l.nameRange) ∧
      (run (variableAndStruct "Foo" "Foo")).names.entries.map (fun l => (l.qualifiedName, l.kind,
        ((run (variableAndStruct "Foo" "Foo")).symbolAt? l).map (·.kind))) =
          [("lib", .module, some .module), ("lib::Foo", .variable, some .variable),
            ("lib::Foo", .struct, some .variable)] := by
  have entries : (run (variableAndStruct "Foo" "Foo")).names.entries.map (fun l => (l.qualifiedName, l.kind,
      ((run (variableAndStruct "Foo" "Foo")).symbolAt? l).map (·.kind))) =
        [("lib", .module, some .module), ("lib::Foo", .variable, some .variable),
          ("lib::Foo", .struct, some .variable)] := by decide +kernel
  refine ⟨reachable_variableAndStruct _ _, fun all => ?_, entries⟩
  have kinds : ∀ e ∈ (run (variableAndStruct "Foo" "Foo")).names.entries.map (fun l => (l.qualifiedName, l.kind,
      ((run (variableAndStruct "Foo" "Foo")).symbolAt? l).map (·.kind))), e.2.2 = some e.2.1 := by
    refine List.forall_mem_map.2 fun l hl => ?_
    obtain ⟨t, leads, kind, -⟩ := all l hl
    rw [leads, Option.map_some, kind]
  rw [entries] at kinds
  exact absurd kinds (by decide)

end Workspace

end C3Lens
