import C3Lens.Proofs.Workspace.Sites

/-!
# Units and modules under their names

In every workspace that is reached each unit is registered under its own id, and each module stands in its
unit under its name, which is the text of its path (`shelved_of_reachable`). So a module is told by the id
of its unit and its name (`SymbolStore.Shelved.eq_of_name`). A cached library is read as it is, so it has to
hold its modules under their names (`Action.ReadsShelved`), as every library does that was written from a
workspace.
-/

namespace C3Lens

namespace SourceUnit

variable {u v : SourceUnit}

/-- The modules stand under their names, and these are the texts of their paths. -/
structure Shelved (u : SourceUnit) : Prop where
  keyed : u.modules.KeyedBy (·.name)
  named : ∀ m ∈ u.modules.values, m.name = m.modulePath.text

theorem shelved_ofDoc (doc : DocId) : (ofDoc doc).Shelved :=
  ⟨Table.keyedBy_empty, fun _ hm => absurd hm List.not_mem_nil⟩

theorem Sited.shelved (h : u.Sited) : u.Shelved :=
  ⟨h.keyed, fun m hm => (h.modules m hm).named⟩

/-- Resolution changes neither names nor paths. -/
theorem Shelved.of_skeleton (h : u.Shelved) (same : v.skeleton = u.skeleton) : v.Shelved := by
  refine ⟨keyed_of_skeleton same h.keyed, fun m hm => ?_⟩
  obtain ⟨n, hn, modules⟩ := exists_module_of_skeleton same hm
  have name : n.skeleton.name = m.skeleton.name := by rw [modules]
  have path : n.skeleton.modulePath = m.skeleton.modulePath := by rw [modules]
  show m.skeleton.name = m.skeleton.modulePath.text
  rw [← name, ← path]
  exact h.named n hn

theorem Shelved.register (h : u.Shelved) {m : Module} (named : m.name = m.modulePath.text) :
    (u.register m).Shelved := by
  refine ⟨keyed_register h.keyed m, forall_register h.named named fun k _ hk => ?_⟩
  obtain ⟨imports, same⟩ := k.addImports_eq m.imports
  rw [Module.merge, same]
  exact hk

theorem Shelved.setDoc (h : u.Shelved) (doc : DocId) : (u.setDoc doc).Shelved where
  keyed := h.keyed.map fun _ => rfl
  named := Table.forall_values_map fun m hm => h.named m hm

end SourceUnit

/-- A module that a document can declare is named by its path. -/
theorem Module.Declared.name_eq {src : Source} {m : Module} (h : m.Declared src) :
    m.name = m.modulePath.text := by
  induction h with
  | start => rfl
  | _ =>
    -- No declaration that is put into a module renames it.
    rename_i ih
    exact ih

theorem SourceUnit.shelved_outline (doc : DocId) (lines : LineTable) (tree : Tree) :
    (outline doc lines tree).1.Shelved := by
  obtain ⟨keyed, declared⟩ := declared_outline doc lines tree
  refine ⟨keyed, fun m hm => ?_⟩
  obtain ⟨name, found⟩ := Table.mem_values_iff.1 hm
  exact (declared name m found).name_eq

namespace SymbolStore

variable {s : SymbolStore}

/-- Units are registered under their own ids and hold their modules under their names. -/
structure Shelved (s : SymbolStore) : Prop where
  keyed : s.Keyed
  units : ∀ doc u, s.unit? doc = some u → u.Shelved

theorem shelved_empty : empty.Shelved :=
  ⟨fun _ _ found => absurd found nofun, fun _ _ found => absurd found nofun⟩

theorem Shelved.register (h : s.Shelved) {u : SourceUnit} (shelved : u.Shelved) (p : Pending) :
    (s.register u p).Shelved := by
  refine ⟨keyed_register h.keyed u p, fun doc v found => ?_⟩
  rcases unit?_register_skeleton found with ⟨-, same⟩ | ⟨w, known, same⟩
  · exact shelved.of_skeleton same
  · exact (h.units doc w known).of_skeleton same

theorem Shelved.delete (h : s.Shelved) (doc : DocId) : (s.delete doc).Shelved := by
  refine ⟨keyed_delete h.keyed doc, fun other u found => ?_⟩
  rw [unit?_delete] at found
  split at found
  · cases found
  · exact h.units other u found

theorem Shelved.rename (h : s.Shelved) (old new : DocId) : (s.rename old new).Shelved := by
  refine ⟨keyed_rename h.keyed old new, fun doc v found => ?_⟩
  rw [SymbolStore.rename] at found
  split at found
  · exact h.units doc v found
  next u unit =>
    have moved : ((s.units.erase old.text).insert new.text (u.setDoc new)).get? doc.text = some v := found
    rw [Table.get?_insert] at moved
    split at moved
    · cases moved
      exact (h.units old u unit).setDoc new
    · exact (h.delete old).units doc v moved

/-- A unit has one module of each name. -/
theorem Shelved.eq_of_name (h : s.Shelved) {doc : DocId} {u : SourceUnit} (unit : s.unit? doc = some u)
    {m n : Module} (hm : m ∈ u.modules.values) (hn : n ∈ u.modules.values) (name : m.name = n.name) : m = n := by
  have keyed := (h.units doc u unit).keyed
  have first : u.modules.get? m.name = some m := keyed.get?_of_mem hm
  have second : u.modules.get? n.name = some n := keyed.get?_of_mem hn
  rw [name, second] at first
  exact (Option.some.inj first).symm

/-- A registered unit is found under its own id. -/
theorem Shelved.unit?_doc (h : s.Shelved) {u : SourceUnit} (hu : u ∈ s.units.values) : s.unit? u.doc = some u := by
  have units : s.units.KeyedBy (·.doc.text) := h.keyed
  exact units.get?_of_mem hu

end SymbolStore

/-- A library that is read from a cache has its modules under their names. -/
def Action.ReadsShelved : Action → Prop
  | .setVersion files version _ cache? =>
    ∀ folder u, cache? = some folder → Library.readCache files folder version = .ok u → u.Shelved
  | _ => True

/-- What the program itself wrote to a cache is so. -/
theorem Action.TrustsCache.readsShelved {a : Action} (h : a.TrustsCache) : a.ReadsShelved := by
  cases a with
  | setVersion files version root? cache? => exact fun folder u known read => (h folder u known read).sited.shelved
  | _ => trivial

theorem Library.shelved_load {files : FileTree} {version : String} {root? cache? : Option String}
    (cached : (Action.setVersion files version root? cache?).ReadsShelved) :
    (load files version root? cache?).unit.Shelved := by
  refine load_induct (P := fun l => l.unit.Shelved) (SourceUnit.shelved_ofDoc _) (SourceUnit.shelved_ofDoc _)
    (fun l path h => ?_) fun folder u known read => ?_
  · rw [addSource]
    split
    · exact h
    next text _ =>
      have named := (SourceUnit.shelved_outline (DocId.ofPath path) (.ofString text)
        (Parse.ofString text).tree).named
      show (List.foldl SourceUnit.register l.unit (outlineOfText (DocId.ofPath path) text).1.modules.values).Shelved
      rw [outlineOfText]
      generalize (outline _ _ _).1.modules.values = ms at named
      generalize l.unit = unit at h
      induction ms generalizing unit with
      | nil => exact h
      | cons m ms ih =>
        obtain ⟨first, others⟩ := List.forall_mem_cons.1 named
        exact ih others (unit.register m) (h.register first)
  · have shelved := cached folder u known read
    exact ⟨shelved.keyed, shelved.named⟩

namespace Workspace

theorem shelved_act {w : Workspace} (h : w.symbols.Shelved) {a : Action} (reads : a.ReadsShelved) :
    (w.act a).symbols.Shelved := by
  refine act_keeps (P := fun w => w.symbols.Shelved) (fun w d _ _ hw => hw) ?_ (fun w doc hw => hw)
    (fun w doc hw => hw.delete doc) (fun w old new hw => hw.rename old new) ?_ (fun w reports hw => hw) h
  · intro w doc hw
    rw [Workspace.refresh]
    split
    · exact hw
    · exact hw.register (SourceUnit.shelved_outline _ _ _) _
  · rintro w files version root? cache? rfl hw
    have dropped : w.dropLibrary.symbols.Shelved := by
      rw [dropLibrary]
      split
      · exact hw
      · exact hw.delete _
    exact dropped.register (Library.shelved_load reads) _

theorem shelved_of_reachable {w : Workspace} (h : Reachable (fun _ a => a.ReadsShelved) w) : w.symbols.Shelved :=
  h.induct (P := fun w => w.symbols.Shelved) SymbolStore.shelved_empty fun _ _ hw reads => shelved_act hw reads

end Workspace

end C3Lens
