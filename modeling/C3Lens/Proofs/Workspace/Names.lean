import C3Lens.Proofs.Symbol.Names
import C3Lens.Proofs.SymbolStore.Modules
import C3Lens.Proofs.Workspace.Refresh

/-!
# Names in a workspace

In every reachable workspace each declaration stands under its name in its module, and each entry of
the index under the names that its location is cut into (`named_of_reachable`). What is read from
texts is so by the builders (`Module.Declared.named`). A cached library is read as it is, so it has to
hold declarations under their names (`Action.ReadsNamed`).
-/

namespace C3Lens

/-! ## Modules -/

theorem Module.Declared.named {src : Source} {m : Module} (h : m.Declared src) : m.Named := by
  induction h with
  | start =>
    exact ⟨Table.keyedBy_empty, Table.keyedBy_empty, Table.keyedBy_empty, Table.keyedBy_empty,
      Table.keyedBy_empty, Table.keyedBy_empty, Table.keyedBy_empty, Table.keyedBy_empty,
      Table.keyedBy_empty, fun _ hf => absurd hf List.not_mem_nil, fun _ hi => absurd hi List.not_mem_nil⟩
  | range _ _ ih => exact { ih with }
  | imports _ _ ih => exact { ih with }
  | function _ f vs parameters _ ih =>
    have named : f.Named := by
      rw [Function.Named, parameters]
      exact Table.keyedBy_ofList _ vs
    refine { ih with functions := fun g hg => ?_ }
    rcases List.mem_append.1 hg with old | new
    · exact ih.functions g old
    · rw [List.mem_singleton.1 new]
      exact named
  | struct _ _ _ _ _ ih => exact { ih with structs := ih.structs.insert rfl }
  | bitstruct _ _ _ _ ih => exact { ih with bitstructs := ih.bitstructs.insert rfl }
  | enum _ _ _ _ ih => exact { ih with enums := ih.enums.insert rfl }
  | fault _ _ _ _ ih => exact { ih with faults := ih.faults.insert rfl }
  | faultConstants _ cs _ ih => exact { ih with faultConstants := ih.faultConstants.foldl_insert_key cs }
  | aliased _ _ _ ih => exact { ih with aliases := ih.aliases.insert rfl }
  | distinct _ _ _ ih => exact { ih with distincts := ih.distincts.insert rfl }
  | interface _ i fs _ methods _ ih =>
    have named : i.Named := by
      rw [Interface.Named, methods]
      exact Table.keyedBy_ofList _ fs
    refine { ih with interfaces := ih.interfaces.insert rfl, methods := fun j hj => ?_ }
    rcases List.mem_cons.1 (Table.values_insert_subset _ _ _ hj) with rfl | old
    · exact named
    · exact ih.methods j old
  | globals _ vs _ ih => exact { ih with globals := ih.globals.foldl_insert_key vs }

theorem Module.stable_named : Module.Stable Module.Named where
  mapModule _ f h := h.mapModule f
  inherit _ _ structName typeName b _ h _ := h.inherit structName typeName b.members

namespace SourceUnit

/-- Every declaration of the unit stands under its name. -/
def Named (u : SourceUnit) : Prop :=
  ∀ m ∈ u.modules.values, m.Named

theorem Named.register {u : SourceUnit} (h : u.Named) {m : Module} (hm : m.Named) :
    (u.register m).Named :=
  forall_register h hm fun _ _ hk => hk.merge hm

theorem Named.foldl_register {u : SourceUnit} (h : u.Named) {ms : List Module} (named : ∀ m ∈ ms, m.Named) :
    (ms.foldl SourceUnit.register u).Named := by
  induction ms generalizing u with
  | nil => exact h
  | cons m ms ih =>
    exact ih (h.register (named m List.mem_cons_self)) fun n hn => named n (List.mem_cons_of_mem _ hn)

theorem named_outline (doc : DocId) (lines : LineTable) (tree : Tree) :
    (outline doc lines tree).1.Named := by
  intro m hm
  obtain ⟨name, found⟩ := Table.mem_values_iff.1 hm
  exact ((declared_outline doc lines tree).2 name m found).named

end SourceUnit

/-! ## The library -/

namespace Library

theorem named_addSource (files : FileTree) {l : Loaded} (h : l.unit.Named) (path : String) :
    (addSource files l path).unit.Named := by
  rw [addSource]
  split
  · exact h
  · exact h.foldl_register (SourceUnit.named_outline _ _ _)

theorem named_ofSources? {files : FileTree} {root : String} {doc : DocId} {l : Loaded}
    (h : ofSources? files root doc = some l) : l.unit.Named := by
  have start : (SourceUnit.ofDoc doc).Named := fun m hm => absurd hm List.not_mem_nil
  have sources : ∀ (paths : List String) (k : Loaded), k.unit.Named →
      (paths.foldl (addSource files) k).unit.Named := by
    intro paths
    induction paths with
    | nil => exact fun k hk => hk
    | cons path paths ih => exact fun k hk => ih _ (named_addSource files hk path)
  rw [ofSources?] at h
  split at h
  · split at h
    · cases h
    next paths _ =>
      cases h
      exact sources paths _ start
  · cases h

/-- A library has its declarations under their names, if the cache has. -/
theorem named_load {files : FileTree} {version : String} {root? cache? : Option String}
    (cached : ∀ folder l, cache? = some folder → ofCache? files folder version = some l → l.unit.Named) :
    (load files version root? cache?).unit.Named := by
  rw [load]
  cases fromCache : cache?.bind fun folder => ofCache? files folder version with
  | some l =>
    obtain ⟨folder, there, found⟩ := Option.bind_eq_some_iff.1 fromCache
    exact cached folder l there found
  | none =>
    cases fromSources : root?.bind fun root => ofSources? files root (docOf version) with
    | some l =>
      obtain ⟨root, -, found⟩ := Option.bind_eq_some_iff.1 fromSources
      exact named_ofSources? found
    | none => exact fun m hm => absurd hm List.not_mem_nil

end Library

/-! ## Workspaces -/

/-- A library that is read from a cache has its declarations under their names. -/
def Action.ReadsNamed : Action → Prop
  | .setVersion files version _ cache? => ∀ folder l, cache? = some folder →
      Library.ofCache? files folder version = some l → l.unit.Named
  | _ => True

namespace Workspace

/-- Every declaration stands under its name, and every entry of the index under its key. -/
structure Named (w : Workspace) : Prop where
  orderly : w.Orderly
  modules : w.symbols.Every Module.Named
  keyed : w.names.Keyed

theorem named_empty : empty.Named :=
  ⟨orderly_empty, SymbolStore.every_empty, NameIndex.keyed_empty⟩

section Steps

variable {w : Workspace}

/-- Only symbols and names count. -/
theorem Named.of_eq {v : Workspace} (h : w.Named) (symbols : v.symbols = w.symbols)
    (names : v.names = w.names) : v.Named := by
  refine ⟨h.orderly.of_eq symbols names, ?_, ?_⟩
  · rw [symbols]
    exact h.modules
  · rw [names]
    exact h.keyed

theorem Named.refresh (h : w.Named) (doc : DocId) : (w.refresh doc).Named := by
  refine ⟨h.orderly.refresh doc, ?_, ?_⟩
  · rw [Workspace.refresh]
    split
    · exact h.modules
    · exact h.modules.register Module.stable_named (SourceUnit.named_outline _ _ _) _
  · rw [Workspace.refresh]
    split
    · exact h.keyed
    · exact (h.keyed.clear h.orderly.distinct doc).insertUnit _

theorem Named.deleteDocument (h : w.Named) (doc : DocId) : (w.deleteDocument doc).Named :=
  ⟨h.orderly.deleteDocument doc, h.modules.delete doc, h.keyed.clear h.orderly.distinct doc⟩

theorem Named.renameDocument (h : w.Named) (old new : DocId) : (w.renameDocument old new).Named := by
  refine ⟨h.orderly.renameDocument old new, h.modules.rename old fun m hm => hm.setDoc new, ?_⟩
  have cleared := h.keyed.clear h.orderly.distinct old
  cases unit : w.symbols.unit? old with
  | none =>
    rw [names_renameDocument_of_none unit]
    exact cleared
  | some u =>
    rw [names_renameDocument unit]
    exact cleared.insertUnit _

theorem Named.setVersion (h : w.Named) {files : FileTree} {version : String} {root? cache? : Option String}
    (cached : (Action.setVersion files version root? cache?).ReadsNamed) :
    (w.setVersion files version root? cache?).1.Named := by
  have dropped : w.dropLibrary.Named := by
    rw [dropLibrary]
    split
    · exact h
    next doc _ => exact (h.deleteDocument doc).of_eq rfl rfl
  exact ⟨h.orderly.setVersion files version root? cache?,
    dropped.modules.register Module.stable_named (Library.named_load cached) _, dropped.keyed.insertUnit _⟩

theorem Named.act (h : w.Named) {a : Action} (reads : a.ReadsNamed) : (w.act a).Named :=
  act_keeps (P := Named) (fun _ _ _ _ h => h.of_eq rfl rfl) (fun _ doc h => h.refresh doc)
    (fun _ _ h => h.of_eq rfl rfl) (fun _ doc h => h.deleteDocument doc)
    (fun _ old new h => h.renameDocument old new) (fun _ _ _ _ _ same h => h.setVersion (same ▸ reads))
    (fun _ _ h => h.of_eq rfl rfl) h

end Steps

theorem named_of_reachable {w : Workspace} (h : Reachable (fun _ a => a.ReadsNamed) w) : w.Named :=
  h.induct named_empty fun _ _ hw reads => hw.act reads

end Workspace

end C3Lens
