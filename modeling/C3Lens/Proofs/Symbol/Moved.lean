import C3Lens.Proofs.Symbol.Hoisting
import C3Lens.Proofs.Symbol.Resolution

/-!
# Symbols under another id

Moving a unit to another document only sets ids, in all that it holds: of two moves the last one counts
(`SourceUnit.setDoc_setDoc`), and the moves go past everything that resolution does to a unit. So a
unit that resolves an outline, moved, resolves the moved outline (`SourceUnit.ResolvesTo.setDoc`).
-/

namespace C3Lens

/-! ## Members -/

namespace Member

theorem setDocOfList_eq (doc : DocId) (ms : List Member) :
    setDocOfList doc ms = ms.map (setDoc doc) := by
  induction ms with
  | nil => rfl
  | cons m ms ih => rw [setDocOfList, ih, List.map_cons]

theorem setDoc_owner (doc : DocId) (m : Member) (owner : String) :
    ({ m with owner := owner } : Member).setDoc doc = { m.setDoc doc with owner := owner } := by
  obtain ⟨_, _, _, _, _, _, _⟩ := m
  simp only [setDoc]

theorem map_setDoc_owner (doc : DocId) (ms : List Member) (owner : String) :
    (ms.map ({ · with owner := owner })).map (setDoc doc) =
      (ms.map (setDoc doc)).map ({ · with owner := owner }) := by
  rw [List.map_map, List.map_map]
  exact List.map_congr_left fun m _ => setDoc_owner doc m owner

mutual

theorem setDoc_setDoc (a b : DocId) (m : Member) : (m.setDoc a).setDoc b = m.setDoc b := by
  obtain ⟨_, _, _, _, _, body?, _⟩ := m
  rw [setDoc, setDoc, setDoc, setDocOfBody_setDocOfBody a b body?]

theorem setDocOfBody_setDocOfBody (a b : DocId) (body? : Option (Aggregate Member)) :
    setDocOfBody b (setDocOfBody a body?) = setDocOfBody b body? := by
  match body? with
  | none => rfl
  | some ⟨_, members, _, _⟩ =>
    rw [setDocOfBody, setDocOfBody, setDocOfBody, setDocOfList_setDocOfList a b members]

theorem setDocOfList_setDocOfList (a b : DocId) (ms : List Member) :
    setDocOfList b (setDocOfList a ms) = setDocOfList b ms := by
  match ms with
  | [] => rfl
  | m :: ms =>
    rw [setDocOfList, setDocOfList, setDocOfList, setDoc_setDoc a b m, setDocOfList_setDocOfList a b ms]

end

mutual

theorem setDoc_mapModule (doc : DocId) (f : TypeRef → String) (m : Member) :
    (m.mapModule f).setDoc doc = (m.setDoc doc).mapModule f := by
  obtain ⟨_, _, _, _, _, body?, _⟩ := m
  rw [mapModule, setDoc, setDoc, mapModule, setDocOfBody_mapModuleOfBody doc f body?]

theorem setDocOfBody_mapModuleOfBody (doc : DocId) (f : TypeRef → String)
    (body? : Option (Aggregate Member)) :
    setDocOfBody doc (mapModuleOfBody f body?) = mapModuleOfBody f (setDocOfBody doc body?) := by
  match body? with
  | none => rfl
  | some ⟨_, members, _, _⟩ =>
    rw [mapModuleOfBody, setDocOfBody, setDocOfBody, mapModuleOfBody,
      setDocOfList_mapModuleOfList doc f members]

theorem setDocOfList_mapModuleOfList (doc : DocId) (f : TypeRef → String) (ms : List Member) :
    setDocOfList doc (mapModuleOfList f ms) = mapModuleOfList f (setDocOfList doc ms) := by
  match ms with
  | [] => rfl
  | m :: ms =>
    rw [mapModuleOfList, setDocOfList, setDocOfList, mapModuleOfList, setDoc_mapModule doc f m,
      setDocOfList_mapModuleOfList doc f ms]

end

end Member

namespace Aggregate

theorem map_setDoc_hoistInto (doc : DocId) {owner typeName : String} {inherited members : List Member} :
    (hoistInto owner typeName inherited members).map (Member.setDoc doc) =
      hoistInto owner typeName (inherited.map (Member.setDoc doc)) (members.map (Member.setDoc doc)) := by
  have waits : ∀ m : Member, waitsFor (m.setDoc doc) typeName = waitsFor m typeName := by
    rintro ⟨_, _, _, _, _, _, _⟩
    simp only [waitsFor, Member.setDoc]
  have expanded : ∀ m : Member,
      ({ m with awaitsExpansion := false, isExpanded := true } : Member).setDoc doc =
        { m.setDoc doc with awaitsExpansion := false, isExpanded := true } := by
    rintro ⟨_, _, _, _, _, _, _⟩
    simp only [Member.setDoc]
  induction members with
  | nil => rfl
  | cons m members ih =>
    rw [List.map_cons, hoistInto_cons, hoistInto_cons, waits]
    split
    · rw [List.map_cons, expanded, List.map_append, Member.map_setDoc_owner]
    · rw [List.map_cons, ih]

theorem setDoc_inherit (doc : DocId) (a : Struct) (typeName : String) (inherited : List Member) :
    (a.inherit typeName inherited).setDoc doc =
      (a.setDoc doc).inherit typeName (inherited.map (Member.setDoc doc)) := by
  rw [inherit_eq, inherit_eq, setDoc, map_setDoc_hoistInto, setDoc]

theorem setDoc_setDoc (a b : DocId) (s : Struct) : (s.setDoc a).setDoc b = s.setDoc b := by
  simp only [setDoc, List.map_map, Function.comp_def, Member.setDoc_setDoc]

theorem setDoc_mapModule (doc : DocId) (f : TypeRef → String) (s : Struct) :
    (s.mapModule f).setDoc doc = (s.setDoc doc).mapModule f := by
  simp only [setDoc, mapModule, List.map_map, Function.comp_def, Member.setDoc_mapModule]

end Aggregate

/-! ## Other declarations -/

theorem Function.setDoc_setDoc (a b : DocId) (f : Function) : (f.setDoc a).setDoc b = f.setDoc b := by
  simp only [setDoc, Table.map_map, List.map_map, Function.comp_def]
  rfl

theorem Function.setDoc_mapModule (doc : DocId) (g : TypeRef → String) (f : Function) :
    (f.mapModule g).setDoc doc = (f.setDoc doc).mapModule g := by
  simp only [setDoc, mapModule, Table.map_map, List.map_map, Function.comp_def]
  rfl

theorem Alias.setDoc_mapModule (doc : DocId) (f : TypeRef → String) (a : Alias) :
    (a.mapModule f).setDoc doc = (a.setDoc doc).mapModule f := by
  obtain ⟨_, target⟩ := a
  cases target <;> rfl

/-! ## Modules -/

namespace Module

theorem setDoc_setDoc (a b : DocId) (m : Module) : (m.setDoc a).setDoc b = m.setDoc b := by
  have globals : ∀ v : Variable, (v.setDoc a).setDoc b = v.setDoc b := fun _ => rfl
  have enums : ∀ e : Enum, (e.setDoc a).setDoc b = e.setDoc b := fun e => by
    simp only [Enum.setDoc, List.map_map, Function.comp_def]
    rfl
  have faults : ∀ f : Fault, (f.setDoc a).setDoc b = f.setDoc b := fun f => by
    simp only [Fault.setDoc, List.map_map, Function.comp_def]
    rfl
  have bitstructs : ∀ s : Bitstruct, (s.setDoc a).setDoc b = s.setDoc b := fun s => by
    simp only [Bitstruct.setDoc, List.map_map, Function.comp_def, Member.setDoc_setDoc]
  have interfaces : ∀ i : Interface, (i.setDoc a).setDoc b = i.setDoc b := fun i => by
    simp only [Interface.setDoc, Table.map_map, Function.comp_def, C3Lens.Function.setDoc_setDoc]
  simp only [setDoc, Table.map_map, List.map_map, Function.comp_def, globals, enums, faults, bitstructs,
    interfaces, Aggregate.setDoc_setDoc, C3Lens.Function.setDoc_setDoc]
  rfl

theorem setDoc_mapModule (doc : DocId) (f : TypeRef → String) (m : Module) :
    (m.mapModule f).setDoc doc = (m.setDoc doc).mapModule f := by
  have enums : ∀ e : Enum, (e.mapModule f).setDoc doc = (e.setDoc doc).mapModule f := fun e => by
    simp only [Enum.setDoc, Enum.mapModule, List.map_map, Function.comp_def]
    rfl
  have bitstructs : ∀ s : Bitstruct, (s.mapModule f).setDoc doc = (s.setDoc doc).mapModule f := fun s => by
    simp only [Bitstruct.setDoc, Bitstruct.mapModule, List.map_map, Function.comp_def, Member.setDoc_mapModule]
  have interfaces : ∀ i : Interface, (i.mapModule f).setDoc doc = (i.setDoc doc).mapModule f := fun i => by
    simp only [Interface.setDoc, Interface.mapModule, Table.map_map, Function.comp_def,
      C3Lens.Function.setDoc_mapModule]
  simp only [setDoc, mapModule, Table.map_map, List.map_map, Function.comp_def, enums, bitstructs,
    interfaces, Aggregate.setDoc_mapModule, C3Lens.Function.setDoc_mapModule, Alias.setDoc_mapModule]
  rfl

theorem declaresType_setDoc (doc : DocId) (name : String) (m : Module) :
    SymbolStore.declaresType name (m.setDoc doc) = SymbolStore.declaresType name m := by
  have functions : ∀ f : C3Lens.Function, ((f.setDoc doc).name == name) = (f.name == name) := fun _ => rfl
  simp only [SymbolStore.declaresType, map_isType_child?, setDoc, Table.get?_map, Option.map_map,
    Function.comp_def, function?, List.find?_map, functions]

end Module

/-! ## Units -/

namespace SourceUnit

theorem setDoc_setDoc (a b : DocId) (u : SourceUnit) : (u.setDoc a).setDoc b = u.setDoc b := by
  rw [setDoc, setDoc, Table.map_map, setDoc]
  exact congrArg (SourceUnit.mk b) (Table.map_congr fun m _ => m.setDoc_setDoc a b)

theorem setDoc_mapModules (doc : DocId) (f : String → TypeRef → String) (u : SourceUnit) :
    (u.mapModules f).setDoc doc = (u.setDoc doc).mapModules f := by
  simp only [setDoc, mapModules, Table.map, Table.mapEntries_mapEntries, Module.setDoc_mapModule]

theorem setDoc_hoist (doc : DocId) (u : SourceUnit) {i j : PendingInline} (same : i.SameIn j)
    (inherited : List Member) :
    (u.hoist i inherited).setDoc doc = (u.setDoc doc).hoist j (inherited.map (Member.setDoc doc)) := by
  obtain ⟨module, struct, inlined⟩ := same
  rw [hoist, modify, setDoc, hoist, modify, setDoc, ← module, ← struct, ← inlined]
  refine congrArg (SourceUnit.mk doc) (Table.map_modify_comm (fun m => ?_) _ _)
  have structs : (m.structs.modify i.structName (·.inherit i.inlined inherited)).map (Aggregate.setDoc doc) =
      (m.structs.map (Aggregate.setDoc doc)).modify i.structName
        (·.inherit i.inlined (inherited.map (Member.setDoc doc))) :=
    Table.map_modify_comm (fun a => Aggregate.setDoc_inherit doc a i.inlined inherited) m.structs i.structName
  exact congrArg (fun t => { m.setDoc doc with structs := t }) structs

theorem setDoc_hoistAll (doc : DocId) (u : SourceUnit) (hoists : List (PendingInline × List Member)) :
    (u.hoistAll hoists).setDoc doc =
      (u.setDoc doc).hoistAll (hoists.map fun h => (h.1, h.2.map (Member.setDoc doc))) := by
  induction hoists generalizing u with
  | nil => rfl
  | cons h hoists ih =>
    refine (ih (u.hoist h.1 h.2)).trans ?_
    rw [setDoc_hoist doc u ⟨rfl, rfl, rfl⟩]
    rfl

theorem ResolvesTo.setDoc {u v : SourceUnit} (h : u.ResolvesTo v) (doc : DocId) :
    (u.setDoc doc).ResolvesTo (v.setDoc doc) := by
  obtain ⟨modules, hoists, rfl⟩ := h
  refine ⟨modules, hoists.map fun h => (h.1, h.2.map (Member.setDoc doc)), ?_⟩
  rw [setDoc_hoistAll, setDoc_mapModules]

theorem ResolvesTo.refl (u : SourceUnit) : u.ResolvesTo u := by
  have same : u.mapModules (fun _ => TypeRef.moduleName) = u :=
    congrArg (SourceUnit.mk u.doc) (Table.mapEntries_id fun _ m _ => m.mapModule_self)
  exact ⟨_, [], same.symm⟩

/-- What is resolved may be resolved further. -/
theorem ResolvesTo.trans {u v w : SourceUnit} (h : u.ResolvesTo v) (k : v.ResolvesTo w) :
    u.ResolvesTo w := by
  obtain ⟨modules, hoists, rfl⟩ := h
  obtain ⟨modules', hoists', rfl⟩ := k
  refine ⟨fun name t => modules' name (t.mapModule (modules name)), rebind modules' hoists ++ hoists', ?_⟩
  rw [mapModules_hoistAll, mapModules_mapModules, ← hoistAll_append]

theorem hoist_skeleton (u : SourceUnit) (i : PendingInline) (inherited : List Member) :
    (u.hoist i inherited).skeleton = u.skeleton := by
  rw [hoist, modify, skeleton, skeleton]
  refine congrArg (SourceUnit.mk u.doc) (Table.map_modify fun m _ => ?_)
  exact (m.hoistsTo_inherit i.structName i.inlined inherited).skeleton_eq

/-- Resolution does not change the skeleton of a unit. -/
theorem ResolvesTo.skeleton_eq {u v : SourceUnit} (h : u.ResolvesTo v) : v.skeleton = u.skeleton := by
  obtain ⟨modules, hoists, rfl⟩ := h
  have hoisted : ∀ (hoists : List (PendingInline × List Member)) (u : SourceUnit),
      (u.hoistAll hoists).skeleton = u.skeleton := by
    intro hoists
    induction hoists with
    | nil => exact fun _ => rfl
    | cons h hoists ih => exact fun u => (ih _).trans (hoist_skeleton u h.1 h.2)
  rw [hoisted, mapModules, skeleton, skeleton, Table.map, Table.mapEntries_mapEntries]
  simp only [Module.skeleton_mapModule]
  rfl

theorem ResolvesTo.names_eq {u v : SourceUnit} (h : u.ResolvesTo v) : v.modules.names = u.modules.names := by
  have names := congrArg (fun w : SourceUnit => w.modules.names) h.skeleton_eq
  simpa only [skeleton, Table.names_map] using names

theorem ResolvesTo.locations_eq {u v : SourceUnit} (h : u.ResolvesTo v) : v.locations = u.locations := by
  rw [← locations_skeleton, h.skeleton_eq, locations_skeleton]

end SourceUnit

end C3Lens
