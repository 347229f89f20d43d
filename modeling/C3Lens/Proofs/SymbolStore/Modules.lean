import C3Lens.Proofs.SymbolStore.Delete
import C3Lens.Proofs.SymbolStore.Inheritance

/-!
# Properties of all modules

`Every P` says that all modules of a store have the property `P`. A registration binds types and puts
members of one struct into another one; if `P` bears both (`Module.Stable`) it holds of all modules
after the registration of a unit whose modules have it (`Every.register`).
-/

namespace C3Lens

/-- The property bears what a registration does to modules. -/
structure Module.Stable (P : Module → Prop) : Prop where
  mapModule : ∀ m f, P m → P (m.mapModule f)
  inherit : ∀ home m structName typeName b, P home → P m → home.structs.get? typeName = some b →
    P { m with structs := m.structs.modify structName (·.inherit typeName b.members) }

namespace SymbolStore

/-- All modules of the store have the property. -/
def Every (P : Module → Prop) (s : SymbolStore) : Prop :=
  ∀ m ∈ s.modules, P m

variable {P : Module → Prop} {s : SymbolStore}

theorem every_empty : empty.Every P :=
  fun _ hm => absurd hm List.not_mem_nil

theorem Every.of_units {s' : SymbolStore} (h : s.Every P) (units : s'.units = s.units) : s'.Every P := by
  rw [Every, modules, units]
  exact h

theorem mem_modules_iff {m : Module} :
    m ∈ s.modules ↔ ∃ text u name, s.units.get? text = some u ∧ u.modules.get? name = some m := by
  simp only [modules, List.mem_flatMap, Table.mem_values_iff]
  constructor
  · rintro ⟨u, ⟨text, hu⟩, name, hm⟩
    exact ⟨text, u, name, hu, hm⟩
  · rintro ⟨text, u, name, hu, hm⟩
    exact ⟨u, ⟨text, hu⟩, name, hm⟩

theorem exists_of_mem_modules_mapModules {f : String → String → Module → Module} {m : Module}
    (h : m ∈ (s.mapModules f).modules) : ∃ doc name, ∃ n ∈ s.modules, m = f doc name n := by
  obtain ⟨doc, u, name, hu, hm⟩ := mem_modules_iff.1 h
  rw [mapModules, Table.get?_mapEntries] at hu
  obtain ⟨v, hv, rfl⟩ := Option.map_eq_some_iff.1 hu
  rw [Table.get?_mapEntries] at hm
  obtain ⟨n, hn, rfl⟩ := Option.map_eq_some_iff.1 hm
  exact ⟨doc, name, n, mem_modules_iff.2 ⟨doc, v, name, hv, hn⟩, rfl⟩

theorem Every.placed (h : s.Every P) {u : SourceUnit} (new : ∀ m ∈ u.modules.values, P m) (p : Pending) :
    (s.placed u p).Every P := by
  intro m hm
  have sub := Table.flatMap_insert_subset s.units u.doc.text u (fun u => u.modules.values) hm
  exact (List.mem_append.1 sub).elim (h m) (new m)

theorem Every.bindAll (stable : Module.Stable P) (h : s.Every P) (ts : List PendingType) :
    (s.bindAll ts).Every P := by
  intro m hm
  obtain ⟨_, _, n, hn, rfl⟩ := exists_of_mem_modules_mapModules hm
  exact stable.mapModule n _ (h n hn)

theorem Every.settleInline (stable : Module.Stable P) (h : s.Every P) (i : PendingInline) :
    (s.settleInline i).Every P := by
  rw [SymbolStore.settleInline]
  cases found : s.inlinedMembers? i with
  | none =>
    refine h.of_units ?_
    show (if s.awaits i then { s with pending := s.pending.addInline i } else s).units = s.units
    split
    · rfl
    · rfl
  | some members =>
    obtain ⟨home, b, chosen, hb, rfl⟩ := inlineHome?_of_inlinedMembers? found
    have inherited := h home (mem_modules_of_inlineHome? chosen)
    intro m hm
    dsimp only at hm
    rw [modifyModule_eq] at hm
    obtain ⟨_, _, n, hn, rfl⟩ := exists_of_mem_modules_mapModules hm
    split
    · exact stable.inherit home n _ _ b inherited (h n hn) hb
    · exact h n hn

theorem Every.register (stable : Module.Stable P) (h : s.Every P) {u : SourceUnit}
    (new : ∀ m ∈ u.modules.values, P m) (p : Pending) : (s.register u p).Every P := by
  refine Every.of_units ?_ (units_register_eq s u p).1
  have bound : (s.boundStore u p).Every P := ((h.placed new p).bindAll stable _).of_units rfl
  generalize s.boundStore u p = t at bound
  induction (s.placed u p).pending.inlines generalizing t with
  | nil => exact bound
  | cons i is ih => exact ih _ (bound.settleInline stable i)

theorem Every.delete (h : s.Every P) (doc : DocId) : (s.delete doc).Every P :=
  fun m hm => h m (modules_delete_subset s doc hm)

theorem Every.rename (h : s.Every P) (old : DocId) {new : DocId} (setDoc : ∀ m, P m → P (m.setDoc new)) :
    (s.rename old new).Every P := by
  rw [SymbolStore.rename]
  split
  · exact h
  next u unit =>
    have moved : ∀ m ∈ (u.setDoc new).modules.values, P m := by
      intro m hm
      rw [SourceUnit.setDoc, Table.values_map] at hm
      obtain ⟨n, hn, rfl⟩ := List.mem_map.1 hm
      obtain ⟨name, found⟩ := Table.mem_values_iff.1 hn
      exact setDoc n (h n (mem_modules_iff.2 ⟨old.text, u, name, unit, found⟩))
    intro m hm
    have sub := Table.flatMap_insert_subset (s.units.erase old.text) new.text (u.setDoc new)
      (fun u => u.modules.values) hm
    exact (List.mem_append.1 sub).elim (h.delete old m) (moved m)

end SymbolStore

end C3Lens
