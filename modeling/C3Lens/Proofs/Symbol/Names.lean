import Mathlib.Data.List.TakeWhile
import Mathlib.Data.Option.Basic
import C3Lens.Proofs.Table
import C3Lens.Symbol.View

/-!
# The names of declarations

A module is `Named` if every declaration stands in its table under its own name, parameters and
methods of interfaces included. Everything that happens to a module keeps this. What a named module
finds under a name is called so (`Module.Named.isCalled_child?`).
-/

namespace C3Lens

/-- The parameters stand under their names. -/
def Function.Named (f : Function) : Prop :=
  f.parameters.KeyedBy (·.name)

/-- The methods stand under their names. -/
def Interface.Named (i : Interface) : Prop :=
  i.methods.KeyedBy (·.name)

theorem Function.Named.mapModule {f : Function} (h : f.Named) (g : TypeRef → String) :
    (f.mapModule g).Named :=
  h.map fun _ => rfl

theorem Function.Named.setDoc {f : Function} (h : f.Named) (doc : DocId) : (f.setDoc doc).Named :=
  h.map fun _ => rfl

theorem Interface.Named.mapModule {i : Interface} (h : i.Named) (g : TypeRef → String) :
    (i.mapModule g).Named :=
  h.map fun _ => rfl

theorem Interface.Named.setDoc {i : Interface} (h : i.Named) (doc : DocId) : (i.setDoc doc).Named :=
  h.map fun _ => rfl

theorem Alias.name_mapModule (f : TypeRef → String) (a : Alias) : (a.mapModule f).name = a.name := by
  rw [Alias.mapModule]
  split
  · rfl
  · rfl

namespace Module

/-- Every declaration of the module stands under its name. -/
structure Named (m : Module) : Prop where
  globals : m.globals.KeyedBy (·.name)
  enums : m.enums.KeyedBy (·.name)
  faults : m.faults.KeyedBy (·.name)
  faultConstants : m.faultConstants.KeyedBy (·.name)
  structs : m.structs.KeyedBy (·.name)
  bitstructs : m.bitstructs.KeyedBy (·.name)
  aliases : m.aliases.KeyedBy (·.name)
  distincts : m.distincts.KeyedBy (·.name)
  interfaces : m.interfaces.KeyedBy (·.name)
  functions : ∀ f ∈ m.functions, f.Named
  methods : ∀ i ∈ m.interfaces.values, i.Named

section Named

variable {m : Module}

theorem Named.mapModule (h : m.Named) (f : TypeRef → String) : (m.mapModule f).Named where
  globals := h.globals.map fun _ => rfl
  enums := h.enums.map fun _ => rfl
  faults := h.faults
  faultConstants := h.faultConstants
  structs := h.structs.map fun _ => rfl
  bitstructs := h.bitstructs.map fun _ => rfl
  aliases := h.aliases.map (Alias.name_mapModule f)
  distincts := h.distincts.map fun _ => rfl
  interfaces := h.interfaces.map fun _ => rfl
  functions := by
    intro g hg
    obtain ⟨e, he, rfl⟩ := List.mem_map.1 hg
    exact (h.functions e he).mapModule f
  methods := by
    intro i hi
    simp only [Module.mapModule, Table.values_map, List.mem_map] at hi
    obtain ⟨j, hj, rfl⟩ := hi
    exact (h.methods j hj).mapModule f

theorem Named.setDoc (h : m.Named) (doc : DocId) : (m.setDoc doc).Named where
  globals := h.globals.map fun _ => rfl
  enums := h.enums.map fun _ => rfl
  faults := h.faults.map fun _ => rfl
  faultConstants := h.faultConstants.map fun _ => rfl
  structs := h.structs.map fun _ => rfl
  bitstructs := h.bitstructs.map fun _ => rfl
  aliases := h.aliases.map fun _ => rfl
  distincts := h.distincts.map fun _ => rfl
  interfaces := h.interfaces.map fun _ => rfl
  functions := by
    intro g hg
    obtain ⟨e, he, rfl⟩ := List.mem_map.1 hg
    exact (h.functions e he).setDoc doc
  methods := by
    intro i hi
    simp only [Module.setDoc, Table.values_map, List.mem_map] at hi
    obtain ⟨j, hj, rfl⟩ := hi
    exact (h.methods j hj).setDoc doc

theorem Named.inherit (h : m.Named) (structName typeName : String) (inherited : List Member) :
    Named { m with structs := m.structs.modify structName (·.inherit typeName inherited) } :=
  { h with
    structs := h.structs.modify structName fun a => by
      show (a.inherit typeName inherited).name = a.name
      rw [Aggregate.inherit]
      split
      · rfl
      · rfl }

theorem Named.merge {n : Module} (h : m.Named) (k : n.Named) : (m.merge n).Named where
  globals := h.globals.insertAll k.globals
  enums := h.enums.insertAll k.enums
  faults := h.faults.insertAll k.faults
  faultConstants := h.faultConstants.insertAll k.faultConstants
  structs := h.structs.insertAll k.structs
  bitstructs := h.bitstructs.insertAll k.bitstructs
  aliases := h.aliases.insertAll k.aliases
  distincts := h.distincts.insertAll k.distincts
  interfaces := h.interfaces.insertAll k.interfaces
  functions := fun f hf => (List.mem_append.1 hf).elim (h.functions f) (k.functions f)
  methods := fun i hi =>
    (List.mem_append.1 (Table.values_insertAll_subset _ _ hi)).elim (h.methods i) (k.methods i)

end Named

end Module

/-! ## What a symbol is called -/

namespace Function

/-- Behind the last dot stands the short name. -/
theorem name_eq (f : Function) : f.name = f.shortName ∨ ∃ front, f.name = front ++ "." ++ f.shortName := by
  have cut := List.takeWhile_append_dropWhile (p := (· != '.')) (l := f.name.toList.reverse)
  have short : f.shortName.toList = (f.name.toList.reverse.takeWhile (· != '.')).reverse :=
    String.toList_ofList
  have chars := congrArg List.reverse cut
  rw [List.reverse_append, List.reverse_reverse, ← short] at chars
  cases rest : f.name.toList.reverse.dropWhile (· != '.') with
  | nil =>
    rw [rest, List.reverse_nil, List.nil_append] at chars
    exact .inl (String.toList_inj.1 chars.symm)
  | cons c cs =>
    have dot : c = '.' := by
      have first := List.head?_dropWhile_not (· != '.') f.name.toList.reverse
      rw [rest] at first
      simpa using first
    refine .inr ⟨String.ofList cs.reverse, String.toList_inj.1 ?_⟩
    rw [← chars, rest, List.reverse_cons, dot, String.toList_append, String.toList_append,
      String.toList_ofList]
    rfl

theorem shortName_of_append {f : Function} {front name : String} (h : f.name = front ++ "." ++ name)
    (dot : '.' ∉ name.toList) : f.shortName = name := by
  have chars : f.name.toList.reverse = name.toList.reverse ++ '.' :: front.toList.reverse := by
    rw [h, String.toList_append, String.toList_append, List.reverse_append, List.reverse_append]
    rfl
  have kept : ∀ c ∈ name.toList.reverse, (c != '.') = true := by
    intro c hc
    rw [bne_iff_ne]
    rintro rfl
    exact dot (List.mem_reverse.1 hc)
  rw [shortName, chars, List.takeWhile_append_of_pos kept, List.takeWhile_cons, if_neg (by decide),
    List.append_nil, List.reverse_reverse, String.ofList_toList]

theorem shortName_of_notMem {f : Function} (dot : '.' ∉ f.name.toList) : f.shortName = f.name := by
  have kept : ∀ c ∈ f.name.toList.reverse, (c != '.') = true := by
    intro c hc
    rw [bne_iff_ne]
    rintro rfl
    exact dot (List.mem_reverse.1 hc)
  rw [shortName, List.takeWhile_eq_self_iff.2 kept, List.reverse_reverse, String.ofList_toList]

/-- What is written behind the type, if there is one, is the short name. -/
theorem shortName_of_written {f : Function} {written : String}
    (called : f.name = written ∨ ∃ type, f.name = type ++ "." ++ written) (dot : '.' ∉ written.toList) :
    f.shortName = written := by
  rcases called with same | ⟨type, same⟩
  · rw [shortName_of_notMem (by rw [same]; exact dot), same]
  · exact shortName_of_append same dot

end Function

namespace Symbol

/-- A name by which a symbol is called: that of a module or the last one of its path, the name of a
function without its receiver, else the name. -/
def IsCalled (name : String) : Symbol → Prop
  | .module m => m.name = name ∨ m.modulePath.last? = some name
  | .function f | .interfaceMethod f _ => f.shortName = name
  | s => s.name = name

theorem isCalled_name {s : Symbol} (dot : '.' ∉ s.name.toList) : s.IsCalled s.name := by
  cases s with
  | module m => exact .inl rfl
  | function f => exact Function.shortName_of_notMem dot
  | interfaceMethod f owner => exact Function.shortName_of_notMem dot
  | _ => rfl

/-- The methods of an interface stand under their names. -/
def Named : Symbol → Prop
  | .interface i => i.Named
  | _ => True

end Symbol

namespace Module

variable {m : Module} {name : String} {s : Symbol}

theorem name_of_function? {f : Function} (found : m.function? name = some f) : f.name = name := by
  have named := List.find?_some found
  exact beq_iff_eq.1 named

/-- What a named module has under a name has that name. -/
theorem Named.child? (h : m.Named) (found : m.child? name = some s) : s.name = name ∧ s.Named := by
  simp only [Module.child?, Option.orElse_eq_some, Option.map_eq_some_iff] at found
  obtain ⟨v, hv, rfl⟩ | ⟨-, ⟨e, he, rfl⟩ | ⟨-, ⟨f, hf, rfl⟩ | ⟨-, ⟨a, ha, rfl⟩ | ⟨-, ⟨b, hb, rfl⟩ |
    ⟨-, ⟨a, ha, rfl⟩ | ⟨-, ⟨d, hd, rfl⟩ | ⟨-, ⟨i, hi, rfl⟩ | ⟨-, ⟨c, hc, rfl⟩ | ⟨-, f, hf, rfl⟩⟩⟩⟩⟩⟩⟩⟩⟩ :=
    found
  · exact ⟨h.globals name v hv, trivial⟩
  · exact ⟨h.enums name e he, trivial⟩
  · exact ⟨h.faults name f hf, trivial⟩
  · exact ⟨h.structs name a ha, trivial⟩
  · exact ⟨h.bitstructs name b hb, trivial⟩
  · exact ⟨h.aliases name a ha, trivial⟩
  · exact ⟨h.distincts name d hd, trivial⟩
  · exact ⟨h.interfaces name i hi, h.methods i (Table.mem_values_iff.2 ⟨name, hi⟩)⟩
  · exact ⟨h.faultConstants name c hc, trivial⟩
  · exact ⟨name_of_function? hf, trivial⟩

end Module

end C3Lens
