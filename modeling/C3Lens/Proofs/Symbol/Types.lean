import C3Lens.Proofs.Table
import C3Lens.Symbol.Module

/-!
# The types written in a module

`Module.types` lists every type that a module holds: those of its declarations, of what is
nested in them, and the generic arguments of types. Changing the modules of types
(`mapModule`) reaches exactly these:

* `Module.mapModule_congr`: functions that agree on the types of a module change it alike;
* `Module.mapModule_mapModule`: two changes in a row are one;
* `Module.types_mapModule`: the types of the changed module are the changed types.
-/

namespace C3Lens

/-! ## Types and their arguments -/

namespace TypeRef

mutual

/-- The type and its arguments, at all depths. -/
def parts : TypeRef → List TypeRef
  | t@⟨_, _, _, _, _, arguments, _, _, _⟩ => t :: partsOfList arguments

/-- The same for each of a list of types. -/
def partsOfList : List TypeRef → List TypeRef
  | [] => []
  | t :: ts => parts t ++ partsOfList ts

end

theorem parts_eq (t : TypeRef) : t.parts = t :: partsOfList t.arguments := by
  obtain ⟨_, _, _, _, _, _, _, _, _⟩ := t
  rw [parts]

@[simp] theorem partsOfList_append (ts us : List TypeRef) :
    partsOfList (ts ++ us) = partsOfList ts ++ partsOfList us := by
  induction ts with
  | nil => rfl
  | cons t ts ih => rw [List.cons_append, partsOfList, partsOfList, ih, List.append_assoc]

mutual

theorem mapModule_congr {f g : TypeRef → String} (t : TypeRef) (h : ∀ u ∈ t.parts, f u = g u) :
    t.mapModule f = t.mapModule g := by
  obtain ⟨_, _, _, _, _, arguments, _, _, _⟩ := t
  rw [parts] at h
  rw [mapModule, mapModule, h _ List.mem_cons_self,
    mapModuleOfList_congr arguments fun u hu => h u (List.mem_cons_of_mem _ hu)]

theorem mapModuleOfList_congr {f g : TypeRef → String} (ts : List TypeRef)
    (h : ∀ u ∈ partsOfList ts, f u = g u) : mapModuleOfList f ts = mapModuleOfList g ts := by
  match ts with
  | [] => rfl
  | t :: ts =>
    rw [partsOfList] at h
    rw [mapModuleOfList, mapModuleOfList,
      mapModule_congr t fun u hu => h u (List.mem_append_left _ hu),
      mapModuleOfList_congr ts fun u hu => h u (List.mem_append_right _ hu)]

end

mutual

theorem mapModule_self (t : TypeRef) : t.mapModule moduleName = t := by
  obtain ⟨_, _, _, _, _, arguments, _, _, _⟩ := t
  rw [mapModule, mapModuleOfList_self arguments]

theorem mapModuleOfList_self (ts : List TypeRef) : mapModuleOfList moduleName ts = ts := by
  match ts with
  | [] => rfl
  | t :: ts => rw [mapModuleOfList, mapModule_self t, mapModuleOfList_self ts]

end

mutual

theorem mapModule_mapModule (f g : TypeRef → String) (t : TypeRef) :
    (t.mapModule f).mapModule g = t.mapModule fun u => g (u.mapModule f) := by
  obtain ⟨_, _, _, _, _, arguments, _, _, _⟩ := t
  rw [mapModule, mapModule, mapModule, mapModuleOfList_mapModuleOfList f g arguments, mapModule]

theorem mapModuleOfList_mapModuleOfList (f g : TypeRef → String) (ts : List TypeRef) :
    mapModuleOfList g (mapModuleOfList f ts) = mapModuleOfList (fun u => g (u.mapModule f)) ts := by
  match ts with
  | [] => rfl
  | t :: ts =>
    rw [mapModuleOfList, mapModuleOfList, mapModuleOfList, mapModule_mapModule f g t,
      mapModuleOfList_mapModuleOfList f g ts]

end

@[simp] theorem mapModule_name (f : TypeRef → String) (t : TypeRef) : (t.mapModule f).name = t.name := by
  obtain ⟨_, _, _, _, _, _, _, _, _⟩ := t
  rw [mapModule]

@[simp] theorem mapModule_isBuiltin (f : TypeRef → String) (t : TypeRef) :
    (t.mapModule f).isBuiltin = t.isBuiltin := by
  obtain ⟨_, _, _, _, _, _, _, _, _⟩ := t
  rw [mapModule]

@[simp] theorem mapModule_isGenericParameter (f : TypeRef → String) (t : TypeRef) :
    (t.mapModule f).isGenericParameter = t.isGenericParameter := by
  obtain ⟨_, _, _, _, _, _, _, _, _⟩ := t
  rw [mapModule]

@[simp] theorem mapModule_moduleName (f : TypeRef → String) (t : TypeRef) :
    (t.mapModule f).moduleName = f t := by
  obtain ⟨_, _, _, _, _, _, _, _, _⟩ := t
  rw [mapModule]

end TypeRef

/-! ## Types of declarations

For each kind of declaration: its types, and the three laws of `mapModule` on it. Changing the
module of each type to the one it has changes nothing (`mapModule_self`).
-/

namespace Variable

/-- The types written in the declaration of a variable. -/
def types (v : Variable) : List TypeRef :=
  v.type.parts

theorem mapModule_congr {f g : TypeRef → String} {v : Variable} (h : ∀ t ∈ v.types, f t = g t) :
    v.mapModule f = v.mapModule g := by
  rw [mapModule, mapModule, TypeRef.mapModule_congr v.type h]

theorem mapModule_self (v : Variable) : v.mapModule TypeRef.moduleName = v := by
  rw [mapModule, TypeRef.mapModule_self]

theorem mapModule_mapModule (f g : TypeRef → String) (v : Variable) :
    (v.mapModule f).mapModule g = v.mapModule fun t => g (t.mapModule f) := by
  simp only [mapModule, TypeRef.mapModule_mapModule]

end Variable

namespace Function

/-- The types written in a function: of its result, its parameters and its local variables. -/
def types (f : Function) : List TypeRef :=
  f.returns.parts ++ f.parameters.values.flatMap Variable.types ++ f.locals.flatMap Variable.types

theorem mapModule_congr {f g : TypeRef → String} {a : Function} (h : ∀ t ∈ a.types, f t = g t) :
    a.mapModule f = a.mapModule g := by
  simp only [types, List.mem_append, List.mem_flatMap] at h
  have returns := TypeRef.mapModule_congr a.returns fun t ht => h t (.inl (.inl ht))
  have parameters : a.parameters.map (Variable.mapModule f) = a.parameters.map (Variable.mapModule g) :=
    Table.map_congr fun v hv => Variable.mapModule_congr fun t ht => h t (.inl (.inr ⟨v, hv, ht⟩))
  have locals : a.locals.map (Variable.mapModule f) = a.locals.map (Variable.mapModule g) :=
    List.map_congr_left fun v hv => Variable.mapModule_congr fun t ht => h t (.inr ⟨v, hv, ht⟩)
  rw [mapModule, mapModule, returns, parameters, locals]

theorem mapModule_self (a : Function) : a.mapModule TypeRef.moduleName = a := by
  rw [mapModule, TypeRef.mapModule_self, Table.map_id' fun v _ => Variable.mapModule_self v,
    funext Variable.mapModule_self, List.map_id']

theorem mapModule_mapModule (f g : TypeRef → String) (a : Function) :
    (a.mapModule f).mapModule g = a.mapModule fun t => g (t.mapModule f) := by
  have both : Variable.mapModule g ∘ Variable.mapModule f = Variable.mapModule fun t => g (t.mapModule f) :=
    funext (Variable.mapModule_mapModule f g)
  simp only [mapModule, TypeRef.mapModule_mapModule, Table.map_map, List.map_map, both]

end Function

namespace Member

mutual

/-- The types written in a member and its body. -/
def types : Member → List TypeRef
  | ⟨_, type, _, _, _, body?, _⟩ => type.parts ++ typesOfBody body?

/-- The types written in a body, if there is one. -/
def typesOfBody : Option (Aggregate Member) → List TypeRef
  | none => []
  | some ⟨_, members, _, _⟩ => typesOfList members

/-- The types written in members. -/
def typesOfList : List Member → List TypeRef
  | [] => []
  | m :: ms => types m ++ typesOfList ms

end

mutual

theorem mapModule_congr {f g : TypeRef → String} (m : Member) (h : ∀ t ∈ m.types, f t = g t) :
    m.mapModule f = m.mapModule g := by
  obtain ⟨_, type, _, _, _, body?, _⟩ := m
  rw [types] at h
  rw [mapModule, mapModule, TypeRef.mapModule_congr type fun t ht => h t (List.mem_append_left _ ht),
    mapModuleOfBody_congr body? fun t ht => h t (List.mem_append_right _ ht)]

theorem mapModuleOfBody_congr {f g : TypeRef → String} (body? : Option (Aggregate Member))
    (h : ∀ t ∈ typesOfBody body?, f t = g t) : mapModuleOfBody f body? = mapModuleOfBody g body? := by
  match body? with
  | none => rfl
  | some ⟨_, members, _, _⟩ =>
    rw [typesOfBody] at h
    rw [mapModuleOfBody, mapModuleOfBody, mapModuleOfList_congr members h]

theorem mapModuleOfList_congr {f g : TypeRef → String} (ms : List Member)
    (h : ∀ t ∈ typesOfList ms, f t = g t) : mapModuleOfList f ms = mapModuleOfList g ms := by
  match ms with
  | [] => rfl
  | m :: ms =>
    rw [typesOfList] at h
    rw [mapModuleOfList, mapModuleOfList,
      mapModule_congr m fun t ht => h t (List.mem_append_left _ ht),
      mapModuleOfList_congr ms fun t ht => h t (List.mem_append_right _ ht)]

end

mutual

theorem mapModule_self (m : Member) : m.mapModule TypeRef.moduleName = m := by
  obtain ⟨_, _, _, _, _, body?, _⟩ := m
  rw [mapModule, TypeRef.mapModule_self, mapModuleOfBody_self body?]

theorem mapModuleOfBody_self (body? : Option (Aggregate Member)) :
    mapModuleOfBody TypeRef.moduleName body? = body? := by
  match body? with
  | none => rfl
  | some ⟨_, members, _, _⟩ => rw [mapModuleOfBody, mapModuleOfList_self members]

theorem mapModuleOfList_self (ms : List Member) : mapModuleOfList TypeRef.moduleName ms = ms := by
  match ms with
  | [] => rfl
  | m :: ms => rw [mapModuleOfList, mapModule_self m, mapModuleOfList_self ms]

end

mutual

theorem mapModule_mapModule (f g : TypeRef → String) (m : Member) :
    (m.mapModule f).mapModule g = m.mapModule fun t => g (t.mapModule f) := by
  obtain ⟨_, _, _, _, _, body?, _⟩ := m
  rw [mapModule, mapModule, TypeRef.mapModule_mapModule, mapModuleOfBody_mapModuleOfBody f g body?,
    mapModule]

theorem mapModuleOfBody_mapModuleOfBody (f g : TypeRef → String) (body? : Option (Aggregate Member)) :
    mapModuleOfBody g (mapModuleOfBody f body?) =
      mapModuleOfBody (fun t => g (t.mapModule f)) body? := by
  match body? with
  | none => rfl
  | some ⟨_, members, _, _⟩ =>
    rw [mapModuleOfBody, mapModuleOfBody, mapModuleOfList_mapModuleOfList f g members, mapModuleOfBody]

theorem mapModuleOfList_mapModuleOfList (f g : TypeRef → String) (ms : List Member) :
    mapModuleOfList g (mapModuleOfList f ms) = mapModuleOfList (fun t => g (t.mapModule f)) ms := by
  match ms with
  | [] => rfl
  | m :: ms =>
    rw [mapModuleOfList, mapModuleOfList, mapModule_mapModule f g m,
      mapModuleOfList_mapModuleOfList f g ms, mapModuleOfList]

end

end Member

namespace Aggregate

/-- The types written in a struct. -/
def types (s : Struct) : List TypeRef :=
  s.members.flatMap Member.types

theorem mapModule_congr {f g : TypeRef → String} {s : Struct} (h : ∀ t ∈ s.types, f t = g t) :
    s.mapModule f = s.mapModule g := by
  have members : s.members.map (Member.mapModule f) = s.members.map (Member.mapModule g) :=
    List.map_congr_left fun m hm => Member.mapModule_congr m fun t ht =>
      h t (List.mem_flatMap.2 ⟨m, hm, ht⟩)
  rw [mapModule, mapModule, members]

theorem mapModule_self (s : Struct) : s.mapModule TypeRef.moduleName = s := by
  rw [mapModule, funext Member.mapModule_self, List.map_id']

theorem mapModule_mapModule (f g : TypeRef → String) (s : Struct) :
    (s.mapModule f).mapModule g = s.mapModule fun t => g (t.mapModule f) := by
  have both : Member.mapModule g ∘ Member.mapModule f = Member.mapModule fun t => g (t.mapModule f) :=
    funext (Member.mapModule_mapModule f g)
  simp only [mapModule, List.map_map, both]

end Aggregate

namespace Bitstruct

/-- The types written in a bitstruct. -/
def types (b : Bitstruct) : List TypeRef :=
  b.backing.parts ++ b.members.flatMap Member.types

theorem mapModule_congr {f g : TypeRef → String} {b : Bitstruct} (h : ∀ t ∈ b.types, f t = g t) :
    b.mapModule f = b.mapModule g := by
  have backing := TypeRef.mapModule_congr b.backing fun t ht => h t (List.mem_append_left _ ht)
  have members : b.members.map (Member.mapModule f) = b.members.map (Member.mapModule g) :=
    List.map_congr_left fun m hm => Member.mapModule_congr m fun t ht =>
      h t (List.mem_append_right _ (List.mem_flatMap.2 ⟨m, hm, ht⟩))
  rw [mapModule, mapModule, backing, members]

theorem mapModule_self (b : Bitstruct) : b.mapModule TypeRef.moduleName = b := by
  rw [mapModule, TypeRef.mapModule_self, funext Member.mapModule_self, List.map_id']

theorem mapModule_mapModule (f g : TypeRef → String) (b : Bitstruct) :
    (b.mapModule f).mapModule g = b.mapModule fun t => g (t.mapModule f) := by
  have both : Member.mapModule g ∘ Member.mapModule f = Member.mapModule fun t => g (t.mapModule f) :=
    funext (Member.mapModule_mapModule f g)
  simp only [mapModule, TypeRef.mapModule_mapModule, List.map_map, both]

end Bitstruct

namespace Enum

/-- The types written in an enum. -/
def types (e : Enum) : List TypeRef :=
  e.values.flatMap Variable.types

theorem mapModule_congr {f g : TypeRef → String} {e : Enum} (h : ∀ t ∈ e.types, f t = g t) :
    e.mapModule f = e.mapModule g := by
  have values : e.values.map (Variable.mapModule f) = e.values.map (Variable.mapModule g) :=
    List.map_congr_left fun v hv => Variable.mapModule_congr fun t ht =>
      h t (List.mem_flatMap.2 ⟨v, hv, ht⟩)
  rw [mapModule, mapModule, values]

theorem mapModule_self (e : Enum) : e.mapModule TypeRef.moduleName = e := by
  rw [mapModule, funext Variable.mapModule_self, List.map_id']

theorem mapModule_mapModule (f g : TypeRef → String) (e : Enum) :
    (e.mapModule f).mapModule g = e.mapModule fun t => g (t.mapModule f) := by
  have both : Variable.mapModule g ∘ Variable.mapModule f = Variable.mapModule fun t => g (t.mapModule f) :=
    funext (Variable.mapModule_mapModule f g)
  simp only [mapModule, List.map_map, both]

end Enum

namespace Alias

/-- The types written in an alias. -/
def types (a : Alias) : List TypeRef :=
  match a.target with
  | .type t => t.parts
  | .symbol _ => []

theorem mapModule_congr {f g : TypeRef → String} {a : Alias} (h : ∀ t ∈ a.types, f t = g t) :
    a.mapModule f = a.mapModule g := by
  obtain ⟨_, target⟩ := a
  cases target with
  | symbol _ => rfl
  | type t => simp only [mapModule, TypeRef.mapModule_congr t h]

theorem mapModule_self (a : Alias) : a.mapModule TypeRef.moduleName = a := by
  obtain ⟨_, target⟩ := a
  cases target with
  | symbol _ => rfl
  | type t => simp only [mapModule, TypeRef.mapModule_self]

theorem mapModule_mapModule (f g : TypeRef → String) (a : Alias) :
    (a.mapModule f).mapModule g = a.mapModule fun t => g (t.mapModule f) := by
  obtain ⟨_, target⟩ := a
  cases target with
  | symbol _ => rfl
  | type t => simp only [mapModule, TypeRef.mapModule_mapModule]

end Alias

namespace Distinct

/-- The types written in the declaration of a distinct type. -/
def types (d : Distinct) : List TypeRef :=
  d.base.parts

theorem mapModule_congr {f g : TypeRef → String} {d : Distinct} (h : ∀ t ∈ d.types, f t = g t) :
    d.mapModule f = d.mapModule g := by
  rw [mapModule, mapModule, TypeRef.mapModule_congr d.base h]

theorem mapModule_self (d : Distinct) : d.mapModule TypeRef.moduleName = d := by
  rw [mapModule, TypeRef.mapModule_self]

theorem mapModule_mapModule (f g : TypeRef → String) (d : Distinct) :
    (d.mapModule f).mapModule g = d.mapModule fun t => g (t.mapModule f) := by
  simp only [mapModule, TypeRef.mapModule_mapModule]

end Distinct

namespace Interface

/-- The types written in an interface. -/
def types (i : Interface) : List TypeRef :=
  i.methods.values.flatMap Function.types

theorem mapModule_congr {f g : TypeRef → String} {i : Interface} (h : ∀ t ∈ i.types, f t = g t) :
    i.mapModule f = i.mapModule g := by
  have methods : i.methods.map (Function.mapModule f) = i.methods.map (Function.mapModule g) :=
    Table.map_congr fun a ha => Function.mapModule_congr fun t ht =>
      h t (List.mem_flatMap.2 ⟨a, ha, ht⟩)
  rw [mapModule, mapModule, methods]

theorem mapModule_self (i : Interface) : i.mapModule TypeRef.moduleName = i := by
  rw [mapModule, Table.map_id' fun a _ => Function.mapModule_self a]

theorem mapModule_mapModule (f g : TypeRef → String) (i : Interface) :
    (i.mapModule f).mapModule g = i.mapModule fun t => g (t.mapModule f) := by
  have both : Function.mapModule g ∘ Function.mapModule f = Function.mapModule fun t => g (t.mapModule f) :=
    funext (Function.mapModule_mapModule f g)
  simp only [mapModule, Table.map_map, both]

end Interface

/-! ## Types of modules -/

namespace Module

/-- The types written in a module. -/
def types (m : Module) : List TypeRef :=
  m.globals.values.flatMap Variable.types ++ m.enums.values.flatMap Enum.types ++
  m.structs.values.flatMap Aggregate.types ++ m.bitstructs.values.flatMap Bitstruct.types ++
  m.aliases.values.flatMap Alias.types ++ m.distincts.values.flatMap Distinct.types ++
  m.interfaces.values.flatMap Interface.types ++ m.functions.flatMap Function.types

theorem mapModule_congr {f g : TypeRef → String} {m : Module} (h : ∀ t ∈ m.types, f t = g t) :
    m.mapModule f = m.mapModule g := by
  simp only [types, List.mem_append, List.mem_flatMap, or_assoc] at h
  have globals : m.globals.map (Variable.mapModule f) = m.globals.map (Variable.mapModule g) :=
    Table.map_congr fun a ha => Variable.mapModule_congr fun t ht => h t (by grind)
  have enums : m.enums.map (Enum.mapModule f) = m.enums.map (Enum.mapModule g) :=
    Table.map_congr fun a ha => Enum.mapModule_congr fun t ht => h t (by grind)
  have structs : m.structs.map (Aggregate.mapModule f) = m.structs.map (Aggregate.mapModule g) :=
    Table.map_congr fun a ha => Aggregate.mapModule_congr fun t ht => h t (by grind)
  have bitstructs : m.bitstructs.map (Bitstruct.mapModule f) = m.bitstructs.map (Bitstruct.mapModule g) :=
    Table.map_congr fun a ha => Bitstruct.mapModule_congr fun t ht => h t (by grind)
  have aliases : m.aliases.map (Alias.mapModule f) = m.aliases.map (Alias.mapModule g) :=
    Table.map_congr fun a ha => Alias.mapModule_congr fun t ht => h t (by grind)
  have distincts : m.distincts.map (Distinct.mapModule f) = m.distincts.map (Distinct.mapModule g) :=
    Table.map_congr fun a ha => Distinct.mapModule_congr fun t ht => h t (by grind)
  have interfaces : m.interfaces.map (Interface.mapModule f) = m.interfaces.map (Interface.mapModule g) :=
    Table.map_congr fun a ha => Interface.mapModule_congr fun t ht => h t (by grind)
  have functions : m.functions.map (Function.mapModule f) = m.functions.map (Function.mapModule g) :=
    List.map_congr_left fun a ha => Function.mapModule_congr fun t ht => h t (by grind)
  rw [mapModule, mapModule, globals, enums, structs, bitstructs, aliases, distincts, interfaces,
    functions]

theorem mapModule_self (m : Module) : m.mapModule TypeRef.moduleName = m := by
  rw [mapModule, Table.map_id' fun a _ => Variable.mapModule_self a,
    Table.map_id' fun a _ => Enum.mapModule_self a, Table.map_id' fun a _ => Aggregate.mapModule_self a,
    Table.map_id' fun a _ => Bitstruct.mapModule_self a, Table.map_id' fun a _ => Alias.mapModule_self a,
    Table.map_id' fun a _ => Distinct.mapModule_self a, Table.map_id' fun a _ => Interface.mapModule_self a,
    funext Function.mapModule_self, List.map_id']

theorem mapModule_mapModule (f g : TypeRef → String) (m : Module) :
    (m.mapModule f).mapModule g = m.mapModule fun t => g (t.mapModule f) := by
  simp only [mapModule, Table.map_map, List.map_map, Function.comp_def, Variable.mapModule_mapModule,
    Enum.mapModule_mapModule, Aggregate.mapModule_mapModule, Bitstruct.mapModule_mapModule,
    Alias.mapModule_mapModule, Distinct.mapModule_mapModule, Interface.mapModule_mapModule,
    C3Lens.Function.mapModule_mapModule]

end Module

/-! ## Types after a change -/

namespace TypeRef

mutual

theorem parts_mapModule (f : TypeRef → String) (t : TypeRef) :
    (t.mapModule f).parts = t.parts.map (mapModule f) := by
  obtain ⟨_, _, _, _, _, arguments, _, _, _⟩ := t
  rw [parts, List.map_cons, ← partsOfList_mapModuleOfList f arguments, mapModule, parts]

theorem partsOfList_mapModuleOfList (f : TypeRef → String) (ts : List TypeRef) :
    partsOfList (mapModuleOfList f ts) = (partsOfList ts).map (mapModule f) := by
  match ts with
  | [] => rfl
  | t :: ts =>
    rw [mapModuleOfList, partsOfList, partsOfList, List.map_append, parts_mapModule f t,
      partsOfList_mapModuleOfList f ts]

end

end TypeRef

/-- The types of declarations that are changed one by one. -/
theorem flatMap_types_map {α : Type} {types : α → List TypeRef} {map : α → α} {f : TypeRef → String}
    (h : ∀ a, types (map a) = (types a).map (TypeRef.mapModule f)) (as : List α) :
    (as.map map).flatMap types = (as.flatMap types).map (TypeRef.mapModule f) := by
  rw [List.flatMap_map, List.map_flatMap]
  exact List.flatMap_congr fun a _ => h a

theorem Variable.types_mapModule (f : TypeRef → String) (v : Variable) :
    (v.mapModule f).types = v.types.map (TypeRef.mapModule f) :=
  TypeRef.parts_mapModule f v.type

theorem Function.types_mapModule (f : TypeRef → String) (a : Function) :
    (a.mapModule f).types = a.types.map (TypeRef.mapModule f) := by
  simp only [types, mapModule, Table.values_map, List.map_append, TypeRef.parts_mapModule,
    flatMap_types_map (Variable.types_mapModule f)]

namespace Member

mutual

theorem types_mapModule (f : TypeRef → String) (m : Member) :
    (m.mapModule f).types = m.types.map (TypeRef.mapModule f) := by
  obtain ⟨_, type, _, _, _, body?, _⟩ := m
  rw [types, List.map_append, ← TypeRef.parts_mapModule, ← typesOfBody_mapModuleOfBody f body?,
    mapModule, types]

theorem typesOfBody_mapModuleOfBody (f : TypeRef → String) (body? : Option (Aggregate Member)) :
    typesOfBody (mapModuleOfBody f body?) = (typesOfBody body?).map (TypeRef.mapModule f) := by
  match body? with
  | none => rfl
  | some ⟨_, members, _, _⟩ =>
    rw [mapModuleOfBody, typesOfBody, typesOfBody, typesOfList_mapModuleOfList f members]

theorem typesOfList_mapModuleOfList (f : TypeRef → String) (ms : List Member) :
    typesOfList (mapModuleOfList f ms) = (typesOfList ms).map (TypeRef.mapModule f) := by
  match ms with
  | [] => rfl
  | m :: ms =>
    rw [mapModuleOfList, typesOfList, typesOfList, List.map_append, types_mapModule f m,
      typesOfList_mapModuleOfList f ms]

end

end Member

theorem Aggregate.types_mapModule (f : TypeRef → String) (s : Struct) :
    Aggregate.types (s.mapModule f) = (Aggregate.types s).map (TypeRef.mapModule f) :=
  flatMap_types_map (Member.types_mapModule f) s.members

theorem Bitstruct.types_mapModule (f : TypeRef → String) (b : Bitstruct) :
    (b.mapModule f).types = b.types.map (TypeRef.mapModule f) := by
  simp only [types, mapModule, List.map_append, TypeRef.parts_mapModule,
    flatMap_types_map (Member.types_mapModule f)]

theorem Enum.types_mapModule (f : TypeRef → String) (e : Enum) :
    (e.mapModule f).types = e.types.map (TypeRef.mapModule f) :=
  flatMap_types_map (Variable.types_mapModule f) e.values

theorem Alias.types_mapModule (f : TypeRef → String) (a : Alias) :
    (a.mapModule f).types = a.types.map (TypeRef.mapModule f) := by
  obtain ⟨_, target⟩ := a
  cases target with
  | symbol _ => rfl
  | type t => exact TypeRef.parts_mapModule f t

theorem Distinct.types_mapModule (f : TypeRef → String) (d : Distinct) :
    (d.mapModule f).types = d.types.map (TypeRef.mapModule f) :=
  TypeRef.parts_mapModule f d.base

theorem Interface.types_mapModule (f : TypeRef → String) (i : Interface) :
    (i.mapModule f).types = i.types.map (TypeRef.mapModule f) := by
  rw [types, mapModule, Table.values_map]
  exact flatMap_types_map (Function.types_mapModule f) _

theorem Module.types_mapModule (f : TypeRef → String) (m : Module) :
    (m.mapModule f).types = m.types.map (TypeRef.mapModule f) := by
  simp only [types, mapModule, Table.values_map, List.map_append,
    flatMap_types_map (Variable.types_mapModule f), flatMap_types_map (Enum.types_mapModule f),
    flatMap_types_map (Aggregate.types_mapModule f), flatMap_types_map (Bitstruct.types_mapModule f),
    flatMap_types_map (Alias.types_mapModule f), flatMap_types_map (Distinct.types_mapModule f),
    flatMap_types_map (Interface.types_mapModule f),
    flatMap_types_map (C3Lens.Function.types_mapModule f)]

end C3Lens
