import C3Lens.Proofs.Lookup.Unique
import C3Lens.Proofs.SymbolStore.Modules

/-!
# What leads into a module

A private module is left out where names are looked up in visible modules and where the index is filled.
Some lookups go through all registered modules all the same: types are bound to any module that declares
them (`Module.mayHouse`), inline members find their struct by its name, qualified names and the targets of
aliases find each module of their path (`Module.isMetBy`), and so do methods (`Module.addsMethodsTo`).

`Symbol.avoids` says of a declaration that nothing behind it leads into a module in one of these ways. It
bears what a registration does to modules (`Module.stable_avoids`).
-/

namespace C3Lens

namespace Module

/-- Whether a type that is written in the module `context` may be bound to the module. -/
def mayHouse (m context : Module) (t : PendingType) : Bool :=
  SymbolStore.declaresType t.typeName m &&
    if t.written != t.context then m.modulePath.endsWith (.parse t.written)
    else m.modulePath.isRelative context.modulePath || SymbolStore.isImportedBy context m ||
      context.imports.isEmpty

/-- Whether a qualified name is looked up in the module: its path is the one that is meant, or it ends as
the qualifier is written. -/
def isMetBy (m : Module) (path written : ModulePath) : Bool :=
  m.modulePath == path || m.modulePath.endsWith written

/-- Whether the module declares methods of a type of the name. -/
def hasMethodOf (m : Module) (host : String) : Bool :=
  m.functions.any fun f => (host ++ ".").toList.isPrefixOf f.name.toList

/-- Whether methods of a type of another module of the same path are found in the module. -/
def addsMethodsTo (m : Module) (host : String) (path : ModulePath) : Bool :=
  m.modulePath == path && m.hasMethodOf host

end Module

mutual

/-- Whether no body in the member has methods in the module. -/
def Member.avoids (m : Module) : Member → Bool
  | ⟨_, _, _, _, _, body?, _⟩ => Member.avoidsOfBody m body?

/-- Whether a body, if there is one, and the bodies in it have no methods in the module. -/
def Member.avoidsOfBody (m : Module) : Option (Aggregate Member) → Bool
  | none => true
  | some ⟨d, members, _, _⟩ =>
    !m.addsMethodsTo d.name d.modulePath && Member.avoidsOfList m members

/-- Whether no body in one of the members has methods in the module. -/
def Member.avoidsOfList (m : Module) : List Member → Bool
  | [] => true
  | k :: ks => Member.avoids m k && Member.avoidsOfList m ks

end

/-- Whether the target of an alias is not looked up in the module, or not declared there. -/
def Alias.avoids (m : Module) (a : Alias) : Bool :=
  match a.target with
  | .type _ => true
  | .symbol path =>
    match ModulePath.cutLast? path.toList with
    | some (qualifier, name) =>
      let written := ModulePath.parse (String.ofList qualifier)
      !(m.isMetBy written written && m.declares (String.ofList name))
    | none => !(m.modulePath == a.modulePath && m.declares path)

/-- Whether a method host has no methods in the module. -/
def Symbol.isHostApart (m : Module) (s : Symbol) : Bool :=
  (Viewpoint.methodHost? s).all fun host => !m.addsMethodsTo host.1 host.2

/-- Whether nothing behind the symbol leads into the module. -/
def Symbol.avoids (m : Module) (s : Symbol) : Bool :=
  s.isHostApart m &&
    match s with
    | .alias a => a.avoids m
    | .aggregate a => Member.avoidsOfList m a.members
    | .bitstruct b => Member.avoidsOfList m b.members
    | .fault f => f.constants.all fun c => (Symbol.faultConstant c).isHostApart m
    | .member k => k.avoids m
    | _ => true

theorem Symbol.isHostApart_of_avoids {m : Module} {s : Symbol} (h : s.avoids m = true) :
    s.isHostApart m = true := by
  unfold Symbol.avoids at h
  exact (Bool.and_eq_true_iff.1 h).1

/-- Whether no declaration of the module leads into `m`. -/
def Module.avoids (m n : Module) : Bool :=
  n.children.all (Symbol.avoids m)

/-! ## Members -/

namespace Member

variable {m : Module}

theorem avoidsOfList_iff {ks : List Member} :
    avoidsOfList m ks = true ↔ ∀ k ∈ ks, k.avoids m = true := by
  induction ks with
  | nil => simp [avoidsOfList]
  | cons k ks ih => rw [avoidsOfList, Bool.and_eq_true, ih, List.forall_mem_cons]

mutual

theorem avoids_mapModule (f : TypeRef → String) (k : Member) : (k.mapModule f).avoids m = k.avoids m := by
  obtain ⟨_, _, _, _, _, body?, _⟩ := k
  rw [mapModule, avoids, avoidsOfBody_mapModuleOfBody f body?, avoids]

theorem avoidsOfBody_mapModuleOfBody (f : TypeRef → String) (body? : Option (Aggregate Member)) :
    avoidsOfBody m (mapModuleOfBody f body?) = avoidsOfBody m body? := by
  match body? with
  | none => rfl
  | some ⟨_, members, _, _⟩ =>
    rw [mapModuleOfBody, avoidsOfBody, avoidsOfList_mapModuleOfList f members, avoidsOfBody]

theorem avoidsOfList_mapModuleOfList (f : TypeRef → String) (ks : List Member) :
    avoidsOfList m (mapModuleOfList f ks) = avoidsOfList m ks := by
  match ks with
  | [] => rfl
  | k :: ks =>
    rw [mapModuleOfList, avoidsOfList, avoids_mapModule f k, avoidsOfList_mapModuleOfList f ks, avoidsOfList]

end

theorem avoidsOfList_map_mapModule (f : TypeRef → String) (ks : List Member) :
    avoidsOfList m (ks.map (Member.mapModule f)) = avoidsOfList m ks := by
  induction ks with
  | nil => rfl
  | cons k ks ih => rw [List.map_cons, avoidsOfList, avoids_mapModule, ih, avoidsOfList]

/-- Only the body counts. -/
theorem avoids_eq (k : Member) : k.avoids m = avoidsOfBody m k.body? := by
  obtain ⟨_, _, _, _, _, _, _⟩ := k
  rw [avoids]

theorem avoids_body {k : Member} {body : Struct} (h : k.avoids m = true) (some : k.body? = some body) :
    (Symbol.aggregate body).avoids m = true := by
  rwa [avoids_eq, some, avoidsOfBody] at h

/-- Members that are put between others. -/
theorem avoidsOfList_hoistInto {owner typeName : String} {inherited ks : List Member}
    (own : avoidsOfList m ks = true) (new : avoidsOfList m inherited = true) :
    avoidsOfList m (Aggregate.hoistInto owner typeName inherited ks) = true := by
  rw [avoidsOfList_iff] at own new ⊢
  induction ks with
  | nil => exact fun _ hk => absurd hk List.not_mem_nil
  | cons k ks ih =>
    rw [List.forall_mem_cons] at own
    rw [Aggregate.hoistInto_cons]
    split
    · have expanded := own.1
      rw [avoids_eq] at expanded
      refine List.forall_mem_cons.2 ⟨(avoids_eq _).trans expanded, List.forall_mem_append.2 ⟨?_, own.2⟩⟩
      rw [List.forall_mem_map]
      exact fun l hl => (avoids_eq _).trans ((avoids_eq l).symm.trans (new l hl))
    · exact List.forall_mem_cons.2 ⟨own.1, ih own.2⟩

end Member

/-! ## Declarations -/

theorem Alias.avoids_mapModule {m : Module} (f : TypeRef → String) (a : Alias) :
    (a.mapModule f).avoids m = a.avoids m := by
  obtain ⟨_, _ | _⟩ := a
  · rfl
  · rfl

namespace Module

variable {m n : Module}

theorem avoids_iff : m.avoids n = true ↔ ∀ s ∈ n.children, s.avoids m = true :=
  List.all_eq_true

theorem avoids_mapModule (h : m.avoids n = true) (f : TypeRef → String) :
    m.avoids (n.mapModule f) = true := by
  rw [avoids_iff, forall_children] at h ⊢
  obtain ⟨-, enums, faults, constants, structs, bitstructs, aliases, distincts, interfaces, -⟩ := h
  simp only [mapModule, Table.values_map, List.forall_mem_map]
  refine ⟨fun _ _ => rfl, enums, faults, constants, fun a ha => ?_, fun b hb => ?_, fun a ha => ?_, distincts,
    interfaces, fun _ _ => rfl⟩
  · rw [← structs a ha, Symbol.avoids, Symbol.avoids]
    exact congrArg (_ && ·) (Member.avoidsOfList_map_mapModule f a.members)
  · rw [← bitstructs b hb, Symbol.avoids, Symbol.avoids]
    exact congrArg (_ && ·) (Member.avoidsOfList_map_mapModule f b.members)
  · rw [← aliases a ha, Symbol.avoids, Symbol.avoids]
    exact congrArg (_ && ·) (Alias.avoids_mapModule f a)

theorem avoids_inherit {home : Module} {b : Struct} {structName typeName : String}
    (other : m.avoids home = true) (h : m.avoids n = true) (inherited : home.structs.get? typeName = some b) :
    m.avoids { n with structs := n.structs.modify structName (·.inherit typeName b.members) } = true := by
  rw [avoids_iff, forall_children] at other h ⊢
  obtain ⟨globals, enums, faults, constants, structs, others⟩ := h
  refine ⟨globals, enums, faults, constants, fun a ha => ?_, others⟩
  have new := other.2.2.2.2.1 b (Table.mem_values_iff.2 ⟨typeName, inherited⟩)
  obtain ⟨name, found⟩ := Table.mem_values_iff.1 ha
  rw [Table.get?_modify] at found
  split at found
  · obtain ⟨c, hc, rfl⟩ := Option.map_eq_some_iff.1 found
    have own := structs c (Table.mem_values_iff.2 ⟨name, hc⟩)
    rw [Symbol.avoids, Bool.and_eq_true] at own new ⊢
    rw [Aggregate.inherit_eq]
    exact ⟨own.1, Member.avoidsOfList_hoistInto own.2 new.2⟩
  · exact structs a (Table.mem_values_iff.2 ⟨name, found⟩)

theorem stable_avoids (m : Module) : Stable fun n => m.avoids n = true :=
  ⟨fun _ f h => avoids_mapModule h f, fun _ _ _ _ _ home h inherited => avoids_inherit home h inherited⟩

end Module

end C3Lens
