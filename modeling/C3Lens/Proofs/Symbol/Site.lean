import C3Lens.Proofs.Outline.Storable
import C3Lens.Proofs.Symbol.Spelling

/-!
# The sites of declarations

A declaration bears the path of the module and the id of the document that it is written in: its site.
All that stands inside of a declaration has the site of the declaration (`Symbol.SitedAt`), with one
exception. An inline member is expanded by copying the members of another struct behind it, and the
copies keep their sites; only their owner becomes the host. So the members of a struct are its own ones
and, behind each expanded inline member, those of a lender, made up in the same way (`Composed`).

To bind types and to expand inline members keeps this (`Module.stable_sited`), and so does moving to
another document, which makes all documents the new one.
-/

namespace C3Lens

/-- The module and the document that a declaration is written in. -/
structure Site where
  path : ModulePath
  doc : DocId

/-- The declaration is written at the site. -/
structure Declaration.At (d : Declaration) (site : Site) : Prop where
  path : d.modulePath = site.path
  doc : d.doc = site.doc

/-- The site of the same module in another document. -/
def Site.withDoc (site : Site) (doc : DocId) : Site :=
  { site with doc := doc }

theorem Declaration.At.setDoc {d : Declaration} {site : Site} (h : d.At site) (doc : DocId) :
    At { d with doc := doc } (site.withDoc doc) :=
  ⟨h.path, rfl⟩

/-! ## What stands inside of declarations -/

namespace Member

mutual

/-- The member and what stands in its body. -/
def nested : Member → List Declaration
  | ⟨d, _, _, _, _, body?, _⟩ => d :: nestedOfBody body?

/-- A body, if there is one, and what stands in it. -/
def nestedOfBody : Option (Aggregate Member) → List Declaration
  | none => []
  | some ⟨d, members, _, _⟩ => d :: nestedOfList members

/-- Members and what stands in their bodies. -/
def nestedOfList : List Member → List Declaration
  | [] => []
  | m :: ms => nested m ++ nestedOfList ms

end

mutual

/-- The member bears the name of the struct that holds it, and so do the members of its body. -/
def OwnedBy (name : String) : Member → Prop
  | ⟨_, _, _, _, _, body?, owner⟩ => owner = name ∧ OwnsBody body?

/-- The members of a body, if there is one, bear its name. -/
def OwnsBody : Option (Aggregate Member) → Prop
  | none => True
  | some ⟨d, members, _, _⟩ => OwnedListBy d.name members

/-- The members bear the name of the struct that holds them, and so on inside of their bodies. -/
def OwnedListBy (name : String) : List Member → Prop
  | [] => True
  | m :: ms => OwnedBy name m ∧ OwnedListBy name ms

end

end Member

namespace Function

/-- The function, its parameters and its local variables. -/
def nested (f : Function) : List Declaration :=
  f.toDeclaration :: (f.parameters.values.map Variable.toDeclaration ++ f.locals.map Variable.toDeclaration)

end Function

namespace Symbol

/-- The declaration of a symbol and all that stands inside of it. -/
def nested : Symbol → List Declaration
  | .function f | .interfaceMethod f _ => f.nested
  | .aggregate a => a.toDeclaration :: a.members.flatMap Member.nested
  | .bitstruct b => b.toDeclaration :: b.members.flatMap Member.nested
  | .enum e => e.toDeclaration ::
      (e.enumerators.map Enumerator.toDeclaration ++ e.values.map Variable.toDeclaration)
  | .fault f => f.toDeclaration :: f.constants.map FaultConstant.toDeclaration
  | .interface i => i.toDeclaration :: i.methods.values.flatMap Function.nested
  | .member m => m.nested
  | s => [s.declaration]

end Symbol

/-- The module and all that is declared in it, at any depth. -/
def Module.nested (m : Module) : List Declaration :=
  m.toDeclaration :: m.children.flatMap Symbol.nested

/-! ## Members -/

namespace Member

theorem nestedOfList_eq (ms : List Member) : nestedOfList ms = ms.flatMap nested := by
  induction ms with
  | nil => rfl
  | cons m ms ih => rw [nestedOfList, ih, List.flatMap_cons]

theorem ownedListBy_iff {name : String} {ms : List Member} :
    OwnedListBy name ms ↔ ∀ m ∈ ms, m.OwnedBy name := by
  induction ms with
  | nil => exact ⟨fun _ _ hm => absurd hm List.not_mem_nil, fun _ => trivial⟩
  | cons m ms ih => rw [OwnedListBy, ih, List.forall_mem_cons]

/-- The state of its expansion and its owner are no part of what stands inside of a member. -/
theorem nested_congr {m n : Member} (declaration : n.toDeclaration = m.toDeclaration)
    (body : n.body? = m.body?) : n.nested = m.nested := by
  obtain ⟨d, _, _, _, _, body?, _⟩ := m
  obtain ⟨d', _, _, _, _, body?', _⟩ := n
  dsimp only at declaration body
  rw [nested, nested, declaration, body]

theorem toDeclaration_mem_nested (m : Member) : m.toDeclaration ∈ m.nested := by
  obtain ⟨_, _, _, _, _, _, _⟩ := m
  rw [nested]
  exact List.mem_cons_self

theorem ownedBy_iff {name : String} {m : Member} : m.OwnedBy name ↔ m.owner = name ∧ OwnsBody m.body? := by
  obtain ⟨_, _, _, _, _, _, _⟩ := m
  rw [OwnedBy]

theorem ownedBy_congr {name : String} {m n : Member} (h : m.OwnedBy name) (owner : n.owner = m.owner)
    (body : n.body? = m.body?) : n.OwnedBy name := by
  rw [ownedBy_iff, owner, body]
  exact ownedBy_iff.1 h

mutual

theorem nested_mapModule (f : TypeRef → String) : (m : Member) → (m.mapModule f).nested = m.nested
  | ⟨_, _, _, _, _, body?, _⟩ => by rw [mapModule, nested, nested, nestedOfBody_mapModule f body?]

theorem nestedOfBody_mapModule (f : TypeRef → String) : (body? : Option (Aggregate Member)) →
    nestedOfBody (mapModuleOfBody f body?) = nestedOfBody body?
  | none => by rw [mapModuleOfBody]
  | some ⟨_, members, _, _⟩ => by
    rw [mapModuleOfBody, nestedOfBody, nestedOfBody, nestedOfList_mapModule f members]

theorem nestedOfList_mapModule (f : TypeRef → String) : (ms : List Member) →
    nestedOfList (mapModuleOfList f ms) = nestedOfList ms
  | [] => by rw [mapModuleOfList]
  | m :: ms => by
    rw [mapModuleOfList, nestedOfList, nestedOfList, nested_mapModule f m, nestedOfList_mapModule f ms]

end

mutual

theorem nested_setDoc (doc : DocId) : (m : Member) →
    (m.setDoc doc).nested = m.nested.map ({ · with doc := doc })
  | ⟨_, _, _, _, _, body?, _⟩ => by
    rw [setDoc, nested, nested, nestedOfBody_setDoc doc body?, List.map_cons]

theorem nestedOfBody_setDoc (doc : DocId) : (body? : Option (Aggregate Member)) →
    nestedOfBody (setDocOfBody doc body?) = (nestedOfBody body?).map ({ · with doc := doc })
  | none => by rw [setDocOfBody, nestedOfBody, List.map_nil]
  | some ⟨_, members, _, _⟩ => by
    rw [setDocOfBody, nestedOfBody, nestedOfBody, nestedOfList_setDoc doc members, List.map_cons]

theorem nestedOfList_setDoc (doc : DocId) : (ms : List Member) →
    nestedOfList (setDocOfList doc ms) = (nestedOfList ms).map ({ · with doc := doc })
  | [] => by rw [setDocOfList, nestedOfList, List.map_nil]
  | m :: ms => by
    rw [setDocOfList, nestedOfList, nestedOfList, nested_setDoc doc m, nestedOfList_setDoc doc ms,
      List.map_append]

end

mutual

theorem ownedBy_mapModule (f : TypeRef → String) {name : String} : (m : Member) → m.OwnedBy name →
    (m.mapModule f).OwnedBy name
  | ⟨_, _, _, _, _, body?, _⟩, h => ⟨h.1, ownsBody_mapModule f body? h.2⟩

theorem ownsBody_mapModule (f : TypeRef → String) : (body? : Option (Aggregate Member)) →
    OwnsBody body? → OwnsBody (mapModuleOfBody f body?)
  | none, _ => trivial
  | some ⟨_, members, _, _⟩, h => ownedListBy_mapModule f members h

theorem ownedListBy_mapModule (f : TypeRef → String) {name : String} : (ms : List Member) →
    OwnedListBy name ms → OwnedListBy name (mapModuleOfList f ms)
  | [], _ => trivial
  | m :: ms, h => ⟨ownedBy_mapModule f m h.1, ownedListBy_mapModule f ms h.2⟩

end

mutual

theorem ownedBy_setDoc (doc : DocId) {name : String} : (m : Member) → m.OwnedBy name →
    (m.setDoc doc).OwnedBy name
  | ⟨_, _, _, _, _, body?, _⟩, h => ⟨h.1, ownsBody_setDoc doc body? h.2⟩

theorem ownsBody_setDoc (doc : DocId) : (body? : Option (Aggregate Member)) →
    OwnsBody body? → OwnsBody (setDocOfBody doc body?)
  | none, _ => trivial
  | some ⟨_, members, _, _⟩, h => ownedListBy_setDoc doc members h

theorem ownedListBy_setDoc (doc : DocId) {name : String} : (ms : List Member) →
    OwnedListBy name ms → OwnedListBy name (setDocOfList doc ms)
  | [], _ => trivial
  | m :: ms, h => ⟨ownedBy_setDoc doc m h.1, ownedListBy_setDoc doc ms h.2⟩

end

theorem awaitsExpansion_mapModule (f : TypeRef → String) (m : Member) :
    (m.mapModule f).awaitsExpansion = m.awaitsExpansion := by
  obtain ⟨_, _, _, _, _, _, _⟩ := m
  rw [mapModule]

theorem awaitsExpansion_setDoc (doc : DocId) (m : Member) :
    (m.setDoc doc).awaitsExpansion = m.awaitsExpansion := by
  obtain ⟨_, _, _, _, _, _, _⟩ := m
  rw [setDoc]

/-- The member and all that stands in its body are written at the site. -/
def SitedAt (m : Member) (site : Site) : Prop :=
  ∀ d ∈ m.nested, d.At site

variable {m : Member} {site : Site}

theorem SitedAt.mapModule (h : m.SitedAt site) (f : TypeRef → String) : (m.mapModule f).SitedAt site := by
  rw [SitedAt, nested_mapModule]
  exact h

theorem SitedAt.setDoc (h : m.SitedAt site) (doc : DocId) : (m.setDoc doc).SitedAt (site.withDoc doc) := by
  rw [SitedAt, nested_setDoc]
  exact List.forall_mem_map.2 fun d hd => (h d hd).setDoc doc

theorem SitedAt.congr {n : Member} (h : m.SitedAt site) (declaration : n.toDeclaration = m.toDeclaration)
    (body : n.body? = m.body?) : n.SitedAt site := by
  rw [SitedAt, nested_congr declaration body]
  exact h

end Member

/-! ## Structs -/

/-- The members of a struct that is written at a site: its own ones, which are written there too, and
behind each own inline member that is expanded the members of its lender, which is written at a site of
its own. -/
inductive Composed : Site → List Member → Prop
  | nil {site : Site} : Composed site []
  | own {site : Site} {m : Member} {ms : List Member} : m.SitedAt site → m.isExpanded = false →
    Composed site ms → Composed site (m :: ms)
  | lent {site lender : Site} {m : Member} {borrowed ms : List Member} : m.SitedAt site →
    m.isExpanded = true → m.awaitsExpansion = false → Composed lender borrowed → Composed site ms →
    Composed site (m :: (borrowed ++ ms))

namespace Composed

variable {site lender : Site} {ms inherited : List Member} {owner typeName : String}

theorem of_sited (h : ∀ m ∈ ms, m.SitedAt site ∧ m.isExpanded = false) : Composed site ms := by
  induction ms with
  | nil => exact nil
  | cons m ms ih =>
    obtain ⟨⟨sited, plain⟩, rest⟩ := List.forall_mem_cons.1 h
    exact own sited plain (ih rest)

/-- Where no member is expanded all of them are own ones. -/
theorem sited (h : Composed site ms) (plain : ∀ m ∈ ms, m.isExpanded = false) :
    ∀ m ∈ ms, m.SitedAt site := by
  induction h with
  | nil => exact fun m hm => absurd hm List.not_mem_nil
  | own here _ _ ih =>
    exact List.forall_mem_cons.2 ⟨here, ih (List.forall_mem_cons.1 plain).2⟩
  | lent _ marked => exact absurd ((List.forall_mem_cons.1 plain).1.symm.trans marked) Bool.false_ne_true

/-- What is done to the members one by one keeps how they are made up, if it moves all that stands
inside of them to known sites and leaves the states of their expansions. -/
theorem map {f : Member → Member} (move : Site → Site) (h : Composed site ms)
    (sited : ∀ m site, m.SitedAt site → (f m).SitedAt (move site))
    (expanded : ∀ m, (f m).isExpanded = m.isExpanded)
    (awaits : ∀ m, (f m).awaitsExpansion = m.awaitsExpansion) : Composed (move site) (ms.map f) := by
  induction h with
  | nil => exact nil
  | own here plain _ ih => exact own (sited _ _ here) ((expanded _).trans plain) ih
  | lent here marked done _ _ block rest =>
    rw [List.map_cons, List.map_append]
    exact lent (sited _ _ here) ((expanded _).trans marked) ((awaits _).trans done) block rest

theorem mapModule (h : Composed site ms) (f : TypeRef → String) :
    Composed site (ms.map (Member.mapModule f)) :=
  h.map id (fun _ _ sited => sited.mapModule f)
    (Member.isExpanded_mapModule f) (Member.awaitsExpansion_mapModule f)

theorem setDoc (h : Composed site ms) (doc : DocId) :
    Composed (site.withDoc doc) (ms.map (Member.setDoc doc)) :=
  h.map (·.withDoc doc) (fun _ _ sited => sited.setDoc doc) (Member.isExpanded_setDoc doc)
    (Member.awaitsExpansion_setDoc doc)

theorem withOwner (h : Composed site ms) (owner : String) :
    Composed site (ms.map ({ · with owner := owner })) :=
  h.map id (fun _ _ sited => sited.congr rfl rfl) (fun _ => rfl) fun _ => rfl

end Composed

namespace Aggregate

variable {owner typeName : String} {inherited : List Member}

theorem hoistInto_append_or (ms ns : List Member) :
    hoistInto owner typeName inherited (ms ++ ns) = hoistInto owner typeName inherited ms ++ ns ∨
      hoistInto owner typeName inherited (ms ++ ns) = ms ++ hoistInto owner typeName inherited ns := by
  induction ms with
  | nil => exact .inr rfl
  | cons m ms ih =>
    rw [List.cons_append, hoistInto_cons, hoistInto_cons]
    split
    · left
      rw [List.cons_append, List.append_assoc]
    · exact ih.imp (congrArg (m :: ·)) (congrArg (m :: ·))

/-- The members of a struct stay made up of own and lent ones when those of another struct are put
behind one that waits for them, be it an own one or a lent one. -/
theorem composed_hoistInto {site lender : Site} {ms : List Member} (h : Composed site ms)
    (others : Composed lender inherited) : Composed site (hoistInto owner typeName inherited ms) := by
  induction h with
  | nil => exact .nil
  | own here plain rest ih =>
    rw [hoistInto_cons]
    split
    · exact .lent (here.congr rfl rfl) rfl rfl (others.withOwner owner) rest
    · exact .own here plain ih
  | @lent site source m borrowed ms here marked done block rest ihBlock ihRest =>
    have passed : waitsFor m typeName = false := by rw [waitsFor, done, Bool.false_and]
    rw [hoistInto_cons, passed, if_neg Bool.false_ne_true]
    have parts : hoistInto owner typeName inherited (borrowed ++ ms) =
          hoistInto owner typeName inherited borrowed ++ ms ∨
        hoistInto owner typeName inherited (borrowed ++ ms) =
          borrowed ++ hoistInto owner typeName inherited ms := hoistInto_append_or borrowed ms
    rcases parts with inside | behind
    · rw [inside]
      exact .lent here marked done ihBlock rest
    · rw [behind]
      exact .lent here marked done block ihRest

theorem ownedBy_hoistInto {ms : List Member} (h : ∀ m ∈ ms, m.OwnedBy owner) {lender : String}
    (others : ∀ m ∈ inherited, m.OwnedBy lender) :
    ∀ m ∈ hoistInto owner typeName inherited ms, m.OwnedBy owner := by
  induction ms with
  | nil => exact h
  | cons m ms ih =>
    obtain ⟨first, rest⟩ := List.forall_mem_cons.1 h
    rw [hoistInto_cons]
    split
    · refine List.forall_mem_cons.2 ⟨Member.ownedBy_congr first rfl rfl, List.forall_mem_append.2 ⟨?_, rest⟩⟩
      exact List.forall_mem_map.2 fun n hn =>
        Member.ownedBy_iff.2 ⟨rfl, (Member.ownedBy_iff.1 (others n hn)).2⟩
    · exact List.forall_mem_cons.2 ⟨first, ih rest⟩

end Aggregate

/-! ## Symbols -/

namespace Symbol

/-- The symbol and all that stands inside of it are written at the site, but for members that are lent
to a struct. Members bear the names of the structs that hold them. -/
def SitedAt (site : Site) : Symbol → Prop
  | .aggregate a => a.At site ∧ Composed site a.members ∧ ∀ m ∈ a.members, m.OwnedBy a.name
  | .bitstruct b => b.At site ∧ (∀ m ∈ b.members, m.SitedAt site) ∧ ∀ m ∈ b.members, m.OwnedBy b.name
  | s => ∀ d ∈ s.nested, d.At site

theorem SitedAt.declaration {s : Symbol} {site : Site} (h : s.SitedAt site) : s.declaration.At site := by
  cases s with
  | aggregate a => exact h.1
  | bitstruct b => exact h.1
  | member m => exact h _ m.toDeclaration_mem_nested
  | _ => exact h _ List.mem_cons_self

/-- Outside of structs all that stands inside of a symbol is written where the symbol is. -/
theorem SitedAt.nested {s : Symbol} {site : Site} (h : s.SitedAt site) (plain : ∀ a, s ≠ .aggregate a) :
    ∀ d ∈ s.nested, d.At site := by
  cases s with
  | aggregate a => exact absurd rfl (plain a)
  | bitstruct b =>
    refine List.forall_mem_cons.2 ⟨h.1, fun d hd => ?_⟩
    obtain ⟨m, hm, inside⟩ := List.mem_flatMap.1 hd
    exact h.2.1 m hm d inside
  | _ => exact h

/-- So it is inside of a struct that borrows no members. -/
theorem SitedAt.nested_of_not_inherits {s : Symbol} {site : Site} (h : s.SitedAt site)
    (plain : ∀ a, s = .aggregate a → ¬ a.Inherits) : ∀ d ∈ s.nested, d.At site := by
  cases s with
  | aggregate a =>
    refine List.forall_mem_cons.2 ⟨h.1, fun d hd => ?_⟩
    obtain ⟨m, hm, inside⟩ := List.mem_flatMap.1 hd
    have unexpanded : ∀ m ∈ a.members, m.isExpanded = false := fun m hm =>
      Bool.eq_false_iff.2 fun expanded => plain a rfl ⟨m, hm, expanded⟩
    exact h.2.1.sited unexpanded m hm d inside
  | _ => exact h.nested fun _ same => by cases same

end Symbol

namespace Aggregate

variable {a : Struct} {site lender : Site}

theorem sitedAt_mapModule (h : (Symbol.aggregate a).SitedAt site) (f : TypeRef → String) :
    (Symbol.aggregate (a.mapModule f)).SitedAt site :=
  ⟨h.1, h.2.1.mapModule f, List.forall_mem_map.2 fun m hm => m.ownedBy_mapModule f (h.2.2 m hm)⟩

theorem sitedAt_setDoc (h : (Symbol.aggregate a).SitedAt site) (doc : DocId) :
    (Symbol.aggregate (a.setDoc doc)).SitedAt (site.withDoc doc) :=
  ⟨h.1.setDoc doc, h.2.1.setDoc doc, List.forall_mem_map.2 fun m hm => m.ownedBy_setDoc doc (h.2.2 m hm)⟩

/-- The host of an inline member stays where it is written, wherever the lender is. -/
theorem sitedAt_inherit {b : Struct} (h : (Symbol.aggregate a).SitedAt site)
    (k : (Symbol.aggregate b).SitedAt lender) (typeName : String) :
    (Symbol.aggregate (a.inherit typeName b.members)).SitedAt site := by
  rw [inherit_eq]
  exact ⟨h.1, composed_hoistInto h.2.1 k.2.1, ownedBy_hoistInto h.2.2 k.2.2⟩

end Aggregate

/-! ## Modules -/

namespace Module

/-- The module is named by its path, which can be read from the name, and its declarations are made in
it, each in one document. -/
structure Sited (m : Module) : Prop where
  named : m.name = m.modulePath.text
  path : m.modulePath.Storable
  children : ∀ s ∈ m.children, s.SitedAt ⟨m.modulePath, s.doc⟩

end Module

section Changes

variable {site : Site} (f : TypeRef → String) (doc : DocId)

theorem Function.nested_mapModule (g : Function) : (g.mapModule f).nested = g.nested := by
  simp only [Function.nested, Function.mapModule, Table.values_map, List.map_map]
  rfl

theorem Function.nested_setDoc (g : Function) :
    (g.setDoc doc).nested = g.nested.map ({ · with doc := doc }) := by
  simp only [Function.nested, Function.setDoc, Table.values_map, List.map_cons, List.map_append, List.map_map]
  rfl

namespace Symbol

theorem sitedAt_mapModule_interface {i : Interface} (h : (interface i).SitedAt site) :
    (interface (i.mapModule f)).SitedAt site := by
  have same : (interface (i.mapModule f)).nested = (interface i).nested := by
    simp only [Symbol.nested, Interface.mapModule, Table.values_map, List.flatMap_map, Function.nested_mapModule]
  exact fun d hd => h d (same ▸ hd)

theorem sitedAt_mapModule_enum {e : Enum} (h : (enum e).SitedAt site) : (enum (e.mapModule f)).SitedAt site := by
  have same : (enum (e.mapModule f)).nested = (enum e).nested := by
    simp only [Symbol.nested, Enum.mapModule, List.map_map]
    rfl
  exact fun d hd => h d (same ▸ hd)

/-- What stands inside of a symbol that is moved to another document as a whole is written there. -/
theorem forall_at_setDoc {ds es : List Declaration} (h : ∀ d ∈ ds, d.At site)
    (moved : es = ds.map ({ · with doc := doc })) : ∀ d ∈ es, d.At (site.withDoc doc) := by
  rw [moved]
  exact List.forall_mem_map.2 fun d hd => (h d hd).setDoc doc

theorem sitedAt_setDoc_interface {i : Interface} (h : (interface i).SitedAt site) :
    (interface (i.setDoc doc)).SitedAt (site.withDoc doc) := by
  refine forall_at_setDoc doc h ?_
  simp only [Symbol.nested, Interface.setDoc, Table.values_map, List.flatMap_map, List.map_cons, List.map_flatMap,
    Function.nested_setDoc]

theorem sitedAt_setDoc_enum {e : Enum} (h : (enum e).SitedAt site) :
    (enum (e.setDoc doc)).SitedAt (site.withDoc doc) := by
  refine forall_at_setDoc doc h ?_
  simp only [Symbol.nested, Enum.setDoc, List.map_cons, List.map_append, List.map_map]
  rfl

theorem sitedAt_setDoc_fault {c : Fault} (h : (fault c).SitedAt site) :
    (fault (c.setDoc doc)).SitedAt (site.withDoc doc) := by
  refine forall_at_setDoc doc h ?_
  simp only [Symbol.nested, Fault.setDoc, List.map_cons, List.map_map]
  rfl

end Symbol

namespace Bitstruct

variable {b : Bitstruct}

theorem sitedAt_mapModule (h : (Symbol.bitstruct b).SitedAt site) :
    (Symbol.bitstruct (b.mapModule f)).SitedAt site :=
  ⟨h.1, List.forall_mem_map.2 fun m hm => (h.2.1 m hm).mapModule f,
    List.forall_mem_map.2 fun m hm => m.ownedBy_mapModule f (h.2.2 m hm)⟩

theorem sitedAt_setDoc (h : (Symbol.bitstruct b).SitedAt site) :
    (Symbol.bitstruct (b.setDoc doc)).SitedAt (site.withDoc doc) :=
  ⟨h.1.setDoc doc, List.forall_mem_map.2 fun m hm => (h.2.1 m hm).setDoc doc,
    List.forall_mem_map.2 fun m hm => m.ownedBy_setDoc doc (h.2.2 m hm)⟩

end Bitstruct

end Changes

namespace Module

variable {m n : Module}

theorem Sited.mapModule (h : m.Sited) (f : TypeRef → String) : (m.mapModule f).Sited := by
  refine ⟨h.named, h.path, forall_children.2 ?_⟩
  obtain ⟨globals, enums, faults, constants, structs, bitstructs, aliases, distincts, interfaces,
    functions⟩ := forall_children.1 h.children
  simp only [Module.mapModule, Table.values_map, List.forall_mem_map]
  refine ⟨globals, fun e he => Symbol.sitedAt_mapModule_enum f (enums e he), faults, constants,
    fun a ha => Aggregate.sitedAt_mapModule (structs a ha) f,
    fun b hb => Bitstruct.sitedAt_mapModule f (bitstructs b hb), fun a ha => ?_, distincts,
    fun i hi => Symbol.sitedAt_mapModule_interface f (interfaces i hi), fun g hg => ?_⟩
  · have same := Alias.toDeclaration_mapModule f a
    have here := aliases a ha
    simp only [Symbol.SitedAt, Symbol.nested, Symbol.declaration, Symbol.doc, same] at here ⊢
    exact here
  · intro d hd
    have inside : d ∈ (g.mapModule f).nested := hd
    rw [Function.nested_mapModule] at inside
    exact functions g hg d inside

theorem Sited.setDoc (h : m.Sited) (doc : DocId) : (m.setDoc doc).Sited := by
  refine ⟨h.named, h.path, forall_children.2 ?_⟩
  obtain ⟨globals, enums, faults, constants, structs, bitstructs, aliases, distincts, interfaces,
    functions⟩ := forall_children.1 h.children
  simp only [Module.setDoc, Table.values_map, List.forall_mem_map]
  exact ⟨fun v hv => Symbol.forall_at_setDoc doc (globals v hv) rfl,
    fun e he => Symbol.sitedAt_setDoc_enum doc (enums e he),
    fun c hc => Symbol.sitedAt_setDoc_fault doc (faults c hc),
    fun c hc => Symbol.forall_at_setDoc doc (constants c hc) rfl,
    fun a ha => Aggregate.sitedAt_setDoc (structs a ha) doc,
    fun b hb => Bitstruct.sitedAt_setDoc doc (bitstructs b hb),
    fun a ha => Symbol.forall_at_setDoc doc (aliases a ha) rfl,
    fun d hd => Symbol.forall_at_setDoc doc (distincts d hd) rfl,
    fun i hi => Symbol.sitedAt_setDoc_interface doc (interfaces i hi),
    fun g hg => Symbol.forall_at_setDoc doc (functions g hg) (Function.nested_setDoc doc g)⟩

theorem Sited.inherit (h : m.Sited) {home : Module} (k : home.Sited) {structName typeName : String}
    {b : Struct} (lender : home.structs.get? typeName = some b) :
    Sited { m with structs := m.structs.modify structName (·.inherit typeName b.members) } := by
  refine ⟨h.named, h.path, forall_children.2 ?_⟩
  obtain ⟨globals, enums, faults, constants, structs, others⟩ := forall_children.1 h.children
  obtain ⟨-, -, -, -, lenders, -⟩ := forall_children.1 k.children
  refine ⟨globals, enums, faults, constants, fun a ha => ?_, others⟩
  obtain ⟨name, found⟩ := Table.mem_values_iff.1 ha
  rw [Table.get?_modify] at found
  split at found
  · obtain ⟨host, there, rfl⟩ := Option.map_eq_some_iff.1 found
    have sited := Aggregate.sitedAt_inherit (structs host (Table.mem_values_iff.2 ⟨name, there⟩))
      (lenders b (Table.mem_values_iff.2 ⟨typeName, lender⟩)) typeName
    have same : (host.inherit typeName b.members).doc = host.doc := by rw [Aggregate.inherit_eq]
    rw [Symbol.doc, Symbol.declaration, same]
    exact sited
  · exact structs a (Table.mem_values_iff.2 ⟨name, found⟩)

theorem stable_sited : Stable Sited where
  mapModule _ f h := h.mapModule f
  inherit _ _ _ _ _ home h found := h.inherit home found

theorem Sited.ofPath {path : ModulePath} (h : path.Storable) (doc : DocId) (nameRange range : Range)
    (comment? : Option DocComment) (generics : List String) (isPrivate : Bool) (attributes : List String) :
    Sited { Module.ofPath path doc nameRange range with
      comment? := comment?, genericParameters := generics, isPrivate := isPrivate,
      attributes := attributes } :=
  ⟨rfl, h, fun _ hs => absurd hs List.not_mem_nil⟩

/-- Modules of one name are the same module, as the name tells the path. -/
theorem Sited.modulePath_eq (h : m.Sited) (k : n.Sited) (same : n.name = m.name) :
    n.modulePath = m.modulePath :=
  calc n.modulePath
    _ = ModulePath.parse n.modulePath.text := k.path.symm
    _ = ModulePath.parse m.modulePath.text := by rw [← k.named, same, h.named]
    _ = m.modulePath := h.path

theorem Sited.merge (h : m.Sited) (k : n.Sited) (same : n.name = m.name) : (m.merge n).Sited := by
  have path := h.modulePath_eq k same
  obtain ⟨imports, known⟩ := addImports_eq m n.imports
  have others := k.children
  rw [path] at others
  obtain ⟨globals, enums, faults, constants, structs, bitstructs, aliases, distincts, interfaces,
    functions⟩ := forall_children.1 h.children
  obtain ⟨globals', enums', faults', constants', structs', bitstructs', aliases', distincts', interfaces',
    functions'⟩ := forall_children.1 others
  rw [Module.merge, known]
  exact ⟨h.named, h.path, forall_children.2 ⟨forall_values_insertAll globals globals',
    forall_values_insertAll enums enums', forall_values_insertAll faults faults',
    forall_values_insertAll constants constants', forall_values_insertAll structs structs',
    forall_values_insertAll bitstructs bitstructs', forall_values_insertAll aliases aliases',
    forall_values_insertAll distincts distincts', forall_values_insertAll interfaces interfaces',
    List.forall_mem_append.2 ⟨functions, functions'⟩⟩⟩

end Module

/-! ## Documents of declarations -/

namespace Module

variable {m n : Module}

/-- The module and all of its declarations are made in the document. -/
structure InDoc (m : Module) (doc : DocId) : Prop where
  own : m.doc = doc
  children : ∀ s ∈ m.children, s.doc = doc

theorem inDoc_setDoc (m : Module) (doc : DocId) : (m.setDoc doc).InDoc doc := by
  refine ⟨rfl, forall_children.2 ?_⟩
  simp only [Module.setDoc, Table.values_map, List.forall_mem_map]
  exact ⟨fun _ _ => rfl, fun _ _ => rfl, fun _ _ => rfl, fun _ _ => rfl, fun _ _ => rfl, fun _ _ => rfl,
    fun _ _ => rfl, fun _ _ => rfl, fun _ _ => rfl, fun _ _ => rfl⟩

theorem docs_skeleton (m : Module) : m.skeleton.children.map Symbol.doc = m.children.map Symbol.doc := by
  simp only [children, skeleton, mapModule, Table.values_map, List.map_append, List.map_map]
  have aliases : ∀ a : Alias, (Symbol.alias (a.mapModule fun _ => "")).doc = (Symbol.alias a).doc := fun a =>
    congrArg Declaration.doc (Alias.toDeclaration_mapModule _ a)
  simp only [Function.comp_def, aliases]
  rfl

/-- The documents of the declarations are read off the skeleton. -/
theorem InDoc.of_skeleton {doc : DocId} (h : m.InDoc doc) (same : n.skeleton = m.skeleton) : n.InDoc doc := by
  have own : n.skeleton.doc = m.skeleton.doc := by rw [same]
  refine ⟨own.trans h.own, fun s hs => ?_⟩
  have listed : s.doc ∈ m.children.map Symbol.doc := by
    rw [← docs_skeleton, ← same, docs_skeleton]
    exact List.mem_map_of_mem hs
  obtain ⟨t, ht, doc⟩ := List.mem_map.1 listed
  exact doc.symm.trans (h.children t ht)

end Module

/-! ## Units -/

namespace SourceUnit

variable {u v : SourceUnit}

/-- The modules stand under their names, and their declarations are made in them. -/
structure Sited (u : SourceUnit) : Prop where
  keyed : u.modules.KeyedBy (·.name)
  modules : ∀ m ∈ u.modules.values, m.Sited

theorem sited_ofDoc (doc : DocId) : (ofDoc doc).Sited :=
  ⟨Table.keyedBy_empty, fun _ hm => absurd hm List.not_mem_nil⟩

theorem Sited.register (h : u.Sited) {m : Module} (hm : m.Sited) : (u.register m).Sited :=
  ⟨keyed_register h.keyed m, forall_register h.modules hm fun k known hk => hk.merge hm (h.keyed _ k known).symm⟩

theorem Sited.merge (h : u.Sited) (k : v.Sited) : (v.modules.values.foldl SourceUnit.register u).Sited := by
  have sited := k.modules
  generalize v.modules.values = ms at sited
  induction ms generalizing u with
  | nil => exact h
  | cons m ms ih =>
    obtain ⟨first, others⟩ := List.forall_mem_cons.1 sited
    exact ih (h.register first) others

theorem Sited.setDoc (h : u.Sited) (doc : DocId) : (u.setDoc doc).Sited where
  keyed := h.keyed.map fun _ => rfl
  modules := Table.forall_values_map fun m hm => (h.modules m hm).setDoc doc

theorem Sited.withDoc (h : u.Sited) (doc : DocId) : Sited { u with doc := doc } :=
  ⟨h.keyed, h.modules⟩

end SourceUnit

end C3Lens
