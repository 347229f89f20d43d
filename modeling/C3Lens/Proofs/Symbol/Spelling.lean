import C3Lens.Proofs.Outline.Unit
import C3Lens.Proofs.Symbol.Hoisting
import C3Lens.Proofs.Symbol.Resolution
import Mathlib.Data.Option.Basic

/-!
# Names that a tree spells

What a document declares inside of other declarations has a name that its tree spells at the range of
the name, or none, and its modules hold declarations that the tree names there
(`SourceUnit.spelled_outline`). To bind types and to rename the document keeps this. To expand an inline
member brings members with ranges of other documents into its struct; all other structs and
declarations stay spelled (`Module.SpelledIn`).
-/

namespace C3Lens

/-- Members of other structs were put into the struct. -/
def Aggregate.Inherits (a : Struct) : Prop :=
  ∃ m ∈ a.members, m.isExpanded = true

/-- The place names the symbol. -/
def Symbol.NamedIn (p : Place) (lines : LineTable) : Symbol → Prop
  | .function f | .interfaceMethod f _ => f.NamedIn p lines
  | s => s.declaration.NamedIn p lines

/-- The place spells the names of all that stands inside of declarations, up to structs into which
members of others were put. -/
structure Module.SpelledInside (m : Module) (p : Place) (lines : LineTable) : Prop where
  structs : ∀ a ∈ m.structs.values, a.Inherits ∨ SpelledMembers a.members p lines
  bitstructs : ∀ b ∈ m.bitstructs.values, SpelledMembers b.members p lines
  enums : ∀ e ∈ m.enums.values, ∀ v ∈ e.enumerators, v.toDeclaration.SpelledIn p lines
  faults : ∀ f ∈ m.faults.values, ∀ c ∈ f.constants, c.toDeclaration.SpelledIn p lines
  interfaces : ∀ i ∈ m.interfaces.values, ∀ f ∈ i.methods.values, f.NamedIn p lines

/-- The place names the declarations, and it spells what stands inside of them. -/
structure Module.SpelledIn (m : Module) (p : Place) (lines : LineTable) : Prop
    extends m.SpelledInside p lines where
  children : ∀ s ∈ m.children, s.NamedIn p lines

variable {p : Place} {lines : LineTable}

/-! ## Members -/

namespace Member

theorem toDeclaration_mapModule (f : TypeRef → String) (m : Member) :
    (m.mapModule f).toDeclaration = m.toDeclaration := by
  obtain ⟨_, _, _, _, _, _, _⟩ := m
  rw [mapModule]

theorem isExpanded_mapModule (f : TypeRef → String) (m : Member) :
    (m.mapModule f).isExpanded = m.isExpanded := by
  obtain ⟨_, _, _, _, _, _, _⟩ := m
  rw [mapModule]

theorem toDeclaration_setDoc (doc : DocId) (m : Member) :
    (m.setDoc doc).toDeclaration = { m.toDeclaration with doc := doc } := by
  obtain ⟨_, _, _, _, _, _, _⟩ := m
  rw [setDoc]

theorem isExpanded_setDoc (doc : DocId) (m : Member) : (m.setDoc doc).isExpanded = m.isExpanded := by
  obtain ⟨_, _, _, _, _, _, _⟩ := m
  rw [setDoc]

end Member

namespace SpelledMembers

variable {ms : List Member}

theorem mapModule (h : SpelledMembers ms p lines) (f : TypeRef → String) :
    SpelledMembers (ms.map (Member.mapModule f)) p lines := by
  intro m hm
  obtain ⟨n, hn, rfl⟩ := List.mem_map.1 hm
  rw [Member.toDeclaration_mapModule]
  exact h n hn

theorem setDoc (h : SpelledMembers ms p lines) (doc : DocId) :
    SpelledMembers (ms.map (Member.setDoc doc)) p lines := by
  intro m hm
  obtain ⟨n, hn, rfl⟩ := List.mem_map.1 hm
  rw [Member.toDeclaration_setDoc]
  exact h n hn

end SpelledMembers

namespace Aggregate

theorem Inherits.mapModule {a : Struct} (h : a.Inherits) (f : TypeRef → String) :
    (a.mapModule f).Inherits := by
  obtain ⟨m, hm, expanded⟩ := h
  exact ⟨_, List.mem_map_of_mem hm, (Member.isExpanded_mapModule f m).trans expanded⟩

theorem Inherits.setDoc {a : Struct} (h : a.Inherits) (doc : DocId) : (a.setDoc doc).Inherits := by
  obtain ⟨m, hm, expanded⟩ := h
  exact ⟨_, List.mem_map_of_mem hm, (Member.isExpanded_setDoc doc m).trans expanded⟩

end Aggregate

theorem Alias.toDeclaration_mapModule (f : TypeRef → String) (a : Alias) :
    (a.mapModule f).toDeclaration = a.toDeclaration := by
  rw [mapModule]
  split
  · rfl
  · rfl

namespace Function.NamedIn

variable {f : Function}

theorem mapModule (h : f.NamedIn p lines) (g : TypeRef → String) : (f.mapModule g).NamedIn p lines := by
  refine ⟨h.own, ?_, ?_⟩
  · simp only [Function.mapModule, Table.values_map, List.forall_mem_map]
    exact h.parameters
  · simp only [Function.mapModule, List.forall_mem_map]
    exact h.locals

theorem setDoc (h : f.NamedIn p lines) (doc : DocId) : (f.setDoc doc).NamedIn p lines := by
  refine ⟨h.own, ?_, ?_⟩
  · simp only [Function.setDoc, Table.values_map, List.forall_mem_map]
    exact h.parameters
  · simp only [Function.setDoc, List.forall_mem_map]
    exact h.locals

end Function.NamedIn

/-! ## Modules -/

namespace Module

variable {m : Module}

theorem SpelledInside.mapModule (h : m.SpelledInside p lines) (f : TypeRef → String) :
    (m.mapModule f).SpelledInside p lines := by
  constructor <;> simp only [Module.mapModule, Table.values_map, List.forall_mem_map]
  · exact fun a ha => (h.structs a ha).imp (·.mapModule f) (·.mapModule f)
  · exact fun b hb => (h.bitstructs b hb).mapModule f
  · exact h.enums
  · exact h.faults
  · intro i hi g hg
    rw [Interface.mapModule, Table.values_map] at hg
    obtain ⟨k, hk, rfl⟩ := List.mem_map.1 hg
    exact (h.interfaces i hi k hk).mapModule f

theorem SpelledInside.setDoc (h : m.SpelledInside p lines) (doc : DocId) :
    (m.setDoc doc).SpelledInside p lines := by
  constructor <;> simp only [Module.setDoc, Table.values_map, List.forall_mem_map]
  · exact fun a ha => (h.structs a ha).imp (·.setDoc doc) (·.setDoc doc)
  · exact fun b hb => (h.bitstructs b hb).setDoc doc
  · intro e he v hv
    obtain ⟨k, hk, rfl⟩ := List.mem_map.1 hv
    exact h.enums e he k hk
  · intro f hf c hc
    obtain ⟨k, hk, rfl⟩ := List.mem_map.1 hc
    exact h.faults f hf k hk
  · intro i hi g hg
    rw [Interface.setDoc, Table.values_map] at hg
    obtain ⟨k, hk, rfl⟩ := List.mem_map.1 hg
    exact (h.interfaces i hi k hk).setDoc doc

theorem SpelledInside.inherit (h : m.SpelledInside p lines) (structName typeName : String)
    (inherited : List Member) :
    SpelledInside { m with structs := m.structs.modify structName (·.inherit typeName inherited) }
      p lines := by
  refine { h with structs := fun a ha => ?_ }
  obtain ⟨name, found⟩ := Table.mem_values_iff.1 ha
  rw [Table.get?_modify] at found
  split at found
  · obtain ⟨b, hb, rfl⟩ := Option.map_eq_some_iff.1 found
    have before := h.structs b (Table.mem_values_iff.2 ⟨name, hb⟩)
    -- Either nothing was put into the struct, or an expanded member is in it.
    rcases (Aggregate.hoistsTo_inherit b typeName inherited).expanded with same | expanded
    · rw [Aggregate.Inherits, same]
      exact before
    · exact .inl expanded
  · exact h.structs a (Table.mem_values_iff.2 ⟨name, found⟩)

theorem SpelledIn.mapModule (h : m.SpelledIn p lines) (f : TypeRef → String) :
    (m.mapModule f).SpelledIn p lines := by
  refine ⟨h.toSpelledInside.mapModule f, forall_children.2 ?_⟩
  obtain ⟨globals, enums, faults, constants, structs, bitstructs, aliases, distincts, interfaces,
    functions⟩ := forall_children.1 h.children
  simp only [Module.mapModule, Table.values_map, List.forall_mem_map]
  refine ⟨globals, enums, faults, constants, structs, bitstructs, fun a ha => ?_, distincts, interfaces,
    fun g hg => (functions g hg : g.NamedIn p lines).mapModule f⟩
  show Declaration.NamedIn (a.mapModule f).toDeclaration p lines
  rw [Alias.toDeclaration_mapModule]
  exact aliases a ha

theorem SpelledIn.setDoc (h : m.SpelledIn p lines) (doc : DocId) : (m.setDoc doc).SpelledIn p lines := by
  refine ⟨h.toSpelledInside.setDoc doc, forall_children.2 ?_⟩
  obtain ⟨globals, enums, faults, constants, structs, bitstructs, aliases, distincts, interfaces,
    functions⟩ := forall_children.1 h.children
  simp only [Module.setDoc, Table.values_map, List.forall_mem_map]
  exact ⟨globals, enums, faults, constants, structs, bitstructs, aliases, distincts, interfaces,
    fun g hg => (functions g hg : g.NamedIn p lines).setDoc doc⟩

theorem SpelledIn.inherit (h : m.SpelledIn p lines) (structName typeName : String)
    (inherited : List Member) :
    SpelledIn { m with structs := m.structs.modify structName (·.inherit typeName inherited) } p lines := by
  refine ⟨h.toSpelledInside.inherit structName typeName inherited, forall_children.2 ?_⟩
  obtain ⟨globals, enums, faults, constants, structs, others⟩ := forall_children.1 h.children
  refine ⟨globals, enums, faults, constants, fun a ha => ?_, others⟩
  obtain ⟨name, found⟩ := Table.mem_values_iff.1 ha
  rw [Table.get?_modify] at found
  split at found
  · obtain ⟨b, hb, rfl⟩ := Option.map_eq_some_iff.1 found
    show Declaration.NamedIn (b.inherit typeName inherited).toDeclaration p lines
    rw [Aggregate.inherit_eq]
    exact structs b (Table.mem_values_iff.2 ⟨name, hb⟩)
  · exact structs a (Table.mem_values_iff.2 ⟨name, found⟩)

theorem Declared.named_children {src : Source} (h : m.Declared src) :
    ∀ s ∈ m.children, s.NamedIn src.root src.lines := by
  induction h with
  | start => exact fun s hs => absurd hs List.not_mem_nil
  | range _ _ ih => exact ih
  | imports _ _ ih => exact ih
  | globals _ vs named ih =>
    obtain ⟨globals, others⟩ := forall_children.1 ih
    exact forall_children.2
      ⟨Table.forall_values_foldl_insert globals fun v hv => .inr (named v hv), others⟩
  | enum _ e named _ ih =>
    obtain ⟨globals, enums, others⟩ := forall_children.1 ih
    exact forall_children.2 ⟨globals, Table.forall_values_insert enums named, others⟩
  | fault _ f named _ ih =>
    obtain ⟨globals, enums, faults, others⟩ := forall_children.1 ih
    exact forall_children.2 ⟨globals, enums, Table.forall_values_insert faults named, others⟩
  | faultConstants _ cs named ih =>
    obtain ⟨globals, enums, faults, constants, others⟩ := forall_children.1 ih
    exact forall_children.2
      ⟨globals, enums, faults, Table.forall_values_foldl_insert constants named, others⟩
  | struct _ a _ named _ ih =>
    obtain ⟨globals, enums, faults, constants, structs, others⟩ := forall_children.1 ih
    exact forall_children.2
      ⟨globals, enums, faults, constants, Table.forall_values_insert structs named, others⟩
  | bitstruct _ b named _ ih =>
    obtain ⟨globals, enums, faults, constants, structs, bitstructs, others⟩ := forall_children.1 ih
    exact forall_children.2
      ⟨globals, enums, faults, constants, structs, Table.forall_values_insert bitstructs named, others⟩
  | aliased _ a named ih =>
    obtain ⟨globals, enums, faults, constants, structs, bitstructs, aliases, others⟩ :=
      forall_children.1 ih
    exact forall_children.2 ⟨globals, enums, faults, constants, structs, bitstructs,
      Table.forall_values_insert aliases named, others⟩
  | distinct _ d named ih =>
    obtain ⟨globals, enums, faults, constants, structs, bitstructs, aliases, distincts, others⟩ :=
      forall_children.1 ih
    exact forall_children.2 ⟨globals, enums, faults, constants, structs, bitstructs, aliases,
      Table.forall_values_insert distincts named, others⟩
  | interface _ i _ named _ _ ih =>
    obtain ⟨globals, enums, faults, constants, structs, bitstructs, aliases, distincts, interfaces,
      functions⟩ := forall_children.1 ih
    exact forall_children.2 ⟨globals, enums, faults, constants, structs, bitstructs, aliases, distincts,
      Table.forall_values_insert interfaces named, functions⟩
  | function _ f _ _ named ih =>
    obtain ⟨globals, enums, faults, constants, structs, bitstructs, aliases, distincts, interfaces,
      functions⟩ := forall_children.1 ih
    refine forall_children.2 ⟨globals, enums, faults, constants, structs, bitstructs, aliases, distincts,
      interfaces, List.forall_mem_append.2 ⟨functions, fun g hg => ?_⟩⟩
    cases List.mem_singleton.1 hg
    exact named

theorem Declared.spelledInside {src : Source} (h : m.Declared src) :
    m.SpelledInside src.root src.lines := by
  induction h with
  | start =>
    constructor <;> exact fun a ha => absurd ha List.not_mem_nil
  | struct _ a _ _ members ih =>
    refine { ih with structs := fun b hb => ?_ }
    rcases List.mem_cons.1 (Table.values_insert_subset _ _ _ hb) with rfl | old
    · exact .inr members
    · exact ih.structs b old
  | bitstruct _ b _ members ih =>
    refine { ih with bitstructs := fun c hc => ?_ }
    rcases List.mem_cons.1 (Table.values_insert_subset _ _ _ hc) with rfl | old
    · exact members
    · exact ih.bitstructs c old
  | enum _ e _ enumerators ih =>
    refine { ih with enums := fun d hd => ?_ }
    rcases List.mem_cons.1 (Table.values_insert_subset _ _ _ hd) with rfl | old
    · exact enumerators
    · exact ih.enums d old
  | fault _ f _ constants ih =>
    refine { ih with faults := fun g hg => ?_ }
    rcases List.mem_cons.1 (Table.values_insert_subset _ _ _ hg) with rfl | old
    · exact constants
    · exact ih.faults g old
  | interface _ i fs _ methods functions ih =>
    refine { ih with interfaces := fun j hj => ?_ }
    rcases List.mem_cons.1 (Table.values_insert_subset _ _ _ hj) with rfl | old
    · rw [methods]
      intro f hf
      obtain ⟨e, he, rfl⟩ := List.mem_map.1 (Table.values_ofList_subset _ hf)
      obtain ⟨g, hg, rfl⟩ := List.mem_map.1 he
      exact functions g hg
    · exact ih.interfaces j old
  | _ =>
    -- All other declarations put nothing into these tables.
    rename_i ih
    exact { ih with }

theorem Declared.spelled {src : Source} (h : m.Declared src) : m.SpelledIn src.root src.lines :=
  ⟨h.spelledInside, h.named_children⟩

end Module

/-! ## Units -/

namespace SourceUnit

variable {u : SourceUnit}

theorem mem_of_lastBefore? {pos : Position} {ms : List Module} {m : Module}
    (h : lastBefore? pos ms = some m) : m ∈ ms := by
  cases ms with
  | nil => cases h
  | cons first rest =>
    -- What is kept on the way is one of those that were passed.
    suffices kept : ∀ q, lastBefore? pos (first :: rest) = some q → q ∈ first :: rest from kept m h
    refine List.foldlRecOn (motive := fun prior? => ∀ q, prior? = some q → q ∈ first :: rest)
      (first :: rest) _ (fun q none => nomatch none) fun prior? known n hn q => ?_
    split
    · cases prior? with
      | none =>
        rintro ⟨⟩
        exact hn
      | some r =>
        dsimp only
        split
        · rintro ⟨⟩
          exact hn
        · exact known q
    · exact known q

theorem mem_modules_of_moduleAt? {pos : Position} {m : Module} (h : u.moduleAt? pos = some m) :
    m ∈ u.modules.values := by
  have found : ((u.modules.values.find? (·.range.contains pos)) <|> lastBefore? pos u.modules.values <|>
    u.modules.values.head?) = some m := h
  rcases (Option.orElse_eq_some _ _ _).1 found with inside | ⟨-, outside⟩
  · exact List.mem_of_find?_eq_some inside
  rcases (Option.orElse_eq_some _ _ _).1 outside with before | ⟨-, first⟩
  · exact mem_of_lastBefore? before
  · exact List.mem_of_mem_head? first

/-- The modules stand under their names, and the place spells the names in all of them. -/
structure SpelledIn (u : SourceUnit) (p : Place) (lines : LineTable) : Prop where
  keyed : u.modules.KeyedBy (·.name)
  modules : ∀ m ∈ u.modules.values, m.SpelledIn p lines

theorem spelled_outline (doc : DocId) (lines : LineTable) (tree : Tree) :
    (outline doc lines tree).1.SpelledIn ⟨0, tree⟩ lines := by
  obtain ⟨keyed, declared⟩ := declared_outline doc lines tree
  refine ⟨keyed, fun m hm => ?_⟩
  obtain ⟨name, found⟩ := Table.mem_values_iff.1 hm
  exact (declared name m found).spelled

theorem SpelledIn.setDoc (h : u.SpelledIn p lines) (doc : DocId) : (u.setDoc doc).SpelledIn p lines := by
  refine ⟨h.keyed.map fun _ => rfl, fun m hm => ?_⟩
  rw [SourceUnit.setDoc, Table.values_map] at hm
  obtain ⟨n, hn, rfl⟩ := List.mem_map.1 hm
  exact (h.modules n hn).setDoc doc

theorem SpelledIn.mapModules (h : u.SpelledIn p lines) (f : String → TypeRef → String) :
    (u.mapModules f).SpelledIn p lines := by
  refine ⟨h.keyed.mapEntries fun _ _ => rfl, fun m hm => ?_⟩
  obtain ⟨name, found⟩ := Table.mem_values_iff.1 hm
  rw [SourceUnit.mapModules, Table.get?_mapEntries] at found
  obtain ⟨n, hn, rfl⟩ := Option.map_eq_some_iff.1 found
  exact (h.modules n (Table.mem_values_iff.2 ⟨name, hn⟩)).mapModule _

theorem SpelledIn.hoistAll (h : u.SpelledIn p lines) (hoists : List (PendingInline × List Member)) :
    (u.hoistAll hoists).SpelledIn p lines := by
  induction hoists generalizing u with
  | nil => exact h
  | cons i hoists ih =>
    refine ih ⟨h.keyed.modify _ fun _ => rfl, fun m hm => ?_⟩
    obtain ⟨name, found⟩ := Table.mem_values_iff.1 hm
    have hoisted : (u.modules.modify i.1.moduleName _).get? name = some m := found
    rw [Table.get?_modify] at hoisted
    split at hoisted
    · obtain ⟨n, hn, rfl⟩ := Option.map_eq_some_iff.1 hoisted
      exact (h.modules n (Table.mem_values_iff.2 ⟨name, hn⟩)).inherit _ _ _
    · exact h.modules m (Table.mem_values_iff.2 ⟨name, hoisted⟩)

end SourceUnit

end C3Lens
