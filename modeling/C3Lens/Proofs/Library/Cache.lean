import C3Lens.Library.Cache
import C3Lens.Proofs.Files.Write
import C3Lens.Proofs.Json.Written
import C3Lens.Proofs.Outline.Storable

/-!
# Reading a cache back

What is written of a unit is read back as it was, whatever text, merge or resolution it came from
(`parseCache_cacheText`). A reader of a cache skips members that it does not know and takes back the
tables of modules one by one, so it needs three things: nothing that is written is skipped
(`CachePart.takes_module`), all symbols can be stored, and the modules stand under their names
(`SourceUnit.Cacheable`).
-/

namespace C3Lens

/-! ## What the reader of a cache needs -/

namespace Json.Guide

variable {σ α : Type} {guide : Guide σ} {here next : σ}

@[simp] theorem takesMembers_append {ms ns : Members} :
    guide.TakesMembers here (ms ++ ns) ↔ guide.TakesMembers here ms ∧ guide.TakesMembers here ns := by
  induction ms with
  | nil => simp [TakesMembers]
  | cons m ms ih => rw [List.cons_append, TakesMembers, TakesMembers, ih, and_assoc]

theorem takesMembers_single {name : String} {j : Json} (next : σ) (member : guide.member? here name = some next)
    (h : guide.Takes next j) : guide.TakesMembers here [(name, j)] :=
  ⟨⟨next, member, h⟩, trivial⟩

theorem takesMembers_ifSome {name : String} {write : α → Json} {a? : Option α} (next : σ)
    (member : guide.member? here name = some next) (h : ∀ a ∈ a?, guide.Takes next (write a)) :
    guide.TakesMembers here (ifSome name write a?) := by
  cases a? with
  | none => trivial
  | some a => exact takesMembers_single _ member (h a rfl)

theorem takesMembers_omitIf {name : String} {write : α → Json} {a : α} (isEmpty : Bool) (next : σ)
    (member : guide.member? here name = some next) (h : guide.Takes next (write a)) :
    guide.TakesMembers here (omitIf isEmpty name write a) := by
  cases isEmpty with
  | true => trivial
  | false => exact takesMembers_single _ member h

/-- All items are read in one way. -/
theorem takes_list {write : α → Json} {as : List α} (items : ∀ place, guide.item here place = next)
    (h : ∀ a ∈ as, guide.Takes next (write a)) : guide.Takes here (list write as) := by
  suffices all : ∀ place, guide.TakesItems here place (as.map write) from all 0
  induction as with
  | nil => exact fun _ => trivial
  | cons a as ih =>
    intro place
    rw [List.map_cons, TakesItems, items place]
    exact ⟨h a List.mem_cons_self, ih (fun b hb => h b (List.mem_cons_of_mem _ hb)) (place + 1)⟩

/-- All values of a table are read in one way. -/
theorem takes_table {write : α → Json} {t : Table α} (members : ∀ name, guide.member? here name = some next)
    (h : ∀ a ∈ t.values, guide.Takes next (write a)) : guide.Takes here (t.toJson write) := by
  rw [Table.values] at h
  rw [Table.toJson, Takes]
  generalize t.entries = es at h
  induction es with
  | nil => trivial
  | cons e es ih =>
    rw [List.map_cons, List.forall_mem_cons] at h
    exact ⟨⟨next, members e.1, h.1⟩, ih h.2⟩

end Json.Guide

namespace Library.CachePart

open Json.Guide

theorem takes_nat {n : Nat} (h : n ≤ mostCoordinate) (part : CachePart) : guide.Takes part (.nat n) := by
  have small : mostCoordinate ≤ Json.mostPositive := by decide
  rw [Json.nat, Takes]
  omega

theorem takes_range {r : Range} (h : r.Storable) : guide.Takes whole r.toJson :=
  ⟨⟨takes_nat h.start.line _, takes_nat h.start.character _, trivial⟩,
    ⟨takes_nat h.stop.line _, takes_nat h.stop.character _, trivial⟩, trivial⟩

theorem takes_strings (texts : List String) : guide.Takes whole (.list .string texts) :=
  takes_list (fun _ => rfl) fun _ _ => trivial

theorem takes_comment (c : DocComment) : guide.Takes whole c.toJson :=
  ⟨⟨whole, rfl, trivial⟩, takesMembers_omitIf _ _ rfl <| takes_list (fun _ => rfl) fun _ _ =>
    ⟨⟨whole, rfl, trivial⟩, ⟨whole, rfl, trivial⟩, trivial⟩⟩

variable {part : CachePart}

/-- The common fields are needed of all symbols, and nothing in them is skipped. -/
theorem takes_fields {d : Declaration} (h : d.Storable)
    (common : ∀ name ∈ Declaration.fieldNames, guide.member? part name = some whole) :
    guide.TakesMembers part d.fields := by
  simp only [Declaration.fieldNames, List.forall_mem_cons] at common
  obtain ⟨name, module, doc, nameRange, range, comment, -⟩ := common
  refine takesMembers_append.2 ⟨⟨⟨_, name, trivial⟩, ⟨_, module, trivial⟩, ⟨_, doc, trivial⟩,
    ⟨_, nameRange, takes_range h.nameRange⟩, ⟨_, range, takes_range h.range⟩, trivial⟩, ?_⟩
  exact takesMembers_ifSome _ comment fun c _ => takes_comment c

theorem takes_interfaces (names : List String) (member : guide.member? part "implements" = some whole) :
    guide.TakesMembers part (interfacesField names) :=
  takesMembers_omitIf _ _ member (takes_strings names)

mutual

theorem takes_type : (t : TypeRef) → t.Storable → guide.Takes type t.toJson
  | ⟨name, isBuiltin, pointers, isOptional, isGenericParameter, arguments, isCollection, size?,
      moduleName⟩, h => by
    have own := h _ (by rw [TypeRef.parts_eq]; exact List.mem_cons_self)
    have nested := takes_types arguments 0 fun u hu =>
      h u (by rw [TypeRef.parts_eq]; exact List.mem_cons_of_mem _ hu)
    have marks : pointers ≤ mostCoordinate := Nat.le_trans own.1 (by decide)
    rw [TypeRef.toJson, Takes]
    simp only [takesMembers_append]
    refine ⟨⟨⟨⟨⟨⟨whole, rfl, trivial⟩, ⟨whole, rfl, trivial⟩, ⟨whole, rfl, takes_nat marks _⟩,
      ⟨whole, rfl, trivial⟩, ⟨whole, rfl, trivial⟩, trivial⟩, ?_⟩, ⟨whole, rfl, trivial⟩, trivial⟩, ?_⟩,
      ⟨whole, rfl, trivial⟩, trivial⟩
    · exact takesMembers_omitIf _ _ rfl nested
    · exact takesMembers_ifSome _ rfl fun n hn => takes_nat (own.2 n hn) whole

theorem takes_types : (ts : List TypeRef) → (place : Nat) →
    (∀ u ∈ TypeRef.partsOfList ts, u.pointers ≤ TypeRef.mostPointers ∧ ∀ n ∈ u.size?, n ≤ mostCoordinate) →
    guide.TakesItems (each type) place (TypeRef.listToJson ts)
  | [], _, _ => trivial
  | t :: ts, place, h => by
    rw [TypeRef.listToJson, TakesItems]
    exact ⟨takes_type t fun u hu => h u (List.mem_append_left _ hu),
      takes_types ts (place + 1) fun u hu => h u (List.mem_append_right _ hu)⟩

end

theorem takes_parameter (p : ParameterInfo) : guide.Takes parameter p.toJson := by
  obtain ⟨isVariadic, default?⟩ := p
  cases default? with
  | none => exact ⟨⟨whole, rfl, trivial⟩, ⟨whole, rfl, trivial⟩, trivial⟩
  | some text => exact ⟨⟨whole, rfl, trivial⟩, ⟨whole, rfl, trivial⟩, trivial⟩

theorem takes_variable {v : Variable} (h : v.Storable) : guide.Takes global v.toJson := by
  rw [Variable.toJson, Takes]
  simp only [takesMembers_append]
  exact ⟨⟨⟨takes_fields h.declaration (by decide), takesMembers_single _ rfl (takes_type _ h.type)⟩,
    takesMembers_ifSome _ rfl fun p _ => takes_parameter p⟩, takesMembers_single whole rfl trivial⟩

/-- A list of symbols of one kind that is left out where it is empty. -/
theorem takes_listField {α : Type} {name : String} {write : α → Json} {as : List α} {next : CachePart}
    (member : guide.member? part name = some (each next)) (h : ∀ a ∈ as, guide.Takes next (write a)) :
    guide.TakesMembers part (listField name write as) :=
  takesMembers_omitIf _ _ member (takes_list (fun _ => rfl) h)

theorem takes_tableField {α : Type} {name : String} {write : α → Json} {t : Table α} {next : CachePart}
    (member : guide.member? part name = some (each next)) (h : ∀ a ∈ t.values, guide.Takes next (write a)) :
    guide.TakesMembers part (t.field name write) :=
  takesMembers_omitIf _ _ member (takes_table (fun _ => rfl) h)

/-- The same where all of it is read in one way, whatever it is. -/
theorem takes_wholeList {α : Type} {name : String} {write : α → Json} {as : List α}
    (member : guide.member? part name = some whole) (h : ∀ a ∈ as, guide.Takes whole (write a)) :
    guide.TakesMembers part (listField name write as) :=
  takesMembers_omitIf _ _ member (takes_list (fun _ => rfl) h)

theorem takes_function {f : Function} (h : f.Storable) : guide.Takes function f.toJson := by
  rw [Function.toJson, Takes]
  simp only [takesMembers_append]
  refine ⟨⟨⟨⟨takes_fields h.declaration (by decide), ⟨whole, rfl, ?_⟩,
    takesMembers_single _ rfl (takes_type _ h.returns)⟩,
    takes_tableField rfl fun v hv => takes_variable (h.parameters v hv)⟩,
    takesMembers_ifSome whole rfl fun _ _ => trivial⟩,
    takes_listField rfl fun v hv => takes_variable (h.locals v hv)⟩
  cases f.kind with
  | free => trivial
  | method => trivial
  | macroDef => trivial

theorem takes_struct {s : Struct} (h : s.toDeclaration.Storable)
    (members : guide.TakesItems (each member) 0 (Member.listToJson s.members)) :
    guide.Takes struct s.toJson := by
  rw [Aggregate.toJson, Takes]
  simp only [takesMembers_append]
  exact ⟨⟨takes_fields h (by decide), ⟨each member, rfl, members⟩, ⟨whole, rfl, trivial⟩, trivial⟩,
    takes_interfaces _ rfl⟩

mutual

theorem takes_member : (m : Member) → m.Storable → guide.Takes member m.toJson
  | ⟨d, t, bits?, awaits, expanded, body?, owner⟩, h => by
    obtain ⟨hd, ht, hbits, hbody⟩ := h
    rw [Member.toJson, Takes, Member.bodyField_eq]
    simp only [takesMembers_append]
    refine ⟨⟨⟨⟨⟨takes_fields hd (by decide), takesMembers_single _ rfl (takes_type t ht)⟩, ?_⟩,
      ⟨whole, rfl, trivial⟩, ⟨whole, rfl, trivial⟩, trivial⟩,
      takesMembers_ifSome _ rfl (takes_body body? hbody)⟩, takesMembers_omitIf _ whole rfl trivial⟩
    exact takesMembers_ifSome whole rfl fun b hb =>
      ⟨takes_nat (hbits b hb).1 _, takes_nat (hbits b hb).2 _, trivial⟩

theorem takes_body : (body? : Option (Aggregate Member)) → Member.StorableBody body? →
    ∀ s ∈ body?, guide.Takes struct (Aggregate.toJson s)
  | none, _ => fun s hs => nomatch hs
  | some ⟨d, members, isUnion, interfaces⟩, h => fun s hs => by
    cases hs
    exact takes_struct h.1 (takes_members members 0 h.2)

theorem takes_members : (ms : List Member) → (place : Nat) → Member.StorableList ms →
    guide.TakesItems (each member) place (Member.listToJson ms)
  | [], _, _ => trivial
  | m :: ms, place, h => by
    rw [Member.listToJson, TakesItems]
    exact ⟨takes_member m h.1, takes_members ms (place + 1) h.2⟩

end

theorem takes_bitstruct {b : Bitstruct} (h : b.Storable) : guide.Takes bitstruct b.toJson := by
  rw [Bitstruct.toJson, Takes]
  simp only [takesMembers_append]
  exact ⟨⟨takes_fields h.declaration (by decide), ⟨_, rfl, takes_type _ h.backing⟩,
    ⟨each member, rfl, takes_members _ 0 h.members⟩, trivial⟩, takes_interfaces _ rfl⟩

theorem takes_enum {e : Enum} (h : e.Storable) : guide.Takes enum e.toJson := by
  rw [Enum.toJson, Takes]
  simp only [takesMembers_append]
  refine ⟨⟨⟨takes_fields h.declaration (by decide), ⟨whole, rfl, trivial⟩, ⟨whole, rfl, ?_⟩, trivial⟩,
    takes_listField rfl fun v hv => takes_variable (h.values v hv)⟩, takes_interfaces _ rfl⟩
  refine takes_list (fun _ => rfl) fun v hv => ?_
  rw [Enumerator.toJson, Takes]
  exact takesMembers_append.2 ⟨takes_fields (h.enumerators v hv) (by decide), ⟨whole, rfl, trivial⟩,
    ⟨whole, rfl, trivial⟩, trivial⟩

theorem takes_faultConstant {c : FaultConstant} (h : c.toDeclaration.Storable) :
    guide.Takes whole c.toJson := by
  rw [FaultConstant.toJson, Takes]
  exact takesMembers_append.2 ⟨takes_fields h (by decide),
    takesMembers_ifSome whole rfl fun _ _ => trivial⟩

theorem takes_fault {f : Fault} (h : f.Storable) : guide.Takes fault f.toJson := by
  rw [Fault.toJson, Takes]
  exact takesMembers_append.2 ⟨takes_fields h.declaration (by decide), ⟨whole, rfl, trivial⟩,
    ⟨whole, rfl, takes_list (fun _ => rfl) fun c hc => takes_faultConstant (h.constants c hc)⟩, trivial⟩

theorem takes_alias {a : Alias} (h : a.Storable) : guide.Takes aliased a.toJson := by
  have stands : guide.Takes target a.target.toJson := by
    cases known : a.target with
    | symbol path => exact ⟨⟨whole, rfl, trivial⟩, trivial⟩
    | type t => exact ⟨⟨type, rfl, takes_type t (h.type t (by rw [Alias.type?, known]; rfl))⟩, trivial⟩
  rw [Alias.toJson, Takes]
  exact takesMembers_append.2 ⟨takes_fields h.declaration (by decide), takesMembers_single _ rfl stands⟩

theorem takes_distinct {d : Distinct} (h : d.Storable) : guide.Takes distinct d.toJson := by
  rw [Distinct.toJson, Takes]
  exact takesMembers_append.2 ⟨takes_fields h.declaration (by decide),
    ⟨type, rfl, takes_type _ h.base⟩, ⟨whole, rfl, trivial⟩, trivial⟩

theorem takes_interface {i : Interface} (h : i.Storable) : guide.Takes interface i.toJson := by
  rw [Interface.toJson, Takes]
  exact takesMembers_append.2 ⟨takes_fields h.declaration (by decide),
    takesMembers_single (each function) rfl
      (takes_table (fun _ => rfl) fun f hf => takes_function (h.methods f hf))⟩

/-- All of a module is read. -/
theorem takes_module {m : Module} (h : m.Storable) : guide.Takes unit m.toJson := by
  rw [Module.toJson, Takes]
  simp only [takesMembers_append]
  exact ⟨⟨⟨⟨⟨⟨⟨⟨⟨⟨⟨⟨⟨⟨takes_fields h.declaration (by decide),
    takes_wholeList rfl fun _ _ => trivial⟩, takes_wholeList rfl fun _ _ => trivial⟩,
    takesMembers_single whole rfl trivial⟩, takes_wholeList rfl fun _ _ => trivial⟩,
    takes_tableField rfl fun v hv => takes_variable (h.globals v hv)⟩,
    takes_tableField rfl fun e he => takes_enum (h.enums e he)⟩,
    takes_tableField rfl fun f hf => takes_fault (h.faults f hf)⟩,
    takesMembers_omitIf _ whole rfl
      (takes_table (fun _ => rfl) fun c hc => takes_faultConstant (h.faultConstants c hc))⟩,
    takes_tableField rfl fun s hs =>
      takes_struct (h.structs s hs).declaration (takes_members _ 0 (h.structs s hs).members)⟩,
    takes_tableField rfl fun b hb => takes_bitstruct (h.bitstructs b hb)⟩,
    takes_tableField rfl fun a ha => takes_alias (h.aliases a ha)⟩,
    takes_tableField rfl fun d hd => takes_distinct (h.distincts d hd)⟩,
    takes_tableField rfl fun i hi => takes_interface (h.interfaces i hi)⟩,
    takes_listField rfl fun f hf => takes_function (h.functions f hf)⟩

end Library.CachePart

/-! ## Units that are kept -/

namespace SourceUnit

/-- The modules stand under their names, and all of them can be stored. -/
structure Cacheable (u : SourceUnit) : Prop where
  keyed : u.modules.KeyedBy (·.name)
  storable : u.HoldsStorable

variable {u v : SourceUnit}

theorem cacheable_ofDoc (doc : DocId) : (ofDoc doc).Cacheable :=
  ⟨Table.keyedBy_empty, fun _ hm => absurd hm List.not_mem_nil⟩

theorem cacheable_outlineOfText (doc : DocId) {text : String} (bytes : text.utf8ByteSize ≤ mostCoordinate) :
    (outlineOfText doc text).1.Cacheable :=
  ⟨(declared_outline doc _ _).1, storable_outlineOfText doc bytes⟩

theorem Cacheable.merge (h : u.Cacheable) (k : v.Cacheable) :
    (v.modules.values.foldl register u).Cacheable := by
  have storable := k.storable
  rw [HoldsStorable] at storable
  generalize v.modules.values = ms at storable
  induction ms generalizing u with
  | nil => exact h
  | cons m ms ih =>
    have ⟨first, others⟩ := List.forall_mem_cons.1 storable
    exact ih ⟨keyed_register h.keyed m, h.storable.register first⟩ others

theorem Cacheable.withDoc (h : u.Cacheable) (doc : DocId) : Cacheable { u with doc := doc } :=
  ⟨h.keyed, h.storable⟩

theorem Cacheable.setDoc (h : u.Cacheable) (doc : DocId) : (u.setDoc doc).Cacheable where
  keyed := h.keyed.map fun _ => rfl
  storable := Table.forall_values_map fun m hm => (h.storable m hm).setDoc doc

/-- Units of the same skeleton have their modules under the same names. -/
theorem keyed_of_skeleton (same : v.skeleton = u.skeleton) (keyed : u.modules.KeyedBy (·.name)) :
    v.modules.KeyedBy (·.name) := by
  intro name m hm
  have found : v.skeleton.modules.get? name = some m.skeleton := by
    rw [skeleton, Table.get?_map, hm, Option.map_some]
  rw [same, skeleton, Table.get?_map] at found
  obtain ⟨n, hn, equal⟩ := Option.map_eq_some_iff.1 found
  calc m.name
    _ = m.skeleton.name := rfl
    _ = n.skeleton.name := by rw [equal]
    _ = name := keyed name n hn

/-- A registration keeps what makes units fit for the cache. -/
theorem Cacheable.resolved {s : SymbolStore} (h : u.Cacheable)
    (known : ∀ name w, s.units.get? name = some w → w.Cacheable) (p : Pending) {doc : DocId}
    (found : (s.register u p).unit? doc = some v) : v.Cacheable where
  keyed := by
    obtain ⟨w, placed, same⟩ := SymbolStore.unit?_of_skeleton (SymbolStore.skeleton_settle _) found
    refine keyed_of_skeleton same ?_
    have here : (s.units.insert u.doc.text u).get? doc.text = some w := placed
    rw [Table.get?_insert] at here
    split at here
    · cases here
      exact h.keyed
    · exact (known _ w here).keyed
  storable m hm := by
    obtain ⟨name, stands⟩ := Table.mem_values_iff.1 hm
    have before : s.Every Module.Storable := by
      intro m hm
      obtain ⟨name, w, key, hw, hm⟩ := SymbolStore.mem_modules_iff.1 hm
      exact (known name w hw).storable m (Table.mem_values_iff.2 ⟨key, hm⟩)
    exact before.register Module.stable_storable h.storable p m
      (SymbolStore.mem_modules_iff.2 ⟨doc.text, v, name, found, stands⟩)

/-- Modules that stand under their names are registered as they were, in their order. -/
theorem foldl_register_ofDoc (keyed : u.modules.KeyedBy (·.name)) :
    u.modules.values.foldl register (.ofDoc u.doc) = u := by
  have all : ∀ (es : List (String × Module)) (t : Table Module), (∀ e ∈ es, e.2.name = e.1) →
      ((t.entries ++ es).map Prod.fst).Nodup →
      (es.map Prod.snd).foldl register ⟨u.doc, t⟩ = ⟨u.doc, es.foldl (fun t e => t.insert e.1 e.2) t⟩ := by
    intro es
    induction es with
    | nil => exact fun _ _ _ => rfl
    | cons e es ih =>
      intro t named distinct
      have ⟨name, names⟩ := List.forall_mem_cons.1 named
      have new : e.1 ∉ t.names := by
        rw [List.map_append, List.map_cons] at distinct
        exact fun old => (List.nodup_append.1 distinct).2.2 _ old _ List.mem_cons_self rfl
      have placed : register ⟨u.doc, t⟩ e.2 = ⟨u.doc, t.insert e.1 e.2⟩ := by
        rw [register, name, Table.get?_eq_none_iff.2 new]
      rw [List.map_cons, List.foldl_cons, placed, List.foldl_cons]
      refine ih _ names ?_
      rw [Table.entries_insert_of_notMem new, List.append_assoc]
      exact distinct
  have whole := all u.modules.entries .empty
    (fun e he => keyed e.1 e.2 (Table.mem_entries_iff.1 he)) u.modules.nodup
  exact whole.trans (congrArg (mk u.doc) (Table.ofList_entries u.modules))

/-- The units that come about: what is read from a text, whose bytes are counted with 32 bits, what is
merged from several units, what a registration makes of the units of a store, and what is moved to
another document. -/
inductive Produced : SourceUnit → Prop
  | read (doc : DocId) (text : String) (bytes : text.utf8ByteSize ≤ mostCoordinate) :
    Produced (outlineOfText doc text).1
  | none (doc : DocId) : Produced (.ofDoc doc)
  | merged {u v : SourceUnit} : Produced u → Produced v → Produced (v.modules.values.foldl register u)
  | resolved {s : SymbolStore} {u v : SourceUnit} {doc : DocId} (p : Pending) : Produced u →
    (∀ name w, s.units.get? name = some w → Produced w) → (s.register u p).unit? doc = some v → Produced v
  | withDoc {u : SourceUnit} (doc : DocId) : Produced u → Produced { u with doc := doc }
  | moved {u : SourceUnit} (doc : DocId) : Produced u → Produced (u.setDoc doc)

theorem Produced.cacheable (h : u.Produced) : u.Cacheable := by
  induction h with
  | read doc text bytes => exact cacheable_outlineOfText doc bytes
  | none doc => exact cacheable_ofDoc doc
  | merged _ _ ih ih' => exact ih.merge ih'
  | resolved p _ _ found ih known => exact ih.resolved known p found
  | withDoc doc _ ih => exact ih.withDoc doc
  | moved doc _ ih => exact ih.setDoc doc

end SourceUnit

/-! ## Writing and reading -/

namespace Library

variable {u : SourceUnit}

theorem CacheFile.ofJson?_toJson {c : CacheFile} (format : c.format ≤ mostCoordinate)
    (modules : ∀ m ∈ c.modules, m.Storable) : ofJson? c.toJson = some c := by
  have items : Json.itemsOf? Module.ofJson? (.list Module.toJson c.modules) = some c.modules :=
    Json.itemsOf?_list fun m hm => Module.ofJson?_toJson (modules m hm)
  rw [toJson, ofJson?]
  simp only [Json.record?, Option.bind_eq_bind, Option.bind_some]
  rw [Json.required_of_filter (.nat c.format), coordinate?_nat format,
    Json.required_of_filter (.string c.version), Json.required_of_filter (.string c.doc.text),
    Json.required_of_filter (.list Module.toJson c.modules), items]
  all_goals rfl

theorem CachePart.takes_file {c : CacheFile} (format : c.format ≤ mostCoordinate)
    (modules : ∀ m ∈ c.modules, m.Storable) : guide.Takes file c.toJson :=
  ⟨⟨whole, rfl, takes_nat format _⟩, ⟨whole, rfl, trivial⟩, ⟨whole, rfl, trivial⟩,
    ⟨each unit, rfl, Json.Guide.takes_list (fun _ => rfl) fun m hm => (takes_module (modules m hm) :)⟩, trivial⟩

theorem CacheFile.unit_ofUnit (keyed : u.modules.KeyedBy (·.name)) (version : String) :
    (ofUnit version u).unit = u :=
  SourceUnit.foldl_register_ofDoc keyed

/-- What was written of a unit is read back as the unit. -/
theorem parseCache_cacheText (h : u.Cacheable) (version : String) :
    parseCache version (cacheText version u) =
      if Json.levels (CacheFile.ofUnit version u).toJson < Json.nestingLimit then .ok u
      else .error .malformed := by
  have format : cacheFormat ≤ mostCoordinate := by decide
  have modules : ∀ m ∈ (CacheFile.ofUnit version u).modules, m.Storable := h.storable
  rw [parseCache, cacheText, Json.parseBy?_print (CachePart.takes_file format modules)]
  by_cases shallow : Json.levels (CacheFile.ofUnit version u).toJson < Json.nestingLimit
  · rw [if_pos shallow, if_pos shallow, Option.bind_some, CacheFile.ofJson?_toJson format modules]
    dsimp only
    have own : (CacheFile.ofUnit version u).format = cacheFormat := rfl
    have same : (CacheFile.ofUnit version u).version = version := rfl
    rw [if_neg (not_not.2 own), if_neg (not_not.2 same), CacheFile.unit_ofUnit h.keyed]
  · rw [if_neg shallow, if_neg shallow]
    rfl

/-- Units whose caches read alike are the same. -/
theorem eq_of_cacheText {v : SourceUnit} (hu : u.Cacheable) (hv : v.Cacheable) {version : String}
    (shallow : Json.levels (CacheFile.ofUnit version u).toJson < Json.nestingLimit)
    (same : cacheText version u = cacheText version v) : u = v := by
  have read := parseCache_cacheText hu version
  rw [if_pos shallow, same, parseCache_cacheText hv version] at read
  split at read
  · exact (Except.ok.inj read).symm
  · cases read

theorem text_writeCache {files files' : FileTree} {folder version path : String}
    (written : writeCache files folder version u = .ok (files', path)) :
    files'.text (cachePath folder version) = .ok (cacheText version u) := by
  rw [writeCache] at written
  cases made : files.makeFolder folder with
  | error cause =>
    rw [made] at written
    cases written
  | ok below =>
    rw [made] at written
    dsimp only at written
    cases put : below.write (cachePath folder version) (Utf8.encode (cacheText version u)) with
    | error cause =>
      rw [put] at written
      cases written
    | ok after =>
      rw [put] at written
      cases written
      exact FileTree.text_write put

theorem readCache_writeCache {files files' : FileTree} {folder version path : String} (h : u.Cacheable)
    (written : writeCache files folder version u = .ok (files', path)) :
    readCache files' folder version =
      if Json.levels (CacheFile.ofUnit version u).toJson < Json.nestingLimit then .ok u
      else .error .malformed := by
  rw [readCache, text_writeCache written]
  exact parseCache_cacheText h version

/-- The cache of a unit gives the unit back. The value that is written of it is read as the file that
it was made of, which holds the unit; and so does the text, and the file when it has been written,
unless the reader of texts gives up because lists nest too deeply in the value. -/
theorem cache_gives_back (h : u.Produced) (version : String) :
    (∃ file, CacheFile.ofJson? (CacheFile.ofUnit version u).toJson = some file ∧
      file.format = cacheFormat ∧ file.version = version ∧ file.unit = u) ∧
    parseCache version (cacheText version u) =
      (if Json.levels (CacheFile.ofUnit version u).toJson < Json.nestingLimit then .ok u
      else .error .malformed) ∧
    ∀ files folder files' path, writeCache files folder version u = .ok (files', path) →
      readCache files' folder version =
        if Json.levels (CacheFile.ofUnit version u).toJson < Json.nestingLimit then .ok u
        else .error .malformed := by
  have cacheable := h.cacheable
  refine ⟨⟨CacheFile.ofUnit version u, ?_, rfl, rfl, CacheFile.unit_ofUnit cacheable.keyed version⟩,
    parseCache_cacheText cacheable version, fun _ _ _ _ written => readCache_writeCache cacheable written⟩
  exact CacheFile.ofJson?_toJson (show cacheFormat ≤ mostCoordinate by decide) cacheable.storable

theorem cache_gives_back_struct :
    (outlineOfText ⟨"s.c3"⟩ "struct S { int x; }").1.Produced ∧
      parseCache "1" (cacheText "1" (outlineOfText ⟨"s.c3"⟩ "struct S { int x; }").1) =
        .ok (outlineOfText ⟨"s.c3"⟩ "struct S { int x; }").1 := by
  have bytes : "struct S { int x; }".utf8ByteSize ≤ mostCoordinate := by decide
  have shallow : Json.levels (CacheFile.ofUnit "1" (outlineOfText ⟨"s.c3"⟩ "struct S { int x; }").1).toJson <
      Json.nestingLimit := by decide +kernel
  exact ⟨.read _ _ bytes, (cache_gives_back (.read ⟨"s.c3"⟩ _ bytes) "1").2.1.trans (if_pos shallow)⟩

end Library

/-!
## What is loaded

A library comes from the cache, or its sources are added one by one, so what holds of these holds of it
(`load_induct`). The work that is left to do is that of the library alone, and it is tidy (`sound_load`).
-/

namespace Pending

variable {p q : Pending} {doc old new : DocId}

theorem mem_types_foldl_addType {ts : List PendingType} {t : PendingType} :
    t ∈ (ts.foldl addType p).types ↔ t ∈ p.types ∨ t ∈ ts := by
  induction ts generalizing p with
  | nil => simp
  | cons u ts ih => rw [List.foldl_cons, ih, mem_types_addType, List.mem_cons, or_assoc]

theorem types_foldl_addInline (is : List PendingInline) (p : Pending) :
    (is.foldl addInline p).types = p.types := by
  rw [foldl_addInline]
  rfl

theorem belongsTo_empty (doc : DocId) : empty.BelongsTo doc :=
  ⟨fun _ ht => absurd ht List.not_mem_nil, fun _ hi => absurd hi List.not_mem_nil⟩

theorem BelongsTo.append (hp : p.BelongsTo doc) (hq : q.BelongsTo doc) : (p.append q).BelongsTo doc where
  types t ht := by
    rw [Pending.append, types_foldl_addInline, mem_types_foldl_addType] at ht
    exact ht.elim (hp.types t) (hq.types t)
  inlines i hi := by
    rw [inlines_append, mem_foldl_addNew] at hi
    exact hi.elim (hp.inlines i) (hq.inlines i)

/-- The work of one document is moved as a whole. -/
theorem BelongsTo.rename (h : p.BelongsTo old) (new : DocId) : (p.rename old new).BelongsTo new where
  types t ht := by
    have moved : t ∈ (((p.types.filter (·.doc == old)).map ({ · with doc := new })).foldl addType
        (p.filterTypes (·.doc != old))).types := ht
    rw [mem_types_foldl_addType] at moved
    rcases moved with kept | moved
    · obtain ⟨context, mem⟩ := mem_types_iff.1 kept
      rw [typesIn_filterTypes, List.mem_filter] at mem
      have own := h.types t (mem_types_iff.2 ⟨context, mem.1⟩)
      rw [own, bne_self_eq_false] at mem
      exact absurd mem.2 Bool.false_ne_true
    · obtain ⟨u, -, rfl⟩ := List.mem_map.1 moved
      rfl
  inlines i hi := by
    obtain ⟨j, hj, rfl⟩ := List.mem_map.1 hi
    rw [inlines_foldl_addType] at hj
    rw [if_pos (beq_iff_eq.2 (h.inlines j hj))]

end Pending

namespace Library

/-- What holds of the empty library, of the cached ones and from source to source holds of what is
loaded. -/
theorem load_induct {P : Loaded → Prop} {files : FileTree} {version : String} {root? cache? : Option String}
    (none : P ⟨.ofDoc (docOf version), .empty, .nowhere⟩)
    (start : P ⟨.ofDoc (docOf version), .empty, .sources⟩)
    (add : ∀ l path, P l → P (addSource files l path))
    (cached : ∀ folder unit, cache? = some folder → readCache files folder version = .ok unit →
      P ⟨{ unit with doc := docOf version }, .empty, .cache⟩) : P (load files version root? cache?) := by
  have sources : ∀ root l, ofSources? files root (docOf version) = some l → P l := by
    intro root l h
    rw [ofSources?] at h
    split at h
    · split at h
      · cases h
      next paths _ =>
        cases h
        have all : ∀ (paths : List String) (l : Loaded), P l → P (paths.foldl (addSource files) l) := by
          intro paths
          induction paths with
          | nil => exact fun _ hl => hl
          | cons path paths ih => exact fun l hl => ih _ (add l path hl)
        exact all paths _ start
    · cases h
  have fromCache : ∀ folder l, cache? = some folder → ofCache? files folder version = some l → P l := by
    intro folder l known h
    rw [ofCache?] at h
    split at h
    · cases h
    next unit read =>
      cases h
      exact cached folder unit known read
  rw [load]
  cases inCache : cache?.bind fun folder => ofCache? files folder version with
  | some l =>
    obtain ⟨folder, known, h⟩ := Option.bind_eq_some_iff.1 inCache
    exact fromCache folder l known h
  | none =>
    cases inRoot : root?.bind fun root => ofSources? files root (docOf version) with
    | some l =>
      obtain ⟨root, -, h⟩ := Option.bind_eq_some_iff.1 inRoot
      exact sources root l h
    | none => exact none

/-- The unit is that of the library, and so is the work that is left, which is tidy. -/
structure Loaded.Sound (l : Loaded) (doc : DocId) : Prop where
  unit : l.unit.doc = doc
  tidy : l.pending.Tidy
  own : l.pending.BelongsTo doc

theorem doc_foldl_register (ms : List Module) (u : SourceUnit) :
    (ms.foldl SourceUnit.register u).doc = u.doc := by
  induction ms generalizing u with
  | nil => rfl
  | cons m ms ih => exact (ih _).trans (OutlineState.doc_register u m)

theorem sound_addSource (files : FileTree) {l : Loaded} {doc : DocId} (h : l.Sound doc) (path : String) :
    (addSource files l path).Sound doc := by
  rw [addSource]
  split
  · exact h
  next text _ =>
    have read : (outlineOfText (DocId.ofPath path) text).1.doc = DocId.ofPath path ∧
        (outlineOfText (DocId.ofPath path) text).2.Tidy ∧
        (outlineOfText (DocId.ofPath path) text).2.BelongsTo (DocId.ofPath path) := by
      rw [outlineOfText]
      obtain ⟨unit, tidy, own, -⟩ := outline_sound (DocId.ofPath path) (.ofString text) (Parse.ofString text).tree
      exact ⟨unit, tidy, own⟩
    -- What is added of the source is kept opaque, else the records are compared by running the outline.
    generalize outlineOfText (DocId.ofPath path) text = out at read ⊢
    obtain ⟨unit, tidy, own⟩ := read
    refine ⟨(doc_foldl_register _ _).trans h.unit, h.tidy.append _, h.own.append ?_⟩
    rw [h.unit, unit]
    exact own.rename doc

theorem sound_load (files : FileTree) (version : String) (root? cache? : Option String) :
    (load files version root? cache?).Sound (docOf version) :=
  load_induct (P := fun l => l.Sound (docOf version)) ⟨rfl, Pending.tidy_empty, Pending.belongsTo_empty _⟩
    ⟨rfl, Pending.tidy_empty, Pending.belongsTo_empty _⟩ (fun _ path h => sound_addSource files h path)
    fun _ _ _ _ => ⟨rfl, Pending.tidy_empty, Pending.belongsTo_empty _⟩

end Library

end C3Lens
