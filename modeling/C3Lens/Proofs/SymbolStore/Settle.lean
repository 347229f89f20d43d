import C3Lens.Proofs.Pending
import C3Lens.Proofs.SymbolStore.Delete

/-!
# What settling does

Settling binds the pending types in the order of their queue, then expands inline members.

* `skeleton_settle`: the skeleton stays, so homes found before are found afterwards;
* `units_settle`: the types of each module are set to `moduleAfter` the pending types of the
  module, then inline members are expanded;
* `typesIn_settle`: the types without a home keep waiting, in their order.
-/

namespace C3Lens

/-- Whether the pending type is written in the module `name` of the document. -/
def PendingType.isIn (t : PendingType) (doc name : String) : Bool :=
  t.doc.text == doc && t.context == name

theorem PendingType.isIn_iff {t : PendingType} {doc name : String} :
    t.isIn doc name = true ↔ doc = t.doc.text ∧ name = t.context := by
  rw [isIn, Bool.and_eq_true, beq_iff_eq, beq_iff_eq, eq_comm, @eq_comm _ t.context]

namespace SymbolStore

/-! ## Changing all modules -/

/-- Changes every module, knowing its document and its name. -/
def mapModules (f : String → String → Module → Module) (s : SymbolStore) : SymbolStore :=
  { s with units := s.units.mapEntries fun doc u => { u with modules := u.modules.mapEntries (f doc) } }

theorem unit?_mapModules (f : String → String → Module → Module) (s : SymbolStore) (doc : DocId) :
    (s.mapModules f).unit? doc =
      (s.unit? doc).map fun u => { u with modules := u.modules.mapEntries (f doc.text) } :=
  Table.get?_mapEntries _ _ _

theorem mapModules_mapModules (f g : String → String → Module → Module) (s : SymbolStore) :
    (s.mapModules f).mapModules g = s.mapModules fun doc name m => g doc name (f doc name m) := by
  simp only [mapModules, Table.mapEntries_mapEntries]

theorem mapModules_id {f : String → String → Module → Module} (h : ∀ doc name m, f doc name m = m)
    (s : SymbolStore) : s.mapModules f = s := by
  have unit : ∀ doc (u : SourceUnit), { u with modules := u.modules.mapEntries (f doc) } = u := by
    intro doc u
    rw [Table.mapEntries_id fun name m _ => h doc name m]
  rw [mapModules, Table.mapEntries_id fun doc u _ => unit doc u]

theorem modifyModule_eq (s : SymbolStore) (doc : DocId) (name : String) (f : Module → Module) :
    s.modifyModule doc name f =
      s.mapModules fun d n m => if d = doc.text ∧ n = name then f m else m := by
  rw [modifyModule, mapModules, Table.modify]
  congr
  funext d u
  by_cases hd : d = doc.text
  · rw [if_pos hd, SourceUnit.modify, Table.modify]
    simp only [hd, true_and]
  · rw [if_neg hd, Table.mapEntries_id]
    intro n m _
    rw [if_neg fun h => hd h.1]

theorem skeleton_mapModules {f : String → String → Module → Module}
    (h : ∀ doc name m, (f doc name m).skeleton = m.skeleton) (s : SymbolStore) :
    (s.mapModules f).skeleton = s.skeleton := by
  have modules : ∀ doc (u : SourceUnit),
      (u.modules.mapEntries (f doc)).map Module.skeleton = u.modules.map Module.skeleton := by
    intro doc u
    rw [Table.map, Table.mapEntries_mapEntries]
    exact Table.mapEntries_congr fun name m _ => h doc name m
  rw [skeleton, mapModules, Table.map, Table.mapEntries_mapEntries, skeleton, Table.map]
  simp only [SourceUnit.skeleton, modules]
  rfl

/-! ## Binding types -/

/-- The module of a type after the pending type `t` is bound, if `t` has a home. -/
def moduleUnder (s : SymbolStore) (t : PendingType) (type : TypeRef) : String :=
  match s.home? t with
  | some home => boundModule t home type
  | none => type.moduleName

/-- The module of a type after pending types are bound, one after the other. -/
def moduleAfter (s : SymbolStore) : List PendingType → TypeRef → String
  | [], type => type.moduleName
  | t :: ts, type => s.moduleAfter ts { type with moduleName := s.moduleUnder t type }

/-- Whether the type keeps waiting: no home of it is known, but its document is. -/
def waits (s : SymbolStore) (t : PendingType) : Bool :=
  (s.home? t).isNone && s.contains t.doc

/-- Of a type, only its name and flags and its module count. -/
theorem moduleAfter_congr_type (s : SymbolStore) (ts : List PendingType) {type type' : TypeRef}
    (name : type'.name = type.name) (builtin : type'.isBuiltin = type.isBuiltin)
    (generic : type'.isGenericParameter = type.isGenericParameter)
    (module : type'.moduleName = type.moduleName) :
    s.moduleAfter ts type' = s.moduleAfter ts type := by
  induction ts generalizing type type' with
  | nil => exact module
  | cons t ts ih =>
    refine ih name builtin generic ?_
    show s.moduleUnder t type' = s.moduleUnder t type
    simp only [moduleUnder, boundModule, name, builtin, generic, module]

theorem moduleAfter_append (s : SymbolStore) (ts us : List PendingType) (type : TypeRef) :
    s.moduleAfter (ts ++ us) type =
      s.moduleAfter us { type with moduleName := s.moduleAfter ts type } := by
  induction ts generalizing type with
  | nil =>
    rw [List.nil_append, moduleAfter]
    exact s.moduleAfter_congr_type us rfl rfl rfl rfl
  | cons t ts ih => rw [List.cons_append, moduleAfter, ih, moduleAfter]

theorem moduleUnder_congr {s s' : SymbolStore} (h : s'.skeleton = s.skeleton) (t : PendingType)
    (type : TypeRef) : s'.moduleUnder t type = s.moduleUnder t type := by
  rw [moduleUnder, home?_congr h, moduleUnder]

theorem moduleAfter_congr {s s' : SymbolStore} (h : s'.skeleton = s.skeleton)
    (ts : List PendingType) (type : TypeRef) : s'.moduleAfter ts type = s.moduleAfter ts type := by
  induction ts generalizing type with
  | nil => rfl
  | cons t ts ih => rw [moduleAfter, ih, moduleUnder_congr h, moduleAfter]

theorem waits_congr {s s' : SymbolStore} (h : s'.skeleton = s.skeleton) (t : PendingType) :
    s'.waits t = s.waits t := by
  rw [waits, home?_congr h, contains_congr h, waits]

/-- Binds the pending types `ts`, as far as they have homes. -/
def bindAll (s : SymbolStore) (ts : List PendingType) : SymbolStore :=
  s.mapModules fun doc name m => m.mapModule (s.moduleAfter (ts.filter (·.isIn doc name)))

theorem skeleton_bindAll (s : SymbolStore) (ts : List PendingType) :
    (s.bindAll ts).skeleton = s.skeleton :=
  skeleton_mapModules (fun _ _ m => Module.skeleton_mapModule m _) s

theorem bindAll_nil (s : SymbolStore) : s.bindAll [] = s :=
  mapModules_id (fun _ _ m => Module.mapModule_self m) s

theorem bindAll_cons (s : SymbolStore) (t : PendingType) (ts : List PendingType) :
    s.bindAll (t :: ts) = (s.bindAll [t]).bindAll ts := by
  have homes := moduleAfter_congr (skeleton_bindAll s [t]) 
  rw [bindAll, bindAll, bindAll, mapModules_mapModules]
  congr
  funext doc name m
  rw [Module.mapModule_mapModule]
  congr
  funext type
  rw [← bindAll, homes, ← List.singleton_append, List.filter_append, moduleAfter_append]
  symm
  exact moduleAfter_congr_type s _ (TypeRef.mapModule_name _ _) (TypeRef.mapModule_isBuiltin _ _)
    (TypeRef.mapModule_isGenericParameter _ _) (TypeRef.mapModule_moduleName _ _)

theorem bindAll_singleton (s : SymbolStore) (t : PendingType) :
    s.bindAll [t] = s.modifyModule t.doc t.context (·.mapModule (s.moduleUnder t)) := by
  rw [modifyModule_eq, bindAll]
  congr
  funext doc name m
  by_cases here : t.isIn doc name = true
  · have one : [t].filter (·.isIn doc name) = [t] := by simp [here]
    rw [one, if_pos (PendingType.isIn_iff.1 here)]
    rfl
  · have none : [t].filter (·.isIn doc name) = [] := by simp [here]
    rw [none, if_neg fun place => here (PendingType.isIn_iff.2 place)]
    exact Module.mapModule_self m

theorem settleType_eq (s : SymbolStore) (t : PendingType) :
    s.settleType t =
      ⟨(s.bindAll [t]).units, if s.waits t then s.pending.addType t else s.pending⟩ := by
  rw [bindAll_singleton, settleType, waits]
  cases home : s.home? t with
  | some h =>
    have under : s.moduleUnder t = boundModule t h := by
      funext type
      rw [moduleUnder, home]
    rw [under]
    rfl
  | none =>
    have under : s.moduleUnder t = TypeRef.moduleName := by
      funext type
      rw [moduleUnder, home]
    have same : s.modifyModule t.doc t.context (·.mapModule TypeRef.moduleName) = s := by
      rw [modifyModule_eq]
      refine mapModules_id (fun doc name m => ?_) s
      split
      · exact Module.mapModule_self m
      · rfl
    rw [under, same, Option.isNone_none, Bool.true_and]
    show (if s.contains t.doc then { s with pending := s.pending.addType t } else s) = _
    split <;> rfl

theorem skeleton_settleType (s : SymbolStore) (t : PendingType) :
    (s.settleType t).skeleton = s.skeleton := by
  rw [← skeleton_bindAll s [t], settleType_eq]
  exact skeleton_eq_of_units rfl

theorem bindAll_congr_units {s s' : SymbolStore} (h : s'.units = s.units) (ts : List PendingType) :
    (s'.bindAll ts).units = (s.bindAll ts).units := by
  have homes := moduleAfter_congr (skeleton_eq_of_units h)
  simp only [bindAll, mapModules, h, funext (homes _)]

theorem units_foldl_settleType (ts : List PendingType) (s : SymbolStore) :
    (ts.foldl settleType s).units = (s.bindAll ts).units := by
  induction ts generalizing s with
  | nil => rw [List.foldl_nil, bindAll_nil]
  | cons t ts ih =>
    have one : (s.settleType t).units = (s.bindAll [t]).units := by rw [settleType_eq]
    rw [List.foldl_cons, ih, bindAll_congr_units one, ← bindAll_cons]

theorem skeleton_foldl_settleType (ts : List PendingType) (s : SymbolStore) :
    (ts.foldl settleType s).skeleton = s.skeleton := by
  rw [skeleton_eq_of_units (units_foldl_settleType ts s), skeleton_bindAll]

theorem pending_foldl_settleType (ts : List PendingType) (s : SymbolStore) :
    (ts.foldl settleType s).pending = (ts.filter s.waits).foldl Pending.addType s.pending := by
  induction ts generalizing s with
  | nil => rfl
  | cons t ts ih =>
    have one : (s.settleType t).pending = if s.waits t then s.pending.addType t else s.pending := by
      rw [settleType_eq]
    have kept : (s.settleType t).waits = s.waits := funext (waits_congr (skeleton_settleType s t))
    rw [List.foldl_cons, ih, kept, one, List.filter_cons]
    split <;> rfl

/-! ## Expanding inline members -/

/-- `s'` has the modules of `s` with further members in their structs. -/
def HoistsTo (s s' : SymbolStore) : Prop :=
  ∃ f : String → String → Module → Module,
    s'.units = (s.mapModules f).units ∧ ∀ doc name (m : Module), m.HoistsTo (f doc name m)

theorem HoistsTo.of_units {s s' : SymbolStore} (h : s'.units = s.units) : s.HoistsTo s' := by
  refine ⟨fun _ _ m => m, ?_, fun _ _ m => Module.HoistsTo.refl m⟩
  rw [mapModules_id fun _ _ _ => rfl, h]

theorem HoistsTo.trans {s s' s'' : SymbolStore} (h : s.HoistsTo s') (k : s'.HoistsTo s'') :
    s.HoistsTo s'' := by
  obtain ⟨f, hf, hoists⟩ := h
  obtain ⟨g, hg, hoists'⟩ := k
  refine ⟨fun doc name m => g doc name (f doc name m), ?_, fun doc name m => ?_⟩
  · rw [← mapModules_mapModules, hg, mapModules, hf]
    rfl
  · exact (hoists doc name m).trans (hoists' doc name _)

theorem HoistsTo.skeleton_eq {s s' : SymbolStore} (h : s.HoistsTo s') : s'.skeleton = s.skeleton := by
  obtain ⟨f, units, hoists⟩ := h
  rw [skeleton_eq_of_units units]
  exact skeleton_mapModules (fun doc name m => (hoists doc name m).skeleton_eq) s

/-- Expands the inline members `is`, as far as there are members for them; none waits before. -/
def expandAll (s : SymbolStore) (is : List PendingInline) : SymbolStore :=
  is.foldl settleInline { s with pending := { s.pending with inlines := [] } }

theorem hoistsTo_settleInline (s : SymbolStore) (i : PendingInline) : s.HoistsTo (s.settleInline i) := by
  rw [settleInline]
  split
  next members _ =>
    rw [modifyModule_eq]
    refine ⟨_, rfl, fun doc name m => ?_⟩
    split
    · exact Module.hoistsTo_inherit m i.structName i.inlined members
    · exact Module.HoistsTo.refl m
  next =>
    split
    · exact HoistsTo.of_units rfl
    · exact HoistsTo.of_units rfl

theorem hoistsTo_foldl_settleInline (is : List PendingInline) (s : SymbolStore) :
    s.HoistsTo (is.foldl settleInline s) := by
  induction is generalizing s with
  | nil => exact HoistsTo.of_units rfl
  | cons i is ih => exact (hoistsTo_settleInline s i).trans (ih _)

theorem hoistsTo_expandAll (s : SymbolStore) (is : List PendingInline) :
    s.HoistsTo (s.expandAll is) := by
  have emptied : s.HoistsTo { s with pending := { s.pending with inlines := [] } } :=
    HoistsTo.of_units rfl
  exact emptied.trans (hoistsTo_foldl_settleInline is _)

/-- The waiting types take no part in the expansion. -/
theorem foldl_settleInline_groups (is : List PendingInline) (s : SymbolStore)
    (groups : Table (List PendingType)) :
    is.foldl settleInline ⟨s.units, ⟨groups, s.pending.inlines⟩⟩ =
      ⟨(is.foldl settleInline s).units, ⟨groups, (is.foldl settleInline s).pending.inlines⟩⟩ := by
  induction is generalizing s with
  | nil => rfl
  | cons i is ih =>
    have one : settleInline ⟨s.units, ⟨groups, s.pending.inlines⟩⟩ i =
        ⟨(s.settleInline i).units, ⟨groups, (s.settleInline i).pending.inlines⟩⟩ := by
      have members : (⟨s.units, ⟨groups, s.pending.inlines⟩⟩ : SymbolStore).inlinedMembers? i =
        s.inlinedMembers? i := rfl
      have awaited : (⟨s.units, ⟨groups, s.pending.inlines⟩⟩ : SymbolStore).awaits i =
        s.awaits i := rfl
      rw [settleInline, settleInline, members, awaited]
      cases s.inlinedMembers? i with
      | some _ => rfl
      | none => cases s.awaits i <;> rfl
    rw [List.foldl_cons, one, ih, List.foldl_cons]

theorem groups_foldl_settleInline (is : List PendingInline) (s : SymbolStore) :
    (is.foldl settleInline s).pending.groups = s.pending.groups := by
  have h := foldl_settleInline_groups is s s.pending.groups
  exact congrArg (fun s => s.pending.groups) h

/-- A document none of whose inline members is expanded keeps its unit. -/
theorem unit?_foldl_settleInline {is : List PendingInline} {s : SymbolStore} {doc : DocId}
    (h : ∀ i ∈ is, i.doc = doc → s.inlinedMembers? i = none) :
    (is.foldl settleInline s).unit? doc = s.unit? doc := by
  induction is generalizing s with
  | nil => rfl
  | cons i is ih =>
    have one : (s.settleInline i).unit? doc = s.unit? doc := by
      rw [settleInline]
      cases found : s.inlinedMembers? i with
      | none =>
        show (if s.awaits i then { s with pending := s.pending.addInline i } else s).unit? doc = _
        split <;> rfl
      | some members =>
        have other : doc ≠ i.doc := by
          rintro rfl
          rw [h i List.mem_cons_self rfl] at found
          cases found
        have otherName : doc.text ≠ i.doc.text := fun same => other (congrArg DocId.mk same)
        show (s.units.modify i.doc.text _).get? doc.text = s.units.get? doc.text
        rw [Table.get?_modify, if_neg otherName]
    rw [List.foldl_cons, ih, one]
    intro j hj same
    have before := h j (List.mem_cons_of_mem _ hj) same
    have known := isSome_inlinedMembers?_congr (hoistsTo_settleInline s i).skeleton_eq j
    rw [before, Option.isSome_none, Option.isSome_eq_false_iff, Option.isNone_iff_eq_none] at known
    exact known

theorem unit?_expandAll {is : List PendingInline} {s : SymbolStore} {doc : DocId}
    (h : ∀ i ∈ is, i.doc = doc → s.inlinedMembers? i = none) :
    (s.expandAll is).unit? doc = s.unit? doc :=
  unit?_foldl_settleInline h

/-! ## Settling -/

theorem settle_eq (s : SymbolStore) :
    s.settle = (s.pending.types.foldl settleType
      { s with pending := { s.pending with groups := .empty } }).expandAll s.pending.inlines := rfl

theorem skeleton_settle (s : SymbolStore) : s.settle.skeleton = s.skeleton := by
  rw [settle_eq, (hoistsTo_expandAll _ _).skeleton_eq, skeleton_foldl_settleType]
  rfl

theorem expandAll_congr {s s' : SymbolStore} (h : s'.units = s.units) (is : List PendingInline) :
    (s'.expandAll is).units = (s.expandAll is).units ∧
      (s'.expandAll is).pending.inlines = (s.expandAll is).pending.inlines := by
  have all := foldl_settleInline_groups is { s with pending := { s.pending with inlines := [] } }
    s'.pending.groups
  have same : s'.expandAll is = is.foldl settleInline ⟨s.units, ⟨s'.pending.groups, []⟩⟩ := by
    rw [expandAll, h]
  rw [same, all, expandAll]
  exact ⟨rfl, rfl⟩

/-- All modules after settling: their types are bound, then inline members are expanded. -/
theorem units_settle (s : SymbolStore) :
    s.settle.units = ((s.bindAll s.pending.types).expandAll s.pending.inlines).units ∧
      s.settle.pending.inlines =
        ((s.bindAll s.pending.types).expandAll s.pending.inlines).pending.inlines := by
  have ungrouped : ({ s with pending := { s.pending with groups := .empty } } : SymbolStore).units =
    s.units := rfl
  rw [settle_eq]
  refine expandAll_congr ?_ _
  rw [units_foldl_settleType, bindAll_congr_units ungrouped]

theorem groups_settle (s : SymbolStore) :
    s.settle.pending.groups =
      ((s.pending.types.filter s.waits).foldl Pending.addType .empty).groups := by
  have groups : ∀ (ts : List PendingType) (p q : Pending), p.groups = q.groups →
      (ts.foldl Pending.addType p).groups = (ts.foldl Pending.addType q).groups := by
    intro ts
    induction ts with
    | nil => exact fun _ _ h => h
    | cons t ts ih =>
      refine fun p q h => ih _ _ ?_
      rw [Pending.addType, Pending.addType, h]
  rw [settle_eq, expandAll, groups_foldl_settleInline]
  show (List.foldl settleType _ _).pending.groups = _
  rw [pending_foldl_settleType]
  exact groups _ _ _ rfl

theorem tidy_settle (s : SymbolStore) : s.settle.pending.Tidy :=
  (Pending.tidy_empty.foldl_addType _).of_groups (groups_settle s)

/-- The types without a home keep waiting, in their order. -/
theorem typesIn_settle {s : SymbolStore} (h : s.pending.Tidy) (context : String) :
    s.settle.pending.typesIn context = (s.pending.typesIn context).filter s.waits := by
  have alone := Pending.foldl_addNew_of_nodup [] ((s.pending.typesIn context).filter s.waits)
    ((h.nodup context).filter _)
  have own : (s.pending.types.filter s.waits).filter (·.context == context) =
      (s.pending.typesIn context).filter s.waits := by
    rw [← h.filter_types, List.filter_filter, List.filter_filter]
    simp only [Bool.and_comm]
  rw [Pending.typesIn, groups_settle, ← Pending.typesIn, Pending.typesIn_foldl_addType, own]
  exact alone

end SymbolStore

end C3Lens
