import C3Lens.Proofs.Files.Url.File
import C3Lens.Proofs.Library.Cache
import C3Lens.Proofs.SymbolStore.Shadow
import C3Lens.Proofs.Workspace.Agreement

/-!
# What a library takes from the workspace

The cache of a library is written when its types are bound and its inline members are expanded, and for
this all documents of the workspace are searched. So what is written depends on them, but on nothing
more than the homes that they give to the types of the library and the structs that they lend to its
inline members (`Workspace.setVersion_writes_same`).
-/

namespace C3Lens

/-! ## Structs of one unit -/

namespace SourceUnit

/-- The first struct of the name in the modules of a name. -/
def structIn? (u : SourceUnit) (moduleName name : String) : Option Struct :=
  (u.modules.values.filter (·.name == moduleName)).findSome? (·.structs.get? name)

/-- The first struct of the name. -/
def struct? (u : SourceUnit) (name : String) : Option Struct :=
  u.modules.values.findSome? (·.structs.get? name)

theorem structIn?_skeleton (u : SourceUnit) (moduleName name : String) :
    u.skeleton.structIn? moduleName name = (u.structIn? moduleName name).map Aggregate.bare := by
  rw [structIn?, structIn?, skeleton, Table.values_map, List.filter_map,
    SymbolStore.findSome?_struct_skeleton]
  rfl

theorem struct?_skeleton (u : SourceUnit) (name : String) :
    u.skeleton.struct? name = (u.struct? name).map Aggregate.bare := by
  rw [struct?, struct?, skeleton, Table.values_map, SymbolStore.findSome?_struct_skeleton]

end SourceUnit

/-! ## Who lends a struct -/

theorem findSome?_eq_find? {α β : Type} (f : α → Option β) (as : List α) :
    as.findSome? f = (as.find? fun a => (f a).isSome).bind f := by
  induction as with
  | nil => rfl
  | cons a as ih =>
    rw [List.findSome?_cons, List.find?_cons]
    cases h : f a with
    | none => exact ih
    | some b => exact h.symm

namespace SymbolStore

/-- The document whose struct an inline member stands for: the first one with such a struct in modules
of the name of its own module, else the first one with such a struct at all. -/
def lender? (s : SymbolStore) (i : PendingInline) : Option String :=
  ((s.units.entries.find? fun e => (e.2.structIn? i.moduleName i.inlined).isSome) <|>
    (s.units.entries.find? fun e => (e.2.struct? i.inlined).isSome)).map Prod.fst

variable {s s' : SymbolStore} {i : PendingInline} {doc : DocId}

theorem lender?_skeleton (s : SymbolStore) (i : PendingInline) : s.skeleton.lender? i = s.lender? i := by
  have entries : s.skeleton.units.entries = s.units.entries.map fun e => (e.1, e.2.skeleton) := rfl
  rw [lender?, lender?, entries, List.find?_map, List.find?_map]
  simp only [Function.comp_def, SourceUnit.structIn?_skeleton, SourceUnit.struct?_skeleton,
    Option.isSome_map, ← map_orElse, Option.map_map]

theorem lender?_congr (same : s'.skeleton = s.skeleton) (i : PendingInline) : s'.lender? i = s.lender? i := by
  rw [← lender?_skeleton, same, lender?_skeleton]

theorem inlinedStruct?_eq_units (s : SymbolStore) (i : PendingInline) : s.inlinedStruct? i =
    (s.units.entries.findSome? (·.2.structIn? i.moduleName i.inlined) <|>
      s.units.entries.findSome? (·.2.struct? i.inlined)) := by
  have inUnits : ∀ (f : SourceUnit → List Module) (es : List (String × SourceUnit)),
      ((es.map Prod.snd).flatMap f).findSome? (·.structs.get? i.inlined) =
        es.findSome? fun e => (f e.2).findSome? (·.structs.get? i.inlined) := by
    intro f es
    induction es with
    | nil => rfl
    | cons e es ih =>
      rw [List.map_cons, List.flatMap_cons, List.findSome?_append, ih, List.findSome?_cons]
      cases (f e.2).findSome? (·.structs.get? i.inlined) <;> rfl
  rw [inlinedStruct?, modulesNamed, modules, List.filter_flatMap, Table.values, inUnits, inUnits]
  rfl

/-- Where no other document lends a struct, the unit itself has it or nobody. -/
theorem inlinedStruct?_of_lender? (h : ∀ name ∈ s.lender? i, name = doc.text) :
    s.inlinedStruct? i =
      (s.unit? doc).bind fun u => u.structIn? i.moduleName i.inlined <|> u.struct? i.inlined := by
  have found : ∀ e ∈ s.units.entries, e.1 = doc.text → s.unit? doc = some e.2 := by
    intro e he own
    rw [unit?, ← own]
    exact Table.mem_entries_iff.1 he
  rw [inlinedStruct?_eq_units, findSome?_eq_find?, findSome?_eq_find?]
  rw [lender?] at h
  cases near : s.units.entries.find? fun e => (e.2.structIn? i.moduleName i.inlined).isSome with
  | some e =>
    rw [near] at h
    rw [found e (List.mem_of_find?_eq_some near) (h e.1 rfl)]
    have inside : (e.2.structIn? i.moduleName i.inlined).isSome = true :=
      @List.find?_some _ (fun e : String × SourceUnit => (e.2.structIn? i.moduleName i.inlined).isSome)
        _ _ near
    obtain ⟨a, ha⟩ := Option.isSome_iff_exists.1 inside
    simp [ha]
  | none =>
    rw [near] at h
    have nowhere := List.find?_eq_none.1 near
    cases far : s.units.entries.find? fun e => (e.2.struct? i.inlined).isSome with
    | some e =>
      rw [far] at h
      have mem := List.mem_of_find?_eq_some far
      rw [found e mem (h e.1 rfl)]
      have inside : e.2.structIn? i.moduleName i.inlined = none := by simpa using nowhere e mem
      simp [inside]
    | none =>
      have nobody := List.find?_eq_none.1 far
      cases unit : s.unit? doc with
      | none => rfl
      | some u =>
        have mem : (doc.text, u) ∈ s.units.entries := Table.mem_entries_iff.2 unit
        have inside : u.structIn? i.moduleName i.inlined = none := by simpa using nowhere _ mem
        have outside : u.struct? i.inlined = none := by simpa using nobody _ mem
        simp [inside, outside]

/-! ## One unit in two stores -/

section

variable {s₁ s₂ : SymbolStore}

/-- An inline member is expanded alike in two stores with the same unit, if no other document lends a
struct for it. -/
theorem unit?_settleInline_congr (own : i.doc = doc) (unit : s₁.unit? doc = s₂.unit? doc)
    (lent₁ : ∀ name ∈ s₁.lender? i, name = doc.text) (lent₂ : ∀ name ∈ s₂.lender? i, name = doc.text) :
    (s₁.settleInline i).unit? doc = (s₂.settleInline i).unit? doc := by
  have members : s₁.inlinedMembers? i = s₂.inlinedMembers? i := by
    rw [inlinedMembers?, inlinedMembers?, inlinedStruct?_of_lender? lent₁, inlinedStruct?_of_lender? lent₂,
      unit]
  have waits : ∀ s : SymbolStore, s.inlinedMembers? i = none → (s.settleInline i).unit? doc = s.unit? doc := by
    intro s none
    have alone : ∀ j ∈ [i], j.doc = doc → s.inlinedMembers? j = .none := fun j hj _ => List.mem_singleton.1 hj ▸ none
    exact unit?_foldl_settleInline alone
  cases found : s₂.inlinedMembers? i with
  | none => rw [waits s₁ (members.trans found), waits s₂ found, unit]
  | some ms =>
    rw [settleInline, settleInline, members, found]
    dsimp only
    rw [modifyModule, modifyModule, unit?, unit?, Table.get?_modify, Table.get?_modify, own, if_pos rfl,
      if_pos rfl]
    exact congrArg (Option.map _) unit

theorem unit?_foldl_settleInline_congr {is : List PendingInline} (own : ∀ i ∈ is, i.doc = doc)
    (unit : s₁.unit? doc = s₂.unit? doc) (lent₁ : ∀ i ∈ is, ∀ name ∈ s₁.lender? i, name = doc.text)
    (lent₂ : ∀ i ∈ is, ∀ name ∈ s₂.lender? i, name = doc.text) :
    (is.foldl settleInline s₁).unit? doc = (is.foldl settleInline s₂).unit? doc := by
  induction is generalizing s₁ s₂ with
  | nil => exact unit
  | cons i is ih =>
    rw [List.forall_mem_cons] at own lent₁ lent₂
    have kept : ∀ (s : SymbolStore) (j : PendingInline), (s.settleInline i).lender? j = s.lender? j :=
      fun s j => lender?_congr (s.hoistsTo_settleInline i).skeleton_eq j
    refine ih own.2 (unit?_settleInline_congr own.1 unit lent₁.1 lent₂.1) (fun j hj => ?_) fun j hj => ?_
    · rw [kept]
      exact lent₁.2 j hj
    · rw [kept]
      exact lent₂.2 j hj

/-- A unit is registered alike in two stores that give its types the same homes and lend it no
structs. -/
theorem unit?_register_congr {u : SourceUnit} {p : Pending} (tidy : p.Tidy) (own : p.BelongsTo u.doc)
    (homes : ∀ t ∈ p.types, (s₁.placed u p).home? t = (s₂.placed u p).home? t)
    (lent₁ : ∀ i ∈ p.inlines, ∀ name ∈ (s₁.placed u p).lender? i, name = u.doc.text)
    (lent₂ : ∀ i ∈ p.inlines, ∀ name ∈ (s₂.placed u p).lender? i, name = u.doc.text) :
    (s₁.register u p).unit? u.doc = (s₂.register u p).unit? u.doc := by
  have before : ∀ s : SymbolStore, (s.register u p).unit? u.doc =
      ((p.inlines.foldl Pending.addNew []).foldl settleInline (s.settledBefore u p)).unit? u.doc :=
    fun s => congrArg (·.get? u.doc.text) (s.units_register own).1
  have mem : ∀ i ∈ p.inlines.foldl Pending.addNew [], i ∈ p.inlines := fun i hi =>
    (Pending.mem_foldl_addNew.1 hi).resolve_left List.not_mem_nil
  have kept : ∀ (s : SymbolStore) i, (s.settledBefore u p).lender? i = (s.placed u p).lender? i :=
    fun s => lender?_congr (s.skeleton_settledBefore u p)
  rw [before, before]
  refine unit?_foldl_settleInline_congr (fun i hi => own.inlines i (mem i hi)) ?_ (fun i hi => ?_)
    fun i hi => ?_
  · have bound : ∀ name, (s₁.placed u p).moduleAfter (p.typesIn name) =
        (s₂.placed u p).moduleAfter (p.typesIn name) := fun name => funext <|
      moduleAfter_congr_home fun t ht => homes t (Pending.mem_types_iff.2 ⟨name, ht⟩)
    rw [unit?_settledBefore s₁ tidy own, unit?_settledBefore s₂ tidy own]
    simp only [bound]
  · rw [kept]
    exact lent₁ i (mem i hi)
  · rw [kept]
    exact lent₂ i (mem i hi)

end

end SymbolStore

/-! ## The file that is written -/

namespace Workspace

variable {w : Workspace} {files : FileTree} {version folder : String} {root? : Option String} {u : SourceUnit}

/-- What is written of a library of sources is its unit as it was registered. -/
theorem files_setVersion (sources : (Library.load files version root? (some folder)).origin = .sources)
    (registered :
      (w.setVersion files version root? (some folder)).1.symbols.unit? (Library.docOf version) = some u) :
    (w.setVersion files version root? (some folder)).2 =
      ((Library.writeCache files folder version u).toOption.map Prod.fst).getD files := by
  have found : (w.dropLibrary.symbols.register (Library.load files version root? (some folder)).unit
      (Library.load files version root? (some folder)).pending).unit? (Library.docOf version) = some u := registered
  rw [setVersion]
  dsimp only
  rw [sources, Library.doc_load, found]
  rfl

/-- The store in which a library is about to be settled. -/
def withLibrary (w : Workspace) (l : Library.Loaded) : SymbolStore :=
  w.dropLibrary.symbols.placed l.unit l.pending

/-- Whether no document but the library itself lends structs to its inline members. -/
def LendsNothing (w : Workspace) (l : Library.Loaded) : Prop :=
  ∀ i ∈ l.pending.inlines, ∀ name ∈ (w.withLibrary l).lender? i, name = l.unit.doc.text

/-- A version is set with the same effect on the files in two workspaces that give the types of the
library the same homes and lend it no structs. -/
theorem setVersion_writes_same (w₁ w₂ : Workspace) (files : FileTree) (version : String)
    (root? cache? : Option String)
    (homes : ∀ t ∈ (Library.load files version root? cache?).pending.types,
      (w₁.withLibrary (Library.load files version root? cache?)).home? t =
        (w₂.withLibrary (Library.load files version root? cache?)).home? t)
    (lent₁ : w₁.LendsNothing (Library.load files version root? cache?))
    (lent₂ : w₂.LendsNothing (Library.load files version root? cache?)) :
    (w₁.setVersion files version root? cache?).2 = (w₂.setVersion files version root? cache?).2 := by
  obtain ⟨unit, tidy, own⟩ := Library.sound_load files version root? cache?
  rw [← unit] at own
  have same := SymbolStore.unit?_register_congr tidy own homes lent₁ lent₂
  rw [setVersion, setVersion]
  dsimp only
  rw [same]

end Workspace

/-! ## A library of one source -/

/-- The files of a library of one source, in the root folder. -/
def libraryOf (text : String) : FileTree :=
  ⟨.folder [("f.c3", .file (Utf8.encode text))]⟩

/-- What is loaded of them. -/
def Library.ofSource (text : String) : Loaded :=
  ⟨(outlineOfText ⟨"file:///f.c3"⟩ text).1.modules.values.foldl SourceUnit.register (.ofDoc (docOf "1")),
    Pending.empty.append ((outlineOfText ⟨"file:///f.c3"⟩ text).2.rename ⟨"file:///f.c3"⟩ (docOf "1")), .sources⟩

namespace FileTree

theorem partsOf_root : partsOf "/" = .ok ["", ""] := by
  rw [partsOf, Path.parts_eq]
  decide

theorem partsOf_source : partsOf "/f.c3" = .ok ["", "f.c3"] := by
  rw [partsOf, Path.parts_eq]
  decide

theorem partsOf_cache : partsOf "/stdlib_1.json" = .ok ["", "stdlib_1.json"] := by
  rw [partsOf, Path.parts_eq]
  decide

theorem text_libraryOf (text : String) : (libraryOf text).text "/f.c3" = .ok text := by
  have names : (libraryOf text).names "/f.c3" = .ok ["f.c3"] := by
    rw [FileTree.names, partsOf_source]
    rfl
  have bytes : (libraryOf text).bytes "/f.c3" = .ok (Utf8.encode text) := by
    rw [FileTree.bytes, node, names]
    rfl
  rw [FileTree.text, bytes]
  dsimp only [Bind.bind, Except.bind]
  rw [Utf8.decode?_encode]
  rfl

theorem node_libraryOf (text : String) : (libraryOf text).node "/" = .ok (libraryOf text).root := by
  have names : (libraryOf text).names "/" = .ok [] := by
    rw [FileTree.names, partsOf_root]
    rfl
  rw [node, names]
  rfl

theorem components_source : Path.components "/f.c3" = ["f.c3"] := by
  rw [Path.components_of_absolute (Path.isAbsolute_iff.2 ⟨_, rfl⟩), Path.parts_eq]
  decide

theorem sources_libraryOf (text : String) : (libraryOf text).sources "/" = .ok ["/f.c3"] := by
  have join : Path.join "/" "f.c3" = "/f.c3" := Path.join_root (by decide)
  have source : Path.isSource "/f.c3" = true := by
    rw [Path.isSource, Path.extension?, Path.fileName?, components_source]
    decide
  rw [sources, node_libraryOf]
  dsimp only [Bind.bind, Except.bind, libraryOf]
  rw [FileNode.walk, FileNode.walkEntries, FileNode.walk, FileNode.walkEntries, join, List.append_nil,
    List.filter_cons_of_pos source]
  rfl

end FileTree

namespace Library

theorem cachePath_root : cachePath "/" "1" = "/stdlib_1.json" := by
  have named : Path.IsName "stdlib_1.json" := by decide
  exact Path.join_root named

theorem load_libraryOf (text : String) : load (libraryOf text) "1" (some "/") (some "/") = ofSource text := by
  have noFile : (libraryOf text).text "/stdlib_1.json" = .error .notFound := by
    rw [FileTree.text, FileTree.bytes, FileTree.node, FileTree.names, FileTree.partsOf_cache]
    rfl
  have noCache : ofCache? (libraryOf text) "/" "1" = none := by
    rw [ofCache?, readCache, cachePath_root, noFile]
  have folder : (libraryOf text).isFolder "/" = true := by
    rw [FileTree.isFolder, FileTree.node_libraryOf]
    rfl
  have url : DocId.ofPath "/f.c3" = ⟨"file:///f.c3"⟩ := by
    rw [DocId.ofPath_of_absolute (Path.isAbsolute_iff.2 ⟨_, rfl⟩), FileTree.components_source]
    decide
  have doc : (outlineOfText ⟨"file:///f.c3"⟩ text).1.doc = ⟨"file:///f.c3"⟩ := (outline_sound _ _ _).1
  rw [load, Option.bind_some, noCache, Option.bind_some, ofSources?, if_pos folder, FileTree.sources_libraryOf]
  show addSource (libraryOf text) _ "/f.c3" = _
  rw [addSource, FileTree.text_libraryOf, url]
  dsimp only
  rw [doc]
  rfl

theorem cacheable_ofSource {text : String} (bytes : text.utf8ByteSize ≤ mostCoordinate) :
    (ofSource text).unit.Cacheable :=
  (SourceUnit.cacheable_ofDoc _).merge (SourceUnit.cacheable_outlineOfText _ bytes)

/-- The cache can be written beside the source. -/
theorem writeCache_libraryOf (text : String) (u : SourceUnit) :
    ∃ files, writeCache (libraryOf text) "/" "1" u = .ok (files, "/stdlib_1.json") := by
  have root : Path.parts "/" = ["", ""] := by
    rw [Path.parts_eq]
    decide
  have chain : Path.chain "/" = [] := by
    have outermost : Path.isOutermost "/" = true := by
      rw [Path.isOutermost, Path.parent?, root]
      decide
    show Path.chainWithin 1 "/" = []
    rw [Path.chainWithin, if_pos outermost]
  have folder : (libraryOf text).makeFolder "/" = .ok (libraryOf text) := by
    rw [FileTree.makeFolder, chain]
    rfl
  rw [writeCache, folder, cachePath_root]
  dsimp only
  rw [FileTree.write, FileTree.vacancy?, FileTree.partsOf_cache]
  exact ⟨_, rfl⟩

end Library

namespace Workspace

variable {w : Workspace} {text : String} {u : SourceUnit}

/-- The unit of a library of one source, as it is registered. -/
def librarySettled? (w : Workspace) (text : String) : Option SourceUnit :=
  (w.withLibrary (Library.ofSource text)).settle.unit? (Library.docOf "1")

theorem unit?_setVersion_libraryOf (w : Workspace) (text : String) :
    (w.setVersion (libraryOf text) "1" (some "/") (some "/")).1.symbols.unit? (Library.docOf "1") =
      w.librarySettled? text := by
  rw [librarySettled?, ← Library.load_libraryOf]
  rfl

/-- The text of the cache is that of the unit. -/
theorem text_setVersion (registered : w.librarySettled? text = some u) :
    (w.setVersion (libraryOf text) "1" (some "/") (some "/")).2.text "/stdlib_1.json" =
      .ok (Library.cacheText "1" u) := by
  have sources : (Library.load (libraryOf text) "1" (some "/") (some "/")).origin = .sources := by
    rw [Library.load_libraryOf]
    rfl
  obtain ⟨files, written⟩ := Library.writeCache_libraryOf text u
  rw [files_setVersion sources ((unit?_setVersion_libraryOf w text).trans registered), written,
    ← Library.cachePath_root]
  exact Library.text_writeCache written

/-- A workspace of one document. -/
def ofText (text : String) : Workspace :=
  empty.openDocument ⟨"a.c3"⟩ text 1

theorem writes_same_for_stranger :
    (ofText "int y;").LendsNothing (Library.ofSource "struct S { int x; } struct T { inline S; }") ∧
    (empty.setVersion (libraryOf "struct S { int x; } struct T { inline S; }") "1" (some "/") (some "/")).2 =
      ((ofText "int y;").setVersion (libraryOf "struct S { int x; } struct T { inline S; }") "1" (some "/")
        (some "/")).2 := by
  have facts : empty.LendsNothing (Library.ofSource "struct S { int x; } struct T { inline S; }") ∧
      (ofText "int y;").LendsNothing (Library.ofSource "struct S { int x; } struct T { inline S; }") ∧
      ∀ t ∈ (Library.ofSource "struct S { int x; } struct T { inline S; }").pending.types,
        (empty.withLibrary (Library.ofSource "struct S { int x; } struct T { inline S; }")).home? t =
          ((ofText "int y;").withLibrary (Library.ofSource "struct S { int x; } struct T { inline S; }")).home? t := by
    unfold LendsNothing
    decide +kernel
  obtain ⟨nothing, nothing', homes⟩ := facts
  refine ⟨nothing', setVersion_writes_same _ _ _ _ _ _ ?_ ?_ ?_⟩
  all_goals rw [Library.load_libraryOf]
  · exact homes
  · exact nothing
  · exact nothing'

/-- The modules of the types of variables. -/
def typeModules (u : SourceUnit) : List String :=
  u.modules.values.flatMap fun m => m.globals.values.map (·.type.moduleName)

/-- The type of a library is bound in the library alone, and its unit can be read back from the cache. -/
theorem exists_settled_waiting : ∃ u, empty.librarySettled? "Foo f;" = some u ∧ typeModules u = ["f"] ∧
    Json.levels (Library.CacheFile.ofUnit "1" u).toJson < Json.nestingLimit := by
  have settled : (empty.librarySettled? "Foo f;").any fun u => typeModules u = ["f"] ∧
      Json.levels (Library.CacheFile.ofUnit "1" u).toJson < Json.nestingLimit := by decide +kernel
  simpa only [Option.any_eq_true, decide_eq_true_iff] using settled

/-- The type of a library is bound to a struct of the workspace, and so it is written. -/
theorem written_for_one_workspace :
    (empty.setVersion (libraryOf "Foo f;") "1" (some "/") (some "/")).2.text "/stdlib_1.json" ≠
      ((ofText "struct Foo { int x; }").setVersion (libraryOf "Foo f;") "1" (some "/")
        (some "/")).2.text "/stdlib_1.json" := by
  have bound : ((ofText "struct Foo { int x; }").librarySettled? "Foo f;").map typeModules = some ["a"] := by
    decide +kernel
  obtain ⟨u, hu, modules, shallow⟩ := exists_settled_waiting
  obtain ⟨v, hv, modules'⟩ := Option.map_eq_some_iff.1 bound
  have library : (Library.ofSource "Foo f;").unit.Cacheable := Library.cacheable_ofSource (by decide)
  have document : (outlineOfText ⟨"a.c3"⟩ "struct Foo { int x; }").1.Cacheable :=
    SourceUnit.cacheable_outlineOfText _ (by decide)
  have opened : ∀ name v, (ofText "struct Foo { int x; }").symbols.units.get? name = some v → v.Cacheable := by
    intro name v found
    have unit : (ofText "struct Foo { int x; }").symbols.unit? ⟨name⟩ = some v := found
    exact document.resolved (s := .empty) (fun _ _ none => nomatch none) _ unit
  have cacheable : u.Cacheable := library.resolved (s := .empty) (fun _ _ none => nomatch none) _ hu
  have cacheable' : v.Cacheable := library.resolved opened _ hv
  rw [text_setVersion hu, text_setVersion hv]
  intro same
  rw [Library.eq_of_cacheText cacheable cacheable' shallow (Except.ok.inj same), modules'] at modules
  exact absurd modules (by decide)

end Workspace

end C3Lens
