import C3Lens.Proofs.Library.Borrowed
import C3Lens.Proofs.SymbolStore.Relieved
import C3Lens.Proofs.Workspace.Spelling

/-!
# A cache in the place of sources

A workspace that took its library from the cache does with every action what one does that read the
sources, but for one thing: the work that was left to do for the library is not in the cache. So
documents and names are always the same, and so are the symbols as far as nothing is resolved
(`StandsIn.act`). The symbols are the same altogether as long as all that the library waits for is
still missing (`cache_stands_in`).
-/

namespace C3Lens

/-! ## Skeletons -/

theorem Module.skeleton_setDoc (doc : DocId) (m : Module) : (m.setDoc doc).skeleton = m.skeleton.setDoc doc := by
  have structs : (m.setDoc doc).structs.map Aggregate.bare =
      (m.structs.map Aggregate.bare).map (Aggregate.setDoc doc) := by
    rw [Module.setDoc, Table.map_map, Table.map_map]
    rfl
  rw [skeleton, structs, ← setDoc_mapModule]
  rfl

theorem SourceUnit.skeleton_setDoc (doc : DocId) (u : SourceUnit) :
    (u.setDoc doc).skeleton = u.skeleton.setDoc doc := by
  rw [setDoc, skeleton, skeleton, setDoc, Table.map_map, Table.map_map]
  exact congrArg (SourceUnit.mk doc) (congrArg (u.modules.map ·) (funext (Module.skeleton_setDoc doc)))

/-- The index takes the names of a unit from its skeleton. -/
theorem NameIndex.insertUnit_skeleton (index : NameIndex) (u : SourceUnit) :
    index.insertUnit u.skeleton = index.insertUnit u := by
  rw [insertUnit_eq_foldl, insertUnit_eq_foldl, SourceUnit.locations_skeleton]

namespace SymbolStore

variable {s c : SymbolStore} {doc : DocId} {q p : Pending} {u : SourceUnit}

theorem skeleton_register (s : SymbolStore) (u : SourceUnit) (p : Pending) :
    (s.register u p).skeleton = ⟨s.skeleton.units.insert u.doc.text u.skeleton, .empty⟩ := by
  rw [register_eq, skeleton_settle]
  exact congrArg (SymbolStore.mk · .empty) (Table.map_insert SourceUnit.skeleton s.units u.doc.text u)

theorem skeleton_delete (s : SymbolStore) (doc : DocId) :
    (s.delete doc).skeleton = ⟨s.skeleton.units.erase doc.text, .empty⟩ :=
  congrArg (SymbolStore.mk · .empty) (Table.map_erase SourceUnit.skeleton s.units doc.text)

theorem skeleton_rename_congr (same : c.skeleton = s.skeleton) (old new : DocId) :
    (c.rename old new).skeleton = (s.rename old new).skeleton := by
  have unit := congrArg (SymbolStore.unit? · old) same
  simp only [unit?_skeleton] at unit
  cases there : s.unit? old with
  | none =>
    rw [there, Option.map_none, Option.map_eq_none_iff] at unit
    rwa [rename, rename, unit, there]
  | some u =>
    rw [there] at unit
    obtain ⟨v, there', skeleton⟩ := Option.map_eq_some_iff.1 unit
    have units : c.units.map SourceUnit.skeleton = s.units.map SourceUnit.skeleton :=
      congrArg SymbolStore.units same
    rw [rename_of_unit? there, rename_of_unit? there', SymbolStore.skeleton, SymbolStore.skeleton]
    dsimp only
    rw [Table.map_insert, Table.map_insert, Table.map_erase, Table.map_erase, units,
      SourceUnit.skeleton_setDoc, SourceUnit.skeleton_setDoc, skeleton]

/-! ## One store for another -/

/-- The store `c` lacks the work of the document: it differs from `s` in nothing that is read from
texts, and in nothing else while the document still waits for all of `q`. -/
structure StandsIn (doc : DocId) (q : Pending) (s c : SymbolStore) : Prop where
  skeleton : c.skeleton = s.skeleton
  tidy : s.pending.Tidy
  relieved : s.WaitsFor q → Relieved doc q s c

namespace StandsIn

variable (h : StandsIn doc q s c) (hq : q.BelongsTo doc)
include h hq

theorem register (hp : p.Tidy) (own : p.BelongsTo u.doc) (other : u.doc ≠ doc) :
    StandsIn doc q (s.register u p) (c.register u p) where
  skeleton := by rw [skeleton_register, skeleton_register, h.skeleton]
  tidy := tidy_settle _
  relieved waiting :=
    (h.relieved (waitsFor_of_register hq h.tidy hp own other waiting)).register hp own other waiting

omit hq in
theorem delete (gone : DocId) : StandsIn doc q (s.delete gone) (c.delete gone) where
  skeleton := by rw [skeleton_delete, skeleton_delete, h.skeleton]
  tidy := h.tidy.purge gone
  relieved waiting := (h.relieved (waitsFor_of_delete waiting)).delete

theorem rename {old new : DocId} (notOld : old ≠ doc) (notNew : new ≠ doc) :
    StandsIn doc q (s.rename old new) (c.rename old new) where
  skeleton := skeleton_rename_congr h.skeleton old new
  tidy := by
    rw [SymbolStore.rename]
    split
    · exact h.tidy
    · exact h.tidy.rename old new
  relieved waiting := (h.relieved (waitsFor_of_rename hq h.tidy notNew waiting)).rename notOld notNew

end StandsIn

end SymbolStore

/-! ## Actions -/

/-- The action does not touch the document itself, and does not change the library. -/
def Action.Spares (doc : DocId) : Action → Prop
  | .openDocument d _ _ | .indexDocument d _ | .changeDocument d _ _ | .refresh d | .deleteDocument d => d ≠ doc
  | .closeDocument _ | .setReports _ => True
  | .deleteUnder directory => doc.isUnder directory = false
  | .renameDocument old new => old ≠ doc ∧ new ≠ doc
  | .renameUnder old new => doc.isUnder (Text.trimRight (· == '/') old) = false ∧
      ∀ tail, DocId.mk (Text.trimRight (· == '/') new ++ tail) ≠ doc
  | .loadFiles _ paths => ∀ path ∈ paths, DocId.ofPath path ≠ doc
  | .setVersion .. => False

namespace Workspace

/-- The workspace `v` has all that `w` has, but for the symbols, which stand in for those of `w`. -/
structure StandsIn (doc : DocId) (q : Pending) (w v : Workspace) : Prop where
  rest : v = { w with symbols := v.symbols }
  symbols : SymbolStore.StandsIn doc q w.symbols v.symbols

namespace StandsIn

variable {w v : Workspace} {doc : DocId} {q : Pending}

theorem setDocument (h : w.StandsIn doc q v) (d : Document) :
    (w.setDocument d).StandsIn doc q (v.setDocument d) := by
  obtain ⟨rest, symbols⟩ := h
  rw [rest]
  exact ⟨rfl, symbols⟩

theorem deleteDocument (h : w.StandsIn doc q v) (d : DocId) :
    (w.deleteDocument d).StandsIn doc q (v.deleteDocument d) := by
  obtain ⟨rest, symbols⟩ := h
  rw [rest]
  exact ⟨rfl, symbols.delete d⟩

theorem document?_eq (h : w.StandsIn doc q v) (d : DocId) : v.document? d = w.document? d := by
  rw [h.rest]
  rfl

theorem docsUnder_eq (h : w.StandsIn doc q v) (directory : String) :
    v.docsUnder directory = w.docsUnder directory := by
  rw [docsUnder, docsUnder, SymbolStore.docs, SymbolStore.docs, SymbolStore.names_congr h.symbols.skeleton]

section

variable (hq : q.BelongsTo doc)
include hq

theorem refresh (h : w.StandsIn doc q v) {d : DocId} (other : d ≠ doc) :
    (w.refresh d).StandsIn doc q (v.refresh d) := by
  have document := h.document?_eq d
  cases found : w.document? d with
  | none => simpa only [Workspace.refresh, document, found] using h
  | some e =>
    obtain ⟨unit, tidy, own, -⟩ := outline_sound d e.lines e.parse.tree
    rw [refresh_of_document? found, refresh_of_document? (document.trans found)]
    obtain ⟨rest, symbols⟩ := h
    rw [rest]
    refine ⟨rfl, symbols.register hq tidy ?_ ?_⟩
    · rwa [unit]
    · rwa [unit]

theorem indexDocument (h : w.StandsIn doc q v) {d : DocId} (other : d ≠ doc) (text : String) :
    (w.indexDocument d text).StandsIn doc q (v.indexDocument d text) := by
  rw [Workspace.indexDocument, Workspace.indexDocument, isOpen, isOpen, h.document?_eq]
  split
  · exact h
  · exact (h.setDocument _).refresh hq other

theorem renameDocument (h : w.StandsIn doc q v) {old new : DocId} (notOld : old ≠ doc) (notNew : new ≠ doc) :
    (w.renameDocument old new).StandsIn doc q (v.renameDocument old new) := by
  have renamed := h.symbols.rename hq notOld notNew
  have unit := congrArg (SymbolStore.unit? · new) renamed.skeleton
  simp only [SymbolStore.unit?_skeleton] at unit
  have read : ∀ (index : NameIndex) (u? : Option SourceUnit),
      u?.map index.insertUnit = (u?.map SourceUnit.skeleton).map index.insertUnit := fun index u? => by
    rw [Option.map_map]
    exact congrArg (u?.map ·) (funext fun u => (index.insertUnit_skeleton u).symm)
  have contains := SymbolStore.contains_congr h.symbols.skeleton old
  refine ⟨?_, renamed⟩
  obtain ⟨rest, -⟩ := h
  rw [Workspace.renameDocument, Workspace.renameDocument]
  dsimp only
  rw [contains, read, unit, ← read, rest]
  rfl

/-! ### Several documents -/

omit hq in
theorem foldl {f : Workspace → DocId → Workspace} {docs : List DocId}
    (step : ∀ w v, w.StandsIn doc q v → ∀ d ∈ docs, (f w d).StandsIn doc q (f v d)) (h : w.StandsIn doc q v) :
    (docs.foldl f w).StandsIn doc q (docs.foldl f v) := by
  induction docs generalizing w v with
  | nil => exact h
  | cons d docs ih =>
    exact ih (fun w v h d hd => step w v h d (List.mem_cons_of_mem _ hd)) (step w v h d List.mem_cons_self)

theorem loadFile (h : w.StandsIn doc q v) (files : FileTree) {path : String} (other : DocId.ofPath path ≠ doc) :
    (∃ cause, w.loadFile files path = .error cause ∧ v.loadFile files path = .error cause) ∨
      ∃ w' v', w.loadFile files path = .ok w' ∧ v.loadFile files path = .ok v' ∧ w'.StandsIn doc q v' := by
  rw [Workspace.loadFile, Workspace.loadFile, isOpen, isOpen, h.document?_eq]
  split
  · exact .inr ⟨w, v, rfl, rfl, h⟩
  · cases files.text path with
    | error cause => exact .inl ⟨cause, rfl, rfl⟩
    | ok text => exact .inr ⟨_, _, rfl, rfl, h.indexDocument hq other text⟩

theorem loadFiles (h : w.StandsIn doc q v) (files : FileTree) {paths : List String}
    (others : ∀ path ∈ paths, DocId.ofPath path ≠ doc) :
    (Workspace.loadFiles files paths w).1.StandsIn doc q (Workspace.loadFiles files paths v).1 := by
  induction paths generalizing w v with
  | nil => exact h
  | cons path paths ih =>
    rw [List.forall_mem_cons] at others
    rw [Workspace.loadFiles, Workspace.loadFiles]
    rcases h.loadFile hq files others.1 with ⟨cause, hw, hv⟩ | ⟨w', v', hw, hv, h'⟩
    · rw [hw, hv]
      exact ih h others.2
    · rw [hw, hv]
      exact ih h' others.2

theorem act (h : w.StandsIn doc q v) {a : Action} (spares : a.Spares doc) : (w.act a).StandsIn doc q (v.act a) := by
  cases a with
  | openDocument d text version => exact (h.setDocument _).refresh hq spares
  | indexDocument d text => exact h.indexDocument hq spares text
  | changeDocument d edits version =>
    show (w.changeDocument d edits version).StandsIn doc q (v.changeDocument d edits version)
    rw [changeDocument, changeDocument, h.document?_eq]
    split
    · exact h
    · exact (h.setDocument _).refresh hq spares
  | refresh d => exact h.refresh hq spares
  | closeDocument d =>
    obtain ⟨rest, symbols⟩ := h
    rw [rest]
    exact ⟨rfl, symbols⟩
  | deleteDocument d => exact h.deleteDocument d
  | deleteUnder directory =>
    show (w.deleteUnder directory).StandsIn doc q (v.deleteUnder directory)
    rw [deleteUnder, deleteUnder, h.docsUnder_eq]
    exact foldl (fun _ _ h d _ => h.deleteDocument d) h
  | renameDocument old new => exact h.renameDocument hq spares.1 spares.2
  | renameUnder old new =>
    show (w.renameUnder old new).StandsIn doc q (v.renameUnder old new)
    rw [renameUnder, renameUnder, h.docsUnder_eq]
    refine foldl (fun _ _ h d hd => h.renameDocument hq ?_ (spares.2 _)) h
    rintro rfl
    exact absurd (List.mem_filter.1 hd).2 (Bool.eq_false_iff.1 spares.1)
  | loadFiles files paths => exact h.loadFiles hq files spares
  | setVersion => exact spares.elim
  | setReports reports =>
    obtain ⟨rest, symbols⟩ := h
    rw [rest]
    exact ⟨rfl, symbols⟩

theorem foldl_act (h : w.StandsIn doc q v) {actions : List Action} (spare : ∀ a ∈ actions, a.Spares doc) :
    (actions.foldl Workspace.act w).StandsIn doc q (actions.foldl Workspace.act v) := by
  induction actions generalizing w v with
  | nil => exact h
  | cons a actions ih =>
    rw [List.forall_mem_cons] at spare
    exact ih (h.act hq spare.1) spare.2

end

end StandsIn

end Workspace

/-! ## The two libraries -/

namespace Library

variable {files : FileTree} {version : String} {root? cache? : Option String}

theorem origin_ofSources? {root : String} {doc : DocId} {l : Loaded} (h : ofSources? files root doc = some l) :
    l.origin = .sources := by
  have all : ∀ (paths : List String) (l : Loaded), (paths.foldl (addSource files) l).origin = l.origin := by
    intro paths
    induction paths with
    | nil => exact fun _ => rfl
    | cons path paths ih =>
      refine fun l => (ih _).trans ?_
      rw [addSource]
      split <;> rfl
  rw [ofSources?] at h
  split at h
  · split at h
    · cases h
    next paths _ =>
      cases h
      exact all paths _
  · cases h

/-- Without a file of the cache the library is not from the cache. -/
theorem origin_load_of_none (none : cache?.bind (fun folder => ofCache? files folder version) = none) :
    (load files version root? cache?).origin ≠ .cache := by
  rw [load, none]
  cases sources : root?.bind fun root => ofSources? files root (docOf version) with
  | none =>
    intro h
    cases h
  | some l =>
    obtain ⟨root, -, h⟩ := Option.bind_eq_some_iff.1 sources
    show l.origin ≠ .cache
    rw [origin_ofSources? h]
    intro h
    cases h

theorem load_of_readCache {folder : String} {u : SourceUnit} (read : readCache files folder version = .ok u) :
    load files version root? (some folder) = ⟨{ u with doc := docOf version }, .empty, .cache⟩ := by
  rw [load, Option.bind_some, ofCache?, read]
  rfl

theorem exists_readCache_of_origin (h : (load files version root? cache?).origin = .cache) :
    ∃ folder u, cache? = some folder ∧ readCache files folder version = .ok u := by
  cases found : cache?.bind fun folder => ofCache? files folder version with
  | none => exact absurd h (origin_load_of_none found)
  | some l =>
    obtain ⟨folder, given, inFolder⟩ := Option.bind_eq_some_iff.1 found
    rw [ofCache?] at inFolder
    split at inFolder
    · cases inFolder
    next u read => exact ⟨folder, u, given, read⟩

/-- A library of sources is one of those that come about. -/
theorem produced_load (bytes : ∀ path text, files.text path = .ok text → text.utf8ByteSize ≤ mostCoordinate) :
    (load files version root? cache?).origin = .cache ∨ (load files version root? cache?).unit.Produced := by
  refine load_induct (P := fun l => l.origin = .cache ∨ l.unit.Produced) (.inr (.none _)) (.inr (.none _))
    (fun l path h => ?_) fun _ _ _ _ => .inl rfl
  rw [addSource]
  split
  · exact h
  next text read =>
    exact h.imp id fun produced => produced.merged (.read (DocId.ofPath path) text (bytes path text read))

end Library

namespace SymbolStore

variable {s : SymbolStore} {u v : SourceUnit} {p : Pending}

theorem register_empty_empty (u : SourceUnit) :
    empty.register u .empty = ⟨Table.empty.insert u.doc.text u, .empty⟩ := rfl

/-- The only unit of a store. -/
theorem units_register_empty (registered : (empty.register u p).unit? u.doc = some v) :
    (empty.register u p).units = Table.empty.insert u.doc.text v := by
  have names : (empty.register u p).units.names = [u.doc.text] := by
    rw [← names_skeleton, skeleton_register]
    rfl
  refine Table.ext_get? names fun name => ?_
  rw [Table.get?_insert]
  split
  next own =>
    rw [own]
    exact registered
  next other =>
    rw [Table.get?_eq_none_iff.2 (by rwa [names, List.mem_singleton])]
    rfl

/-- The pending work of a store with one unit is that of the unit. -/
theorem belongsTo_register_empty (tidy : p.Tidy) (own : p.BelongsTo u.doc) :
    (empty.register u p).pending.BelongsTo u.doc where
  types _ ht := by_contra fun other =>
    absurd (mem_types_of_register Pending.tidy_empty tidy own other ht).1 List.not_mem_nil
  inlines _ hi := by_contra fun other =>
    absurd (mem_inlines_of_register own other hi).1 List.not_mem_nil

/-- A unit in a store of its own, and the same one without the work that is left to do for it. -/
theorem standsIn_register_empty (tidy : p.Tidy) (own : p.BelongsTo u.doc)
    (registered : (empty.register u p).unit? u.doc = some v) (doc : v.doc = u.doc) :
    StandsIn u.doc (empty.register u p).pending (empty.register u p) (empty.register v .empty) := by
  have units : (empty.register v .empty).units = (empty.register u p).units := by
    rw [units_register_empty registered, register_empty_empty, doc]
  have mine := belongsTo_register_empty tidy own
  refine ⟨skeleton_eq_of_units units, tidy_settle _, fun _ =>
    ⟨units, fun name => ?_, ?_, tidy_settle _, tidy_settle _, fun _ ht _ => ht, fun _ hi _ => hi⟩⟩
  · refine (List.filter_eq_nil_iff.2 fun t ht => ?_).symm
    rw [mine.types t (Pending.mem_types_iff.2 ⟨name, ht⟩), bne_self_eq_false]
    exact Bool.false_ne_true
  · refine (List.filter_eq_nil_iff.2 fun i hi => ?_).symm
    rw [mine.inlines i hi, bne_self_eq_false]
    exact Bool.false_ne_true

end SymbolStore

namespace Workspace

variable {files : FileTree} {version : String} {root? root'? cache? : Option String}

/-- The workspace that knows nothing but the library. -/
theorem setVersion_empty (files : FileTree) (version : String) (root? cache? : Option String) :
    (empty.setVersion files version root? cache?).1 =
      { empty with
        names := NameIndex.empty.insertUnit (Library.load files version root? cache?).unit
        symbols := SymbolStore.empty.register (Library.load files version root? cache?).unit
          (Library.load files version root? cache?).pending
        version? := some version
        library? := some (Library.load files version root? cache?).unit.doc } :=
  rfl

/-- The cache that was written holds the library as it was registered. -/
theorem load_setVersion (bytes : ∀ path text, files.text path = .ok text → text.utf8ByteSize ≤ mostCoordinate)
    (sources : (Library.load files version root? cache?).origin = .sources)
    (cached : (Library.load (empty.setVersion files version root? cache?).2 version root'? cache?).origin = .cache)
    {u : SourceUnit}
    (registered : (empty.setVersion files version root? cache?).1.symbols.unit? (Library.docOf version) = some u)
    (doc : u.doc = Library.docOf version) :
    Library.load (empty.setVersion files version root? cache?).2 version root'? cache? = ⟨u, .empty, .cache⟩ := by
  obtain ⟨folder, v, rfl, read⟩ := Library.exists_readCache_of_origin cached
  have cacheable : u.Cacheable := by
    have produced := (Library.produced_load bytes).resolve_left
      (show (Library.load files version root? (some folder)).origin ≠ .cache by rw [sources]; exact nofun)
    have library := registered
    rw [setVersion_empty] at library
    exact (SourceUnit.Produced.resolved (s := .empty) _ produced (fun _ _ none => nomatch none) library).cacheable
  have written := files_setVersion sources registered
  cases result : Library.writeCache files folder version u with
  | error cause =>
    rw [written, result] at read
    have again := @Library.load_of_readCache files version root? folder v read
    rw [again] at sources
    cases sources
  | ok after =>
    have there := Library.readCache_writeCache cacheable result
    have files' : (empty.setVersion files version root? (some folder)).2 = after.1 := by
      rw [written, result]
      rfl
    rw [files'] at read ⊢
    rw [there] at read
    split at read
    next shallow =>
      rw [if_pos shallow] at there
      rw [Library.load_of_readCache there, ← doc]
    · cases read

/-- The cache is taken up in the place of the sources. -/
theorem standsIn_setVersion
    (bytes : ∀ path text, files.text path = .ok text → text.utf8ByteSize ≤ mostCoordinate)
    (sources : (Library.load files version root? cache?).origin = .sources)
    (cached : (Library.load (empty.setVersion files version root? cache?).2 version root'? cache?).origin = .cache) :
    (empty.setVersion files version root? cache?).1.StandsIn (Library.docOf version)
      (empty.setVersion files version root? cache?).1.symbols.pending
      (empty.setVersion (empty.setVersion files version root? cache?).2 version root'? cache?).1 := by
  obtain ⟨unit, tidy, own⟩ := Library.sound_load files version root? cache?
  rw [← unit] at own
  obtain ⟨u, registered, resolves⟩ := SymbolStore.exists_unit?_register
    ((SymbolStore.empty.unit?_placed (Library.load files version root? cache?).unit
      (Library.load files version root? cache?).pending _).trans (if_pos rfl))
  have skeleton := resolves.skeleton_eq
  have doc : u.doc = (Library.load files version root? cache?).unit.doc := by
    rw [← SourceUnit.skeleton_doc, skeleton, SourceUnit.skeleton_doc]
  have stands := SymbolStore.standsIn_register_empty tidy own registered doc
  have again := load_setVersion bytes sources cached (unit ▸ registered) (doc.trans unit)
  have symbols : (empty.setVersion (empty.setVersion files version root? cache?).2 version root'? cache?).1.symbols =
      SymbolStore.empty.register u .empty := by
    rw [setVersion_empty, again]
  refine ⟨?_, ?_⟩
  · rw [setVersion_empty, again, setVersion_empty files]
    dsimp only
    rw [← NameIndex.insertUnit_skeleton, skeleton, NameIndex.insertUnit_skeleton, doc]
  · rw [← unit, symbols]
    exact stands

/-- A cache stands in for the sources that it was made of. After the same actions, the workspace that
read the cache is the one that read the sources but for the symbols, and these differ in nothing but what
was resolved. If all that the library waited for is still missing, then the units are the same, and the
same work waits, but for that of the library. -/
theorem cache_stands_in (files : FileTree) (version : String) (root? root'? cache? : Option String)
    (actions : List Action)
    (bytes : ∀ path text, files.text path = .ok text → text.utf8ByteSize ≤ mostCoordinate)
    (sources : (Library.load files version root? cache?).origin = .sources)
    (cached : (Library.load (empty.setVersion files version root? cache?).2 version root'? cache?).origin = .cache)
    (spare : ∀ a ∈ actions, a.Spares (Library.docOf version)) :
    let start := (empty.setVersion files version root? cache?).1
    let w := actions.foldl act start
    let v := actions.foldl act
      (empty.setVersion (empty.setVersion files version root? cache?).2 version root'? cache?).1
    v = { w with symbols := v.symbols } ∧ v.symbols.skeleton = w.symbols.skeleton ∧
    (w.symbols.WaitsFor start.symbols.pending →
      v.symbols.units = w.symbols.units ∧
      (∀ context, v.symbols.pending.typesIn context =
        (w.symbols.pending.typesIn context).filter (·.doc != Library.docOf version)) ∧
      v.symbols.pending.inlines = w.symbols.pending.inlines.filter (·.doc != Library.docOf version)) := by
  intro start w v
  have mine : start.symbols.pending.BelongsTo (Library.docOf version) := by
    obtain ⟨unit, tidy, own⟩ := Library.sound_load files version root? cache?
    rw [← unit] at own ⊢
    exact SymbolStore.belongsTo_register_empty tidy own
  obtain ⟨rest, symbols⟩ := (standsIn_setVersion bytes sources cached).foldl_act mine spare
  refine ⟨rest, symbols.skeleton, fun waiting => ?_⟩
  exact ⟨(symbols.relieved waiting).units, (symbols.relieved waiting).types, (symbols.relieved waiting).inlines⟩

/-! ### A library of one source -/

end Workspace

theorem FileNode.descend?_libraryOf {text : String} {names : List String} {bytes : List UInt8}
    (h : (libraryOf text).root.descend? names = some (.file bytes)) : bytes = Utf8.encode text := by
  cases names with
  | nil => cases h
  | cons name names =>
    have below : (([("f.c3", .file (Utf8.encode text))] : List (String × FileNode)).lookup name).bind
        (FileNode.descend? names) = some (.file bytes) := by
      rw [libraryOf, FileNode.descend?] at h
      split at h
      next node found => rwa [found]
      · cases h
    rw [Table.lookup_cons_eq_ite] at below
    split at below
    · cases names with
      | nil => exact (FileNode.file.inj (Option.some.inj below)).symm
      | cons _ _ => cases below
    · cases below

/-- There is no other text among the files. -/
theorem FileTree.eq_of_text_libraryOf {text t path : String} (h : (libraryOf text).text path = .ok t) : t = text := by
  rw [FileTree.text, bytes, node] at h
  cases names : (libraryOf text).names path with
  | error e =>
    rw [names] at h
    cases h
  | ok ns =>
    rw [names] at h
    dsimp only [Bind.bind, Except.bind] at h
    cases there : (libraryOf text).root.descend? ns with
    | none =>
      rw [there] at h
      cases h
    | some node =>
      rw [there] at h
      cases node with
      | folder es => cases h
      | file bytes =>
        rw [FileNode.descend?_libraryOf there] at h
        dsimp only [pure, Except.pure] at h
        rw [Utf8.decode?_encode] at h
        cases h
        rfl
namespace Workspace

variable {text : String} {u : SourceUnit}

theorem bytes_libraryOf (bytes : text.utf8ByteSize ≤ mostCoordinate) :
    ∀ path t, (libraryOf text).text path = .ok t → t.utf8ByteSize ≤ mostCoordinate := fun _ _ read => by
  rwa [FileTree.eq_of_text_libraryOf read]

/-- The workspace that reads the source of a library. -/
def ofSource (text : String) : Workspace :=
  (empty.setVersion (libraryOf text) "1" (some "/") (some "/")).1

/-- The workspace that reads the cache that was written of it. -/
def ofCache (text : String) : Workspace :=
  (empty.setVersion (empty.setVersion (libraryOf text) "1" (some "/") (some "/")).2 "1" (some "/") (some "/")).1

theorem origin_libraryOf (text : String) :
    (Library.load (libraryOf text) "1" (some "/") (some "/")).origin = .sources := by
  rw [Library.load_libraryOf]
  rfl

/-- What is read back. -/
theorem load_written (bytes : text.utf8ByteSize ≤ mostCoordinate)
    (registered : empty.librarySettled? text = some u)
    (shallow : Json.levels (Library.CacheFile.ofUnit "1" u).toJson < Json.nestingLimit) :
    Library.load (empty.setVersion (libraryOf text) "1" (some "/") (some "/")).2 "1" (some "/") (some "/") =
      ⟨{ u with doc := Library.docOf "1" }, .empty, .cache⟩ := by
  have cacheable : u.Cacheable :=
    (Library.cacheable_ofSource bytes).resolved (s := .empty) (fun _ _ none => nomatch none) _ registered
  have read : Library.readCache (empty.setVersion (libraryOf text) "1" (some "/") (some "/")).2 "/" "1" = .ok u := by
    rw [Library.readCache, Library.cachePath_root, text_setVersion registered]
    dsimp only
    rw [Library.parseCache_cacheText cacheable, if_pos shallow]
  exact Library.load_of_readCache read

/-- The library waits beside a document that lacks its struct. It finds the struct in one that has it, and
does not if it has no work left. -/
theorem opened_beside_waiting :
    ((ofSource "Foo f;").openDocument ⟨"a.c3"⟩ "int y;" 1).symbols.WaitsFor (ofSource "Foo f;").symbols.pending ∧
    (((ofSource "Foo f;").openDocument ⟨"a.c3"⟩ "struct Foo { int x; }" 1).symbols.unit?
      (Library.docOf "1")).map typeModules = some ["a"] ∧
    (empty.librarySettled? "Foo f;").bind (fun u =>
      (({ empty with symbols := SymbolStore.empty.register { u with doc := Library.docOf "1" } .empty } :
        Workspace).openDocument ⟨"a.c3"⟩ "struct Foo { int x; }" 1).symbols.unit? (Library.docOf "1") |>.map
          typeModules) = some ["f"] := by
  rw [ofSource, setVersion_empty, Library.load_libraryOf]
  decide +kernel

theorem cache_stands_in_stranger :
    ((ofSource "Foo f;").openDocument ⟨"a.c3"⟩ "int y;" 1).symbols.WaitsFor (ofSource "Foo f;").symbols.pending ∧
    ((ofCache "Foo f;").openDocument ⟨"a.c3"⟩ "int y;" 1).symbols.units =
      ((ofSource "Foo f;").openDocument ⟨"a.c3"⟩ "int y;" 1).symbols.units := by
  obtain ⟨u, registered, -, shallow⟩ := exists_settled_waiting
  have bytes : "Foo f;".utf8ByteSize ≤ mostCoordinate := by decide
  have cached := congrArg Library.Loaded.origin (load_written bytes registered shallow)
  have spare : ∀ a ∈ [Action.openDocument ⟨"a.c3"⟩ "int y;" 1], a.Spares (Library.docOf "1") := by
    intro a ha
    rw [List.mem_singleton.1 ha]
    exact (by decide : (⟨"a.c3"⟩ : DocId) ≠ Library.docOf "1")
  have waiting := opened_beside_waiting.1
  exact ⟨waiting, ((cache_stands_in (libraryOf "Foo f;") "1" (some "/") (some "/") (some "/") _
    (bytes_libraryOf bytes) (origin_libraryOf _) cached spare).2.2 waiting).1⟩

/-- The library from the cache does not find a struct that is opened later. -/
theorem cache_left_behind :
    ((ofCache "Foo f;").openDocument ⟨"a.c3"⟩ "struct Foo { int x; }" 1).symbols.units ≠
      ((ofSource "Foo f;").openDocument ⟨"a.c3"⟩ "struct Foo { int x; }" 1).symbols.units := by
  obtain ⟨u, registered, -, shallow⟩ := exists_settled_waiting
  obtain ⟨-, afterSource, afterCache⟩ := opened_beside_waiting
  have symbols : ((ofCache "Foo f;").openDocument ⟨"a.c3"⟩ "struct Foo { int x; }" 1).symbols =
      (({ empty with symbols := SymbolStore.empty.register { u with doc := Library.docOf "1" } .empty } :
        Workspace).openDocument ⟨"a.c3"⟩ "struct Foo { int x; }" 1).symbols := by
    rw [ofCache, setVersion_empty, load_written (by decide) registered shallow]
    rfl
  rw [registered, Option.bind_some, ← symbols] at afterCache
  intro same
  rw [SymbolStore.unit?, same] at afterCache
  exact absurd (afterCache.symm.trans afterSource) (by decide)

end Workspace

end C3Lens
