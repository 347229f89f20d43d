import C3Lens.Proofs.NameIndex
import C3Lens.Proofs.SymbolStore.Settle
import C3Lens.Proofs.Workspace.Documents

/-!
# The stores of a workspace agree

Documents, symbols and the index of names are stored apart and changed apart. As long as editors
use ids of their own and rename documents to ids that are free, the three agree after every run
(`agrees_of_reachable`): the units are those of the documents and of the standard library, and the
index holds the entries of the units and no others.
-/

namespace C3Lens

/-! ## Ids of editors -/

/-- An id that an editor may use: it is not that of a standard library. -/
def DocId.IsClient (doc : DocId) : Prop :=
  ∀ version, doc ≠ Library.docOf version

/-- The URL of a file is an id of an editor. -/
theorem DocId.isClient_of_prefix {text : String} (h : "file:".toList <+: text.toList) :
    DocId.IsClient ⟨text⟩ := by
  intro version same
  obtain ⟨rest, hrest⟩ := h
  have library : text.toList = "_stdlib_".toList ++ version.toList :=
    (congrArg (fun d => d.text.toList) same).trans String.toList_append
  rw [← hrest] at library
  exact absurd (List.cons.inj library).1 (by decide)

/-- A directory with a standard library in it is named like one. -/
theorem Library.directory_of_isUnder {version directory : String}
    (h : (Library.docOf version).isUnder directory = true) :
    ∃ v, (⟨directory⟩ : DocId) = Library.docOf v := by
  obtain ⟨slashes, hd⟩ := Text.toList_trimRight (· == '/') directory
  have library : (Library.docOf version).text.toList = "_stdlib_".toList ++ version.toList :=
    String.toList_append
  -- The directory without its last slashes begins like the id of a library.
  have start : "_stdlib_".toList <+: (Text.trimRight (· == '/') directory).toList := by
    rw [DocId.isUnder, Bool.or_eq_true, beq_iff_eq] at h
    rcases h with same | below
    · rw [← same, library]
      exact List.prefix_append _ _
    · cases found : Text.afterStart? (Text.trimRight (· == '/') directory) (docOf version).text with
      | none =>
        rw [found] at below
        cases below
      | some rest =>
        rw [found, String.startsWith_string_iff] at below
        obtain ⟨more, hmore⟩ := below
        have parts := Text.afterStart?_eq_some_iff.1 found
        rw [library, ← hmore] at parts
        rcases List.append_eq_append_iff.1 parts.symm with ⟨name, hname, hslash⟩ | ⟨name, hname, -⟩
        · cases name with
          | nil => exact ⟨[], by rw [hname, List.append_nil, List.append_nil]⟩
          | cons c name =>
            -- The slash behind the directory would stand in the name of the library.
            have first : '/' = c := (List.cons.inj hslash).1
            have slash : '/' ∈ "_stdlib_".toList := by
              rw [hname, first]
              exact List.mem_append_right _ List.mem_cons_self
            exact absurd slash (by decide)
        · exact ⟨name, hname.symm⟩
  obtain ⟨tail, htail⟩ := start
  refine ⟨String.ofList (tail ++ slashes), ?_⟩
  rw [Library.docOf, DocId.mk.injEq]
  apply String.toList_injective
  rw [hd, ← htail, String.toList_append, List.append_assoc]
  exact congrArg ("_stdlib_".toList ++ ·) String.toList_ofList.symm

theorem Library.doc_load (files : FileTree) (version : String) (root? cache? : Option String) :
    (Library.load files version root? cache?).unit.doc = docOf version := by
  have registered : ∀ (ms : List Module) (u : SourceUnit), (ms.foldl SourceUnit.register u).doc = u.doc := by
    intro ms
    induction ms with
    | nil => exact fun _ => rfl
    | cons m ms ih => exact fun u => (ih _).trans (OutlineState.doc_register u m)
  have sources : ∀ (paths : List String) (l : Loaded),
      (paths.foldl (addSource files) l).unit.doc = l.unit.doc := by
    intro paths
    induction paths with
    | nil => exact fun _ => rfl
    | cons path paths ih =>
      refine fun l => (ih _).trans ?_
      rw [addSource]
      split
      · rfl
      · exact registered _ _
  have cached : ∀ folder loaded, ofCache? files folder version = some loaded →
      loaded.unit.doc = docOf version := by
    intro folder loaded h
    delta ofCache? at h
    split at h
    · cases h
    · cases h
      rfl
  have read : ∀ root loaded, ofSources? files root (docOf version) = some loaded →
      loaded.unit.doc = docOf version := by
    intro root loaded h
    rw [ofSources?] at h
    split at h
    · split at h
      · cases h
      · cases h
        exact sources _ _
    · cases h
  rw [load]
  cases fromCache : cache?.bind fun folder => ofCache? files folder version with
  | some loaded =>
    obtain ⟨folder, -, h⟩ := Option.bind_eq_some_iff.1 fromCache
    exact cached folder loaded h
  | none =>
    cases fromRoot : root?.bind fun root => ofSources? files root (docOf version) with
    | some loaded =>
      obtain ⟨root, -, h⟩ := Option.bind_eq_some_iff.1 fromRoot
      exact read root loaded h
    | none => rfl

/-! ## The locations of a store -/

namespace SymbolStore

/-- The locations of all units. -/
def locations (s : SymbolStore) : List SymbolLocation :=
  s.units.values.flatMap SourceUnit.locations

/-- Every unit is registered under its own id. -/
def Keyed (s : SymbolStore) : Prop :=
  ∀ name u, s.units.get? name = some u → u.doc.text = name

theorem keyed_iff {s : SymbolStore} : s.Keyed ↔ s.units.KeyedBy fun u => u.doc.text :=
  Iff.rfl

theorem locations_skeleton (s : SymbolStore) : s.skeleton.locations = s.locations := by
  rw [locations, skeleton, Table.values_map, List.flatMap_map, locations]
  exact List.flatMap_congr fun u _ => SourceUnit.locations_skeleton u

theorem keyed_skeleton {s : SymbolStore} : s.skeleton.Keyed ↔ s.Keyed := by
  simp only [Keyed, skeleton, Table.get?_map, Option.map_eq_some_iff]
  constructor
  · intro h name u hu
    exact h name u.skeleton ⟨u, hu, rfl⟩
  · rintro h name _ ⟨u, hu, rfl⟩
    exact h name u hu

/-- What is not of a document is what is left when the document is forgotten. -/
theorem filter_locations {s : SymbolStore} (h : s.Keyed) (doc : DocId) :
    s.locations.filter (·.unit != doc) = (s.delete doc).locations := by
  have units : ∀ e ∈ s.units.entries, e.2.locations.filter (·.unit != doc) =
      if e.1 != doc.text then e.2.locations else [] := by
    intro e he
    have key := h e.1 e.2 (Table.mem_entries_iff.1 he)
    split
    next other =>
      refine List.filter_eq_self.2 fun l hl => ?_
      rw [SourceUnit.unit_of_mem_locations hl, bne_iff_ne]
      rintro rfl
      exact bne_iff_ne.1 other key.symm
    next same =>
      refine List.filter_eq_nil_iff.2 fun l hl => ?_
      rw [SourceUnit.unit_of_mem_locations hl, bne_iff_ne, not_not]
      rw [bne_iff_ne, not_not, ← key] at same
      exact congrArg DocId.mk same
  show (s.units.values.flatMap SourceUnit.locations).filter (·.unit != doc) =
    (s.units.erase doc.text).values.flatMap SourceUnit.locations
  rw [Table.values, Table.values, Table.entries_erase, List.filter_flatMap, List.flatMap_map,
    List.flatMap_map]
  revert units
  generalize s.units.entries = es
  intro units
  induction es with
  | nil => rfl
  | cons e es ih =>
    rw [List.flatMap_cons, units e List.mem_cons_self,
      ih fun e he => units e (List.mem_cons_of_mem _ he), List.filter_cons]
    split
    · rw [List.flatMap_cons]
    · rfl

theorem locations_register_perm (s : SymbolStore) (u : SourceUnit) (p : Pending) :
    (s.register u p).locations.Perm (u.locations ++ (s.delete u.doc).locations) := by
  rw [register, ← locations_skeleton, skeleton_settle, locations_skeleton]
  have values := Table.values_insert_perm s.units u.doc.text u
  exact values.flatMap_right _

theorem keyed_register {s : SymbolStore} (h : s.Keyed) (u : SourceUnit) (p : Pending) :
    (s.register u p).Keyed := by
  rw [register, ← keyed_skeleton, skeleton_settle, keyed_skeleton]
  exact (keyed_iff.1 h).insert rfl

theorem names_register (s : SymbolStore) (u : SourceUnit) (p : Pending) :
    (s.register u p).units.names = (s.units.insert u.doc.text u).names := by
  rw [register, names_congr (skeleton_settle _)]

theorem keyed_delete {s : SymbolStore} (h : s.Keyed) (doc : DocId) : (s.delete doc).Keyed :=
  (keyed_iff.1 h).erase doc.text

theorem keyed_rename {s : SymbolStore} (h : s.Keyed) (old new : DocId) : (s.rename old new).Keyed := by
  rw [rename]
  split
  · exact h
  · exact (keyed_iff.1 (keyed_delete h old)).insert rfl

end SymbolStore

/-! ## Agreement -/

namespace Workspace

/-- Documents, symbols and names tell the same. -/
structure Agrees (w : Workspace) : Prop where
  /-- The documents have ids of editors. -/
  client : ∀ name ∈ w.documents.names, DocId.IsClient ⟨name⟩
  /-- There is a library if there is a version, and it is that of the version. -/
  library : w.library? = w.version?.map Library.docOf
  /-- The units are those of the documents and of the library. -/
  units : ∀ name, name ∈ w.symbols.units.names ↔
    name ∈ w.documents.names ∨ ∃ doc, w.library? = some doc ∧ name = doc.text
  keyed : w.symbols.Keyed
  ids : ∀ name d, w.documents.get? name = some d → d.id.text = name
  /-- The entries are the locations of the units, with the kinds, names, documents and ranges that
  the declarations have now. -/
  entries : w.names.entries.Perm (w.symbols.locations.filter SymbolLocation.hasKey)
  counted : w.names.Counted

theorem agrees_empty : Agrees empty := by
  refine ⟨?_, rfl, ?_, ?_, ?_, ?_, ?_⟩
  · intro name h
    cases h
  · intro name
    constructor
    · intro h
      cases h
    · rintro (h | ⟨doc, h, -⟩) <;> cases h
  · intro name u h
    cases h
  · intro name d h
    cases h
  · exact List.Perm.refl _
  · show 0 = (Trie.empty : Trie SymbolLocation).all.length
    rw [Trie.all_empty, List.length_nil]

section Steps

variable {w : Workspace}

/-- Forgetting a document in both the index and the store keeps them in step. -/
theorem Agrees.entries_clear (h : w.Agrees) (doc : DocId) :
    (w.names.clear doc).entries.Perm ((w.symbols.delete doc).locations.filter SymbolLocation.hasKey) := by
  rw [NameIndex.entries_clear, ← SymbolStore.filter_locations h.keyed, List.filter_comm]
  exact h.entries.filter _

/-- So does putting a unit in the place of the one that was forgotten. -/
theorem entries_insertUnit {names : NameIndex} {s : SymbolStore} {u : SourceUnit} (p : Pending)
    (h : names.entries.Perm ((s.delete u.doc).locations.filter SymbolLocation.hasKey)) :
    (names.insertUnit u).entries.Perm ((s.register u p).locations.filter SymbolLocation.hasKey) := by
  refine (NameIndex.entries_insertUnit_perm names u).trans ?_
  refine (h.append_left _).trans ?_
  rw [← List.filter_append]
  exact ((s.locations_register_perm u p).filter _).symm

theorem Agrees.isClient_of_mem (h : w.Agrees) {doc : DocId} (hd : doc.text ∈ w.documents.names) :
    doc.IsClient :=
  h.client doc.text hd

theorem Agrees.library_isLibrary (h : w.Agrees) {doc : DocId} (hl : w.library? = some doc) :
    ∃ version, doc = Library.docOf version := by
  rw [h.library] at hl
  obtain ⟨version, -, rfl⟩ := Option.map_eq_some_iff.1 hl
  exact ⟨version, rfl⟩

/-- A document is put in its place and read. -/
theorem Agrees.setDocument_refresh (h : w.Agrees) {d : Document} (client : d.id.IsClient) :
    ((w.setDocument d).refresh d.id).Agrees := by
  have doc := (outline_sound d.id d.lines d.parse.tree).1
  rw [refresh_setDocument]
  refine ⟨?_, h.library, ?_, SymbolStore.keyed_register h.keyed _ _, Filed.setDocument h.ids d, ?_, ?_⟩
  · intro name hname
    rcases Table.mem_names_insert.1 hname with rfl | hname
    · exact client
    · exact h.client name hname
  · intro name
    show name ∈ (w.symbols.register _ _).units.names ↔ _ ∈ (w.documents.insert _ _).names ∨ _
    rw [SymbolStore.names_register, doc, Table.mem_names_insert, Table.mem_names_insert, h.units,
      or_assoc]
  · refine entries_insertUnit _ ?_
    rw [doc]
    exact h.entries_clear d.id
  · exact NameIndex.counted_insertUnit (NameIndex.counted_clear h.counted d.id) _

theorem Agrees.refresh (h : w.Agrees) (doc : DocId) : (w.refresh doc).Agrees := by
  cases found : w.document? doc with
  | none =>
    rw [Workspace.refresh, found]
    exact h
  | some d =>
    have id : d.id = doc := congrArg DocId.mk (h.ids doc.text d found)
    have client := h.isClient_of_mem (Table.mem_names_iff.2 ⟨d, found⟩)
    have put := h.setDocument_refresh (id ▸ client : d.id.IsClient)
    rwa [setDocument_of_document? found id, id] at put

theorem Agrees.openDocument (h : w.Agrees) {doc : DocId} (client : doc.IsClient) (text : String)
    (version : Int) : (w.openDocument doc text version).Agrees :=
  h.setDocument_refresh (d := { Document.ofText doc text version with ownedByEditor := true }) client

theorem Agrees.indexDocument (h : w.Agrees) {doc : DocId} (client : doc.IsClient) (text : String) :
    (w.indexDocument doc text).Agrees := by
  rw [Workspace.indexDocument]
  split
  · exact h
  · exact h.setDocument_refresh (d := Document.ofText doc text 0) client

theorem Agrees.changeDocument (h : w.Agrees) (doc : DocId) (edits : List Edit) (version : Int) :
    (w.changeDocument doc edits version).Agrees := by
  rw [Workspace.changeDocument]
  split
  · exact h
  next d found =>
    have id : d.id = doc := congrArg DocId.mk (h.ids doc.text d found)
    have client := h.isClient_of_mem (Table.mem_names_iff.2 ⟨d, found⟩)
    have put := h.setDocument_refresh (d := d.applyEdits edits version) (id ▸ client : d.id.IsClient)
    exact id ▸ put

theorem Agrees.closeDocument (h : w.Agrees) (doc : DocId) : (w.closeDocument doc).Agrees := by
  have names : (w.closeDocument doc).documents.names = w.documents.names := Table.names_modify _ _ _
  refine ⟨?_, h.library, ?_, h.keyed, Filed.closeDocument h.ids doc, h.entries, h.counted⟩
  · rw [names]
    exact h.client
  · rw [names]
    exact h.units

theorem Agrees.deleteDocument (h : w.Agrees) {doc : DocId} (client : doc.IsClient) :
    (w.deleteDocument doc).Agrees := by
  refine ⟨?_, h.library, ?_, SymbolStore.keyed_delete h.keyed doc, Filed.deleteDocument h.ids doc,
    h.entries_clear doc, NameIndex.counted_clear h.counted doc⟩
  · exact fun name hname => h.client name (Table.mem_names_erase.1 hname).1
  · intro name
    show name ∈ (w.symbols.units.erase doc.text).names ↔ name ∈ (w.documents.erase doc.text).names ∨ _
    rw [Table.mem_names_erase, Table.mem_names_erase, h.units]
    constructor
    · rintro ⟨hd | hl, ne⟩
      · exact .inl ⟨hd, ne⟩
      · exact .inr hl
    · rintro (⟨hd, ne⟩ | ⟨library, hl, rfl⟩)
      · exact ⟨.inl hd, ne⟩
      · refine ⟨.inr ⟨library, hl, rfl⟩, fun same => ?_⟩
        obtain ⟨version, hv⟩ := h.library_isLibrary hl
        exact client version ((congrArg DocId.mk same).symm.trans hv)

theorem Agrees.deleteUnder (h : w.Agrees) {directory : String} (client : DocId.IsClient ⟨directory⟩) :
    (w.deleteUnder directory).Agrees := by
  have under : ∀ doc ∈ w.docsUnder directory, doc.IsClient := by
    rintro doc hdoc version rfl
    obtain ⟨v, hv⟩ := Library.directory_of_isUnder (List.mem_filter.1 hdoc).2
    exact client v hv
  exact deleteUnder_induct h fun w h doc hd => h.deleteDocument (under doc hd)

theorem Agrees.registered_iff (h : w.Agrees) {doc : DocId} (client : doc.IsClient) :
    doc.text ∈ w.symbols.units.names ↔ doc.text ∈ w.documents.names := by
  rw [h.units, or_iff_left]
  rintro ⟨library, hl, same⟩
  obtain ⟨version, hv⟩ := h.library_isLibrary hl
  exact client version ((congrArg DocId.mk same).trans hv)

/-- Moving a document of which nothing is known changes nothing that counts here. -/
theorem Agrees.renameDocument_of_none (h : w.Agrees) {old : DocId} (new : DocId)
    (client : old.IsClient) (registered : w.symbols.unit? old = none) :
    (w.renameDocument old new).Agrees := by
  have noUnit : old.text ∉ w.symbols.units.names := Table.get?_eq_none_iff.1 registered
  have noDocument : w.document? old = none :=
    Table.get?_eq_none_iff.2 fun hd => noUnit ((h.registered_iff client).2 hd)
  have documents := documents_renameDocument_of_none noDocument new
  have symbols : (w.renameDocument old new).symbols = w.symbols := by
    show w.symbols.rename old new = _
    rw [SymbolStore.rename, registered]
  have kept : w.symbols.delete old = ⟨w.symbols.units, w.symbols.pending.purge old⟩ := by
    rw [SymbolStore.delete, Table.erase_of_notMem noUnit]
  have cleared := h.entries_clear old
  rw [kept] at cleared
  refine ⟨?_, h.library, ?_, ?_, Filed.renameDocument h.ids old new, ?_, ?_⟩
  · rw [documents]
    exact h.client
  · rw [documents, symbols]
    exact h.units
  · rw [symbols]
    exact h.keyed
  · rw [names_renameDocument_of_none registered, symbols]
    exact cleared
  · rw [names_renameDocument_of_none registered]
    exact NameIndex.counted_clear h.counted old

/-- A unit that moves to a free id keeps its place in both the index and the store. -/
theorem Agrees.entries_rename (h : w.Agrees) {old new : DocId} {u : SourceUnit}
    (registered : w.symbols.unit? old = some u) (free : new.text ∉ w.symbols.units.names) :
    ((w.names.clear old).insertUnit (u.setDoc new)).entries.Perm
      ((w.symbols.rename old new).locations.filter SymbolLocation.hasKey) := by
  have freeLeft : new.text ∉ (w.symbols.units.erase old.text).names :=
    fun hn => free (Table.mem_names_erase.1 hn).1
  have values := Table.values_insert_perm (w.symbols.units.erase old.text) new.text (u.setDoc new)
  rw [Table.erase_of_notMem freeLeft] at values
  rw [SymbolStore.rename_of_unit? registered]
  refine (NameIndex.entries_insertUnit_perm _ _).trans ?_
  refine ((h.entries_clear old).append_left _).trans ?_
  rw [← List.filter_append]
  exact ((values.flatMap_right _).filter _).symm

/-- A registered document moves to an id that is free. -/
theorem Agrees.renameDocument (h : w.Agrees) {old new : DocId} (hold : old.IsClient)
    (hnew : new.IsClient) (free : w.symbols.contains new = false) :
    (w.renameDocument old new).Agrees := by
  cases registered : w.symbols.unit? old with
  | none => exact h.renameDocument_of_none new hold registered
  | some u =>
    have freeUnit : new.text ∉ w.symbols.units.names := by
      rw [← Table.contains_iff, Bool.not_eq_true]
      exact free
    obtain ⟨d, document⟩ := Table.mem_names_iff.1
      ((h.registered_iff hold).1 (Table.mem_names_iff.2 ⟨u, registered⟩))
    have documents := documents_renameDocument_of_some document new
    refine ⟨?_, h.library, ?_, SymbolStore.keyed_rename h.keyed old new, Filed.renameDocument h.ids old new,
      ?_, ?_⟩
    · rw [documents]
      intro name hname
      rcases Table.mem_names_insert.1 hname with rfl | hname
      · exact hnew
      · exact h.client name (Table.mem_names_erase.1 hname).1
    · intro name
      have apart : (∃ doc, w.library? = some doc ∧ name = doc.text) → name ≠ old.text := by
        rintro ⟨library, hl, rfl⟩ same
        obtain ⟨version, hv⟩ := h.library_isLibrary hl
        exact hold version ((congrArg DocId.mk same).symm.trans hv)
      show name ∈ (w.symbols.rename old new).units.names ↔
        name ∈ (w.renameDocument old new).documents.names ∨ ∃ doc, w.library? = some doc ∧ name = doc.text
      rw [documents, SymbolStore.rename_of_unit? registered, Table.mem_names_insert, Table.mem_names_insert,
        Table.mem_names_erase, Table.mem_names_erase, h.units]
      grind
    · rw [names_renameDocument registered]
      exact h.entries_rename registered freeUnit
    · rw [names_renameDocument registered]
      exact NameIndex.counted_insertUnit (NameIndex.counted_clear h.counted old) _

/-- The library is forgotten, and with it the version that it was loaded for. -/
theorem Agrees.dropLibrary (h : w.Agrees) :
    Agrees { w.dropLibrary with version? := none, library? := none } := by
  rw [Workspace.dropLibrary]
  cases library : w.library? with
  | none =>
    refine ⟨h.client, rfl, ?_, h.keyed, h.ids, h.entries, h.counted⟩
    have units := h.units
    rw [library] at units
    exact units
  | some doc =>
    obtain ⟨version, hv⟩ := h.library_isLibrary library
    refine ⟨h.client, rfl, ?_, SymbolStore.keyed_delete h.keyed doc, h.ids, h.entries_clear doc,
      NameIndex.counted_clear h.counted doc⟩
    intro name
    show name ∈ (w.symbols.units.erase doc.text).names ↔ name ∈ w.documents.names ∨ _
    rw [Table.mem_names_erase, h.units, library]
    constructor
    · rintro ⟨hd | ⟨other, ho, rfl⟩, ne⟩
      · exact .inl hd
      · cases ho
        exact absurd rfl ne
    · rintro (hd | ⟨other, ho, -⟩)
      · refine ⟨.inl hd, ?_⟩
        rintro rfl
        exact h.client doc.text hd version hv
      · cases ho

/-- A library comes into a workspace that has none. -/
theorem Agrees.addLibrary (h : w.Agrees) (none : w.library? = none) {u : SourceUnit} {version : String}
    (doc : u.doc = Library.docOf version) (p : Pending) :
    Agrees { w with
      names := w.names.insertUnit u
      symbols := w.symbols.register u p
      version? := some version
      library? := some (Library.docOf version) } := by
  have free : u.doc.text ∉ w.symbols.units.names := by
    rw [h.units, none, doc]
    rintro (hd | ⟨other, ho, -⟩)
    · exact h.client _ hd version rfl
    · cases ho
  have absent : w.symbols.delete u.doc = ⟨w.symbols.units, w.symbols.pending.purge u.doc⟩ := by
    rw [SymbolStore.delete, Table.erase_of_notMem free]
  refine ⟨h.client, rfl, ?_, SymbolStore.keyed_register h.keyed u p, h.ids, ?_,
    NameIndex.counted_insertUnit h.counted u⟩
  · intro name
    show name ∈ (w.symbols.register u p).units.names ↔ _ ∨ _
    rw [SymbolStore.names_register, Table.mem_names_insert, h.units, none, doc]
    grind
  · refine entries_insertUnit p ?_
    rw [absent]
    exact h.entries

theorem Agrees.setVersion (h : w.Agrees) (files : FileTree) (version : String)
    (root? cache? : Option String) : (w.setVersion files version root? cache?).1.Agrees := by
  have doc := Library.doc_load files version root? cache?
  have added := h.dropLibrary.addLibrary rfl doc (Library.load files version root? cache?).pending
  rw [Workspace.setVersion]
  dsimp only
  rw [doc]
  exact added

end Steps

/-! ## All runs -/

/-- The actions of an editor: ids and directories are its own, and a document is renamed to an id
that is free. -/
def EditorAction (w : Workspace) : Action → Prop
  | .openDocument doc _ _ | .indexDocument doc _ | .deleteDocument doc => doc.IsClient
  | .changeDocument _ _ _ | .refresh _ | .closeDocument _ | .setVersion _ _ _ _ | .setReports _ => True
  | .deleteUnder directory => DocId.IsClient ⟨directory⟩
  | .renameDocument old new => old.IsClient ∧ new.IsClient ∧ w.symbols.contains new = false
  | .loadFiles _ paths => ∀ path ∈ paths, (DocId.ofPath path).IsClient
  | .renameUnder _ _ => False

theorem Agrees.act {w : Workspace} (h : w.Agrees) {a : Action} (allowed : EditorAction w a) :
    (w.act a).Agrees := by
  cases a with
  | openDocument doc text version => exact h.openDocument allowed text version
  | indexDocument doc text => exact h.indexDocument allowed text
  | changeDocument doc edits version => exact h.changeDocument doc edits version
  | refresh doc => exact h.refresh doc
  | closeDocument doc => exact h.closeDocument doc
  | deleteDocument doc => exact h.deleteDocument allowed
  | deleteUnder directory => exact h.deleteUnder allowed
  | renameDocument old new => exact h.renameDocument allowed.1 allowed.2.1 allowed.2.2
  | renameUnder old new => exact absurd allowed id
  | loadFiles files paths =>
    exact loadFiles_induct h fun w hw path hp text => hw.indexDocument (allowed path hp) text
  | setVersion files version root? cache? => exact h.setVersion files version root? cache?
  | setReports reports => exact ⟨h.client, h.library, h.units, h.keyed, h.ids, h.entries, h.counted⟩

/-- After every run of an editor the stores agree. -/
theorem agrees_of_reachable {w : Workspace} (h : Reachable EditorAction w) : w.Agrees :=
  h.induct agrees_empty fun _ _ hw allowed => hw.act allowed

set_option maxRecDepth 100000 in
/-- A struct of one document is hoisted into another one, the document is renamed, and the library
is loaded twice. -/
theorem agrees_after_rename :
    (run [.setVersion .empty "0.6" none none,
      .openDocument ⟨"file:///lib/a.c3"⟩ "module x;\nstruct Foo { int i; }\nfn void f() \x7b\x7d" 1,
      .openDocument ⟨"file:///b.c3"⟩ "module y;\nimport x;\nstruct Bar { inline Foo foo; }" 1,
      .renameDocument ⟨"file:///lib/a.c3"⟩ ⟨"file:///lib/c.c3"⟩,
      .setVersion .empty "0.7" none none,
      .deleteUnder "file:///lib"]).Agrees := by
  have client : ∀ text : String, "file:".toList <+: text.toList → DocId.IsClient ⟨text⟩ :=
    fun _ => DocId.isClient_of_prefix
  have started : Reachable EditorAction (empty.act (.setVersion .empty "0.6" none none)) :=
    Reachable.empty.act trivial
  have opened := started.act (a := .openDocument ⟨"file:///lib/a.c3"⟩
    "module x;\nstruct Foo { int i; }\nfn void f() \x7b\x7d" 1) (client _ (by decide))
  have both := opened.act (a := .openDocument ⟨"file:///b.c3"⟩
    "module y;\nimport x;\nstruct Bar { inline Foo foo; }" 1) (client _ (by decide))
  have renamed := both.act (a := .renameDocument ⟨"file:///lib/a.c3"⟩ ⟨"file:///lib/c.c3"⟩)
    ⟨client _ (by decide), client _ (by decide), by decide +kernel⟩
  have reloaded := renamed.act (a := .setVersion .empty "0.7" none none) trivial
  exact agrees_of_reachable (reloaded.act (a := .deleteUnder "file:///lib") (client _ (by decide)))

end Workspace

end C3Lens
