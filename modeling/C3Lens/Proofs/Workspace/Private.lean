import C3Lens.Proofs.Lookup.Private
import C3Lens.Proofs.NameIndex
import C3Lens.Proofs.Outline.Paths
import C3Lens.Proofs.Workspace.Documents
import C3Lens.Proofs.Workspace.Rename
import C3Lens.Proofs.Workspace.Sources

/-!
# A workspace without the contents of a private module

`Veils k hidden w v` says that the workspace `v` is the workspace `w` with nothing in the private module of the
key. Reading documents keeps it (`Veils.take`), as long as they stay out of the module, and each place where the
module is not visible is the same viewpoint on both sides (`Veils.viewpoint`).
-/

namespace C3Lens

/-! ## The index -/

/-- What is declared in a private module has no locations. -/
theorem SourceUnit.locations_veil {k : ModuleKey} {u : SourceUnit}
    (hides : u.doc = k.doc → ∀ m, u.module? k.name = some m → m.isPrivate = true) :
    (u.veil k).locations = u.locations := by
  rw [veil]
  split
  next own =>
    rw [locations_eq, locations_eq]
    show (((u.modules.entries.map _).map Prod.snd).flatMap _) = ((u.modules.entries.map Prod.snd).flatMap _)
    rw [List.map_map, List.flatMap_map, List.flatMap_map]
    refine List.flatMap_congr fun e he => ?_
    show NameIndex.entriesOf u.doc (if e.1 = k.name then e.2.veil else e.2) = NameIndex.entriesOf u.doc e.2
    split
    next here =>
      have isPrivate := hides own e.2 (here ▸ Table.mem_entries_iff.1 he)
      rw [NameIndex.entriesOf, Module.veil_isPrivate, NameIndex.entriesOf, if_pos isPrivate, if_pos isPrivate]
    next => rfl
  next => rfl

namespace NameIndex

/-- The index has no entry for what the module declares. -/
def Spares (index : NameIndex) (k : ModuleKey) : Prop :=
  ∀ l ∈ index.entries, l.unit = k.doc → l.modulePath.text ≠ k.name

theorem spares_empty (k : ModuleKey) : empty.Spares k := by
  intro l hl
  simp [entries, empty] at hl

variable {index : NameIndex} {k : ModuleKey} {u : SourceUnit}

theorem Spares.reindex (h : index.Spares k) (onPath : u.OnPath)
    (hides : u.doc = k.doc → ∀ m, u.module? k.name = some m → m.isPrivate = true) :
    ((index.clear u.doc).insertUnit u).Spares k := by
  intro l hl own named
  rcases mem_entries_insertUnit.1 hl with ⟨new, -⟩ | old
  · rw [SourceUnit.locations_eq] at new
    obtain ⟨m, hm, entry⟩ := List.mem_flatMap.1 new
    obtain ⟨name, found⟩ := Table.mem_values_iff.1 hm
    have path := (onPath name m found).of_mem_entriesOf entry
    have doc : u.doc = k.doc := by
      rw [← own]
      exact (SourceUnit.unit_of_mem_locations ((SourceUnit.locations_eq u).symm ▸ new)).symm
    have isPrivate := hides doc m (by rw [← named, path]; exact found)
    rw [entriesOf, if_pos isPrivate] at entry
    exact absurd entry List.not_mem_nil
  · exact h l (mem_entries_clear.1 old).1 own named

theorem insertUnit_veil (hides : u.doc = k.doc → ∀ m, u.module? k.name = some m → m.isPrivate = true) :
    index.insertUnit (u.veil k) = index.insertUnit u := by
  rw [insertUnit_eq_foldl, insertUnit_eq_foldl, SourceUnit.locations_veil hides]

/-- Searches find entries. -/
theorem mem_entries_of_mem_search (distinct : index.trie.Distinct) (keyed : index.Keyed) {query : String}
    {l : SymbolLocation} (h : l ∈ index.search query) : l ∈ index.entries := by
  by_cases exactly : ∃ path, NameQuery.parse query = .exact path
  · obtain ⟨path, asked⟩ := exactly
    rw [search_of_exact asked] at h
    exact Trie.mem_all_of_mem_valuesAt h
  · rw [search_eq_filter distinct keyed (not_exists.1 exactly)] at h
    exact List.mem_of_mem_filter h

end NameIndex

namespace Workspace

/-! ## Reading a document -/

/-- Registers what a document declares. -/
def take (w : Workspace) (u : SourceUnit) (p : Pending) : Workspace :=
  { w with names := (w.names.clear u.doc).insertUnit u, symbols := w.symbols.register u p }

/-- The workspace `v` is `w` with nothing in the private module of the key, and it may have another text of its
document. Nothing else leads into the module. -/
structure Veils (k : ModuleKey) (hidden : Module) (w v : Workspace) : Prop where
  documents : ∀ doc, doc ≠ k.doc → v.document? doc = w.document? doc
  names : v.names = w.names
  spares : w.names.Spares k
  symbols : SymbolStore.Shadows k w.symbols v.symbols
  guarded : SymbolStore.Guarded k hidden w.symbols
  tidy : w.symbols.pending.Tidy
  tidy' : v.symbols.pending.Tidy
  keyed : w.symbols.Keyed
  avoids : v.symbols.Every fun m => hidden.avoids m = true

section Steps

variable {k : ModuleKey} {hidden : Module} {w v : Workspace}

theorem veils_empty (k : ModuleKey) (hidden : Module) : Veils k hidden empty empty where
  documents _ _ := rfl
  names := rfl
  spares := NameIndex.spares_empty k
  symbols := ⟨rfl, fun _ => rfl, rfl⟩
  guarded := ⟨fun m found => (by cases found), fun _ t ht => absurd ht List.not_mem_nil,
    fun i hi => absurd hi List.not_mem_nil⟩
  tidy := Pending.tidy_empty
  tidy' := Pending.tidy_empty
  keyed := fun _ _ found => by cases found
  avoids := SymbolStore.every_empty

theorem Veils.setDocument (h : Veils k hidden w v) (d : Document) :
    Veils k hidden (w.setDocument d) (v.setDocument d) := by
  refine { h with documents := fun doc other => ?_ }
  rw [document?_setDocument, h.documents doc other, document?_setDocument]

theorem Veils.setOwn (h : Veils k hidden w v) {d : Document} (own : d.id = k.doc) :
    Veils k hidden (w.setDocument d) v := by
  refine { h with documents := fun doc other => ?_ }
  rw [h.documents doc other, document?_setDocument, if_neg fun same => other (same.trans own)]

/-- **What is registered outside of the module is registered on both sides.** -/
theorem Veils.take (h : Veils k hidden w v) {u : SourceUnit} {p q : Pending} (onPath : u.OnPath) (tidy : p.Tidy)
    (own : p.BelongsTo u.doc) (omits : p.Omits k q) (out : u.StaysOut k hidden p)
    (declared : u.doc = k.doc → ∀ m, u.module? k.name = some m → m.skeleton = hidden.skeleton)
    (isPrivate : hidden.isPrivate = true) : Veils k hidden (w.take u p) (v.take (u.veil k) q) where
  documents := h.documents
  names := by
    show (v.names.clear (u.veil k).doc).insertUnit (u.veil k) = (w.names.clear u.doc).insertUnit u
    rw [u.doc_veil, h.names, NameIndex.insertUnit_veil]
    exact fun here m found => (Module.isPrivate_of_skeleton (declared here m found)).trans isPrivate
  spares := h.spares.reindex onPath fun here m found =>
    (Module.isPrivate_of_skeleton (declared here m found)).trans isPrivate
  symbols := h.symbols.register h.guarded h.tidy h.tidy' tidy own omits out declared
  guarded := (h.guarded.placed tidy own out declared).settle (SymbolStore.tidy_placed h.tidy u p)
  tidy := SymbolStore.tidy_settle _
  tidy' := SymbolStore.tidy_settle _
  keyed := SymbolStore.keyed_register h.keyed u p
  avoids := h.avoids.register (Module.stable_avoids hidden) out.declarations q

/-- A document of another id is read on both sides. -/
theorem Veils.read (h : Veils k hidden w v) {d : Document} (other : d.id ≠ k.doc)
    (out : (unitOf d.id.text d.text).StaysOut k hidden (pendingOf d.id.text d.text))
    (isPrivate : hidden.isPrivate = true) :
    Veils k hidden ((w.setDocument d).take (unitOf d.id.text d.text) (pendingOf d.id.text d.text))
      ((v.setDocument d).take (unitOf d.id.text d.text) (pendingOf d.id.text d.text)) := by
  have doc : (unitOf d.id.text d.text).doc = d.id := doc_unitOf d.id.text d.text
  have ne : (unitOf d.id.text d.text).doc ≠ k.doc := by rwa [doc]
  have same : (unitOf d.id.text d.text).veil k = unitOf d.id.text d.text := if_neg ne
  have belongs := pendingOf_belongsTo d.id.text d.text
  have omits : (pendingOf d.id.text d.text).Omits k (pendingOf d.id.text d.text) :=
    .of_belongsTo (tidy_pendingOf d.id.text d.text) belongs ne
  have onPath : (unitOf d.id.text d.text).OnPath := onPath_outline _ _ _
  have taken := (h.setDocument d).take onPath (tidy_pendingOf d.id.text d.text) belongs omits out
    (fun here => absurd here ne) isPrivate
  rwa [same] at taken

end Steps

end Workspace

/-! ## Actions that register documents -/

/-- The document that an action registers. -/
def Action.document? : Action → Option Document
  | .openDocument doc text version => some { Document.ofText doc text version with ownedByEditor := true }
  | .indexDocument doc text => some (Document.ofText doc text 0)
  | _ => none

namespace Workspace

variable {k : ModuleKey} {hidden : Module} {w v : Workspace} {a : Action} {d : Document}

/-- A document that is put in its place and read is registered. -/
theorem refresh_eq_take (w : Workspace) (d : Document) (parse : d.parse = Parse.ofString d.text)
    (lines : d.lines = LineTable.ofString d.text) :
    (w.setDocument d).refresh d.id =
      (w.setDocument d).take (unitOf d.id.text d.text) (pendingOf d.id.text d.text) := by
  rw [refresh_setDocument, take, doc_unitOf, parse, lines]
  rfl

/-- Registering a document reads it, except that a file does not replace what the editor has open. -/
theorem act_of_document? (registers : a.document? = some d) :
    w.isOpen d.id = true ∧ (∀ v : Workspace, v.isOpen d.id = true → v.act a = v) ∨
      ∀ v : Workspace, v.isOpen d.id = w.isOpen d.id →
        v.act a = (v.setDocument d).take (unitOf d.id.text d.text) (pendingOf d.id.text d.text) := by
  cases a with
  | openDocument doc text version =>
    cases registers
    exact .inr fun v _ => refresh_eq_take v _ rfl rfl
  | indexDocument doc text =>
    cases registers
    cases isOpen : w.isOpen doc with
    | true => exact .inl ⟨isOpen, fun v hv => if_pos hv⟩
    | false =>
      refine .inr fun v hv => ?_
      have closed : v.isOpen doc = false := hv.trans isOpen
      rw [act, indexDocument, if_neg (Bool.eq_false_iff.1 closed)]
      exact refresh_eq_take v (Document.ofText doc text 0) rfl rfl
  | _ => cases registers

theorem Veils.act (h : Veils k hidden w v) (registers : a.document? = some d) (other : d.id ≠ k.doc)
    (out : (unitOf d.id.text d.text).StaysOut k hidden (pendingOf d.id.text d.text))
    (isPrivate : hidden.isPrivate = true) : Veils k hidden (w.act a) (v.act a) := by
  have isOpen := isOpen_congr (h.documents d.id other)
  rcases act_of_document? (w := w) registers with ⟨held, kept⟩ | reads
  · rw [kept w held, kept v (isOpen.trans held)]
    exact h
  · rw [reads w rfl, reads v isOpen]
    exact h.read other out isPrivate

/-- The document of the module is read on one side, and without the module on the other one. -/
theorem Veils.own (h : Veils k hidden w v) (registers : a.document? = some d) (own : d.id = k.doc)
    (closed : w.isOpen k.doc = false) {q : Pending} (omits : (pendingOf k.doc.text d.text).Omits k q)
    (out : (unitOf k.doc.text d.text).StaysOut k hidden (pendingOf k.doc.text d.text))
    (declares : (unitOf k.doc.text d.text).module? k.name = some hidden) (isPrivate : hidden.isPrivate = true) :
    Veils k hidden (w.act a) (v.take ((unitOf k.doc.text d.text).veil k) q) := by
  have onPath : (unitOf k.doc.text d.text).OnPath := onPath_outline _ _ _
  have taken := (h.setOwn own).take onPath (tidy_pendingOf k.doc.text d.text) (pendingOf_belongsTo k.doc.text d.text)
    omits out (fun _ m found => by rw [Option.some.inj (found.symm.trans declares)]) isPrivate
  rcases act_of_document? (w := w) registers with ⟨isOpen, -⟩ | reads
  · rw [own, closed] at isOpen
    cases isOpen
  · rw [reads w rfl, own]
    exact taken

end Workspace

/-! ## Runs -/

/-- What the document of the action declares does not lead into the module, nor does what waits there. -/
def Action.StaysOut (k : ModuleKey) (hidden : Module) (a : Action) : Prop :=
  ∀ d ∈ a.document?, (Workspace.unitOf d.id.text d.text).StaysOut k hidden (Workspace.pendingOf d.id.text d.text)

namespace Workspace

variable {k : ModuleKey} {hidden : Module} {w v : Workspace} {a : Action}

/-- The action registers a document of another id than that of the module. -/
def Elsewhere (k : ModuleKey) (a : Action) : Prop :=
  ∃ d, a.document? = some d ∧ d.id ≠ k.doc

theorem Veils.foldl_act {actions : List Action} (h : Veils k hidden w v)
    (others : ∀ a ∈ actions, Elsewhere k a) (out : ∀ a ∈ actions, a.StaysOut k hidden)
    (isPrivate : hidden.isPrivate = true) :
    Veils k hidden (actions.foldl Workspace.act w) (actions.foldl Workspace.act v) := by
  induction actions generalizing w v with
  | nil => exact h
  | cons a actions ih =>
    rw [List.forall_mem_cons] at others out
    obtain ⟨d, registers, other⟩ := others.1
    exact ih (h.act registers other (out.1 d registers) isPrivate) others.2 out.2

theorem isOpen_foldl_act {actions : List Action} (others : ∀ a ∈ actions, Elsewhere k a) (w : Workspace) :
    (actions.foldl act w).isOpen k.doc = w.isOpen k.doc := by
  induction actions generalizing w with
  | nil => rfl
  | cons a actions ih =>
    rw [List.forall_mem_cons] at others
    obtain ⟨d, registers, other⟩ := others.1
    rw [List.foldl_cons, ih others.2]
    rcases act_of_document? (w := w) registers with ⟨held, kept⟩ | reads
    · rw [kept w held]
    · rw [reads w rfl]
      exact isOpen_congr (by
        show (w.setDocument d).document? k.doc = _
        rw [document?_setDocument, if_neg other.symm])

/-- A run of actions that register documents, one of them that of the private module `hidden` with the given
text. Nothing that is registered leads into the module. -/
structure Registers (k : ModuleKey) (hidden : Module) (text : String) (pre : List Action) (a : Action)
    (post : List Action) : Prop where
  others : ∀ b ∈ pre ++ post, Elsewhere k b
  own : ∃ d, a.document? = some d ∧ d.id = k.doc ∧ d.text = text
  declares : (unitOf k.doc.text text).module? k.name = some hidden
  isPrivate : hidden.isPrivate = true
  staysOut : ∀ b ∈ pre ++ a :: post, b.StaysOut k hidden

/-- After the run the workspace is, but for the module, what it is if the document is registered without it. -/
theorem Registers.veils {text : String} {pre post : List Action} (h : Registers k hidden text pre a post)
    {q : Pending} (omits : (pendingOf k.doc.text text).Omits k q) :
    Veils k hidden (run (pre ++ a :: post))
      (post.foldl act ((run pre).take ((unitOf k.doc.text text).veil k) q)) := by
  obtain ⟨d, registers, own, rfl⟩ := h.own
  have others := List.forall_mem_append.1 h.others
  have out := List.forall_mem_append.1 h.staysOut
  rw [List.forall_mem_cons] at out
  have before : Veils k hidden (run pre) (run pre) :=
    (veils_empty k hidden).foldl_act others.1 out.1 h.isPrivate
  have read := before.own registers own (isOpen_foldl_act others.1 empty) omits
    (own ▸ out.2.1 d registers) h.declares h.isPrivate
  rw [run, List.foldl_append, List.foldl_cons]
  exact read.foldl_act others.2 out.2.2 h.isPrivate

theorem Registers.named {text : String} {pre post : List Action} (h : Registers k hidden text pre a post) :
    (run (pre ++ a :: post)).Named := by
  have reads : ∀ b : Action, ∀ d, b.document? = some d → b.ReadsNamed := by
    intro b d registers
    cases b with
    | setVersion => cases registers
    | _ => trivial
  refine named_of_reachable (reachable_of_forall fun b hb => ?_)
  obtain ⟨d, registers, -⟩ := h.own
  have others := List.forall_mem_append.1 h.others
  rcases List.mem_append.1 hb with before | here
  · obtain ⟨d, registers, -⟩ := others.1 b before
    exact reads b d registers
  rcases List.mem_cons.1 here with rfl | after
  · exact reads b d registers
  · obtain ⟨d, registers, -⟩ := others.2 b after
    exact reads b d registers

/-- Two texts of a document that differ at most in what the module of the key contains. -/
structure SameOutside (k : ModuleKey) (text₁ text₂ : String) : Prop where
  unit : (unitOf k.doc.text text₁).veil k = (unitOf k.doc.text text₂).veil k
  types : (pendingOf k.doc.text text₁).types.filter (·.key != k) =
    (pendingOf k.doc.text text₂).types.filter (·.key != k)
  inlines : (pendingOf k.doc.text text₁).inlines.filter (·.key != k) =
    (pendingOf k.doc.text text₂).inlines.filter (·.key != k)

theorem SameOutside.refl (k : ModuleKey) (text : String) : SameOutside k text text :=
  ⟨rfl, rfl, rfl⟩

/-- Where the document has no other module, it is enough to compare the headings. -/
theorem SameOutside.of_only {text₁ text₂ : String}
    (only₁ : (unitOf k.doc.text text₁).modules.names = [k.name])
    (only₂ : (unitOf k.doc.text text₂).modules.names = [k.name])
    (headings : ((unitOf k.doc.text text₁).module? k.name).map Module.heading =
      ((unitOf k.doc.text text₂).module? k.name).map Module.heading)
    (types : (pendingOf k.doc.text text₁).types.filter (·.key != k) =
      (pendingOf k.doc.text text₂).types.filter (·.key != k))
    (inlines : (pendingOf k.doc.text text₁).inlines.filter (·.key != k) =
      (pendingOf k.doc.text text₂).inlines.filter (·.key != k)) : SameOutside k text₁ text₂ := by
  refine ⟨?_, types, inlines⟩
  rw [SourceUnit.veil, if_pos (doc_unitOf _ _), SourceUnit.veil, if_pos (doc_unitOf _ _), SourceUnit.modify,
    SourceUnit.modify, doc_unitOf, doc_unitOf]
  congr 1
  refine Table.ext_get? ?_ fun name => ?_
  · rw [Table.names_modify, only₁, Table.names_modify, only₂]
  rw [Table.get?_modify, Table.get?_modify]
  split
  next here =>
    subst here
    have veiled := congrArg (Option.map fun h : Declaration × Bool =>
      ({ toDeclaration := h.1, isPrivate := h.2 } : Module)) headings
    rw [Option.map_map, Option.map_map] at veiled
    exact veiled
  next other =>
    have absent : ∀ text, (unitOf k.doc.text text).modules.names = [k.name] →
        (unitOf k.doc.text text).modules.get? name = none := fun text only =>
      Table.get?_eq_none_iff.2 (by rw [only, List.mem_singleton]; exact other)
    rw [absent text₁ only₁, absent text₂ only₂]

/-- Registering one text or the other leaves the same workspace but for the module. -/
theorem SameOutside.omits {text₁ text₂ : String} (h : SameOutside k text₁ text₂) :
    (pendingOf k.doc.text text₂).Omits k ((pendingOf k.doc.text text₁).without k) :=
  Pending.omits_without (tidy_pendingOf _ _) (tidy_pendingOf _ _) h.types h.inlines

/-! ## Viewpoints -/

/-- The unit `u'` is `u` with nothing in the module of the key, if it is the unit of its document. -/
structure ShadesUnit (k : ModuleKey) (hidden : Module) (u u' : SourceUnit) : Prop where
  doc : u'.doc = u.doc
  same : u.doc ≠ k.doc → u' = u
  modules : List.Forall₂ (Module.Shades hidden) u.modules.values u'.modules.values

theorem Veils.unit? (h : Veils k hidden w v) {doc : DocId} (other : doc ≠ k.doc) :
    v.symbols.unit? doc = w.symbols.unit? doc := by
  rw [SymbolStore.unit?, h.symbols.units]
  show (w.symbols.units.modify k.doc.text _).get? doc.text = _
  rw [Table.get?_modify, if_neg fun same => other (DocId.text_inj.1 same)]
  rfl

theorem Veils.units (h : Veils k hidden w v) :
    List.Forall₂ (ShadesUnit k hidden) w.symbols.units.values v.symbols.units.values := by
  rw [h.symbols.units]
  show List.Forall₂ _ (w.symbols.units.entries.map Prod.snd) ((w.symbols.units.entries.map _).map Prod.snd)
  rw [List.map_map, List.forall₂_map_left_iff, List.forall₂_map_right_iff, List.forall₂_same]
  intro e he
  have found := Table.mem_entries_iff.1 he
  have doc := h.keyed e.1 e.2 found
  show ShadesUnit k hidden e.2 (if e.1 = k.doc.text then e.2.modify k.name Module.veil else e.2)
  split
  next here =>
    have own : e.2.doc = k.doc := DocId.text_inj.1 (doc.trans here)
    refine ⟨rfl, fun other => absurd own other, ?_⟩
    show List.Forall₂ _ (e.2.modules.entries.map Prod.snd) ((e.2.modules.entries.map _).map Prod.snd)
    rw [List.map_map, List.forall₂_map_left_iff, List.forall₂_map_right_iff, List.forall₂_same]
    intro x hx
    show Module.Shades hidden x.2 (if x.1 = k.name then x.2.veil else x.2)
    split
    next name =>
      refine .inr ⟨h.guarded.hides x.2 ?_, rfl⟩
      have unit : w.symbols.unit? k.doc = some e.2 := by
        rw [SymbolStore.unit?, ← here]
        exact found
      rw [SymbolStore.moduleOf?, unit]
      exact name ▸ Table.mem_entries_iff.1 hx
    next => exact .inl rfl
  next other =>
    refine ⟨rfl, fun _ => rfl, ?_⟩
    rw [List.forall₂_same]
    exact fun m _ => .inl rfl

/-- Modules among which the private one is not. -/
theorem Veils.modulesWhere (h : Veils k hidden w v) (nearness : Nearness) {p : DocId → Module → Bool}
    (out : ∀ m : Module, m.modulePath = hidden.modulePath → m.isPrivate = hidden.isPrivate → p k.doc m = false) :
    v.modulesWhere nearness p = w.modulesWhere nearness p := by
  rw [Workspace.modulesWhere, Workspace.modulesWhere]
  have units := h.units
  generalize w.symbols.units.values = us at units
  generalize v.symbols.units.values = us' at units
  induction units with
  | nil => rfl
  | @cons u u' us us' shades _ ih =>
    rw [List.flatMap_cons, List.flatMap_cons, ih]
    -- Only the unit of the document differs, in a module that is not chosen.
    by_cases own : u.doc = k.doc
    · have path : ∀ m : Module, m.skeleton = hidden.skeleton → p k.doc m = false := fun m same =>
        out m (Module.modulePath_of_skeleton same) (Module.isPrivate_of_skeleton same)
      have veiled : ∀ m : Module, m.skeleton = hidden.skeleton → p k.doc m.veil = false := fun m same =>
        out m.veil (Module.modulePath_of_skeleton (m := m) same) (Module.isPrivate_of_skeleton (m := m) same)
      rw [shades.doc, own, filter_shades shades.modules path veiled]
    · rw [shades.same own]

section Viewpoints

variable {doc : DocId} {p : Position} (h : Veils k hidden w v) (elsewhere : doc ≠ k.doc)

include h elsewhere

theorem Veils.moduleAt? : v.moduleAt? doc p = w.moduleAt? doc p := by
  rw [Workspace.moduleAt?, h.unit? elsewhere, Workspace.moduleAt?]

theorem Veils.cursor : v.cursor doc p = w.cursor doc p := by
  rw [Workspace.cursor, h.moduleAt? elsewhere, Workspace.cursor]

theorem Veils.word? : v.word? doc p = w.word? doc p := by
  rw [Workspace.word?, h.documents doc elsewhere, h.moduleAt? elsewhere, Workspace.word?]

theorem Veils.declaredAt? : v.declaredAt? doc p = w.declaredAt? doc p := by
  rw [Workspace.declaredAt?, h.moduleAt? elsewhere, Workspace.declaredAt?]

variable (isPrivate : hidden.isPrivate = true) (outside : (w.cursor doc p).modulePath ≠ hidden.modulePath)

include isPrivate outside

/-- The private module is not visible outside of its document. -/
theorem Veils.visibleModules : v.visibleModules (w.cursor doc p) = w.visibleModules (w.cursor doc p) := by
  -- Each of the four choices leaves the module out: by its document, by its path, and twice as private.
  have own : (k.doc == (w.cursor doc p).doc) = false := beq_eq_false_iff_ne.2 elsewhere.symm
  have document : v.modulesOfDocument (w.cursor doc p) = w.modulesOfDocument (w.cursor doc p) := by
    rw [modulesOfDocument, h.modulesWhere .document fun _ _ _ => own, modulesOfDocument]
  have closed : ∀ m : Module, m.isPrivate = hidden.isPrivate → isOpenTo (w.cursor doc p) k.doc m = false := by
    intro m same
    rw [isOpenTo, same, isPrivate, own]
    rfl
  have imports : v.importsOf (w.cursor doc p) = w.importsOf (w.cursor doc p) := by
    have unit : v.symbols.unit? (w.cursor doc p).doc = w.symbols.unit? (w.cursor doc p).doc := h.unit? elsewhere
    rw [importsOf, unit, importsOf]
  rw [Workspace.visibleModules, document, imports, Workspace.visibleModules]
  have sameModule := h.modulesWhere .sameModule
    (p := fun unit m => unit != (w.cursor doc p).doc && m.modulePath == (w.cursor doc p).modulePath)
    fun m path _ => by rw [path, beq_eq_false_iff_ne.2 outside.symm, Bool.and_false]
  have related := h.modulesWhere .elsewhere
    (p := fun unit m => m.modulePath.isRelative (w.cursor doc p).modulePath && isOpenTo (w.cursor doc p) unit m)
    fun m _ same => by rw [closed m same, Bool.and_false]
  have imported : ∀ path, v.modulesWhere .elsewhere
        (fun unit m => isImported path m && isOpenTo (w.cursor doc p) unit m) =
      w.modulesWhere .elsewhere fun unit m => isImported path m && isOpenTo (w.cursor doc p) unit m :=
    fun path => h.modulesWhere .elsewhere fun m _ same => by rw [closed m same, Bool.and_false]
  rw [sameModule, related]
  simp only [imported]

/-- Elsewhere the workspace is seen as if the module were empty. -/
theorem Veils.viewpoint (distinct : w.names.trie.Distinct) (keyed : w.names.Keyed) :
    (w.viewpoint doc p).Veils hidden (v.viewpoint doc p) := by
  have visible : v.visibleModules (v.cursor doc p) = w.visibleModules (w.cursor doc p) := by
    rw [h.cursor elsewhere, h.visibleModules elsewhere isPrivate outside]
  refine ⟨h.cursor elsewhere, visible, h.names, h.guarded.hides.modules h.symbols.units, fun query l hl => ?_,
    h.avoids, fun m hm => ?_⟩
  -- Entries of the index stand under the key of another module, which both workspaces have.
  · have spared := h.spares l (NameIndex.mem_entries_of_mem_search distinct keyed hl)
    have ne : (⟨l.unit, l.modulePath.text⟩ : ModuleKey) ≠ k := fun same => by
      subst same
      exact spared rfl rfl
    have module : v.symbols.moduleOf? ⟨l.unit, l.modulePath.text⟩ =
        w.symbols.moduleOf? ⟨l.unit, l.modulePath.text⟩ :=
      (SymbolStore.moduleOf?_congr h.symbols.units _).trans (SymbolStore.moduleOf?_veil_of_ne ne)
    have leads : ∀ x : Workspace, x.symbolAt? l = (x.symbols.moduleOf? ⟨l.unit, l.modulePath.text⟩).bind fun m =>
        if l.kind == .module then some (.module m) else m.child? l.name := by
      intro x
      rw [symbolAt?, SymbolStore.moduleOf?]
      exact (Option.bind_assoc _ _ _).symm
    show v.symbolAt? l = w.symbolAt? l
    rw [leads v, leads w, module]
  · have seen : m ∈ v.visibleModules (v.cursor doc p) := visible ▸ hm
    exact h.avoids m.content (content_of_mem_visibleModules seen)

end Viewpoints

end Workspace

end C3Lens
