import C3Lens.Proofs.Text.Blank
import C3Lens.Proofs.Workspace.Run

/-!
# Renamed directories

The documents of a directory are renamed one after the other, in the order in which they are registered. Each
one takes its new id from whatever has it at that moment. So a document is lost if another one takes its id
before it is renamed itself, as can happen when a directory is moved below itself (`document_lost`).

Result: to rename a directory is to give all its documents their new ids at once (`Workspace.Relabelled`)
exactly if none of them is given the id of a document that stays or of one that is renamed later
(`Workspace.relabelled_renameUnder_iff`). The new ids are always distinct (`DocId.relabel_inj`).
-/

namespace C3Lens

/-! ## Values that are moved -/

namespace Table

variable {α : Type}

/-- Moves the value of a name to another name, and changes it. -/
def move (f : α → α) (t : Table α) (old new : String) : Table α :=
  match t.get? old with
  | some a => (t.erase old).insert new (f a)
  | none => t

section Move

variable {t : Table α} {f : α → α} {old new key : String}

theorem get?_move_new (h : old ∈ t.names ∨ new ∉ t.names) :
    (t.move f old new).get? new = (t.get? old).map f := by
  rw [move]
  cases found : t.get? old with
  | some a => exact get?_insert_self _ _ _
  | none => exact get?_eq_none_iff.2 (h.resolve_left (get?_eq_none_iff.1 found))

theorem get?_move_old (ne : old ≠ new) : (t.move f old new).get? old = none := by
  rw [move]
  cases found : t.get? old with
  | some a =>
    dsimp only
    rw [get?_insert, if_neg ne, get?_erase_self]
  | none => exact found

theorem get?_move_of_ne (notOld : key ≠ old) (notNew : key ≠ new) :
    (t.move f old new).get? key = t.get? key := by
  rw [move]
  cases t.get? old with
  | some a =>
    dsimp only
    rw [get?_insert, if_neg notNew, get?_erase, if_neg notOld]
  | none => rfl

theorem mem_names_move_of_ne (notOld : key ≠ old) (notNew : key ≠ new) :
    key ∈ (t.move f old new).names ↔ key ∈ t.names := by
  rw [mem_names_iff, get?_move_of_ne notOld notNew, mem_names_iff]

theorem move_of_notMem (unknown : old ∉ t.names) : t.move f old new = t := by
  rw [move, get?_eq_none_iff.2 unknown]

theorem size_erase {name : String} (known : name ∈ t.names) : (t.erase name).size + 1 = t.size := by
  obtain ⟨a, found⟩ := mem_names_iff.1 known
  exact (entries_perm_of_get? found).length_eq.symm

theorem size_insert (t : Table α) (name : String) (a : α) :
    (t.insert name a).size = if name ∈ t.names then t.size else t.size + 1 := by
  have length : ∀ u : Table α, u.size = u.names.length := fun u => (List.length_map Prod.fst).symm
  rw [length, names_insert, length]
  split
  · rfl
  · rw [List.length_append]
    rfl

/-- A value is lost where the new name has one. -/
theorem size_move (known : old ∈ t.names) :
    (t.move f old new).size = if new ≠ old ∧ new ∈ t.names then t.size - 1 else t.size := by
  obtain ⟨a, found⟩ := mem_names_iff.1 known
  have size := size_erase known
  have taken : new ∈ (t.erase old).names ↔ new ≠ old ∧ new ∈ t.names := by
    rw [mem_names_erase, and_comm]
  rw [move, found]
  dsimp only
  rw [size_insert]
  simp only [taken]
  split <;> omega

theorem size_move_le : (t.move f old new).size ≤ t.size := by
  by_cases known : old ∈ t.names
  · rw [size_move known]
    split <;> omega
  · rw [move_of_notMem known]

end Move

/-- Moves the values of some names, one after the other. -/
def moveAll (f : String → α → α) (r : String → String) (t : Table α) (names : List String) : Table α :=
  names.foldl (fun t name => t.move (f (r name)) name (r name)) t

/-- The new names are distinct, and none of them has a value that stays. -/
structure Movable (r : String → String) (t : Table α) (names : List String) : Prop where
  nodup : names.Nodup
  distinct : names.Pairwise fun name other => r name ≠ r other
  free : ∀ name ∈ names, r name ∈ t.names → r name ∈ names

/-- No value is moved to a name whose value is moved later. -/
def InOrder (r : String → String) (names : List String) : Prop :=
  names.Pairwise fun name later => r name ≠ later

section MoveAll

variable {t : Table α} {f : String → α → α} {r : String → String} {name : String} {names : List String}

theorem Movable.step {g : α → α} (h : Movable r t (name :: names)) : Movable r (t.move g name (r name)) names := by
  obtain ⟨nodup, distinct, free⟩ := h
  obtain ⟨once, nodup⟩ := List.nodup_cons.1 nodup
  obtain ⟨apart, distinct⟩ := List.pairwise_cons.1 distinct
  refine ⟨nodup, distinct, fun other mem taken => ?_⟩
  have notNew : r other ≠ r name := fun same => apart other mem same.symm
  by_cases same : r other = name
  · by_cases known : name ∈ t.names
    · rw [same, ← contains_iff, contains, get?_move_old (fun eq => notNew (same.trans eq))] at taken
      cases taken
    · rw [move_of_notMem known, same] at taken
      exact absurd taken known
  · rw [mem_names_move_of_ne same notNew] at taken
    exact (List.mem_cons.1 (free other (List.mem_cons_of_mem _ mem) taken)).resolve_left same

/-- Values that are moved in order are moved all at once. -/
theorem get?_moveAll (h : Movable r t names) (order : InOrder r names) :
    (∀ name ∈ names, (t.moveAll f r names).get? (r name) = (t.get? name).map (f (r name))) ∧
      ∀ key ∉ names.map r, (t.moveAll f r names).get? key = if key ∈ names then none else t.get? key := by
  induction names generalizing t with
  | nil => exact ⟨fun _ mem => (nomatch mem), fun key _ => (if_neg List.not_mem_nil).symm⟩
  | cons name names ih =>
    obtain ⟨later, order⟩ := List.pairwise_cons.1 order
    have notLater : r name ∉ names := fun mem => later _ mem rfl
    obtain ⟨once, -⟩ := List.nodup_cons.1 h.nodup
    have notAgain : r name ∉ names.map r := by
      intro mem
      obtain ⟨other, mem, same⟩ := List.mem_map.1 mem
      exact (List.pairwise_cons.1 h.distinct).1 other mem same.symm
    obtain ⟨moved, others⟩ := ih (h.step (g := f (r name))) order
    refine ⟨fun other mem => ?_, fun key notNew => ?_⟩
    · rcases List.mem_cons.1 mem with rfl | mem
      · have known : other ∈ t.names ∨ r other ∉ t.names := by
          by_cases taken : r other ∈ t.names
          · have same := (List.mem_cons.1 (h.free other List.mem_cons_self taken)).resolve_right notLater
            exact .inl (same ▸ taken)
          · exact .inr taken
        exact (others _ notAgain).trans ((if_neg notLater).trans (get?_move_new known))
      · have notFirst : other ≠ name := fun same => once (same ▸ mem)
        have unmoved : (t.move (f (r name)) name (r name)).get? other = t.get? other :=
          get?_move_of_ne notFirst (fun same => later _ mem same.symm)
        exact (moved other mem).trans (by rw [unmoved])
    · rw [List.map_cons, List.mem_cons, not_or] at notNew
      have rest : (t.moveAll f r (name :: names)).get? key =
          if key ∈ names then none else (t.move (f (r name)) name (r name)).get? key := others key notNew.2
      rw [rest]
      by_cases here : key = name
      · subst here
        rw [get?_move_old notNew.1, ite_self, if_pos List.mem_cons_self]
      · rw [get?_move_of_ne here notNew.1]
        simp only [List.mem_cons, here, false_or]

theorem size_moveAll (h : Movable r t names) (order : InOrder r names) : (t.moveAll f r names).size = t.size := by
  induction names generalizing t with
  | nil => rfl
  | cons name names ih =>
    obtain ⟨later, order⟩ := List.pairwise_cons.1 order
    have kept : (t.move (f (r name)) name (r name)).size = t.size := by
      by_cases known : name ∈ t.names
      · rw [size_move known]
        refine if_neg fun ⟨other, taken⟩ => ?_
        have mem := (List.mem_cons.1 (h.free name List.mem_cons_self taken)).resolve_left other
        exact later _ mem rfl
      · rw [move_of_notMem known]
    exact (ih (h.step (g := f (r name))) order).trans kept

theorem size_moveAll_le : (t.moveAll f r names).size ≤ t.size := by
  induction names generalizing t with
  | nil => exact Nat.le_refl _
  | cons name names ih => exact (ih (t := t.move (f (r name)) name (r name))).trans size_move_le

/-- A value is lost where one that is moved takes the name of one that stays or of one that is moved later. -/
theorem size_moveAll_lt (nodup : names.Nodup) (known : ∀ name ∈ names, name ∈ t.names)
    (clash : InOrder r names → ∃ name ∈ names, r name ∈ t.names ∧ r name ∉ names) :
    (t.moveAll f r names).size < t.size := by
  induction names generalizing t with
  | nil =>
    obtain ⟨_, mem, -⟩ := clash List.Pairwise.nil
    cases mem
  | cons name names ih =>
    obtain ⟨once, nodup⟩ := List.nodup_cons.1 nodup
    obtain ⟨here, there⟩ := List.forall_mem_cons.1 known
    show (moveAll f r (t.move (f (r name)) name (r name)) names).size < t.size
    by_cases overwritten : r name ≠ name ∧ r name ∈ t.names
    · have positive := size_erase here
      have lost : (t.move (f (r name)) name (r name)).size = t.size - 1 := (size_move here).trans (if_pos overwritten)
      have rest : (moveAll f r (t.move (f (r name)) name (r name)) names).size ≤ _ := size_moveAll_le
      omega
    · have apart : ∀ other ∈ names, other ≠ name ∧ other ≠ r name := by
        refine fun other mem => ⟨fun same => once (same ▸ mem), fun same => overwritten ?_⟩
        rw [← same]
        exact ⟨fun eq => once (eq ▸ mem), there other mem⟩
      refine Nat.lt_of_lt_of_le (ih nodup (fun other mem => ?_) fun order => ?_) size_move_le
      · exact (mem_names_move_of_ne (apart other mem).1 (apart other mem).2).2 (there other mem)
      · -- The name with the value that stays is not among the first two.
        have ordered : InOrder r (name :: names) :=
          List.pairwise_cons.2 ⟨fun later mem same => (apart later mem).2 same.symm, order⟩
        obtain ⟨other, mem, taken, stays⟩ := clash ordered
        rw [List.mem_cons, not_or] at stays
        rcases List.mem_cons.1 mem with rfl | mem
        · exact absurd ⟨stays.1, taken⟩ overwritten
        · refine ⟨other, mem, ?_, stays.2⟩
          by_cases same : r other = r name
          · exact absurd ⟨same ▸ stays.1, same ▸ taken⟩ overwritten
          · exact (mem_names_move_of_ne stays.1 same).2 taken

end MoveAll

end Table

/-! ## New ids -/

/-- The id that a document gets when the directory `old` is renamed to `new`. -/
def DocId.relabel (old new : String) (doc : DocId) : DocId :=
  ⟨Text.trimRight (· == '/') new ++ (Text.afterStart? (Text.trimRight (· == '/') old) doc.text).getD ""⟩

theorem Text.trimRight_trimRight (p : Char → Bool) (s : String) : trimRight p (trimRight p s) = trimRight p s := by
  have same : ∀ s : String, trimRight p s = String.ofList (s.toList.rdropWhile p) := fun _ => rfl
  rw [same (trimRight p s), same s, String.toList_ofList, List.rdropWhile_idempotent]

theorem DocId.isUnder_trimRight (doc : DocId) (directory : String) :
    doc.isUnder (Text.trimRight (· == '/') directory) = doc.isUnder directory := by
  rw [isUnder, Text.trimRight_trimRight, isUnder]

/-- Documents of one directory have different ids after it is renamed. -/
theorem DocId.relabel_inj {old new : String} {doc other : DocId} (h : doc.isUnder old = true)
    (ho : other.isUnder old = true) (same : doc.relabel old new = other.relabel old new) : doc = other := by
  have begins : ∀ d : DocId, d.isUnder old = true →
      ∃ rest, Text.afterStart? (Text.trimRight (· == '/') old) d.text = some rest := by
    intro d under
    rw [isUnder, Bool.or_eq_true, beq_iff_eq] at under
    rcases under with here | below
    · exact ⟨"", Text.afterStart?_eq_some_iff.2 (by rw [here]; exact (List.append_nil _).symm)⟩
    · cases found : Text.afterStart? (Text.trimRight (· == '/') old) d.text with
      | some rest => exact ⟨rest, rfl⟩
      | none =>
        rw [found] at below
        cases below
  obtain ⟨rest, found⟩ := begins doc h
  obtain ⟨rest', found'⟩ := begins other ho
  rw [relabel, relabel, found, found', Option.getD_some, Option.getD_some, DocId.mk.injEq, ← String.toList_inj,
    String.toList_append, String.toList_append, List.append_cancel_left_eq] at same
  refine DocId.text_inj.1 (String.toList_inj.1 ?_)
  rw [Text.afterStart?_eq_some_iff.1 found, Text.afterStart?_eq_some_iff.1 found', same]

namespace Workspace

variable {w : Workspace} {old new : String}

theorem docsUnder_trimRight (w : Workspace) (directory : String) :
    w.docsUnder (Text.trimRight (· == '/') directory) = w.docsUnder directory := by
  rw [docsUnder, docsUnder]
  exact List.filter_congr fun doc _ => doc.isUnder_trimRight directory

/-- Documents are renamed, one after the other. -/
def renameAll (r : DocId → DocId) (w : Workspace) (docs : List DocId) : Workspace :=
  docs.foldl (fun w doc => w.renameDocument doc (r doc)) w

theorem renameUnder_eq (w : Workspace) (old new : String) :
    w.renameUnder old new = w.renameAll (DocId.relabel old new) (w.docsUnder old) := by
  rw [renameUnder, docsUnder_trimRight]
  rfl

theorem documents_renameDocument (w : Workspace) (old new : DocId) :
    (w.renameDocument old new).documents = w.documents.move ({ · with id := new }) old.text new.text := by
  rw [renameDocument, document?, Table.move]
  cases w.documents.get? old.text <;> rfl

theorem units_renameDocument (w : Workspace) (old new : DocId) :
    (w.renameDocument old new).symbols.units = w.symbols.units.move (·.setDoc new) old.text new.text := by
  show (w.symbols.rename old new).units = _
  rw [SymbolStore.rename, SymbolStore.unit?, Table.move]
  cases w.symbols.units.get? old.text <;> rfl

theorem documents_renameAll (r : DocId → DocId) (w : Workspace) (docs : List DocId) :
    (w.renameAll r docs).documents = w.documents.moveAll (fun new d => { d with id := ⟨new⟩ })
      (fun name => (r ⟨name⟩).text) (docs.map DocId.text) := by
  induction docs generalizing w with
  | nil => rfl
  | cons doc docs ih => exact (ih (w.renameDocument doc (r doc))).trans (by rw [documents_renameDocument]; rfl)

theorem units_renameAll (r : DocId → DocId) (w : Workspace) (docs : List DocId) :
    (w.renameAll r docs).symbols.units = w.symbols.units.moveAll (fun new u => u.setDoc ⟨new⟩)
      (fun name => (r ⟨name⟩).text) (docs.map DocId.text) := by
  induction docs generalizing w with
  | nil => rfl
  | cons doc docs ih => exact (ih (w.renameDocument doc (r doc))).trans (by rw [units_renameDocument]; rfl)

/-- The workspace has a document of the id, or symbols of one. -/
def Has (w : Workspace) (doc : DocId) : Prop :=
  doc.text ∈ w.documents.names ∨ doc.text ∈ w.symbols.units.names

/-- The second workspace has the documents of the first one, all of those that are moved under their new ids:
with the text and all else that is known about them, and with their symbols. -/
structure Relabelled (w : Workspace) (r : DocId → DocId) (moved : List DocId) (v : Workspace) : Prop where
  documents : v.documents.size = w.documents.size
  units : v.symbols.units.size = w.symbols.units.size
  document : ∀ doc ∈ moved, v.document? (r doc) = (w.document? doc).map ({ · with id := r doc })
  unit : ∀ doc ∈ moved, v.symbols.unit? (r doc) = (w.symbols.unit? doc).map (·.setDoc (r doc))
  kept : ∀ doc ∉ moved, w.Has doc →
    v.document? doc = w.document? doc ∧ v.symbols.unit? doc = w.symbols.unit? doc
  left : ∀ doc ∈ moved, doc ∉ moved.map r → v.document? doc = none ∧ v.symbols.unit? doc = none

section Relabelled

variable {r : DocId → DocId} {docs : List DocId}

theorem inOrder_iff : Table.InOrder (fun name => (r ⟨name⟩).text) (docs.map DocId.text) ↔
    docs.Pairwise fun doc later => r doc ≠ later := by
  rw [Table.InOrder, List.pairwise_map]
  simp only [ne_eq, DocId.text_inj]

theorem mem_map_text {doc : DocId} : doc.text ∈ docs.map DocId.text ↔ doc ∈ docs :=
  List.mem_map_of_injective fun _ _ => DocId.text_inj.1

theorem mem_map_new {doc : DocId} :
    doc.text ∈ (docs.map DocId.text).map (fun name => (r ⟨name⟩).text) ↔ doc ∈ docs.map r := by
  rw [List.map_map, ← mem_map_text, List.map_map]
  rfl

theorem relabelled_renameAll (nodup : docs.Nodup) (distinct : docs.Pairwise fun doc other => r doc ≠ r other)
    (free : ∀ doc ∈ docs, w.Has (r doc) → r doc ∈ docs) (order : docs.Pairwise fun doc later => r doc ≠ later) :
    w.Relabelled r docs (w.renameAll r docs) := by
  have movable : ∀ {α : Type} (t : Table α), (∀ doc ∈ docs, (r doc).text ∈ t.names → w.Has (r doc)) →
      Table.Movable (fun name => (r ⟨name⟩).text) t (docs.map DocId.text) := by
    intro α t known
    refine ⟨nodup.map fun _ _ => DocId.text_inj.1, ?_, ?_⟩
    · rw [List.pairwise_map]
      simpa only [ne_eq, DocId.text_inj] using distinct
    · rw [List.forall_mem_map]
      exact fun doc mem taken => mem_map_text.2 (free doc mem (known doc mem taken))
  have ordered := inOrder_iff.2 order
  have documents := movable w.documents fun _ _ => .inl
  have units := movable w.symbols.units fun _ _ => .inr
  obtain ⟨movedDocuments, otherDocuments⟩ := Table.get?_moveAll documents ordered
  obtain ⟨movedUnits, otherUnits⟩ := Table.get?_moveAll units ordered
  rw [← documents_renameAll] at movedDocuments otherDocuments
  rw [← units_renameAll] at movedUnits otherUnits
  refine ⟨?_, ?_, ?_, ?_, fun doc stays has => ?_, fun doc moved gone => ?_⟩
  · rw [documents_renameAll, Table.size_moveAll documents ordered]
  · rw [units_renameAll, Table.size_moveAll units ordered]
  · exact fun doc mem => movedDocuments doc.text (List.mem_map_of_mem mem)
  · exact fun doc mem => movedUnits doc.text (List.mem_map_of_mem mem)
  · have notNew : doc ∉ docs.map r := by
      intro new
      obtain ⟨other, mem, rfl⟩ := List.mem_map.1 new
      exact stays (free other mem has)
    have names : doc.text ∉ docs.map DocId.text := fun mem => stays (mem_map_text.1 mem)
    have ids := fun mem => notNew (mem_map_new.1 mem)
    exact ⟨(otherDocuments _ ids).trans (if_neg names), (otherUnits _ ids).trans (if_neg names)⟩
  · have names : doc.text ∈ docs.map DocId.text := mem_map_text.2 moved
    have ids := fun mem => gone (mem_map_new.1 mem)
    exact ⟨(otherDocuments _ ids).trans (if_pos names), (otherUnits _ ids).trans (if_pos names)⟩

/-- Where a document is given the id of one that stays or of one that is renamed later, a unit is lost. -/
theorem Relabelled.order (known : ∀ doc ∈ docs, doc.text ∈ w.symbols.units.names) (nodup : docs.Nodup)
    (h : w.Relabelled r docs (w.renameAll r docs)) :
    (∀ doc ∈ docs, w.Has (r doc) → r doc ∈ docs) ∧ docs.Pairwise fun doc later => r doc ≠ later := by
  have size := h.units
  rw [units_renameAll] at size
  have kept : Table.InOrder (fun name => (r ⟨name⟩).text) (docs.map DocId.text) ∧
      ∀ doc ∈ docs, (r doc).text ∈ w.symbols.units.names → r doc ∈ docs := by
    by_contra clash
    refine absurd size (Nat.ne_of_lt (Table.size_moveAll_lt (nodup.map fun _ _ => DocId.text_inj.1) ?_ ?_))
    · exact List.forall_mem_map.2 known
    · intro order
      by_contra none
      refine clash ⟨order, fun doc mem taken => ?_⟩
      by_contra stays
      exact none ⟨doc.text, List.mem_map_of_mem mem, taken, fun there => stays (mem_map_text.1 there)⟩
  refine ⟨fun doc mem has => ?_, inOrder_iff.1 kept.1⟩
  by_contra stays
  -- What stays has symbols, since symbols come to its id and it is as it was.
  obtain ⟨u, unit⟩ := Table.mem_names_iff.1 (known doc mem)
  have moved := h.unit doc mem
  rw [(h.kept _ stays has).2, show w.symbols.unit? doc = some u from unit, Option.map_some] at moved
  exact stays (kept.2 doc mem (Table.mem_names_iff.2 ⟨_, moved⟩))

end Relabelled

theorem nodup_docsUnder (w : Workspace) (directory : String) : (w.docsUnder directory).Nodup :=
  (w.symbols.units.nodup.map fun _ _ => congrArg DocId.text).filter _

theorem mem_names_of_mem_docsUnder {directory : String} {doc : DocId} (h : doc ∈ w.docsUnder directory) :
    doc.text ∈ w.symbols.units.names := by
  obtain ⟨name, known, rfl⟩ := List.mem_map.1 (List.mem_filter.1 h).1
  exact known

/-- To rename a directory is to give all its documents their new ids at once, exactly if no document is given
the id of one that stays or of one that is renamed later. -/
theorem relabelled_renameUnder_iff (w : Workspace) (old new : String) :
    w.Relabelled (DocId.relabel old new) (w.docsUnder old) (w.renameUnder old new) ↔
      (∀ doc ∈ w.docsUnder old, w.Has (doc.relabel old new) → doc.relabel old new ∈ w.docsUnder old) ∧
        (w.docsUnder old).Pairwise fun doc later => doc.relabel old new ≠ later := by
  have nodup := w.nodup_docsUnder old
  have distinct : (w.docsUnder old).Pairwise fun doc other => doc.relabel old new ≠ other.relabel old new :=
    nodup.imp_of_mem fun h ho different same =>
      different (DocId.relabel_inj (List.mem_filter.1 h).2 (List.mem_filter.1 ho).2 same)
  rw [renameUnder_eq]
  exact ⟨Relabelled.order (fun _ => mem_names_of_mem_docsUnder) nodup,
    fun ⟨free, order⟩ => relabelled_renameAll nodup distinct free order⟩

instance (w : Workspace) (doc : DocId) : Decidable (w.Has doc) :=
  inferInstanceAs (Decidable (_ ∨ _))

/-- A document of a directory and one of the directory below it, with the same file name. -/
def sameFileName : List Action :=
  [.openDocument ⟨"file:///ws/a/f.c3"⟩ "module f;" 1, .openDocument ⟨"file:///ws/a/b/f.c3"⟩ "module g;" 1]

set_option maxRecDepth 100000 in
/-- When the directory is moved below itself, the first document takes the id of the second one, and then the
id that the second one should get. The text of the second one is lost. -/
theorem document_lost :
    let w := run sameFileName
    let v := w.renameUnder "file:///ws/a" "file:///ws/a/b"
    ((w.docsUnder "file:///ws/a").map (DocId.relabel "file:///ws/a" "file:///ws/a/b")).Nodup ∧
      (∀ doc ∈ w.docsUnder "file:///ws/a", w.Has (doc.relabel "file:///ws/a" "file:///ws/a/b") →
        doc.relabel "file:///ws/a" "file:///ws/a/b" ∈ w.docsUnder "file:///ws/a") ∧
      w.documents.size = 2 ∧ v.documents.size = 1 ∧ ¬ v.Has ⟨"file:///ws/a/b/f.c3"⟩ ∧
      (v.document? ⟨"file:///ws/a/b/b/f.c3"⟩).map (·.text) = some "module f;" := by
  decide +kernel

end Workspace

end C3Lens
