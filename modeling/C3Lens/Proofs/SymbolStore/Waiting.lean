import Mathlib.Data.List.Induction
import Mathlib.Logic.Function.Basic
import C3Lens.Proofs.Outline.Unit
import C3Lens.Proofs.SymbolStore.Inheritance

/-!
# Inline members that wait

A store is changed by registering, forgetting and renaming documents. An inline member that was
recorded when its document was read, and asked for then, is not forgotten: it is in the queue until
members came for its type (`waiting_of_recorded`). After a registration the queue holds only what
has no struct to inherit from, or none but one that counts as its own.

What is recorded are the inline members that stand directly in the body of a struct, one entry for
each type. A second member of a type, a member of a body without a name, and a waiting member that
came with the members of another struct have no entry of their own (`copied_without_entry`).
-/

namespace C3Lens

/-- A unit as it was read, with the work that needs other documents. -/
structure ReadUnit where
  unit : SourceUnit
  work : Pending
  own : ∀ i ∈ work.inlines, i.doc = unit.doc

namespace ReadUnit

/-- Reads a document. -/
def ofText (doc : DocId) (text : String) : ReadUnit where
  unit := (outlineOfText doc text).1
  work := (outlineOfText doc text).2
  own := by
    obtain ⟨unit, -, own, -⟩ := outline_sound doc (.ofString text) (Parse.ofString text).tree
    intro i hi
    exact (own.inlines i hi).trans unit.symm

@[simp] theorem doc_ofText (doc : DocId) (text : String) : (ofText doc text).unit.doc = doc :=
  (outline_sound doc (.ofString text) (Parse.ofString text).tree).1

/-- What would have been read under another id. -/
def setDoc (doc : DocId) (r : ReadUnit) : ReadUnit where
  unit := r.unit.setDoc doc
  work := r.work.rename r.unit.doc doc
  own := by
    intro i hi
    obtain ⟨j, hj, rfl⟩ := List.mem_map.1 hi
    rw [Pending.inlines_foldl_addType] at hj
    rw [if_pos (beq_iff_eq.2 (r.own j hj))]
    rfl

end ReadUnit

/-- What is done to a store. -/
inductive Change where
  | register (r : ReadUnit)
  | delete (doc : DocId)
  | rename (old new : DocId)

/-- What was last read under each id, after a change. -/
def Change.readings (known : DocId → Option ReadUnit) : Change → DocId → Option ReadUnit
  | .register r => Function.update known r.unit.doc (some r)
  | .delete doc => Function.update known doc none
  | .rename old new =>
    match known old with
    | none => known
    | some r => Function.update (Function.update known old none) new (some (r.setDoc new))

/-- What was last read under each id, after changes in order. -/
def lastRead (changes : List Change) : DocId → Option ReadUnit :=
  changes.foldl Change.readings fun _ => none

namespace SymbolStore

/-- The store after a change. -/
def change (s : SymbolStore) : Change → SymbolStore
  | .register r => s.register r.unit r.work
  | .delete doc => s.delete doc
  | .rename old new => s.rename old new

/-- The store after changes in order, from the empty one on. -/
def ofChanges (changes : List Change) : SymbolStore :=
  changes.foldl change empty

/-! ## One inline member -/

/-- Members came for the inline member, or it is asked for and in the queue. -/
def Keeps (s : SymbolStore) (i : PendingInline) : Prop :=
  ∃ u, s.unit? i.doc = some u ∧ (u.HasExpanded i ∨ u.Asks i ∧ i ∈ s.pending.inlines)

variable {s : SymbolStore} {i : PendingInline}

/-- A registration expands what it has members for, and keeps the rest in the queue. -/
theorem Keeps.settle {v : SourceUnit} {q : Pending} (h : (s.placed v q).Keeps i) :
    (s.register v q).Keeps i := by
  obtain ⟨w, unit, kept⟩ := h
  obtain ⟨modules, hoists, after, keys, -⟩ := unit?_register_expands s v q i.doc
  rw [unit, Option.map_some] at after
  refine ⟨_, after, ?_⟩
  rcases kept with expanded | ⟨asks, queued⟩
  · exact .inl ((expanded.mapModules modules).hoistAll hoists)
  · have asked := (SourceUnit.asks_mapModules modules).2 asks
    cases found : (s.register v q).inlinedMembers? i with
    | some members =>
      have made : i ∈ hoists.map Prod.fst := by
        rw [keys, List.mem_filter, found, beq_self_eq_true]
        exact ⟨queued, rfl⟩
      obtain ⟨h, hh, rfl⟩ := List.mem_map.1 made
      exact .inl (asked.hasExpanded_hoistAll ⟨h, hh, rfl, rfl, rfl⟩)
    | none =>
      refine .inr ⟨asked.hoistAll fun h hh same => ?_, waits_register queued found unit asks⟩
      have mem : h.1 ∈ hoists.map Prod.fst := List.mem_map_of_mem hh
      rw [keys, List.mem_filter, Bool.and_eq_true, beq_iff_eq] at mem
      obtain ⟨-, doc, known⟩ := mem
      rw [← same.eq doc.symm, found] at known
      cases known

theorem keeps_register {r : ReadUnit} (recorded : i ∈ r.work.inlines) (asks : r.unit.Asks i) :
    (s.register r.unit r.work).Keeps i := by
  refine Keeps.settle ⟨r.unit, ?_, .inr ⟨asks, ?_⟩⟩
  · rw [unit?_placed, if_pos (r.own i recorded)]
  · show i ∈ ((s.pending.purge r.unit.doc).append r.work).inlines
    rw [Pending.inlines_append, Pending.mem_foldl_addNew]
    exact .inr recorded

theorem Keeps.register (h : s.Keeps i) {r : ReadUnit} (ne : i.doc ≠ r.unit.doc) :
    (s.register r.unit r.work).Keeps i := by
  obtain ⟨u, unit, kept⟩ := h
  refine Keeps.settle ⟨u, ?_, kept.imp_right (And.imp_right fun queued => ?_)⟩
  · rw [unit?_placed, if_neg ne]
    exact unit
  · show i ∈ ((s.pending.purge r.unit.doc).append r.work).inlines
    rw [Pending.inlines_append, Pending.mem_foldl_addNew, Pending.inlines_purge, List.mem_filter,
      bne_iff_ne]
    exact .inl ⟨queued, ne⟩

theorem Keeps.delete (h : s.Keeps i) {doc : DocId} (ne : i.doc ≠ doc) : (s.delete doc).Keeps i := by
  obtain ⟨u, unit, kept⟩ := h
  refine ⟨u, ?_, kept.imp_right (And.imp_right fun queued => ?_)⟩
  · rw [unit?_delete, if_neg ne]
    exact unit
  · show i ∈ (s.pending.purge doc).inlines
    rw [Pending.inlines_purge, List.mem_filter, bne_iff_ne]
    exact ⟨queued, ne⟩

theorem mem_inlines_rename {old : DocId} (new : DocId) {u : SourceUnit} (h : s.unit? old = some u)
    (queued : i ∈ s.pending.inlines) :
    (if i.doc == old then { i with doc := new } else i) ∈ (s.rename old new).pending.inlines := by
  rw [rename_of_unit? h]
  show _ ∈ List.map _ _
  rw [Pending.inlines_foldl_addType]
  exact List.mem_map_of_mem queued

theorem Keeps.rename (h : s.Keeps i) (new : DocId) :
    (s.rename i.doc new).Keeps { i with doc := new } := by
  obtain ⟨u, unit, kept⟩ := h
  have same : PendingInline.SameIn { i with doc := new } i := ⟨rfl, rfl, rfl⟩
  refine ⟨u.setDoc new, ?_, ?_⟩
  · rw [unit?_rename unit, if_pos rfl]
  · refine kept.imp (fun expanded => expanded.setDoc new same) fun ⟨asks, queued⟩ => ?_
    have moved := mem_inlines_rename new unit queued
    rw [if_pos (beq_self_eq_true _)] at moved
    exact ⟨(SourceUnit.asks_setDoc new same).2 asks, moved⟩

theorem Keeps.rename_other (h : s.Keeps i) {old new : DocId} (notOld : i.doc ≠ old)
    (notNew : i.doc ≠ new) : (s.rename old new).Keeps i := by
  cases unit : s.unit? old with
  | none =>
    rw [SymbolStore.rename, unit]
    exact h
  | some u =>
    obtain ⟨w, own, kept⟩ := h
    refine ⟨w, ?_, kept.imp_right (And.imp_right fun queued => ?_)⟩
    · rw [unit?_rename unit, if_neg notNew, if_neg notOld]
      exact own
    · have moved := mem_inlines_rename new unit queued
      rwa [if_neg (beq_iff_eq.not.2 notOld)] at moved

/-! ## All that was recorded -/

/-- The store keeps the inline members of the units that were last read. -/
structure Tracks (s : SymbolStore) (known : DocId → Option ReadUnit) : Prop where
  registered : ∀ doc, (s.unit? doc).isSome = (known doc).isSome
  doc : ∀ doc r, known doc = some r → r.unit.doc = doc
  keeps : ∀ doc r, known doc = some r → ∀ i ∈ r.work.inlines, r.unit.Asks i → s.Keeps i

variable {known : DocId → Option ReadUnit}

theorem Tracks.register (h : s.Tracks known) (r : ReadUnit) :
    (s.register r.unit r.work).Tracks (Function.update known r.unit.doc (some r)) := by
  refine ⟨fun doc => ?_, fun doc k hk => ?_, fun doc k hk i hi asks => ?_⟩
  · obtain ⟨modules, hoists, after, -, -⟩ := unit?_register_expands s r.unit r.work doc
    rw [after, Option.isSome_map, unit?_placed, Function.update_apply]
    split
    · rfl
    · exact h.registered doc
  · rw [Function.update_apply] at hk
    split at hk
    next same =>
      cases hk
      exact same.symm
    next => exact h.doc doc k hk
  · rw [Function.update_apply] at hk
    split at hk
    next =>
      cases hk
      exact keeps_register hi asks
    next ne =>
      refine (h.keeps doc k hk i hi asks).register ?_
      rw [k.own i hi, h.doc doc k hk]
      exact ne

theorem Tracks.delete (h : s.Tracks known) (gone : DocId) :
    (s.delete gone).Tracks (Function.update known gone none) := by
  refine ⟨fun doc => ?_, fun doc k hk => ?_, fun doc k hk i hi asks => ?_⟩
  · rw [unit?_delete, Function.update_apply]
    split
    · rfl
    · exact h.registered doc
  · rw [Function.update_apply] at hk
    split at hk
    · cases hk
    · exact h.doc doc k hk
  · rw [Function.update_apply] at hk
    split at hk
    next => cases hk
    next ne =>
      refine (h.keeps doc k hk i hi asks).delete ?_
      rw [k.own i hi, h.doc doc k hk]
      exact ne

theorem Tracks.rename (h : s.Tracks known) (old new : DocId) :
    (s.rename old new).Tracks ((Change.rename old new).readings known) := by
  have registered := h.registered old
  cases read : known old with
  | none =>
    rw [read, Option.isSome_none, Option.isSome_eq_false_iff, Option.isNone_iff_eq_none] at registered
    rw [SymbolStore.rename, registered, Change.readings, read]
    exact h
  | some r =>
    rw [read, Option.isSome_some] at registered
    obtain ⟨u, unit⟩ := Option.isSome_iff_exists.1 registered
    have renamed : (Change.rename old new).readings known =
        Function.update (Function.update known old none) new (some (r.setDoc new)) := by
      rw [Change.readings, read]
    rw [renamed]
    refine ⟨fun doc => ?_, fun doc k hk => ?_, fun doc k hk i hi asks => ?_⟩
    · rw [unit?_rename unit, Function.update_apply, Function.update_apply]
      split
      · rfl
      · split
        · rfl
        · exact h.registered doc
    · rw [Function.update_apply, Function.update_apply] at hk
      split at hk
      next same =>
        cases hk
        exact same.symm
      next =>
        split at hk
        · cases hk
        · exact h.doc doc k hk
    · rw [Function.update_apply, Function.update_apply] at hk
      split at hk
      next =>
        cases hk
        -- The entries of the renamed unit are those that were recorded under the old id.
        obtain ⟨j, hj, rfl⟩ := List.mem_map.1 hi
        rw [Pending.inlines_foldl_addType] at hj
        have own : j ∈ r.work.inlines := hj
        rw [if_pos (beq_iff_eq.2 (r.own j own))] at asks ⊢
        have same : PendingInline.SameIn { j with doc := new } j := ⟨rfl, rfl, rfl⟩
        have before := h.keeps old r read j own ((SourceUnit.asks_setDoc new same).1 asks)
        have there : j.doc = old := (r.own j own).trans (h.doc old r read)
        rw [← there]
        exact before.rename new
      next notNew =>
        split at hk
        next => cases hk
        next notOld =>
          have there : i.doc = doc := (k.own i hi).trans (h.doc doc k hk)
          rw [← there] at notNew notOld
          exact (h.keeps doc k hk i hi asks).rename_other notOld notNew

theorem Tracks.change (h : s.Tracks known) (c : Change) : (s.change c).Tracks (c.readings known) := by
  cases c with
  | register r => exact h.register r
  | delete doc => exact h.delete doc
  | rename old new => exact h.rename old new

theorem tracks_ofChanges (changes : List Change) : (ofChanges changes).Tracks (lastRead changes) := by
  induction changes using List.reverseRecOn with
  | nil => exact ⟨fun _ => rfl, nofun, nofun⟩
  | append_singleton changes c ih =>
    rw [ofChanges, lastRead, List.foldl_concat, List.foldl_concat]
    exact ih.change c

/-- After a registration, a struct that an inline member of the queue could inherit from counts as
its own. -/
theorem own_of_mem_register {v : SourceUnit} {q : Pending}
    (queued : i ∈ (s.register v q).pending.inlines) {m : Module} (hm : m ∈ (s.register v q).modules)
    (declares : declaresStruct i.inlined m = true) :
    ∃ a, (s.register v q).inlinedStruct? i = some a ∧ a.name = i.structName ∧ a.doc = i.doc := by
  have unknown := (unknown_register queued).2
  cases found : (s.register v q).inlinedStruct? i with
  | none =>
    have nowhere := ((Option.orElse_eq_none _ _).1 found).2
    have absent := List.findSome?_eq_none_iff.1 nowhere m hm
    rw [declaresStruct, Table.contains, absent] at declares
    cases declares
  | some a =>
    refine ⟨a, rfl, ?_⟩
    rw [inlinedMembers?, found] at unknown
    have shown : (if a.name == i.structName && a.doc == i.doc then none else some a.members) = none :=
      unknown
    split at shown
    next own => rwa [Bool.and_eq_true, beq_iff_eq, beq_iff_eq] at own
    next => cases shown

/-- An inline member that was recorded when its document was last read, and was asked for then: its
struct has an expanded member of the type, or still waits for the type and has its entry in the
queue, whatever was registered, forgotten and renamed before and after. And right after a
registration no struct of that name is registered, unless the one that is found counts as its own. -/
theorem waiting_of_recorded (changes : List Change) {doc : DocId} {r : ReadUnit}
    (read : lastRead changes doc = some r) (recorded : i ∈ r.work.inlines) (asked : r.unit.Asks i) :
    let s := ofChanges changes
    ∃ a, s.host? i = some a ∧
      ((∃ m ∈ a.members, m.isExpanded = true ∧ m.type.name = i.inlined) ∨
        i.inlined ∈ a.awaitedTypes ∧ i ∈ s.pending.inlines ∧
          ∀ before k, changes = before ++ [.register k] →
            ∀ n ∈ s.modules, declaresStruct i.inlined n = true →
              ∃ b, s.inlinedStruct? i = some b ∧ b.name = i.structName ∧ b.doc = i.doc) := by
  intro s
  obtain ⟨u, unit, kept⟩ := (tracks_ofChanges changes).keeps doc r read i recorded asked
  have host : s.host? i = u.host? i := by rw [SymbolStore.host?, unit, Option.bind_some]
  rw [host]
  rcases kept with ⟨a, own, expanded⟩ | ⟨⟨a, own, waits⟩, queued⟩
  · exact ⟨a, own, .inl expanded⟩
  · refine ⟨a, own, .inr ⟨waits, queued, ?_⟩⟩
    rintro before k rfl n hn declares
    have last : s = (ofChanges before).register k.unit k.work := List.foldl_concat ..
    rw [last] at hn ⊢
    exact own_of_mem_register (last ▸ queued) hn declares

/-- A struct that inlines a struct that inlines a third one, each in a document of its own. -/
def chain : List ReadUnit :=
  [.ofText ⟨"file:///a.c3"⟩ "module app;\nstruct A { inline B; int a; }",
    .ofText ⟨"file:///b.c3"⟩ "module app;\nstruct B { inline C; int b; }",
    .ofText ⟨"file:///c.c3"⟩ "module app;\nstruct C { int c; }"]

set_option maxRecDepth 100000 in
/-- The first of them waits for the second one, also after it is renamed. -/
theorem waiting_of_renamed :
    let i : PendingInline := ⟨⟨"file:///d.c3"⟩, "app", "A", "B"⟩
    let s := ofChanges [.register chain[0], .rename ⟨"file:///a.c3"⟩ ⟨"file:///d.c3"⟩]
    ∃ a, s.host? i = some a ∧ i.inlined ∈ a.awaitedTypes ∧ i ∈ s.pending.inlines := by
  intro i s
  have read : lastRead [.register chain[0], .rename ⟨"file:///a.c3"⟩ ⟨"file:///d.c3"⟩]
      ⟨"file:///d.c3"⟩ = some (chain[0].setDoc ⟨"file:///d.c3"⟩) := by
    have id : chain[0].unit.doc = ⟨"file:///a.c3"⟩ := ReadUnit.doc_ofText _ _
    simp [lastRead, Change.readings, id]
  have facts : i ∈ (chain[0].setDoc ⟨"file:///d.c3"⟩).work.inlines ∧
      ((chain[0].setDoc ⟨"file:///d.c3"⟩).unit.host? i).any (·.awaitedTypes.contains "B") = true ∧
      (s.host? i).all (·.members.all fun m => !m.isExpanded) = true := by
    decide +kernel
  obtain ⟨recorded, asked, plain⟩ := facts
  obtain ⟨b, host, awaited⟩ := (Option.any_eq_true _ _).1 asked
  obtain ⟨a, there, kept⟩ := waiting_of_recorded _ read recorded
    ⟨b, host, List.contains_iff_mem.1 awaited⟩
  refine ⟨a, there, ?_⟩
  rcases kept with ⟨m, hm, expanded, -⟩ | ⟨waits, queued, -⟩
  · have none : s.host? i = some a := there
    rw [none, Option.all_some, List.all_eq_true] at plain
    have := plain m hm
    rw [expanded] at this
    cases this
  · exact ⟨waits, queued⟩

set_option maxRecDepth 100000 in
/-- Read in this order, `A` has a copy of the member of `B` that waits for `C`, which no entry of the
queue is for. -/
theorem copied_without_entry :
    let s := ofChanges (chain.map .register)
    (s.host? ⟨⟨"file:///a.c3"⟩, "app", "A", "C"⟩).map
        (·.members.map fun m => (m.name, m.type.name, m.awaitsExpansion)) =
        some [("", "B", false), ("", "C", true), ("b", "int", false), ("a", "int", false)] ∧
      s.pending.inlines = [] ∧ s.modules.any (declaresStruct "C") = true := by
  decide +kernel

end SymbolStore

end C3Lens
