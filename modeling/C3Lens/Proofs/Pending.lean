import C3Lens.Outline.Scope
import C3Lens.Proofs.Table

/-!
# The queue of pending work

The pending types are seen through the list of each context module (`typesIn`). `Tidy` says that
the groups are what `typesIn` shows and no more; every operation keeps a queue tidy. Of a tidy
queue, the work of one document is appended behind that of the others, in the order in which the
document asks for it (`typesIn_append_of_notMem`). After any calls a queue is tidy, and an inline
member waits once unless a move makes one of two (`work_afterAll`).
-/

namespace C3Lens

theorem PendingType.eq_of_setDoc {doc : DocId} {t u : PendingType} (own : t.doc = u.doc)
    (same : ({ t with doc := doc } : PendingType) = { u with doc := doc }) : t = u := by
  obtain ⟨_, _, _, _⟩ := t
  obtain ⟨_, _, _, _⟩ := u
  cases own
  cases same
  rfl

theorem PendingInline.eq_of_setDoc {doc : DocId} {i j : PendingInline} (own : i.doc = j.doc)
    (same : ({ i with doc := doc } : PendingInline) = { j with doc := doc }) : i = j := by
  obtain ⟨_, _, _, _⟩ := i
  obtain ⟨_, _, _, _⟩ := j
  cases own
  cases same
  rfl

namespace PendingInline

/-- The inline member after a document is moved. -/
def rename (old new : DocId) (i : PendingInline) : PendingInline :=
  if i.doc == old then { i with doc := new } else i

section

variable {old new : DocId} {i j : PendingInline}

theorem rename_of_eq (doc : i.doc = old) :
    i.rename old new = { i with doc := new } :=
  if_pos (beq_iff_eq.2 doc)

theorem rename_of_ne (doc : i.doc ≠ old) : i.rename old new = i :=
  if_neg fun same => doc (beq_iff_eq.1 same)

/-- Inline members of other documents than `new` are kept apart by a move to it. -/
theorem rename_inj (hi : i.doc ≠ new) (hj : j.doc ≠ new)
    (same : i.rename old new = j.rename old new) : i = j := by
  by_cases left : i.doc = old <;> by_cases right : j.doc = old
  · rw [rename_of_eq left, rename_of_eq right] at same
    exact eq_of_setDoc (left.trans right.symm) same
  · rw [rename_of_eq left, rename_of_ne right] at same
    exact absurd (congrArg PendingInline.doc same).symm hj
  · rw [rename_of_ne left, rename_of_eq right] at same
    exact absurd (congrArg PendingInline.doc same) hi
  · rwa [rename_of_ne left, rename_of_ne right] at same

end

end PendingInline

namespace Pending

/-! ## Lists without repetition -/

section AddNew

variable {α : Type} [DecidableEq α]

theorem addNew_of_mem {as : List α} {a : α} (h : a ∈ as) : addNew as a = as :=
  if_pos h

theorem addNew_of_notMem {as : List α} {a : α} (h : a ∉ as) : addNew as a = as ++ [a] :=
  if_neg h

theorem mem_addNew {as : List α} {a b : α} : b ∈ addNew as a ↔ b ∈ as ∨ b = a := by
  by_cases h : a ∈ as
  · rw [addNew_of_mem h]
    refine ⟨.inl, ?_⟩
    rintro (hb | rfl)
    · exact hb
    · exact h
  · rw [addNew_of_notMem h, List.mem_append, List.mem_singleton]

theorem nodup_addNew {as : List α} (h : as.Nodup) (a : α) : (addNew as a).Nodup := by
  by_cases ha : a ∈ as
  · rwa [addNew_of_mem ha]
  · rw [addNew_of_notMem ha, List.nodup_append]
    refine ⟨h, List.nodup_singleton a, ?_⟩
    intro b hb c hc
    rw [List.mem_singleton] at hc
    rintro rfl
    exact ha (hc ▸ hb)

theorem filter_addNew {as : List α} {a : α} {p : α → Bool} (kept : p a = true) :
    (addNew as a).filter p = addNew (as.filter p) a := by
  by_cases mem : a ∈ as
  · rw [addNew_of_mem mem, addNew_of_mem (List.mem_filter.2 ⟨mem, kept⟩)]
  · rw [addNew_of_notMem mem, addNew_of_notMem fun both => mem (List.mem_of_mem_filter both),
      List.filter_append, List.filter_singleton, kept]
    rfl

theorem filter_foldl_addNew (p : α → Bool) (bs as : List α) :
    (bs.foldl addNew as).filter p = (bs.filter p).foldl addNew (as.filter p) := by
  induction bs generalizing as with
  | nil => rfl
  | cons b bs ih =>
    rw [List.foldl_cons, ih, List.filter_cons]
    split
    next kept => rw [filter_addNew kept, List.foldl_cons]
    next left =>
      rw [addNew]
      split
      · rfl
      · rw [List.filter_append, List.filter_singleton, Bool.eq_false_iff.2 left, cond_false, List.append_nil]

theorem mem_foldl_addNew {as bs : List α} {a : α} :
    a ∈ bs.foldl addNew as ↔ a ∈ as ∨ a ∈ bs := by
  induction bs generalizing as with
  | nil => simp
  | cons b bs ih => rw [List.foldl_cons, ih, mem_addNew, List.mem_cons, or_assoc]

theorem nodup_foldl_addNew {as : List α} (h : as.Nodup) (bs : List α) : (bs.foldl addNew as).Nodup := by
  induction bs generalizing as with
  | nil => exact h
  | cons b bs ih => exact ih (nodup_addNew h b)

/-- Adding elements to other ones is appending what becomes of them alone. -/
theorem foldl_addNew_append {as cs : List α} (bs : List α) (h : ∀ a ∈ cs, a ∉ as) :
    cs.foldl addNew (as ++ bs) = as ++ cs.foldl addNew bs := by
  induction cs generalizing bs with
  | nil => rfl
  | cons c cs ih =>
    have hc : c ∉ as := h c List.mem_cons_self
    have one : addNew (as ++ bs) c = as ++ addNew bs c := by
      by_cases hb : c ∈ bs
      · rw [addNew_of_mem hb, addNew_of_mem (List.mem_append_right _ hb)]
      · rw [addNew_of_notMem hb, addNew_of_notMem, List.append_assoc]
        rw [List.mem_append]
        rintro (ha | hb')
        · exact hc ha
        · exact hb hb'
    rw [List.foldl_cons, one, ih _ fun a ha => h a (List.mem_cons_of_mem _ ha), List.foldl_cons]

theorem foldl_addNew_of_nodup (as bs : List α) (h : (as ++ bs).Nodup) :
    bs.foldl addNew as = as ++ bs := by
  induction bs generalizing as with
  | nil => rw [List.foldl_nil, List.append_nil]
  | cons b bs ih =>
    have hb : b ∉ as := fun ha => (List.nodup_append.1 h).2.2 b ha b List.mem_cons_self rfl
    rw [List.append_cons] at h ⊢
    rw [List.foldl_cons, addNew_of_notMem hb, ih _ h]

end AddNew

/-! ## The types of a context -/

@[simp] theorem typesIn_empty (context : String) : empty.typesIn context = [] := rfl

theorem typesIn_addType (p : Pending) (t : PendingType) (context : String) :
    (p.addType t).typesIn context =
      if context = t.context then addNew (p.typesIn context) t else p.typesIn context := by
  rw [typesIn, addType, Table.get?_insert]
  split
  next h =>
    subst h
    rfl
  next => rfl

theorem typesIn_foldl_addType (ts : List PendingType) (p : Pending) (context : String) :
    (ts.foldl addType p).typesIn context =
      (ts.filter (·.context == context)).foldl addNew (p.typesIn context) := by
  induction ts generalizing p with
  | nil => rfl
  | cons t ts ih =>
    rw [List.foldl_cons, ih, typesIn_addType, List.filter_cons]
    by_cases h : context = t.context
    · simp [h]
    · simp [h, Ne.symm h]

theorem typesIn_filterTypes (p : Pending) (keep : PendingType → Bool) (context : String) :
    (p.filterTypes keep).typesIn context = (p.typesIn context).filter keep := by
  rw [typesIn, filterTypes, Table.get?_filter, Table.get?_map, typesIn]
  cases p.groups.get? context with
  | none => rfl
  | some ts =>
    rw [Option.map_some, Option.filter_some]
    cases h : ts.filter keep <;> simp [h]

@[simp] theorem inlines_foldl_addType (ts : List PendingType) (p : Pending) :
    (ts.foldl addType p).inlines = p.inlines := by
  induction ts generalizing p with
  | nil => rfl
  | cons t ts ih => exact ih (p.addType t)

theorem foldl_addInline (is : List PendingInline) (p : Pending) :
    is.foldl addInline p = { p with inlines := is.foldl addNew p.inlines } := by
  induction is generalizing p with
  | nil => rfl
  | cons i is ih => exact ih (p.addInline i)

theorem typesIn_append (p q : Pending) (context : String) :
    (p.append q).typesIn context =
      (q.types.filter (·.context == context)).foldl addNew (p.typesIn context) := by
  rw [append, foldl_addInline]
  exact typesIn_foldl_addType q.types p context

theorem inlines_append (p q : Pending) : (p.append q).inlines = q.inlines.foldl addNew p.inlines := by
  rw [append, foldl_addInline, inlines_foldl_addType]

theorem typesIn_purge (p : Pending) (doc : DocId) (context : String) :
    (p.purge doc).typesIn context = (p.typesIn context).filter (·.doc != doc) :=
  typesIn_filterTypes p _ context

theorem inlines_purge (p : Pending) (doc : DocId) :
    (p.purge doc).inlines = p.inlines.filter (·.doc != doc) := rfl

theorem mem_types_iff {p : Pending} {t : PendingType} :
    t ∈ p.types ↔ ∃ context, t ∈ p.typesIn context := by
  simp only [types, List.mem_flatten, Table.mem_values_iff, typesIn]
  constructor
  · rintro ⟨ts, ⟨context, h⟩, ht⟩
    exact ⟨context, by rwa [h]⟩
  · rintro ⟨context, ht⟩
    cases h : p.groups.get? context with
    | none =>
      rw [h] at ht
      cases ht
    | some ts =>
      rw [h] at ht
      exact ⟨ts, ⟨context, h⟩, ht⟩

theorem mem_types_addType {p : Pending} {t u : PendingType} :
    u ∈ (p.addType t).types ↔ u ∈ p.types ∨ u = t := by
  simp only [mem_types_iff, typesIn_addType]
  constructor
  · rintro ⟨context, hu⟩
    split at hu
    · rcases mem_addNew.1 hu with hu | hu
      · exact .inl ⟨context, hu⟩
      · exact .inr hu
    · exact .inl ⟨context, hu⟩
  · rintro (⟨context, hu⟩ | rfl)
    · refine ⟨context, ?_⟩
      split
      · exact mem_addNew.2 (.inl hu)
      · exact hu
    · exact ⟨u.context, by rw [if_pos rfl]; exact mem_addNew.2 (.inr rfl)⟩

/-! ## Tidy queues -/

/-- All work is that of the document. -/
structure BelongsTo (p : Pending) (doc : DocId) : Prop where
  types : ∀ t ∈ p.types, t.doc = doc
  inlines : ∀ i ∈ p.inlines, i.doc = doc

/-- Each type waits once, in the group of its own context, and no group is empty. -/
structure Tidy (p : Pending) : Prop where
  context_eq : ∀ context, ∀ t ∈ p.typesIn context, t.context = context
  nodup : ∀ context, (p.typesIn context).Nodup
  nonempty : ∀ context, p.groups.get? context ≠ some []

theorem tidy_empty : empty.Tidy := by
  refine ⟨fun context t ht => ?_, fun context => ?_, fun context h => ?_⟩
  · cases ht
  · exact List.nodup_nil
  · cases h

theorem Tidy.addType {p : Pending} (h : p.Tidy) (t : PendingType) : (p.addType t).Tidy := by
  refine ⟨fun context u hu => ?_, fun context => ?_, fun context hg => ?_⟩
  · rw [typesIn_addType] at hu
    split at hu
    next same =>
      rcases mem_addNew.1 hu with hu | rfl
      · exact h.context_eq context u hu
      · exact same.symm
    next => exact h.context_eq context u hu
  · rw [typesIn_addType]
    split
    · exact nodup_addNew (h.nodup context) t
    · exact h.nodup context
  · rw [Pending.addType, Table.get?_insert] at hg
    split at hg
    · rw [Option.some.injEq] at hg
      have ht : t ∈ addNew ((p.groups.get? t.context).getD []) t := mem_addNew.2 (.inr rfl)
      rw [hg] at ht
      cases ht
    · exact h.nonempty context hg

theorem Tidy.foldl_addType {p : Pending} (h : p.Tidy) (ts : List PendingType) :
    (ts.foldl Pending.addType p).Tidy := by
  induction ts generalizing p with
  | nil => exact h
  | cons t ts ih => exact ih (h.addType t)

/-- The inline members do not count. -/
theorem Tidy.of_groups {p q : Pending} (h : p.Tidy) (groups : q.groups = p.groups) : q.Tidy := by
  obtain ⟨_, _⟩ := p
  obtain ⟨_, _⟩ := q
  cases groups
  exact ⟨h.context_eq, h.nodup, h.nonempty⟩

theorem Tidy.filterTypes {p : Pending} (h : p.Tidy) (keep : PendingType → Bool) :
    (p.filterTypes keep).Tidy := by
  refine ⟨fun context t ht => ?_, fun context => ?_, fun context hg => ?_⟩
  · rw [typesIn_filterTypes] at ht
    exact h.context_eq context t (List.mem_of_mem_filter ht)
  · rw [typesIn_filterTypes]
    exact (h.nodup context).filter _
  · rw [Pending.filterTypes, Table.get?_filter, Option.filter_eq_some_iff] at hg
    exact absurd hg.2 (by simp)

theorem Tidy.purge {p : Pending} (h : p.Tidy) (doc : DocId) : (p.purge doc).Tidy :=
  (h.filterTypes _).of_groups rfl

theorem Tidy.append {p : Pending} (h : p.Tidy) (q : Pending) : (p.append q).Tidy := by
  rw [Pending.append, foldl_addInline]
  exact (h.foldl_addType q.types).of_groups rfl

theorem Tidy.rename {p : Pending} (h : p.Tidy) (old new : DocId) : (p.rename old new).Tidy :=
  ((h.filterTypes _).foldl_addType _).of_groups rfl

/-- What is found in one group only may be searched for there. -/
theorem filter_types {p : Pending} {context : String} {keep : PendingType → Bool}
    (others : ∀ group, group ≠ context → (p.typesIn group).filter keep = []) :
    p.types.filter keep = (p.typesIn context).filter keep := by
  have own : ∀ e ∈ p.groups.entries, e.2.filter keep = if context = e.1 then e.2.filter keep else [] := by
    intro e he
    have group : p.typesIn e.1 = e.2 := by
      rw [typesIn, Table.mem_entries_iff.1 he]
      rfl
    split
    next => rfl
    next ne =>
      rw [← group]
      exact others e.1 (Ne.symm ne)
  rw [types, Table.values, List.filter_flatten, List.map_map, typesIn, Table.get?]
  have nodup := p.groups.nodup
  revert own nodup
  generalize p.groups.entries = es
  intro own nodup
  induction es with
  | nil => rfl
  | cons e es ih =>
    rw [List.map_cons, List.nodup_cons] at nodup
    have rest := ih (fun e he => own e (List.mem_cons_of_mem _ he)) nodup.2
    rw [List.map_cons, List.flatten_cons, rest, Table.lookup_cons_eq_ite, Function.comp_apply,
      own e List.mem_cons_self]
    split
    next eq =>
      have absent : es.lookup context = none := by
        rw [List.lookup_eq_none_iff]
        intro e' he'
        rw [bne_iff_ne]
        rintro rfl
        exact nodup.1 (eq ▸ List.mem_map_of_mem he')
      rw [absent]
      exact List.append_nil _
    next => rfl

/-- The types of one context among all types. -/
theorem Tidy.filter_types {p : Pending} (h : p.Tidy) (context : String) :
    p.types.filter (·.context == context) = p.typesIn context := by
  rw [@Pending.filter_types p context]
  · refine List.filter_eq_self.2 fun t ht => ?_
    rw [h.context_eq context t ht, beq_self_eq_true]
  · refine fun group ne => List.filter_eq_nil_iff.2 fun t ht => ?_
    rw [h.context_eq group t ht, beq_iff_eq]
    exact ne

theorem Tidy.mem_types_iff {p : Pending} (h : p.Tidy) {t : PendingType} :
    t ∈ p.types ↔ t ∈ p.typesIn t.context := by
  rw [← h.filter_types, List.mem_filter, beq_self_eq_true, and_iff_left rfl]

/-- New work of one context comes behind what waits there, in its own order. -/
theorem typesIn_append_of_notMem {p q : Pending} (hq : q.Tidy) {context : String}
    (new : ∀ t ∈ q.typesIn context, t ∉ p.typesIn context) :
    (p.append q).typesIn context = p.typesIn context ++ q.typesIn context := by
  have alone := foldl_addNew_of_nodup [] (q.typesIn context) (hq.nodup context)
  have behind := foldl_addNew_append [] new
  rw [typesIn_append, hq.filter_types, ← List.append_nil (p.typesIn context), behind, alone,
    List.nil_append, List.append_nil]

/-- What a document asks for, put in the place of what it asked for before. -/
theorem typesIn_purge_append {p q : Pending} {doc : DocId} (hq : q.Tidy) (own : q.BelongsTo doc)
    (context : String) :
    ((p.purge doc).append q).typesIn context =
      (p.typesIn context).filter (·.doc != doc) ++ q.typesIn context := by
  rw [typesIn_append_of_notMem hq, typesIn_purge]
  intro t ht hp
  rw [typesIn_purge, List.mem_filter, bne_iff_ne] at hp
  exact hp.2 (own.types t (Pending.mem_types_iff.2 ⟨context, ht⟩))

theorem inlines_purge_append {p q : Pending} {doc : DocId} (own : q.BelongsTo doc) :
    ((p.purge doc).append q).inlines =
      p.inlines.filter (·.doc != doc) ++ q.inlines.foldl addNew [] := by
  rw [inlines_append, inlines_purge]
  have new : ∀ i ∈ q.inlines, i ∉ p.inlines.filter (·.doc != doc) := by
    intro i hi hp
    rw [List.mem_filter, bne_iff_ne] at hp
    exact hp.2 (own.inlines i hi)
  have behind := foldl_addNew_append [] new
  rwa [List.append_nil] at behind

/-- Two tidy queues with the same types in each context have the same groups. -/
theorem Tidy.groups_eq_of_typesIn {p q : Pending} (hp : p.Tidy) (hq : q.Tidy)
    (types : ∀ context, p.typesIn context = q.typesIn context) (context : String) :
    p.groups.get? context = q.groups.get? context := by
  have same := types context
  rw [typesIn, typesIn] at same
  have full := hp.nonempty context
  have full' := hq.nonempty context
  cases h : p.groups.get? context <;> cases h' : q.groups.get? context <;>
    simp_all

/-! ## Queues under another id -/

/-- The work as that of another document. -/
def setDoc (doc : DocId) (p : Pending) : Pending :=
  ⟨p.groups.map (·.map ({ · with doc := doc })), p.inlines.map ({ · with doc := doc })⟩

theorem map_addNew {α β : Type} [DecidableEq α] [DecidableEq β] {f : α → β} {as : List α} {a : α}
    (known : f a ∈ as.map f → a ∈ as) : (addNew as a).map f = addNew (as.map f) (f a) := by
  by_cases mem : a ∈ as
  · rw [addNew_of_mem mem, addNew_of_mem (List.mem_map_of_mem mem)]
  · rw [addNew_of_notMem mem, addNew_of_notMem (mem ∘ known), List.map_append, List.map_singleton]

theorem map_foldl_addNew {α β : Type} [DecidableEq α] [DecidableEq β] {f : α → β} {as bs : List α}
    (inj : ∀ a ∈ as ++ bs, ∀ b ∈ as ++ bs, f a = f b → a = b) :
    (bs.foldl addNew as).map f = (bs.map f).foldl addNew (as.map f) := by
  induction bs generalizing as with
  | nil => rfl
  | cons b bs ih =>
    have next : ∀ a, a ∈ addNew as b ++ bs → a ∈ as ++ b :: bs := by
      intro a ha
      simp only [List.mem_append, mem_addNew, List.mem_cons] at ha ⊢
      rcases ha with (ha | rfl) | ha
      · exact .inl ha
      · exact .inr (.inl rfl)
      · exact .inr (.inr ha)
    rw [List.foldl_cons, ih fun a ha c hc => inj a (next a ha) c (next c hc), map_addNew, List.map_cons,
      List.foldl_cons]
    intro mem
    obtain ⟨a, ha, same⟩ := List.mem_map.1 mem
    have known := inj a (List.mem_append_left _ ha) b (List.mem_append_right _ List.mem_cons_self) same
    rwa [known] at ha

theorem typesIn_setDoc (doc : DocId) (p : Pending) (context : String) :
    (p.setDoc doc).typesIn context = (p.typesIn context).map ({ · with doc := doc }) := by
  rw [typesIn, setDoc, Table.get?_map, typesIn]
  cases p.groups.get? context <;> rfl

theorem setDoc_addType {p : Pending} {t : PendingType} (own : p.BelongsTo t.doc) (doc : DocId) :
    (p.addType t).setDoc doc = (p.setDoc doc).addType { t with doc := doc } := by
  have group : (addNew (p.typesIn t.context) t).map ({ · with doc := doc }) =
      addNew ((p.setDoc doc).typesIn t.context) { t with doc := doc } := by
    rw [typesIn_setDoc]
    refine map_addNew fun mem => ?_
    obtain ⟨u, hu, same⟩ := List.mem_map.1 mem
    have known : u ∈ p.types := mem_types_iff.2 ⟨t.context, hu⟩
    rwa [PendingType.eq_of_setDoc (own.types u known) same] at hu
  show Pending.mk ((p.groups.insert t.context _).map _) _ = Pending.mk _ _
  rw [Table.map_insert]
  exact congrArg (fun ts => Pending.mk ((p.setDoc doc).groups.insert t.context ts) _) group

theorem setDoc_addInline {p : Pending} {i : PendingInline} (own : p.BelongsTo i.doc) (doc : DocId) :
    (p.addInline i).setDoc doc = (p.setDoc doc).addInline { i with doc := doc } := by
  refine congrArg (Pending.mk _) (map_addNew fun mem => ?_)
  obtain ⟨j, hj, same⟩ := List.mem_map.1 mem
  rwa [PendingInline.eq_of_setDoc (own.inlines j hj) same] at hj

theorem belongsTo_setDoc (doc : DocId) (p : Pending) : (p.setDoc doc).BelongsTo doc := by
  refine ⟨fun t ht => ?_, fun i hi => ?_⟩
  · obtain ⟨context, mem⟩ := mem_types_iff.1 ht
    rw [typesIn_setDoc] at mem
    obtain ⟨u, -, rfl⟩ := List.mem_map.1 mem
    rfl
  · obtain ⟨j, -, rfl⟩ := List.mem_map.1 hi
    rfl

/-- The work that waits of one document is moved, and no two pieces of it become one. -/
theorem Tidy.setDoc {p : Pending} (h : p.Tidy) {old : DocId} (own : p.BelongsTo old) (doc : DocId) :
    (p.setDoc doc).Tidy := by
  refine ⟨fun context t ht => ?_, fun context => ?_, fun context hg => ?_⟩
  · rw [typesIn_setDoc] at ht
    obtain ⟨u, hu, rfl⟩ := List.mem_map.1 ht
    exact h.context_eq context u hu
  · rw [typesIn_setDoc]
    refine (List.nodup_map_iff_inj_on (h.nodup context)).2 fun t ht u hu same => ?_
    exact PendingType.eq_of_setDoc ((own.types t (Pending.mem_types_iff.2 ⟨context, ht⟩)).trans
      (own.types u (Pending.mem_types_iff.2 ⟨context, hu⟩)).symm) same
  · rw [Pending.setDoc, Table.get?_map, Option.map_eq_some_iff] at hg
    obtain ⟨ts, hts, nothing⟩ := hg
    exact h.nonempty context (hts.trans (congrArg some (List.map_eq_nil_iff.1 nothing)))

theorem inlines_rename (p : Pending) (old new : DocId) :
    (p.rename old new).inlines = p.inlines.map (PendingInline.rename old new) := by
  show (List.foldl addType _ _).inlines.map _ = _
  rw [inlines_foldl_addType]
  rfl

/-- The types of the moved document are added to those of the others. -/
theorem typesIn_rename_eq_foldl {p : Pending} (h : p.Tidy) (old new : DocId) (context : String) :
    (p.rename old new).typesIn context =
      (((p.typesIn context).filter (·.doc == old)).map ({ · with doc := new })).foldl addNew
        ((p.typesIn context).filter (·.doc != old)) := by
  have moved : ((p.types.filter (·.doc == old)).map ({ · with doc := new })).filter
      (fun t : PendingType => t.context == context) =
        ((p.typesIn context).filter (·.doc == old)).map ({ · with doc := new }) := by
    rw [List.filter_map, ← h.filter_types, List.filter_filter, List.filter_filter]
    simp only [Function.comp_def, Bool.and_comm]
  show (List.foldl addType (p.filterTypes _) _).typesIn context = _
  rw [typesIn_foldl_addType, typesIn_filterTypes, moved]

/-- The types of the moved document come behind those of the others. -/
theorem typesIn_rename {p : Pending} (h : p.Tidy) {old new : DocId} (context : String)
    (fresh : ∀ t ∈ p.typesIn context, t.doc ≠ new) :
    (p.rename old new).typesIn context = (p.typesIn context).filter (·.doc != old) ++
      ((p.typesIn context).filter (·.doc == old)).map ({ · with doc := new }) := by
  rw [typesIn_rename_eq_foldl h, foldl_addNew_of_nodup]
  rw [List.nodup_append]
  refine ⟨(h.nodup context).filter _, ?_, fun t ht u hu same => ?_⟩
  · refine (List.nodup_map_iff_inj_on ((h.nodup context).filter _)).2 fun t ht u hu same => ?_
    exact PendingType.eq_of_setDoc ((beq_iff_eq.1 (List.mem_filter.1 ht).2).trans
      (beq_iff_eq.1 (List.mem_filter.1 hu).2).symm) same
  · obtain ⟨v, -, rfl⟩ := List.mem_map.1 hu
    exact fresh t (List.mem_of_mem_filter ht) (congrArg PendingType.doc same)

end Pending

/-!
## Histories of a queue

After any calls each type waits once, in the group of its own context, and no group is empty. Types that are
moved are added anew, so that two that become one are kept once. Inline members are moved where they stand, and
nothing but a move that makes one of two (`Pending.Merges`) lets one wait twice (`Pending.work_afterAll`).
-/

/-- The type after a document is moved. -/
def PendingType.rename (old new : DocId) (t : PendingType) : PendingType :=
  if t.doc == old then { t with doc := new } else t

/-- The types of a moved document and those of the others are all types after the move. -/
theorem PendingType.mem_map_rename {old new : DocId} {t : PendingType} {ts : List PendingType} :
    t ∈ ts.map (rename old new) ↔
      t ∈ ts.filter (·.doc != old) ∨ t ∈ (ts.filter (·.doc == old)).map ({ · with doc := new }) := by
  simp only [List.mem_map, List.mem_filter, bne_iff_ne, beq_iff_eq]
  constructor
  · rintro ⟨u, hu, rfl⟩
    by_cases own : u.doc = old
    · exact .inr ⟨u, ⟨hu, own⟩, (if_pos (beq_iff_eq.2 own)).symm⟩
    · have same : u.rename old new = u := if_neg fun eq => own (beq_iff_eq.1 eq)
      rw [same]
      exact .inl ⟨hu, own⟩
  · rintro (⟨ht, other⟩ | ⟨u, ⟨hu, own⟩, rfl⟩)
    · exact ⟨t, ht, if_neg fun eq => other (beq_iff_eq.1 eq)⟩
    · exact ⟨u, hu, if_pos (beq_iff_eq.2 own)⟩

namespace Pending

/-! ### One call -/

/-- A call that changes pending work. To take the types or the inline members is to leave none. -/
inductive Change where
  | addType (t : PendingType)
  | addInline (i : PendingInline)
  | append (q : Pending)
  | purge (doc : DocId)
  | rename (old new : DocId)
  | takeTypes
  | takeInlines

/-- The pending work after a call. -/
def Change.apply (p : Pending) : Change → Pending
  | addType t => p.addType t
  | addInline i => p.addInline i
  | append q => p.append q
  | purge doc => p.purge doc
  | rename old new => p.rename old new
  | takeTypes => { p with groups := .empty }
  | takeInlines => { p with inlines := [] }

/-- The pending work after calls in order, when none waited at first. -/
def afterAll (changes : List Change) : Pending :=
  changes.foldl Change.apply empty

/-- Two different inline members wait that are one when the document is moved. -/
def Merges (p : Pending) (old new : DocId) : Prop :=
  old ≠ new ∧ ∃ i ∈ p.inlines, i.doc = old ∧ { i with doc := new } ∈ p.inlines

section

variable {p : Pending}

theorem Tidy.apply (h : p.Tidy) (change : Change) : (change.apply p).Tidy := by
  cases change with
  | addType t => exact h.addType t
  | addInline i => exact h.of_groups rfl
  | append q => exact h.append q
  | purge doc => exact h.purge doc
  | rename old new => exact h.rename old new
  | takeTypes => exact tidy_empty.of_groups rfl
  | takeInlines => exact h.of_groups rfl

theorem Tidy.nodup_types (h : p.Tidy) : p.types.Nodup := by
  have group : ∀ e ∈ p.groups.entries, p.typesIn e.1 = e.2 := by
    intro e he
    rw [typesIn, Table.mem_entries_iff.1 he]
    rfl
  rw [types, Table.values, List.nodup_flatten, List.forall_mem_map, List.pairwise_map]
  refine ⟨fun e he => group e he ▸ h.nodup e.1, ?_⟩
  refine (List.pairwise_map.1 p.groups.nodup).imp_of_mem fun {e f} he hf apart t ht ht' => apart ?_
  rw [← group e he] at ht
  rw [← group f hf] at ht'
  exact (h.context_eq _ t ht).symm.trans (h.context_eq _ t ht')

/-- What waits in a group, and that something waits there. -/
theorem Tidy.group (h : p.Tidy) {context : String} {ts : List PendingType} (found : p.groups.get? context = some ts) :
    ts ≠ [] ∧ ∀ t ∈ ts, t.context = context := by
  have here : p.typesIn context = ts := by
    rw [typesIn, found]
    rfl
  refine ⟨?_, here ▸ h.context_eq context⟩
  rintro rfl
  exact h.nonempty context found

theorem Tidy.mem_types_rename (h : p.Tidy) (old new : DocId) {t : PendingType} :
    t ∈ (p.rename old new).types ↔ ∃ u ∈ p.types, u.rename old new = t := by
  have inGroup (context : String) : t ∈ (p.rename old new).typesIn context ↔
      ∃ u ∈ p.typesIn context, u.rename old new = t := by
    rw [typesIn_rename_eq_foldl h, mem_foldl_addNew, ← PendingType.mem_map_rename, List.mem_map]
  simp only [Pending.mem_types_iff, inGroup]
  constructor
  · rintro ⟨context, u, hu, same⟩
    exact ⟨u, ⟨context, hu⟩, same⟩
  · rintro ⟨u, ⟨context, hu⟩, same⟩
    exact ⟨context, u, hu, same⟩

theorem nodup_inlines_rename_iff (h : p.inlines.Nodup) (old new : DocId) :
    (p.rename old new).inlines.Nodup ↔ ¬ p.Merges old new := by
  rw [inlines_rename, List.nodup_map_iff_inj_on h]
  constructor
  · rintro inj ⟨ne, i, hi, own, there⟩
    have same : i.rename old new = PendingInline.rename old new { i with doc := new } := by
      rw [PendingInline.rename_of_eq own, PendingInline.rename_of_ne (Ne.symm ne)]
    have eq := congrArg PendingInline.doc (inj i hi _ there same)
    exact ne (own.symm.trans eq)
  · intro apart i hi j hj same
    have merged {i j : PendingInline} (hi : i ∈ p.inlines) (hj : j ∈ p.inlines) (left : i.doc = old)
        (right : j.doc ≠ old) (same : i.rename old new = j.rename old new) : False := by
      rw [PendingInline.rename_of_eq left, PendingInline.rename_of_ne right] at same
      subst same
      exact apart ⟨Ne.symm right, i, hi, left, hj⟩
    by_cases left : i.doc = old <;> by_cases right : j.doc = old
    · rw [PendingInline.rename_of_eq left, PendingInline.rename_of_eq right] at same
      exact PendingInline.eq_of_setDoc (left.trans right.symm) same
    · exact (merged hi hj left right same).elim
    · exact (merged hj hi right left same.symm).elim
    · rwa [PendingInline.rename_of_ne left, PendingInline.rename_of_ne right] at same

/-- No other call than a move that makes one of two lets an inline member wait twice. -/
theorem nodup_inlines_apply_iff (h : p.inlines.Nodup) (change : Change) :
    (change.apply p).inlines.Nodup ↔ ∀ old new, change = .rename old new → ¬ p.Merges old new := by
  cases change with
  | rename old new =>
    refine (nodup_inlines_rename_iff h old new).trans ⟨fun apart _ _ same => ?_, fun apart => apart old new rfl⟩
    cases same
    exact apart
  | addType t => exact iff_of_true h nofun
  | addInline i => exact iff_of_true (nodup_addNew h i) nofun
  | append q => exact iff_of_true (inlines_append p q ▸ nodup_foldl_addNew h q.inlines) nofun
  | purge doc => exact iff_of_true (h.filter _) nofun
  | takeTypes => exact iff_of_true h nofun
  | takeInlines => exact iff_of_true List.nodup_nil nofun

end

/-! ### All calls -/

theorem afterAll_take_succ {changes : List Change} {n : Nat} {change : Change} (found : changes[n]? = some change) :
    afterAll (changes.take (n + 1)) = change.apply (afterAll (changes.take n)) := by
  rw [afterAll, List.take_add_one, found, List.foldl_append, afterAll]
  rfl

theorem tidy_afterAll (changes : List Change) : (afterAll changes).Tidy := by
  suffices keeps : ∀ p : Pending, p.Tidy → (changes.foldl Change.apply p).Tidy from keeps empty tidy_empty
  induction changes with
  | nil => exact fun _ h => h
  | cons change changes ih => exact fun p h => ih _ (h.apply change)

theorem nodup_inlines_afterAll_iff (changes : List Change) :
    (∀ n, (afterAll (changes.take n)).inlines.Nodup) ↔
      ∀ n old new, changes[n]? = some (.rename old new) → ¬ (afterAll (changes.take n)).Merges old new := by
  constructor
  · intro nodup n old new found
    refine (nodup_inlines_apply_iff (nodup n) _).1 ?_ old new rfl
    exact afterAll_take_succ found ▸ nodup (n + 1)
  · intro apart n
    induction n with
    | zero => exact List.nodup_nil
    | succ n ih =>
      cases found : changes[n]? with
      | none =>
        rw [List.take_add_one, found, Option.toList_none, List.append_nil]
        exact ih
      | some change =>
        rw [afterAll_take_succ found, nodup_inlines_apply_iff ih]
        intro old new same
        exact apart n old new (same ▸ found)

/-- After any calls each type waits once, in the group of its own context, and no group is empty. When a document
is moved, just the types and inline members that waited before wait, those of the document under its new id. An
inline member waits once all along exactly if no move on the way makes one of two. -/
theorem work_afterAll (changes : List Change) :
    (afterAll changes).types.Nodup ∧
    (∀ context ts, (afterAll changes).groups.get? context = some ts → ts ≠ [] ∧ ∀ t ∈ ts, t.context = context) ∧
    (∀ old new,
      (∀ t, t ∈ ((afterAll changes).rename old new).types ↔ ∃ u ∈ (afterAll changes).types, u.rename old new = t) ∧
      ∀ i, i ∈ ((afterAll changes).rename old new).inlines ↔
        ∃ j ∈ (afterAll changes).inlines, j.rename old new = i) ∧
    ((∀ n, (afterAll (changes.take n)).inlines.Nodup) ↔
      ∀ n old new, changes[n]? = some (.rename old new) → ¬ (afterAll (changes.take n)).Merges old new) := by
  have tidy := tidy_afterAll changes
  refine ⟨tidy.nodup_types, fun _ _ found => tidy.group found, fun old new => ⟨fun t => ?_, fun i => ?_⟩,
    nodup_inlines_afterAll_iff changes⟩
  · exact tidy.mem_types_rename old new
  · rw [inlines_rename, List.mem_map]

/-- The structs `T` of two documents wait for `S`, and one document is moved onto the other. -/
theorem inline_waits_twice :
    ¬ (afterAll
      [.addInline ⟨⟨"file:///a.c3"⟩, "m", "T", "S"⟩, .addInline ⟨⟨"file:///b.c3"⟩, "m", "T", "S"⟩,
        .rename ⟨"file:///a.c3"⟩ ⟨"file:///b.c3"⟩]).inlines.Nodup := by
  decide

end Pending

end C3Lens
