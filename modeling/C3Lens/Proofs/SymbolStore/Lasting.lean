import C3Lens.Proofs.SymbolStore.Binding
import C3Lens.Proofs.SymbolStore.Resolved

/-!
# Homes and members that last

Where every home found for a context is its home at the end, and no home is the written qualifier
of another context that leads elsewhere (`Separate`), the modules of types do not depend on when
their contexts were bound: what is bound has the home at the end, all else is as written
(`moduleAfter_bound`), which every step keeps (`Binds.register`, `Binds.delete`). Where the members
that are found last as well, and are no inline members themselves, the hoisted members are those at
the end (`hoists_of_found`). Both together are kept by the registration of a document
(`fits_register`), by that of another one (`Fits.register`), and when another one is forgotten
(`Fits.delete`).
-/

namespace C3Lens.SymbolStore

/-- A home that is the written qualifier of a context of the same name is the home of that one
too. -/
def Separate (s : SymbolStore) (queue : List PendingType) : Prop :=
  ∀ c ∈ queue, ∀ d ∈ queue, d.typeName = c.typeName → s.homeOf c = d.written → s.homeOf d = d.written

/-- The module of a type written in a module of a document, when all contexts of the queue are bound
that do not wait. -/
def bound (s : SymbolStore) (doc : DocId) (name : String) (queue waiting : List PendingType)
    (type : TypeRef) : String :=
  if type.isNamed = true ∧ type.written doc name ∈ queue ∧ type.written doc name ∉ waiting then
    s.homeOf (type.written doc name)
  else type.moduleName

section Bound

variable {s e : SymbolStore} {queue waiting : List PendingType} {doc : DocId} {name : String}

theorem bound_of_not_isNamed {type : TypeRef} (unnamed : type.isNamed = false) :
    e.bound doc name queue waiting type = type.moduleName := by
  rw [bound, unnamed]
  exact if_neg fun h => Bool.false_ne_true h.1

/-- Where the home lasts, a context is bound to the home at the end or not at all. -/
theorem homeOf_eq_written {c : PendingType} (last : ∀ home, s.home? c = some home → e.home? c = some home)
    (fixed : e.homeOf c = c.written) : s.homeOf c = c.written := by
  rw [homeOf]
  cases found : s.home? c with
  | none => rfl
  | some home =>
    rw [homeOf, last home found] at fixed
    exact fixed

/-- A type whose context waits gets its home. -/
theorem moduleAfter_bound_of_mem (h : OfModule queue doc name) (sub : waiting ⊆ queue) (nodup : waiting.Nodup)
    (last : ∀ c ∈ waiting, ∀ home, s.home? c = some home → e.home? c = some home)
    (separate : e.Separate queue) {type : TypeRef} (named : type.isNamed = true)
    (mem : type.written doc name ∈ waiting) :
    s.moduleAfter waiting type = s.homeOf (type.written doc name) := by
  obtain ⟨done, left, rfl⟩ := List.append_of_mem mem
  refine moduleAfter_of_split (fun c hc => h c (sub hc)) named nodup ?_
  intro c hc typeName ne found
  have waits : c ∈ done ++ type.written doc name :: left :=
    List.mem_append_right _ (List.mem_cons_of_mem _ hc)
  refine homeOf_eq_written (last c waits) ?_
  refine separate _ (sub mem) c (sub waits) typeName ?_
  rw [homeOf] at found
  cases home : s.home? (type.written doc name) with
  | none =>
    rw [home] at found
    exact absurd found.symm ne
  | some h =>
    rw [home] at found
    rw [homeOf, last _ mem h home]
    exact found

/-- A type whose context does not wait keeps its module: what finds it there is at home there. -/
theorem moduleAfter_bound_of_notMem (h : OfModule queue doc name) (sub : waiting ⊆ queue)
    (last : ∀ c ∈ waiting, ∀ home, s.home? c = some home → e.home? c = some home)
    (separate : e.Separate queue) {type : TypeRef} (named : type.isNamed = true)
    (gone : type.written doc name ∉ waiting) :
    s.moduleAfter waiting { type with moduleName := e.bound doc name queue waiting type } =
      e.bound doc name queue waiting type := by
  refine moduleAfter_of_kept fun c hc => ?_
  have named' : { type with moduleName := e.bound doc name queue waiting type }.isNamed = true := named
  rw [moduleUnder_of_isNamed named']
  split
  next found =>
    obtain ⟨typeName, module⟩ := found
    refine (homeOf_eq_written (last c hc) ?_).trans module
    by_cases queued : type.written doc name ∈ queue
    · refine separate _ queued c (sub hc) typeName ?_
      have home : e.bound doc name queue waiting type = e.homeOf (type.written doc name) :=
        if_pos ⟨named, queued, gone⟩
      exact home.symm.trans module.symm
    · have written : e.bound doc name queue waiting type = type.moduleName :=
        if_neg fun h => queued h.2.1
      have eq : c = type.written doc name := h.eq_written (sub hc) typeName (module.trans written)
      exact absurd (eq ▸ hc) gone
  next => rfl

theorem moduleAfter_bound (h : OfModule queue doc name) (sub : waiting ⊆ queue) (nodup : waiting.Nodup)
    (last : ∀ c ∈ waiting, ∀ home, s.home? c = some home → e.home? c = some home)
    (separate : e.Separate queue) (type : TypeRef) :
    s.moduleAfter waiting { type with moduleName := e.bound doc name queue waiting type } =
      e.bound doc name queue (waiting.filter fun c => (s.home? c).isNone) type := by
  by_cases named : type.isNamed = true
  swap
  · have unnamed := Bool.eq_false_iff.2 named
    rw [bound_of_not_isNamed unnamed, bound_of_not_isNamed unnamed]
    exact moduleAfter_of_kept fun c _ => moduleUnder_of_not_isNamed unnamed c
  by_cases mem : type.written doc name ∈ waiting
  · -- The context of the type is bound now, or it has no home and keeps waiting.
    have before : e.bound doc name queue waiting type = type.moduleName := by
      rw [bound, if_neg]
      exact fun h => h.2.2 mem
    have start : s.moduleAfter waiting { type with moduleName := e.bound doc name queue waiting type } =
        s.moduleAfter waiting type := s.moduleAfter_congr_type waiting rfl rfl rfl before
    rw [start, moduleAfter_bound_of_mem h sub nodup last separate named mem, bound]
    cases home : s.home? (type.written doc name) with
    | none =>
      have left : type.written doc name ∈ waiting.filter fun c => (s.home? c).isNone :=
        List.mem_filter.2 ⟨mem, by rw [home]; rfl⟩
      rw [if_neg fun h => h.2.2 left, homeOf, home]
      rfl
    | some found =>
      have gone : type.written doc name ∉ waiting.filter fun c => (s.home? c).isNone := by
        rw [List.mem_filter, home]
        exact fun h => Bool.false_ne_true h.2
      rw [if_pos ⟨named, sub mem, gone⟩, homeOf, homeOf, home, last _ mem found home]
  · have left : type.written doc name ∉ waiting.filter fun c => (s.home? c).isNone :=
      fun h => mem (List.mem_of_mem_filter h)
    have same : e.bound doc name queue (waiting.filter fun c => (s.home? c).isNone) type =
        e.bound doc name queue waiting type := by
      rw [bound, bound]
      simp only [left, mem]
    rw [same]
    exact moduleAfter_bound_of_notMem h sub last separate named mem

end Bound

/-! ## Registrations -/

/-- The types of the unit have the homes that their contexts have in `e`, but for those that wait. -/
def Binds (e s : SymbolStore) (u : SourceUnit) (p : Pending) (modules : String → TypeRef → String) :
    Prop :=
  ∀ name type, modules name type = e.bound u.doc name (p.typesIn name)
    ((s.pending.typesIn name).filter (·.doc == u.doc)) type

/-- The hoisted members are those that are found in `e`. -/
def Hoists (e : SymbolStore) (hoists : List (PendingInline × List Member)) : Prop :=
  ∀ h ∈ hoists, e.inlinedMembers? h.1 = some h.2

/-- Members none of which is an inline member. -/
def Plain (members : List Member) : Prop :=
  ∀ m ∈ members, m.awaitsExpansion = false ∧ m.isExpanded = false

/-- The contexts of the module do not find the types of the members, or leave them as they are. -/
def Calm (e : SymbolStore) (queue : List PendingType) (members : List Member) : Prop :=
  ∀ m ∈ members, ∀ t ∈ m.types, t.isNamed = true → ∀ c ∈ queue, c.typeName = t.name →
    c.written = t.moduleName → e.homeOf c = c.written

section Decidable

variable (e : SymbolStore)

instance (queue : List PendingType) : Decidable (e.Separate queue) :=
  inferInstanceAs (Decidable (∀ c ∈ queue, _))

instance (members : List Member) : Decidable (Plain members) :=
  inferInstanceAs (Decidable (∀ m ∈ members, _))

instance (queue : List PendingType) (members : List Member) : Decidable (e.Calm queue members) :=
  inferInstanceAs (Decidable (∀ m ∈ members, _))

end Decidable

section Steps

variable {s e : SymbolStore} {u v : SourceUnit} {p q : Pending} {modules : String → TypeRef → String}

theorem ofModule_typesIn (hp : p.Tidy) (own : p.BelongsTo u.doc) (name : String) :
    OfModule (p.typesIn name) u.doc name := fun c hc =>
  ⟨own.types c (Pending.mem_types_iff.2 ⟨name, hc⟩), hp.context_eq name c hc⟩

/-- The types of a document that wait after a registration. -/
theorem waiting_register (hs : s.pending.Tidy) {doc : DocId}
    (placed : ((s.placed v q).unit? doc).isSome = true) (name : String) :
    ((s.register v q).pending.typesIn name).filter (·.doc == doc) =
      (((s.placed v q).pending.typesIn name).filter (·.doc == doc)).filter
        fun c => ((s.placed v q).home? c).isNone := by
  rw [register_eq, typesIn_settle (tidy_placed hs v q), List.filter_filter, List.filter_filter]
  refine List.filter_congr fun c _ => ?_
  by_cases same : c.doc = doc
  · have contains : (s.placed v q).contains c.doc = true := by
      rw [same]
      exact placed
    rw [waits, contains, same, beq_self_eq_true, Bool.true_and, Bool.and_true]
  · rw [beq_eq_false_iff_ne.2 same, Bool.false_and, Bool.and_false]

/-- Where the homes last, a unit is bound to them when it is registered. -/
theorem binds_register (hs : s.pending.Tidy) (hp : p.Tidy) (own : p.BelongsTo u.doc)
    (last : ∀ name, ∀ c ∈ p.typesIn name, ∀ home, (s.register u p).home? c = some home →
      e.home? c = some home)
    (separate : ∀ name, e.Separate (p.typesIn name)) :
    e.Binds (s.register u p) u p fun name => (s.placed u p).moduleAfter (p.typesIn name) := by
  intro name type
  have kept : (s.register u p).skeleton = (s.placed u p).skeleton := skeleton_settle _
  have start : type.moduleName = e.bound u.doc name (p.typesIn name) (p.typesIn name) type := by
    rw [bound, if_neg]
    exact fun h => h.2.2 h.2.1
  have after := moduleAfter_bound (s := s.placed u p) (ofModule_typesIn hp own name) (List.Subset.refl _)
    (hp.nodup name) (fun c hc home found => last name c hc home ((home?_congr kept c).trans found))
    (separate name) type
  have placed : ((s.placed u p).unit? u.doc).isSome = true := by
    rw [unit?_placed, if_pos rfl]
    rfl
  rw [waiting_register hs placed, ← (tidy_placed hs u p).filter_isIn, filter_types_placed s hp own,
    ← after]
  exact moduleAfter_congr_type _ _ rfl rfl rfl start

/-- It stays bound to them when another document is registered. -/
theorem Binds.register (h : e.Binds s u p modules) (unit : (s.unit? u.doc).isSome = true)
    (types : ∀ name, ∀ c ∈ s.pending.typesIn name, c.doc = u.doc → c ∈ p.typesIn name)
    (hs : s.pending.Tidy) (hp : p.Tidy) (own : p.BelongsTo u.doc) (hq : q.Tidy)
    (other : q.BelongsTo v.doc) (ne : v.doc ≠ u.doc)
    (last : ∀ name, ∀ c ∈ p.typesIn name, ∀ home, (s.register v q).home? c = some home →
      e.home? c = some home)
    (separate : ∀ name, e.Separate (p.typesIn name)) :
    e.Binds (s.register v q) u p fun name t =>
      (s.placed v q).moduleAfter ((s.pending.typesIn name).filter (·.doc == u.doc))
        (t.mapModule (modules name)) := by
  intro name type
  have kept : (s.register v q).skeleton = (s.placed v q).skeleton := skeleton_settle _
  have sub : (s.pending.typesIn name).filter (·.doc == u.doc) ⊆ p.typesIn name := by
    intro c hc
    rw [List.mem_filter, beq_iff_eq] at hc
    exact types name c hc.1 hc.2
  have after := moduleAfter_bound (s := s.placed v q) (ofModule_typesIn hp own name) sub
    ((hs.nodup name).filter _)
    (fun c hc home found => last name c (sub hc) home ((home?_congr kept c).trans found))
    (separate name) type
  have placed : ((s.placed v q).unit? u.doc).isSome = true := by
    rw [unit?_placed, if_neg (Ne.symm ne)]
    exact unit
  rw [waiting_register hs placed, ← (tidy_placed hs v q).filter_isIn,
    filter_types_placed_of_ne hs hq other (Ne.symm ne), ← after]
  refine moduleAfter_congr_type _ _ (TypeRef.mapModule_name _ _) (TypeRef.mapModule_isBuiltin _ _)
    (TypeRef.mapModule_isGenericParameter _ _) ?_
  rw [TypeRef.mapModule_moduleName]
  exact h name type

/-- Forgetting another document keeps what waits. -/
theorem Binds.delete (h : e.Binds s u p modules) {doc : DocId} (ne : u.doc ≠ doc) :
    e.Binds (s.delete doc) u p modules := by
  intro name type
  have waiting : ((s.delete doc).pending.typesIn name).filter (·.doc == u.doc) =
      (s.pending.typesIn name).filter (·.doc == u.doc) := by
    show (((s.pending.purge doc).typesIn name).filter (·.doc == u.doc)) = _
    rw [Pending.typesIn_purge, List.filter_filter]
    refine List.filter_congr fun c _ => ?_
    by_cases same : c.doc = u.doc
    · rw [same, beq_self_eq_true, Bool.true_and, bne_iff_ne]
      exact ne
    · rw [beq_eq_false_iff_ne.2 same, Bool.false_and]
  rw [waiting]
  exact h name type

/-- Where members last and are plain, the hoisted ones are those at the end. -/
theorem hoists_of_found {hoists : List (PendingInline × List Member)}
    (found : ∀ h ∈ hoists, ∃ members, s.inlinedMembers? h.1 = some members ∧
      (members = h.2 ∨ ∃ m ∈ members, m.isExpanded = true))
    (last : ∀ h ∈ hoists, ∀ members, s.inlinedMembers? h.1 = some members →
      e.inlinedMembers? h.1 = some members ∧ Plain members) : e.Hoists hoists := by
  intro h hh
  obtain ⟨members, hm, same⟩ := found h hh
  obtain ⟨lasts, plain⟩ := last h hh members hm
  rcases same with rfl | ⟨m, mem, expanded⟩
  · exact lasts
  · rw [(plain m mem).2] at expanded
    cases expanded

/-- Calm members are not touched when types are bound. -/
theorem Calm.mapModule {queue waiting : List PendingType} {members : List Member}
    (h : e.Calm queue members) (sub : waiting ⊆ queue)
    (last : ∀ c ∈ waiting, ∀ home, s.home? c = some home → e.home? c = some home) :
    members.map (Member.mapModule (s.moduleAfter waiting)) = members := by
  have kept : ∀ m ∈ members, m.mapModule (s.moduleAfter waiting) = m := by
    intro m hm
    refine (Member.mapModule_congr m fun t ht => ?_).trans (Member.mapModule_self m)
    refine moduleAfter_of_kept fun c hc => ?_
    by_cases named : t.isNamed = true
    · rw [moduleUnder_of_isNamed named]
      split
      next found =>
        refine (homeOf_eq_written (last c hc) ?_).trans found.2
        exact h m hm t ht named c (sub hc) found.1 found.2
      next => rfl
    · exact moduleUnder_of_not_isNamed (Bool.eq_false_iff.2 named) c
  exact (List.map_congr_left kept).trans (List.map_id' members)

end Steps

/-! ## Lasting work -/

/-- What is found for the pending work is what `e` finds for it. -/
structure Lasts (e s : SymbolStore) (p : Pending) : Prop where
  homes : ∀ c ∈ p.types, (s.home? c).isSome = true → e.home? c = s.home? c
  members : ∀ i ∈ p.inlines, (s.inlinedMembers? i).isSome = true →
    e.inlinedMembers? i = s.inlinedMembers? i

/-- One piece of the pending work does not undo another: the homes of contexts are no qualifiers of
others, and the inlined members neither wait nor have types that are bound once more. -/
structure Unmixed (e : SymbolStore) (p : Pending) : Prop where
  separate : ∀ c ∈ p.types, e.Separate (p.typesIn c.context)
  plain : ∀ i ∈ p.inlines, ∀ members ∈ e.inlinedMembers? i, Plain members
  calm : ∀ i ∈ p.inlines, ∀ members ∈ e.inlinedMembers? i, e.Calm (p.typesIn i.moduleName) members

instance (e : SymbolStore) (p : Pending) : Decidable (e.Unmixed p) :=
  decidable_of_iff ((∀ c ∈ p.types, e.Separate (p.typesIn c.context)) ∧
      (∀ i ∈ p.inlines, ∀ members ∈ e.inlinedMembers? i, Plain members) ∧
      ∀ i ∈ p.inlines, ∀ members ∈ e.inlinedMembers? i, e.Calm (p.typesIn i.moduleName) members)
    ⟨fun h => ⟨h.1, h.2.1, h.2.2⟩, fun h => ⟨h.separate, h.plain, h.calm⟩⟩

/-- The unit is in the store, as far as it is resolved; and where `c` holds it has the homes and
members that `e` finds. -/
def Fits (c : Prop) (e s : SymbolStore) (u : SourceUnit) (p : Pending) : Prop :=
  ∃ modules hoists, s.Resolved u p modules hoists ∧ (c → e.Binds s u p modules ∧ e.Hoists hoists)

section Lasting

variable {s e : SymbolStore} {u v : SourceUnit} {p q : Pending}

theorem Lasts.home? (h : e.Lasts s p) {name : String} {c : PendingType} (hc : c ∈ p.typesIn name)
    {home : String} (found : s.home? c = some home) : e.home? c = some home := by
  have known : (s.home? c).isSome = true := by
    rw [found]
    rfl
  rw [h.homes c (Pending.mem_types_iff.2 ⟨name, hc⟩) known, found]

theorem Lasts.inlinedMembers? (h : e.Lasts s p) {i : PendingInline} (hi : i ∈ p.inlines)
    {members : List Member} (found : s.inlinedMembers? i = some members) :
    e.inlinedMembers? i = some members := by
  have known : (s.inlinedMembers? i).isSome = true := by
    rw [found]
    rfl
  rw [h.members i hi known, found]

theorem Unmixed.separate_typesIn (h : e.Unmixed p) (hp : p.Tidy) (name : String) :
    e.Separate (p.typesIn name) := by
  intro c hc
  have separate := h.separate c (Pending.mem_types_iff.2 ⟨name, hc⟩)
  rw [hp.context_eq name c hc] at separate
  exact separate c hc

theorem Unmixed.hoists_of_found (h : e.Unmixed p) (lasts : e.Lasts s p)
    {hoists : List (PendingInline × List Member)} (own : ∀ g ∈ hoists, g.1 ∈ p.inlines)
    (found : ∀ g ∈ hoists, ∃ members, s.inlinedMembers? g.1 = some members ∧
      (members = g.2 ∨ ∃ m ∈ members, m.isExpanded = true)) : e.Hoists hoists := by
  refine SymbolStore.hoists_of_found found fun g hg members known => ?_
  have last := lasts.inlinedMembers? (own g hg) known
  exact ⟨last, h.plain g.1 (own g hg) members last⟩

variable {c : Prop}

/-- A unit fits when it is registered. -/
theorem fits_register (hs : s.pending.Tidy) (nodup : s.pending.inlines.Nodup) (hp : p.Tidy)
    (own : p.BelongsTo u.doc) (lasts : c → e.Lasts (s.register u p) p) (unmixed : c → e.Unmixed p) :
    Fits c e (s.register u p) u p := by
  obtain ⟨hoists, resolved, found⟩ := resolved_register hs nodup hp own
  refine ⟨_, hoists, resolved, fun hc => ⟨?_, ?_⟩⟩
  · exact binds_register hs hp own (fun _ t ht home => (lasts hc).home? ht)
      ((unmixed hc).separate_typesIn hp)
  · exact (unmixed hc).hoists_of_found (lasts hc)
      (fun g hg => resolved.own g.1 (List.mem_map_of_mem hg)) found

/-- It still does when another one is registered. -/
theorem Fits.register (h : Fits c e s u p) (hs : s.pending.Tidy) (nodup : s.pending.inlines.Nodup)
    (hp : p.Tidy) (own : p.BelongsTo u.doc) (hq : q.Tidy) (other : q.BelongsTo v.doc)
    (ne : v.doc ≠ u.doc) (lasts : c → e.Lasts (s.register v q) p) (unmixed : c → e.Unmixed p) :
    Fits c e (s.register v q) u p := by
  obtain ⟨modules, hoists, before, fits⟩ := h
  obtain ⟨new, resolved, found⟩ := before.register own hs nodup hq other ne
  have unit : (s.unit? u.doc).isSome = true := by
    rw [before.unit]
    rfl
  refine ⟨_, _, resolved, fun hc => ⟨?_, ?_⟩⟩
  · exact (fits hc).1.register unit (fun name t ht doc => (before.types name t ht doc).1) hs hp own hq
      other ne (fun _ t ht home => (lasts hc).home? ht) ((unmixed hc).separate_typesIn hp)
  · obtain ⟨-, known⟩ := fits hc
    -- The members that were hoisted before are not touched when types are bound.
    have same : SourceUnit.rebind (fun name => (s.placed v q).moduleAfter
        ((s.pending.typesIn name).filter (·.doc == u.doc))) hoists = hoists := by
      refine (List.map_congr_left fun g hg => ?_).trans (List.map_id' hoists)
      have mine := before.own g.1 (List.mem_map_of_mem hg)
      have sub : (s.pending.typesIn g.1.moduleName).filter (·.doc == u.doc) ⊆
          p.typesIn g.1.moduleName := by
        intro t ht
        rw [List.mem_filter, beq_iff_eq] at ht
        exact (before.types _ t ht.1 ht.2).1
      have kept : (s.register v q).skeleton = (s.placed v q).skeleton := skeleton_settle _
      rw [((unmixed hc).calm g.1 mine g.2 (known g hg)).mapModule sub]
      intro t ht home found
      exact (lasts hc).home? (sub ht) ((home?_congr kept t).trans found)
    rw [same]
    intro g hg
    rcases List.mem_append.1 hg with hg | hg
    · exact known g hg
    · refine (unmixed hc).hoists_of_found (lasts hc) (fun k hk => ?_) found g hg
      exact resolved.own k.1 (List.mem_map_of_mem (List.mem_append_right _ hk))

/-- It still does when another one is forgotten. -/
theorem Fits.delete (h : Fits c e s u p) (own : p.BelongsTo u.doc) (structs : s.OwnsStructs)
    {doc : DocId} (ne : u.doc ≠ doc) : Fits c e (s.delete doc) u p := by
  obtain ⟨modules, hoists, resolved, fits⟩ := h
  exact ⟨modules, hoists, resolved.delete own structs ne, fun hc =>
    ⟨(fits hc).1.delete ne, (fits hc).2⟩⟩

end Lasting

end C3Lens.SymbolStore
