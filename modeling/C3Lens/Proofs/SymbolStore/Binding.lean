import C3Lens.Document.Basic
import C3Lens.Proofs.Outline.Unit
import C3Lens.Proofs.SymbolStore.Register

/-!
# Which context binds a type

Each user-defined type that a document writes is recorded as a pending type of its own name,
module and qualifier, and it is meant to be bound by that one. But a pending type is looked for by
name and by the module that the type has at the moment: a type that is bound already is bound
again, if the module it was bound to is itself the qualifier of a later pending type.

* `boundByOwn_iff_not_overtaken`: this is the only way in which a type is not bound by its own
  context, for each type of each document and for each store;
* `bound_by_other_context`: a document in which it happens.
-/

namespace C3Lens

/-- Whether the type is neither built in nor a generic parameter. -/
def TypeRef.isNamed (t : TypeRef) : Bool :=
  !t.isBuiltin && !t.isGenericParameter

theorem TypeRef.isNamed_of_isUser {t : TypeRef} (h : t.isUser = true) : t.isNamed = true := by
  rw [isUser, Bool.and_eq_true] at h
  exact h.1

/-- The pending type for a type that is written in a module of a document. -/
def TypeRef.written (t : TypeRef) (doc : DocId) (context : String) : PendingType :=
  ⟨doc, context, t.name, t.moduleName⟩

namespace SymbolStore

/-- Where the context has its home; the written qualifier without a home. -/
def homeOf (s : SymbolStore) (c : PendingType) : String :=
  (s.home? c).getD c.written

/-- The type with the context `own` ends up where that context has its home, and no context with
another qualifier changes it. -/
structure BoundByOwn (s : SymbolStore) (queue : List PendingType) (own : PendingType)
    (type : TypeRef) : Prop where
  home : s.moduleAfter queue type = s.homeOf own
  kept : ∀ before c after, queue = before ++ c :: after → c.written ≠ own.written →
    s.moduleAfter (before ++ [c]) type = s.moduleAfter before type

/-- The home of the context is the written qualifier of a later one of the same name, which has
another home. -/
def Overtaken (s : SymbolStore) (queue : List PendingType) (own : PendingType) : Prop :=
  ∃ before between c after, queue = before ++ own :: (between ++ c :: after) ∧
    c.typeName = own.typeName ∧ c.written ≠ own.written ∧
      s.homeOf own = c.written ∧ s.homeOf c ≠ c.written

section Queue

variable {s : SymbolStore} {queue : List PendingType} {own : PendingType} {type : TypeRef}

theorem Overtaken.append (h : s.Overtaken queue own) (more : List PendingType) :
    s.Overtaken (queue ++ more) own := by
  obtain ⟨before, between, c, after, rfl, rest⟩ := h
  refine ⟨before, between, c, after ++ more, ?_, rest⟩
  simp only [List.append_assoc, List.cons_append]

theorem moduleUnder_of_isNamed (named : type.isNamed = true) (c : PendingType) :
    s.moduleUnder c type =
      if c.typeName = type.name ∧ c.written = type.moduleName then s.homeOf c else type.moduleName := by
  rw [TypeRef.isNamed] at named
  rw [moduleUnder, homeOf]
  by_cases meant : c.typeName = type.name ∧ c.written = type.moduleName
  · rw [if_pos meant]
    cases s.home? c with
    | none => exact meant.2.symm
    | some home => simp [boundModule, named, meant.1, meant.2]
  · rw [if_neg meant]
    cases s.home? c with
    | none => rfl
    | some home =>
      show boundModule c home type = type.moduleName
      rw [boundModule, if_neg]
      simp only [Bool.and_eq_true, beq_iff_eq]
      rintro ⟨⟨-, name⟩, module⟩
      exact meant ⟨name.symm, module.symm⟩

theorem moduleUnder_of_not_isNamed (unnamed : type.isNamed = false) (c : PendingType) :
    s.moduleUnder c type = type.moduleName := by
  rw [TypeRef.isNamed] at unnamed
  rw [moduleUnder]
  cases s.home? c with
  | none => rfl
  | some home => simp [boundModule, unnamed]

/-- A type that no context of the queue changes. -/
theorem moduleAfter_of_kept (h : ∀ c ∈ queue, s.moduleUnder c type = type.moduleName) :
    s.moduleAfter queue type = type.moduleName := by
  induction queue with
  | nil => rfl
  | cons c queue ih =>
    have first := h c List.mem_cons_self
    have rest := ih fun d hd => h d (List.mem_cons_of_mem _ hd)
    have same : s.moduleAfter queue { type with moduleName := s.moduleUnder c type } =
        s.moduleAfter queue type := s.moduleAfter_congr_type queue rfl rfl rfl first
    exact same.trans rest

theorem moduleAfter_concat (s : SymbolStore) (queue : List PendingType) (c : PendingType)
    (type : TypeRef) : s.moduleAfter (queue ++ [c]) type =
      s.moduleUnder c { type with moduleName := s.moduleAfter queue type } := by
  rw [moduleAfter_append]
  rfl

end Queue

/-! ## One queue -/

section Own

variable {s : SymbolStore} {queue : List PendingType} {doc : DocId} {name : String} {type : TypeRef}

/-- The queue is that of one module. -/
def OfModule (queue : List PendingType) (doc : DocId) (name : String) : Prop :=
  ∀ c ∈ queue, c.doc = doc ∧ c.context = name

theorem OfModule.eq_written (h : OfModule queue doc name) {c : PendingType} (hc : c ∈ queue)
    (typeName : c.typeName = type.name) (module : c.written = type.moduleName) :
    c = type.written doc name := by
  obtain ⟨d, context⟩ := h c hc
  obtain ⟨_, _, _, _⟩ := c
  cases d
  cases context
  cases typeName
  cases module
  rfl

/-- Before its own context a type has the qualifier that it is written with. -/
theorem moduleAfter_of_notMem (h : OfModule queue doc name) (named : type.isNamed = true)
    (absent : type.written doc name ∉ queue) : s.moduleAfter queue type = type.moduleName := by
  refine moduleAfter_of_kept fun c hc => ?_
  rw [moduleUnder_of_isNamed named, if_neg]
  rintro ⟨typeName, module⟩
  exact absent (h.eq_written hc typeName module ▸ hc)

/-- After it, the type has the home of its own context, until a later context finds it. -/
theorem moduleAfter_of_split {before between : List PendingType}
    (h : OfModule (before ++ type.written doc name :: between) doc name) (named : type.isNamed = true)
    (nodup : (before ++ type.written doc name :: between).Nodup)
    (apart : ∀ c ∈ between, c.typeName = type.name → c.written ≠ type.moduleName →
      s.homeOf (type.written doc name) = c.written → s.homeOf c = c.written) :
    s.moduleAfter (before ++ type.written doc name :: between) type =
      s.homeOf (type.written doc name) := by
  obtain ⟨-, nodup, disjoint⟩ := List.nodup_append.1 nodup
  have start : s.moduleAfter before type = type.moduleName := by
    refine moduleAfter_of_notMem (fun c hc => h c (List.mem_append_left _ hc)) named fun mem => ?_
    exact disjoint _ mem _ List.mem_cons_self rfl
  have own : s.moduleUnder (type.written doc name) type = s.homeOf (type.written doc name) := by
    rw [moduleUnder_of_isNamed named, if_pos ⟨rfl, rfl⟩]
  have rest : s.moduleAfter between { type with moduleName := s.homeOf (type.written doc name) } =
      s.homeOf (type.written doc name) := by
    refine moduleAfter_of_kept fun c hc => ?_
    have named' : { type with moduleName := s.homeOf (type.written doc name) }.isNamed = true := named
    rw [moduleUnder_of_isNamed named']
    split
    next found =>
      refine (apart c hc found.1 (fun same => ?_) found.2.symm).trans found.2
      have eq : c = type.written doc name :=
        h.eq_written (List.mem_append_right _ (List.mem_cons_of_mem _ hc)) found.1 same
      exact (List.nodup_cons.1 nodup).1 (eq ▸ hc)
    next => rfl
  have tail : s.moduleAfter (type.written doc name :: between) type =
      s.homeOf (type.written doc name) := by
    rw [moduleAfter, own]
    exact rest
  rw [moduleAfter_append, start, ← tail]
  exact s.moduleAfter_congr_type _ rfl rfl rfl rfl

theorem moduleAfter_of_not_overtaken (h : OfModule queue doc name) (named : type.isNamed = true)
    (nodup : queue.Nodup) (mem : type.written doc name ∈ queue)
    (free : ¬ s.Overtaken queue (type.written doc name)) :
    s.moduleAfter queue type = s.homeOf (type.written doc name) := by
  obtain ⟨before, rest, rfl⟩ := List.append_of_mem mem
  refine moduleAfter_of_split h named nodup fun c hc typeName module found => ?_
  obtain ⟨between, after, rfl⟩ := List.append_of_mem hc
  by_contra other
  exact free ⟨before, between, c, after, rfl, typeName, module, found, other⟩

/-- A type is bound by its own context exactly if no other one takes it over. -/
theorem boundByOwn_iff (h : OfModule queue doc name) (named : type.isNamed = true)
    (nodup : queue.Nodup) (mem : type.written doc name ∈ queue) :
    s.BoundByOwn queue (type.written doc name) type ↔
      ¬ s.Overtaken queue (type.written doc name) := by
  constructor
  · rintro bound ⟨before, between, c, after, rfl, typeName, module, found, other⟩
    have whole : before ++ type.written doc name :: (between ++ c :: after) =
        (before ++ type.written doc name :: between) ++ c :: after := by
      simp only [List.append_assoc, List.cons_append]
    have kept := bound.kept _ c after whole module
    rw [whole] at h nodup
    obtain ⟨nodupBefore, -, disjoint⟩ := List.nodup_append.1 nodup
    have here := h c (List.mem_append_right _ List.mem_cons_self)
    have reached : s.moduleAfter (before ++ type.written doc name :: between) type =
        s.homeOf (type.written doc name) := by
      refine moduleAfter_of_split (fun d hd => h d (List.mem_append_left _ hd)) named nodupBefore ?_
      -- No other context of the queue looks for the same types as `c`.
      intro d hd dName _ dFound
      have dBefore : d ∈ before ++ type.written doc name :: between :=
        List.mem_append_right _ (List.mem_cons_of_mem _ hd)
      have there := h d (List.mem_append_left _ dBefore)
      refine absurd ?_ (disjoint d dBefore c List.mem_cons_self)
      obtain ⟨_, _, _, _⟩ := c
      obtain ⟨_, _, _, _⟩ := d
      simp only [PendingType.mk.injEq]
      exact ⟨there.1.trans here.1.symm, there.2.trans here.2.symm, dName.trans typeName.symm,
        dFound.symm.trans found⟩
    have named' : { type with moduleName := s.homeOf (type.written doc name) }.isNamed = true := named
    rw [moduleAfter_concat, reached, moduleUnder_of_isNamed named', if_pos ⟨typeName, found.symm⟩] at kept
    exact other (kept.trans found)
  · intro free
    refine ⟨moduleAfter_of_not_overtaken h named nodup mem free, ?_⟩
    rintro before c after rfl ne
    have whole : before ++ c :: after = (before ++ [c]) ++ after := by
      rw [List.append_assoc, List.singleton_append]
    have first : OfModule before doc name := fun d hd => h d (List.mem_append_left _ hd)
    rw [whole] at h nodup free
    have second : OfModule (before ++ [c]) doc name := fun d hd => h d (List.mem_append_left _ hd)
    have nodupSecond := (List.nodup_append.1 nodup).1
    by_cases past : type.written doc name ∈ before
    · have freeSecond : ¬ s.Overtaken (before ++ [c]) (type.written doc name) := fun taken =>
        free (taken.append after)
      rw [moduleAfter_of_not_overtaken second named nodupSecond (List.mem_append_left _ past) freeSecond,
        moduleAfter_of_not_overtaken first named (List.nodup_append.1 nodupSecond).1 past fun taken =>
          freeSecond (taken.append [c])]
    · have absent : type.written doc name ∉ before ++ [c] := by
        rw [List.mem_append, List.mem_singleton]
        rintro (mem | rfl)
        · exact past mem
        · exact ne rfl
      rw [moduleAfter_of_notMem second named absent, moduleAfter_of_notMem first named past]

end Own

/-! ## Documents -/

/-- Right after the registration of a document, the types of a module are those it writes, each
with the module that the queue leaves it with; and that is the home of its own context exactly if
no later context of the queue takes the type over. -/
theorem boundByOwn_iff_not_overtaken (s : SymbolStore) (doc : DocId) (lines : LineTable) (tree : Tree)
    {name : String} {m : Module} {type : TypeRef}
    (declared : (outline doc lines tree).1.module? name = some m) (written : type ∈ m.types)
    (user : type.isUser = true) :
    let o := outline doc lines tree
    let after := s.register o.1 o.2
    let queue := o.2.typesIn name
    let own := type.written doc name
    (∃ n, (after.unit? doc).bind (·.module? name) = some n ∧
        (m.mapModule (after.moduleAfter queue)).HoistsTo n) ∧
      (after.BoundByOwn queue own type ↔ ¬ after.Overtaken queue own) := by
  intro o after queue
  obtain ⟨unit, tidy, own, covers⟩ := outline_sound doc lines tree
  have recorded := covers name m declared _ (TypeRef.mem_usesOf written user)
  have homes : after.skeleton = (s.placed o.1 o.2).skeleton := skeleton_settle _
  refine ⟨?_, boundByOwn_iff (fun c hc => ?_) (TypeRef.isNamed_of_isUser user)
    (tidy.nodup name) ?_⟩
  · obtain ⟨n, found, hoists⟩ := module?_register s tidy (unit.symm ▸ own) declared
    rw [unit] at found
    refine ⟨n, found, ?_⟩
    rw [funext (moduleAfter_congr homes _)]
    exact hoists
  · exact ⟨own.types c (Pending.mem_types_iff.2 ⟨name, hc⟩), tidy.context_eq name c hc⟩
  · exact tidy.mem_types_iff.1 recorded

/-- Two modules, one below the other, that declare structs of one name. -/
def twoFoos : Document :=
  Document.ofText ⟨"file:///a.c3"⟩ ("module x;\nstruct Foo { int i; }\n" ++
    "module x::a;\nstruct Foo { int j; }\na::Foo p;\nFoo q;") 1

set_option maxRecDepth 100000 in
/-- The type of `p` in `twoFoos` is taken over by the context of the type of `q`. -/
theorem not_boundByOwn_twoFoos :
    let o := outline twoFoos.id twoFoos.lines twoFoos.parse.tree
    let after := empty.register o.1 o.2
    ∃ m type, o.1.module? "x::a" = some m ∧ type ∈ m.types ∧ type.isUser = true ∧
      (∃ n, (after.unit? twoFoos.id).bind (·.module? "x::a") = some n ∧
        (m.mapModule (after.moduleAfter (o.2.typesIn "x::a"))).HoistsTo n) ∧
      ¬ after.BoundByOwn (o.2.typesIn "x::a") (type.written twoFoos.id "x::a") type := by
  intro o after
  have facts : (o.1.module? "x::a").any (fun m =>
        m.types.any fun t => t.isUser && t.name == "Foo" && t.moduleName == "a") = true ∧
      o.2.typesIn "x::a" =
        [⟨twoFoos.id, "x::a", "Foo", "a"⟩, ⟨twoFoos.id, "x::a", "Foo", "x::a"⟩] ∧
      after.homeOf ⟨twoFoos.id, "x::a", "Foo", "a"⟩ = "x::a" ∧
      after.homeOf ⟨twoFoos.id, "x::a", "Foo", "x::a"⟩ = "x" := by
    decide +kernel
  obtain ⟨read, queue, homes⟩ := facts
  obtain ⟨m, declared, types⟩ := (Option.any_eq_true _ _).1 read
  obtain ⟨type, written, found⟩ := List.any_eq_true.1 types
  simp only [Bool.and_eq_true, beq_iff_eq] at found
  obtain ⟨⟨user, typeName⟩, module⟩ := found
  have bound := boundByOwn_iff_not_overtaken empty twoFoos.id twoFoos.lines twoFoos.parse.tree declared
    written user
  refine ⟨m, type, declared, written, user, bound.1, fun own => bound.2.1 own ?_⟩
  refine ⟨[], [], ⟨twoFoos.id, "x::a", "Foo", "x::a"⟩, [], ?_, typeName.symm, ?_, ?_, ?_⟩
  · rw [queue, TypeRef.written, typeName, module]
    rfl
  · rw [TypeRef.written, typeName, module]
    decide
  · rw [TypeRef.written, typeName, module]
    exact homes.1
  · rw [homes.2]
    decide

set_option maxRecDepth 100000 in
/-- The context of the type of `p` has its home in `x::a`, and the type ends up in `x`. -/
theorem bound_by_other_context :
    let o := outline twoFoos.id twoFoos.lines twoFoos.parse.tree
    let after := empty.register o.1 o.2
    after.home? ⟨twoFoos.id, "x::a", "Foo", "a"⟩ = some "x::a" ∧
      (((o.1.module? "x::a").bind (·.globals.get? "p")).map (·.type.moduleName)) = some "a" ∧
      ((((after.unit? twoFoos.id).bind (·.module? "x::a")).bind (·.globals.get? "p")).map
        (·.type.moduleName)) = some "x" := by
  decide +kernel

end SymbolStore

end C3Lens
