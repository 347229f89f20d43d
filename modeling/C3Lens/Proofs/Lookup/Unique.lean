import C3Lens.Answer.Declaration
import C3Lens.Proofs.Lookup.Names
import C3Lens.Proofs.Symbol.Spelling
import C3Lens.Proofs.Workspace.Agreement

/-!
# Names with one declaration

A name that one declaration of a workspace has and no other may be looked up in many modules, but nothing
else is found (`SymbolStore.OnlyCalled`). So a declaration of a visible module is found by its name
(`Viewpoint.Named.find?_of_only`), and a method behind a type of the receiver's name
(`Viewpoint.Named.step?_of_only`).
-/

namespace C3Lens

/-! ## All declarations of a name -/

namespace Module

/-- Parameters and local variables of all functions, those of interfaces included, and the associated
values of enums. -/
def boundVariables (m : Module) : List Variable :=
  ((m.functions ++ m.interfaces.values.flatMap (·.methods.values)).flatMap fun f =>
    f.parameters.values ++ f.locals) ++ m.enums.values.flatMap (·.values)

/-- The declarations of a module, those inside of others and the variables. -/
def allSymbols (m : Module) : List Symbol :=
  m.children ++ m.nestedSymbols ++ m.boundVariables.map .variable

variable {m : Module} {name : String} {s : Symbol}

theorem mem_nestedSymbols_iff :
    s ∈ m.nestedSymbols ↔
      (∃ a ∈ m.structs.values, ∃ k ∈ a.members, .member k = s) ∨
      (∃ b ∈ m.bitstructs.values, ∃ k ∈ b.members, .member k = s) ∨
      (∃ e ∈ m.enums.values, ∃ x ∈ e.enumerators, .enumerator x e = s) ∨
      (∃ f ∈ m.faults.values, ∃ c ∈ f.constants, .faultConstant c = s) ∨
      ∃ i ∈ m.interfaces.values, ∃ f ∈ i.methods.values, .interfaceMethod f i = s := by
  simp only [nestedSymbols, List.mem_append, List.mem_flatMap, List.mem_map, or_assoc]

theorem mem_allSymbols_of_child (h : s ∈ m.children) : s ∈ m.allSymbols :=
  List.mem_append_left _ (List.mem_append_left _ h)

theorem mem_allSymbols_of_nested (h : s ∈ m.nestedSymbols) : s ∈ m.allSymbols :=
  List.mem_append_left _ (List.mem_append_right _ h)

theorem mem_allSymbols_of_variable {x : Variable} (h : x ∈ m.boundVariables) : .variable x ∈ m.allSymbols :=
  List.mem_append_right _ (List.mem_map_of_mem h)

theorem mem_boundVariables_of_function {f : Function} {x : Variable} (hf : f ∈ m.functions)
    (hx : x ∈ f.parameters.values ∨ x ∈ f.locals) : x ∈ m.boundVariables :=
  List.mem_append_left _ (List.mem_flatMap.2 ⟨f, List.mem_append_left _ hf, List.mem_append.2 hx⟩)

theorem mem_boundVariables_of_enum {e : Enum} {x : Variable} (he : e ∈ m.enums.values) (hx : x ∈ e.values) :
    x ∈ m.boundVariables :=
  List.mem_append_right _ (List.mem_flatMap.2 ⟨e, he, hx⟩)

/-- Each kind of declaration has its table. -/
def Holds (m : Module) : Symbol → Prop
  | .variable v => v ∈ m.globals.values
  | .enum e => e ∈ m.enums.values
  | .fault f => f ∈ m.faults.values
  | .faultConstant c => c ∈ m.faultConstants.values
  | .aggregate a => a ∈ m.structs.values
  | .bitstruct b => b ∈ m.bitstructs.values
  | .alias a => a ∈ m.aliases.values
  | .distinct d => d ∈ m.distincts.values
  | .interface i => i ∈ m.interfaces.values
  | .function f => f ∈ m.functions
  | .module _ | .interfaceMethod _ _ | .enumerator _ _ | .member _ => False

theorem mem_children_iff : s ∈ m.children ↔ m.Holds s := by
  cases s <;> simp [children, Holds]

theorem mem_of_child? (h : m.child? name = some s) : s ∈ m.children := by
  have value : ∀ {α : Type} {t : Table α} {a : α}, t.get? name = some a → a ∈ t.values :=
    fun found => Table.mem_values_iff.2 ⟨name, found⟩
  rw [mem_children_iff]
  simp only [child?, Option.orElse_eq_some, Option.map_eq_some_iff] at h
  obtain ⟨v, hv, rfl⟩ | ⟨-, ⟨e, he, rfl⟩ | ⟨-, ⟨f, hf, rfl⟩ | ⟨-, ⟨a, ha, rfl⟩ | ⟨-, ⟨b, hb, rfl⟩ |
    ⟨-, ⟨a, ha, rfl⟩ | ⟨-, ⟨d, hd, rfl⟩ | ⟨-, ⟨i, hi, rfl⟩ | ⟨-, ⟨c, hc, rfl⟩ | ⟨-, f, hf, rfl⟩⟩⟩⟩⟩⟩⟩⟩⟩ := h
  · exact value hv
  · exact value he
  · exact value hf
  · exact value ha
  · exact value hb
  · exact value ha
  · exact value hd
  · exact value hi
  · exact value hc
  · exact List.mem_of_find?_eq_some hf

theorem child?_eq_none_iff :
    m.child? name = none ↔ m.globals.get? name = none ∧ m.enums.get? name = none ∧
      m.faults.get? name = none ∧ m.structs.get? name = none ∧ m.bitstructs.get? name = none ∧
      m.aliases.get? name = none ∧ m.distincts.get? name = none ∧ m.interfaces.get? name = none ∧
      m.faultConstants.get? name = none ∧ m.function? name = none := by
  simp only [child?, Option.orElse_eq_none, Option.map_eq_none_iff]

/-- Where a module declares something, it finds something by its name. -/
theorem Named.child?_ne_none (h : m.Named) : ∀ s ∈ m.children, m.child? s.name ≠ none := by
  have get : ∀ {α : Type} {t : Table α} {key : α → String} {a : α}, t.KeyedBy key → a ∈ t.values →
      t.get? (key a) ≠ none := by
    intro α t key a keyed ha
    rw [keyed.get?_of_mem ha]
    exact Option.some_ne_none a
  rw [forall_children]
  refine ⟨fun _ hs none => ?_, fun _ hs none => ?_, fun _ hs none => ?_, fun _ hs none => ?_,
    fun _ hs none => ?_, fun _ hs none => ?_, fun _ hs none => ?_, fun _ hs none => ?_, fun _ hs none => ?_,
    fun f hs none => ?_⟩
  all_goals rw [child?_eq_none_iff] at none
  · exact get h.globals hs none.1
  · exact get h.enums hs none.2.1
  · exact get h.faults hs none.2.2.1
  · exact get h.faultConstants hs none.2.2.2.2.2.2.2.2.1
  · exact get h.structs hs none.2.2.2.1
  · exact get h.bitstructs hs none.2.2.2.2.1
  · exact get h.aliases hs none.2.2.2.2.2.1
  · exact get h.distincts hs none.2.2.2.2.2.2.1
  · exact get h.interfaces hs none.2.2.2.2.2.2.2.1
  · exact absurd (beq_self_eq_true f.name) (List.find?_eq_none.1 none.2.2.2.2.2.2.2.2.2 f hs)

theorem Named.of_child (h : m.Named) (hs : s ∈ m.children) : s.Named := by
  rw [mem_children_iff] at hs
  cases s with
  | interface i => exact h.methods i hs
  | _ => trivial

end Module

/-- The symbol is the only one of all modules that is called so. -/
structure SymbolStore.OnlyCalled (store : SymbolStore) (name : String) (s : Symbol) : Prop where
  called : s.IsCalled name
  only : ∀ m ∈ store.modules, ∀ t ∈ m.allSymbols, t.IsCalled name → t = s

instance (name : String) : (s : Symbol) → Decidable (s.IsCalled name)
  | .module m => inferInstanceAs (Decidable (m.name = name ∨ m.modulePath.last? = some name))
  | .function f | .interfaceMethod f _ => inferInstanceAs (Decidable (f.shortName = name))
  | .variable v => inferInstanceAs (Decidable (v.name = name))
  | .aggregate a => inferInstanceAs (Decidable (a.name = name))
  | .bitstruct b => inferInstanceAs (Decidable (b.name = name))
  | .enum e => inferInstanceAs (Decidable (e.name = name))
  | .enumerator e _ => inferInstanceAs (Decidable (e.name = name))
  | .fault f => inferInstanceAs (Decidable (f.name = name))
  | .faultConstant c => inferInstanceAs (Decidable (c.name = name))
  | .alias a => inferInstanceAs (Decidable (a.name = name))
  | .distinct d => inferInstanceAs (Decidable (d.name = name))
  | .interface i => inferInstanceAs (Decidable (i.name = name))
  | .member m => inferInstanceAs (Decidable (m.name = name))

/-- If one symbol is called so, each symbol that is called so is the only one. -/
theorem SymbolStore.onlyCalled_of_length {store : SymbolStore} {name : String} {s : Symbol} {m : Module}
    (hm : m ∈ store.modules) (hs : s ∈ m.allSymbols) (called : s.IsCalled name)
    (one : ((store.modules.flatMap Module.allSymbols).filter fun t => decide (t.IsCalled name)).length = 1) :
    store.OnlyCalled name s := by
  obtain ⟨only, same⟩ := List.length_eq_one_iff.1 one
  have eq : ∀ n ∈ store.modules, ∀ t ∈ n.allSymbols, t.IsCalled name → t = only := by
    intro n hn t ht named
    have mem : t ∈ (store.modules.flatMap Module.allSymbols).filter fun t => decide (t.IsCalled name) :=
      List.mem_filter.2 ⟨List.mem_flatMap.2 ⟨n, hn, ht⟩, decide_eq_true named⟩
    rw [same] at mem
    exact List.mem_singleton.1 mem
  exact ⟨called, fun n hn t ht named => (eq n hn t ht named).trans (eq m hm s hs called).symm⟩

/-- No function is without a name of its own. -/
def SymbolStore.FunctionsNamed (store : SymbolStore) : Prop :=
  ∀ m ∈ store.modules, ∀ f ∈ m.functions, NameQuery.Whole f.shortName

/-! ## The modules of the document -/

namespace Workspace

variable {w : Workspace} {doc : DocId} {u : SourceUnit} {m : Module}

/-- For a module that is left out another one of its unit and name is kept. -/
theorem exists_mem_distinctModules {ms : List VisibleModule} {m : VisibleModule} (h : m ∈ ms) :
    ∃ k ∈ distinctModules ms, k.unit = m.unit ∧ k.content.name = m.content.name := by
  have found : ∃ k ∈ distinctModules ms, (k.unit == m.unit && k.content.name == m.content.name) = true :=
    exists_mem_keepFirst (fun k m : VisibleModule => k.unit == m.unit && k.content.name == m.content.name)
      (by rw [beq_self_eq_true, beq_self_eq_true, Bool.and_self]) (.inr h)
  obtain ⟨k, hk, same⟩ := found
  rw [Bool.and_eq_true, beq_iff_eq, beq_iff_eq] at same
  exact ⟨k, hk, same⟩

/-- Every module of a unit is visible in the document of the unit. -/
theorem exists_visible (keyed : w.symbols.Keyed) (names : u.modules.KeyedBy (·.name))
    (unit : w.symbols.unit? doc = some u) (hm : m ∈ u.modules.values) {c : Cursor} (here : c.doc = doc) :
    ∃ k ∈ w.visibleModules c, k.unit = doc ∧ k.content = m := by
  have own : u.doc = doc := DocId.text_inj.1 (keyed _ u unit)
  have known : u ∈ w.symbols.units.values := Table.mem_values_iff.2 ⟨_, unit⟩
  have listed : (⟨u.doc, m, .document⟩ : VisibleModule) ∈ w.modulesOfDocument c := by
    have mem : (⟨u.doc, m, .document⟩ : VisibleModule) ∈ w.modulesWhere .document fun d _ => d == c.doc :=
      mem_modulesWhere_iff.2 ⟨u, known, rfl, hm, beq_iff_eq.2 (own.trans here.symm), rfl⟩
    rw [modulesOfDocument]
    by_cases path : m.modulePath = c.modulePath
    · exact List.mem_append_left _ (List.mem_filter.2 ⟨mem, beq_iff_eq.2 path⟩)
    · exact List.mem_append_right _ (List.mem_filter.2 ⟨mem, bne_iff_ne.2 path⟩)
  obtain ⟨k, hk, unit', name⟩ :
      ∃ k ∈ w.visibleModules c, k.unit = u.doc ∧ k.content.name = m.name := by
    rw [visibleModules]
    exact exists_mem_distinctModules
      (List.mem_append_left _ (List.mem_append_left _ (List.mem_append_left _ listed)))
  refine ⟨k, hk, unit'.trans own, ?_⟩
  -- The kept one is of the same unit, where each name has one module.
  obtain ⟨x, hx, home, content⟩ := unit_of_mem_visibleModules hk
  have units : w.symbols.units.KeyedBy (·.doc.text) := keyed
  have there : w.symbols.unit? x.doc = some x := units.get?_of_mem hx
  rw [← home, unit', own, unit] at there
  cases there
  have found : u.modules.get? k.content.name = some k.content := names.get?_of_mem content
  rw [name] at found
  exact (Option.some.inj ((names.get?_of_mem hm).symm.trans found)).symm

/-- An entry leads to a module or to what a module declares. -/
theorem mem_of_symbolAt? {w : Workspace} {l : SymbolLocation} {s : Symbol} (h : w.symbolAt? l = some s) :
    (∃ m, s = .module m) ∨ ∃ m ∈ w.symbols.modules, s ∈ m.children := by
  obtain ⟨u, unit, found⟩ := Option.bind_eq_some_iff.1 h
  obtain ⟨m, module, found⟩ := Option.bind_eq_some_iff.1 found
  split at found
  · cases found
    exact .inl ⟨m, rfl⟩
  · exact .inr ⟨m, SymbolStore.mem_modules_iff.2 ⟨l.unit.text, u, l.modulePath.text, unit, module⟩,
      Module.mem_of_child? found⟩

end Workspace

namespace Viewpoint

variable {v : Viewpoint} {name : String} {s : Symbol}

/-! ## Plain names -/

/-- The visible modules are modules of the workspace. -/
def Inside (v : Viewpoint) : Prop :=
  ∀ m ∈ v.modules, m.content ∈ v.workspace.symbols.modules

theorem inside_viewpoint (w : Workspace) (doc : DocId) (p : Position) : (w.viewpoint doc p).Inside :=
  fun _ hm => Workspace.content_of_mem_visibleModules hm

/-- What is found in a module is one of its symbols. -/
theorem mem_of_findIn? {m : VisibleModule} (h : v.findIn? name m = some s) : s ∈ m.content.allSymbols := by
  rcases (Option.orElse_eq_some _ _ _).1 h with inside | ⟨-, child⟩
  · obtain ⟨x, hx, rfl⟩ := Option.map_eq_some_iff.1 inside
    obtain ⟨f, function, hx⟩ := Option.bind_eq_some_iff.1 hx
    rw [functionIn?] at function
    split at function
    · refine Module.mem_allSymbols_of_variable
        (Module.mem_boundVariables_of_function (List.mem_of_find?_eq_some function) ?_)
      rcases (Option.orElse_eq_some _ _ _).1 hx with parameter | ⟨-, declared⟩
      · exact .inl (Table.mem_values_iff.2 ⟨name, parameter⟩)
      · exact .inr (List.mem_reverse.1 (List.mem_of_find?_eq_some declared))
    · cases function
  · exact Module.mem_allSymbols_of_child (Module.mem_of_child? child)

theorem Named.name_of_findIn? (h : v.Named) {m : VisibleModule} (hm : m ∈ v.modules)
    (found : v.findIn? name m = some s) : s.name = name := by
  rcases (Option.orElse_eq_some _ _ _).1 found with inside | ⟨-, child⟩
  · obtain ⟨x, hx, rfl⟩ := Option.map_eq_some_iff.1 inside
    obtain ⟨f, function, hx⟩ := Option.bind_eq_some_iff.1 hx
    exact h.localIn? hm function hx
  · exact ((h.visible m hm).child? child).1

/-- A name that is found in some visible module and that only one symbol has leads to this symbol. -/
theorem Named.find?_of_only (h : v.Named) (inside : v.Inside) (dot : '.' ∉ name.toList)
    (only : v.workspace.symbols.OnlyCalled name s) (reserved : isReserved name = false)
    {m : VisibleModule} (hm : m ∈ v.modules) (found : (v.findIn? name m).isSome = true) :
    v.find? name = some s := by
  obtain ⟨t, ht⟩ := Option.isSome_iff_exists.1 (List.findSome?_isSome_iff.2 ⟨m, hm, found⟩)
  obtain ⟨n, hn, there⟩ := List.exists_of_findSome?_eq_some ht
  have same : t.name = name := h.name_of_findIn? hn there
  have called : t.IsCalled name := by
    subst same
    exact Symbol.isCalled_name dot
  rw [Viewpoint.find?, if_neg (by rw [reserved]; exact Bool.false_ne_true), ht,
    only.only n.content (inside n hn) t (mem_of_findIn? there) called]
  rfl

/-! ## Methods -/

theorem mem_modules_of_modulesAt {w : Workspace} {path : ModulePath} {m : Module} (h : m ∈ w.modulesAt path) :
    m ∈ w.symbols.modules :=
  List.mem_of_mem_filter h

/-- A method that is found is a function of some module. -/
theorem mem_of_method? (inside : v.Inside) {host : String} {path : ModulePath}
    (h : v.method? host path name = some s) :
    ∃ m ∈ v.workspace.symbols.modules, ∃ f ∈ m.functions, s = .function f := by
  rcases (Option.orElse_eq_some _ _ _).1 h with indexed | ⟨-, declared⟩
  · obtain ⟨l, -, entry⟩ := List.mem_filterMap.1 (List.mem_of_find?_eq_some indexed)
    have kind := List.find?_some indexed
    rw [beq_iff_eq] at kind
    rcases Workspace.mem_of_symbolAt? entry with ⟨m, rfl⟩ | ⟨m, hm, child⟩
    · cases kind
    · refine ⟨m, hm, ?_⟩
      rw [Module.mem_children_iff] at child
      cases s with
      | function f => exact ⟨f, child, rfl⟩
      | interfaceMethod => exact child.elim
      | aggregate a => exact absurd kind (Symbol.kind_aggregate_ne (by decide) (by decide))
      | _ => cases kind
  · obtain ⟨f, hf, rfl⟩ := Option.map_eq_some_iff.1 declared
    obtain ⟨m, hm, function⟩ := List.exists_of_findSome?_eq_some hf
    refine ⟨m, ?_, f, List.mem_of_find?_eq_some function, rfl⟩
    rcases List.mem_append.1 hm with at' | visible
    · exact mem_modules_of_modulesAt at'
    · obtain ⟨k, hk, rfl⟩ := List.mem_map.1 visible
      exact inside k hk

theorem followFor_mono {atDistinct : Bool} {steps more : Nat} (le : steps ≤ more) {r t : Reached}
    (h : v.followFor atDistinct steps r = some t) : v.followFor atDistinct more r = some t := by
  induction steps generalizing r more with
  | zero => cases h
  | succ steps ih =>
    obtain ⟨more, rfl⟩ := Nat.exists_eq_succ_of_ne_zero (Nat.ne_of_gt (Nat.lt_of_lt_of_le steps.succ_pos le))
    rw [followFor] at h ⊢
    split at h
    next stops =>
      rw [if_pos stops]
      exact h
    next goes =>
      rw [if_neg goes]
      split at h
      · cases h
      · exact ih (Nat.le_of_succ_le_succ le) h

/-- On the way to the end of following there is where it stops at distinct types. -/
theorem exists_followFor_true {steps : Nat} {r t : Reached} (h : v.followFor false steps r = some t) :
    ∃ s, v.followFor true steps r = some s ∧ v.followFor false steps s = some t := by
  induction steps generalizing r with
  | zero => cases h
  | succ steps ih =>
    by_cases stops : stopsAt true r.symbol = true
    · refine ⟨r, ?_, h⟩
      rw [followFor, if_pos stops]
    · have goes : stopsAt false r.symbol ≠ true := by
        rw [stopsAt, Bool.or_eq_true, not_or] at stops
        simpa [stopsAt] using stops.1
      rw [followFor, if_neg goes] at h
      rw [followFor, if_neg stops]
      split at h
      · cases h
      · obtain ⟨s, first, second⟩ := ih h
        exact ⟨s, first, followFor_mono (Nat.le_succ steps) second⟩

theorem exists_follow_true {r t : Reached} (h : v.follow false r = some t) :
    ∃ s, v.follow true r = some s ∧ v.follow false s = some t :=
  exists_followFor_true h

/-- What a declaration of a module has itself stands in the module. -/
theorem mem_of_ownMember? {m : Module} {r : Symbol} (hr : r ∈ m.children)
    (found : ownMember? name r = some s) : s ∈ m.allSymbols := by
  rw [Module.mem_children_iff] at hr
  cases r with
  | enum e =>
    rcases (Option.orElse_eq_some _ _ _).1 found with enumerator | ⟨-, value⟩
    · obtain ⟨x, hx, rfl⟩ := Option.map_eq_some_iff.1 enumerator
      exact Module.mem_allSymbols_of_nested (Module.mem_nestedSymbols_iff.2
        (.inr (.inr (.inl ⟨e, hr, x, List.mem_of_find?_eq_some hx, rfl⟩))))
    · obtain ⟨x, hx, rfl⟩ := Option.map_eq_some_iff.1 value
      exact Module.mem_allSymbols_of_variable
        (Module.mem_boundVariables_of_enum hr (List.mem_of_find?_eq_some hx))
  | fault f =>
    obtain ⟨x, hx, rfl⟩ := Option.map_eq_some_iff.1 found
    exact Module.mem_allSymbols_of_nested (Module.mem_nestedSymbols_iff.2
      (.inr (.inr (.inr (.inl ⟨f, hr, x, List.mem_of_find?_eq_some hx, rfl⟩)))))
  | aggregate a =>
    obtain ⟨x, hx, rfl⟩ := Option.map_eq_some_iff.1 found
    exact Module.mem_allSymbols_of_nested (Module.mem_nestedSymbols_iff.2
      (.inl ⟨a, hr, x, List.mem_of_find?_eq_some hx, rfl⟩))
  | bitstruct b =>
    obtain ⟨x, hx, rfl⟩ := Option.map_eq_some_iff.1 found
    exact Module.mem_allSymbols_of_nested (Module.mem_nestedSymbols_iff.2
      (.inr (.inl ⟨b, hr, x, List.mem_of_find?_eq_some hx, rfl⟩)))
  | interface i =>
    obtain ⟨x, hx, rfl⟩ := Option.map_eq_some_iff.1 found
    exact Module.mem_allSymbols_of_nested (Module.mem_nestedSymbols_iff.2
      (.inr (.inr (.inr (.inr ⟨i, hr, x, Table.mem_values_iff.2 ⟨name, hx⟩, rfl⟩)))))
  | enumerator => exact hr.elim
  | _ => cases found

theorem mem_of_associatedValue? {m : Module} {r : Symbol} (hr : r ∈ m.children)
    (found : associatedValue? name r = some s) : s ∈ m.allSymbols := by
  rw [Module.mem_children_iff] at hr
  cases r with
  | enum e =>
    obtain ⟨x, hx, rfl⟩ := Option.map_eq_some_iff.1 found
    exact Module.mem_allSymbols_of_variable
      (Module.mem_boundVariables_of_enum hr (List.mem_of_find?_eq_some hx))
  | enumerator => exact hr.elim
  | _ => cases found

section Method

variable (h : v.Named) (inside : v.Inside) (whole : NameQuery.Whole name)
  (only : v.workspace.symbols.OnlyCalled name s) (functions : v.workspace.symbols.FunctionsNamed)
include h inside whole only functions

/-- A method that is found under the name is the symbol. -/
theorem eq_of_method? {host : String} {path : ModulePath} {t : Symbol}
    (found : v.method? host path name = some t) : t = s := by
  obtain ⟨m, hm, f, hf, rfl⟩ := mem_of_method? inside found
  have called : f.shortName = name :=
    ((h.method? found).called whole).resolve_right fun nameless => nameless (functions m hm f hf)
  exact only.only m hm _ (Module.mem_allSymbols_of_child (Module.mem_children_iff.2 hf)) called

/-- A function of a visible module that is named for a type is found as its method. -/
theorem method?_of_only {host : String} {path : ModulePath} {f : Function}
    (full : f.name = host ++ "." ++ name) {m : VisibleModule} (hm : m ∈ v.modules)
    (hf : f ∈ m.content.functions) : v.method? host path name = some s := by
  cases found : v.method? host path name with
  | some t => rw [eq_of_method? h inside whole only functions found]
  | none =>
    have nothing := ((Option.orElse_eq_none _ _).1 found).2
    rw [Option.map_eq_none_iff, List.findSome?_eq_none_iff] at nothing
    have absent := nothing m.content (List.mem_append_right _ (List.mem_map_of_mem hm))
    exact absurd (beq_iff_eq.2 full) (List.find?_eq_none.1 absent f hf)

/-- What a declaration has under the name, as its member or method, is the symbol. -/
theorem eq_of_memberOrMethod? {m : Module} (hm : m ∈ v.workspace.symbols.modules) {r : Reached}
    (hr : r.symbol ∈ m.children) {t : Symbol} (found : v.memberOrMethod? r name = some t) : t = s := by
  have dot : '.' ∉ name.toList := fun dot => (whole.chars _ dot).1 rfl
  have member : t ∈ m.allSymbols → t.name = name → t = s := by
    rintro mem rfl
    exact only.only m hm t mem (Symbol.isCalled_name dot)
  have named : r.symbol.Named := (h.workspace.modules m hm).of_child hr
  rcases (Option.orElse_eq_some _ _ _).1 found with own | ⟨-, found⟩
  · split at own
    · exact member (mem_of_ownMember? hr own) (named_of_ownMember? named own).2
    · cases own
  rcases (Option.orElse_eq_some _ _ _).1 found with value | ⟨-, found⟩
  · split at value
    · cases value
    · exact member (mem_of_associatedValue? hr value) (named_of_associatedValue? value).2
  · split at found
    · obtain ⟨⟨host, path⟩, -, method⟩ := Option.bind_eq_some_iff.1 found
      exact eq_of_method? h inside whole only functions method
    · cases found

/-- Behind what leads to a type, the method of the type is found. -/
theorem step?_of_only {m : Module} (hm : m ∈ v.workspace.symbols.modules) {start r : Reached}
    (followed : v.follow false start = some r) (hr : r.symbol ∈ m.children) (methods : r.access.methods = true)
    {host : String} {path : ModulePath} (type : methodHost? r.symbol = some (host, path)) {f : Function}
    (full : f.name = host ++ "." ++ name) {k : VisibleModule} (hk : k ∈ v.modules)
    (hf : f ∈ k.content.functions) : (v.step? start name).map (·.symbol) = some s := by
  obtain ⟨parent, first, second⟩ := exists_follow_true followed
  rw [step?, first, Option.bind_eq_bind, Option.bind_some]
  cases own : v.distinctMethod? parent name with
  | some t =>
    rw [distinctMethod?] at own
    split at own
    · split at own
      · exact congrArg some (eq_of_method? h inside whole only functions own)
      · cases own
    · cases own
  | none =>
    rw [second, Option.bind_eq_bind, Option.bind_some]
    have method : v.method? host path name = some s := method?_of_only h inside whole only functions full hk hf
    cases found : v.memberOrMethod? r name with
    | some t => exact congrArg some (eq_of_memberOrMethod? h inside whole only functions hm hr found)
    | none =>
      have nothing := ((Option.orElse_eq_none _ _).1 ((Option.orElse_eq_none _ _).1 found).2).2
      rw [if_pos methods, type, Option.bind_some] at nothing
      exact absurd (method.symm.trans nothing) (Option.some_ne_none s)

end Method

/-! ## Words -/

theorem steps?_singleton (r : Reached) (name : String) : v.steps? r [name] = v.step? r name := by
  rw [steps?]
  cases v.step? r name <;> rfl

/-- What a word means, from its names on. -/
theorem resolve?_of_isName {w : Word} (isName : w.isName = true) (reserved : isReserved w.text = false)
    {first : String} {names : List String} (written : w.access.map (·.text) ++ [w.text] = first :: names) :
    v.resolve? w = (v.first? w first names.isEmpty).bind fun s =>
      (v.steps? ⟨s, .start⟩ names).map (·.symbol) := by
  rw [resolve?, isName, reserved, if_neg (by decide), path_of_isName isName, written]
  show ((v.first? w first names.isEmpty).bind fun s =>
    (v.steps? ⟨s, .start⟩ names).bind fun r => some r.symbol) = _
  refine Option.bind_congr fun s _ => ?_
  cases v.steps? ⟨s, .start⟩ names <;> rfl

/-- A word without qualifiers is looked up as a plain name. -/
theorem resolve?_of_plain {w : Word} (access : w.access = []) (modules : w.modules = [])
    (isName : w.isName = true) (reserved : isReserved w.text = false) : v.resolve? w = v.find? w.text := by
  have written : w.access.map (·.text) ++ [w.text] = [w.text] := by
    rw [access]
    rfl
  rw [resolve?_of_isName isName reserved written]
  show ((v.first? w w.text true).bind fun first => some first) = v.find? w.text
  rw [Option.bind_fun_some, first?, modules]
  rfl

/-- A word with one qualifier in front of a dot is looked up behind what this one leads to. -/
theorem resolve?_of_access {w : Word} {receiver : String} (access : w.access.map (·.text) = [receiver])
    (isName : w.isName = true) (reserved : isReserved w.text = false) {t : Symbol}
    (first : v.first? w receiver false = some t) :
    v.resolve? w = (v.step? ⟨t, .start⟩ w.text).map (·.symbol) := by
  have written : w.access.map (·.text) ++ [w.text] = [receiver, w.text] := by
    rw [access]
    rfl
  rw [resolve?_of_isName isName reserved written]
  show ((v.first? w receiver false).bind fun s => (v.steps? ⟨s, .start⟩ [w.text]).map (·.symbol)) = _
  rw [first, Option.bind_some, steps?_singleton]

end Viewpoint

end C3Lens
