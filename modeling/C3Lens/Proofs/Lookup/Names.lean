import C3Lens.Lookup.Path
import C3Lens.Proofs.NameQuery
import C3Lens.Proofs.Workspace.Names

/-!
# The names of what is found

In a named workspace, what is found for a name answers to it (`Symbol.Answers`): it is called so, or
it is a function that was declared without a name of its own. The index cuts names at `::` and `.`,
so such a function of the type `T` stands where a method `T` of the type around it would.

Each way to look up a name has one lemma, up to whole words (`Viewpoint.Named.resolve?`).
-/

namespace C3Lens

/-! ## Answers -/

namespace Symbol

/-- A function that has no name of its own, or one that a query would cut. -/
def Nameless : Symbol → Prop
  | .function f | .interfaceMethod f _ => ¬ NameQuery.Whole f.shortName
  | _ => False

/-- The symbol is one that a name may mean. -/
structure Answers (s : Symbol) (name : String) : Prop where
  named : s.Named
  called : NameQuery.Whole name → s.IsCalled name ∨ s.Nameless

theorem answers_of_name {s : Symbol} {name : String} (named : s.Named) (h : s.name = name) :
    s.Answers name := by
  refine ⟨named, fun whole => .inl ?_⟩
  subst h
  exact isCalled_name fun dot => (whole.chars _ dot).1 rfl

/-- Members and all other things found in a list by their names. -/
theorem named_of_find? {α : Type} {as : List α} {nameOf : α → String} (symbol : α → Symbol)
    {name : String} {s : Symbol} (same : ∀ a, (symbol a).name = nameOf a) (named : ∀ a, (symbol a).Named)
    (h : (as.find? fun a => nameOf a == name).map symbol = some s) : s.Named ∧ s.name = name := by
  obtain ⟨a, ha, rfl⟩ := Option.map_eq_some_iff.1 h
  have found := List.find?_some ha
  exact ⟨named a, (same a).trans (beq_iff_eq.1 found)⟩

theorem kind_aggregate_ne {a : Struct} {kind : SymbolKind} (struct : kind ≠ .struct) (union : kind ≠ .union) :
    (Symbol.aggregate a).kind ≠ kind := by
  rw [Symbol.kind]
  split
  · exact union.symm
  · exact struct.symm

end Symbol

theorem Module.Named.answers {m : Module} (h : m.Named) {name : String} {s : Symbol}
    (found : m.child? name = some s) : s.Answers name :=
  Symbol.answers_of_name (h.child? found).2 (h.child? found).1

theorem Module.answers_of_last? {m : Module} {name : String}
    (h : m.name = name ∨ m.modulePath.last? = some name) : (Symbol.module m).Answers name :=
  ⟨trivial, fun _ => .inl h⟩

theorem ModulePath.last?_of_endsWith {p : ModulePath} {names : List String} {name : String}
    (h : p.endsWith ⟨names ++ [name]⟩ = true) : p.last? = some name := by
  rw [endsWith, Bool.and_eq_true] at h
  obtain ⟨front, same⟩ := List.isSuffixOf_iff_suffix.1 h.2
  rw [last?, ← same, ← List.append_assoc, List.getLast?_concat]

/-! ## Lists of which the first of equals is kept -/

section KeepFirst

variable {α : Type} {a : α} {as kept : List α}

theorem mem_of_mem_keepFirst (same : α → α → Bool)
    (h : a ∈ as.foldl (fun kept b => if kept.any (same · b) then kept else kept ++ [b]) kept) :
    a ∈ kept ∨ a ∈ as := by
  induction as generalizing kept with
  | nil => exact .inl h
  | cons b as ih =>
    rcases ih h with here | later
    · dsimp only at here
      split at here
      · exact .inl here
      · rcases List.mem_append.1 here with here | here
        · exact .inl here
        · exact .inr (List.mem_singleton.1 here ▸ List.mem_cons_self)
    · exact .inr (List.mem_cons_of_mem _ later)

/-- For one that is left out an equal one is kept. -/
theorem exists_mem_keepFirst (same : α → α → Bool) (self : same a a = true)
    (h : (∃ k ∈ kept, same k a = true) ∨ a ∈ as) :
    ∃ k ∈ as.foldl (fun kept b => if kept.any (same · b) then kept else kept ++ [b]) kept, same k a = true := by
  induction as generalizing kept with
  | nil => exact h.resolve_right List.not_mem_nil
  | cons b as ih =>
    refine ih ?_
    rcases h with ⟨k, hk, equal⟩ | h
    · refine .inl ⟨k, ?_, equal⟩
      dsimp only
      split
      · exact hk
      · exact List.mem_append_left _ hk
    rcases List.mem_cons.1 h with rfl | later
    · left
      dsimp only
      split
      next known => exact List.any_eq_true.1 known
      next => exact ⟨a, List.mem_append_right _ (List.mem_singleton_self a), self⟩
    · exact .inr later

end KeepFirst

/-! ## Visible modules -/

namespace Workspace

variable {w : Workspace}

theorem mem_of_mem_distinctModules {ms : List VisibleModule} {m : VisibleModule}
    (h : m ∈ distinctModules ms) : m ∈ ms :=
  (mem_of_mem_keepFirst (fun k m => k.unit == m.unit && k.content.name == m.content.name) h).resolve_left
    List.not_mem_nil

theorem mem_modulesWhere_iff {nearness : Nearness} {p : DocId → Module → Bool} {m : VisibleModule} :
    m ∈ w.modulesWhere nearness p ↔ ∃ u ∈ w.symbols.units.values,
      m.unit = u.doc ∧ m.content ∈ u.modules.values ∧ p u.doc m.content = true ∧ m.nearness = nearness := by
  simp only [modulesWhere, List.mem_flatMap, List.mem_map, List.mem_filter]
  constructor
  · rintro ⟨u, hu, n, ⟨hn, allowed⟩, rfl⟩
    exact ⟨u, hu, rfl, hn, allowed, rfl⟩
  · obtain ⟨unit, content, near⟩ := m
    rintro ⟨u, hu, rfl, hn, allowed, rfl⟩
    exact ⟨u, hu, content, ⟨hn, allowed⟩, rfl⟩

/-- A visible module is one of the unit that it comes with. -/
theorem unit_of_mem_visibleModules {c : Cursor} {m : VisibleModule} (h : m ∈ w.visibleModules c) :
    ∃ u ∈ w.symbols.units.values, m.unit = u.doc ∧ m.content ∈ u.modules.values := by
  have unit : ∀ {nearness p}, m ∈ w.modulesWhere nearness p →
      ∃ u ∈ w.symbols.units.values, m.unit = u.doc ∧ m.content ∈ u.modules.values := by
    intro nearness p hm
    obtain ⟨u, hu, doc, content, -⟩ := mem_modulesWhere_iff.1 hm
    exact ⟨u, hu, doc, content⟩
  have listed := mem_of_mem_distinctModules h
  simp only [List.mem_append, List.mem_flatMap, modulesOfDocument, List.mem_filter] at listed
  rcases listed with (((⟨hm, -⟩ | ⟨hm, -⟩) | hm) | hm) | ⟨_, -, hm⟩
  · exact unit hm
  · exact unit hm
  · exact unit hm
  · exact unit hm
  · exact unit hm

theorem content_of_mem_visibleModules {c : Cursor} {m : VisibleModule} (h : m ∈ w.visibleModules c) :
    m.content ∈ w.symbols.modules := by
  obtain ⟨u, hu, -, hm⟩ := unit_of_mem_visibleModules h
  exact List.mem_flatMap.2 ⟨u, hu, hm⟩

theorem Named.modulesAt (h : w.Named) (path : ModulePath) : ∀ m ∈ w.modulesAt path, m.Named :=
  fun m hm => h.modules m (List.mem_of_mem_filter hm)

/-- What an entry of the index leads to. -/
theorem Named.symbolAt? (h : w.Named) {l : SymbolLocation} {s : Symbol} (found : w.symbolAt? l = some s) :
    s.Named ∧ ((∃ m, s = .module m) ∨ l.kind ≠ .module ∧ s.name = l.name) := by
  obtain ⟨u, unit, found⟩ := Option.bind_eq_some_iff.1 found
  obtain ⟨m, module, found⟩ := Option.bind_eq_some_iff.1 found
  have named := h.modules m (SymbolStore.mem_modules_iff.2 ⟨_, u, _, unit, module⟩)
  split at found
  · cases found
    exact ⟨trivial, .inl ⟨m, rfl⟩⟩
  next other =>
    have child := named.child? found
    exact ⟨child.2, .inr ⟨fun same => other (beq_iff_eq.2 same), child.1⟩⟩

end Workspace

/-! ## Plain and qualified names -/

/-- The workspace is named, and the visible modules are some of its modules. -/
structure Viewpoint.Named (v : Viewpoint) : Prop where
  workspace : v.workspace.Named
  visible : ∀ m ∈ v.modules, m.content.Named

theorem Workspace.Named.viewpoint {w : Workspace} (h : w.Named) (doc : DocId) (p : Position) :
    (w.viewpoint doc p).Named :=
  ⟨h, fun _ hm => h.modules _ (Workspace.content_of_mem_visibleModules hm)⟩

namespace Viewpoint

variable {v : Viewpoint} {name : String} {s : Symbol}

theorem Named.modulesEnding (h : v.Named) (tail : ModulePath) : ∀ m ∈ v.modulesEnding tail, m.Named :=
  fun m hm => h.workspace.modules m (List.mem_of_mem_filter hm)

/-- The first declaration of a name in named modules. -/
theorem answers_of_findSome? {ms : List Module} (named : ∀ m ∈ ms, m.Named)
    (h : ms.findSome? (·.child? name) = some s) : s.Answers name := by
  obtain ⟨m, hm, found⟩ := List.exists_of_findSome?_eq_some h
  exact (named m hm).answers found

theorem Named.localIn? (h : v.Named) {m : VisibleModule} (hm : m ∈ v.modules) {f : Function} {x : Variable}
    (function : v.functionIn? m = some f) (found : v.localIn? name f = some x) : x.name = name := by
  rw [functionIn?] at function
  split at function
  · rcases (Option.orElse_eq_some _ _ _).1 found with parameter | ⟨-, declared⟩
    · exact (h.visible m hm).functions f (List.mem_of_find?_eq_some function) name x parameter
    · have last := List.find?_some declared
      rw [Bool.and_eq_true] at last
      exact beq_iff_eq.1 last.1
  · cases function

theorem Named.find? (h : v.Named) (found : v.find? name = some s) : s.Answers name := by
  rw [Viewpoint.find?] at found
  split at found
  · cases found
  rcases (Option.orElse_eq_some _ _ _).1 found with declared | ⟨-, module⟩
  · obtain ⟨m, hm, declared⟩ := List.exists_of_findSome?_eq_some declared
    rcases (Option.orElse_eq_some _ _ _).1 declared with inside | ⟨-, child⟩
    · obtain ⟨x, hx, rfl⟩ := Option.map_eq_some_iff.1 inside
      obtain ⟨f, function, hx⟩ := Option.bind_eq_some_iff.1 hx
      exact Symbol.answers_of_name trivial (h.localIn? hm function hx)
    · exact (h.visible m hm).answers child
  · obtain ⟨m, hm, rfl⟩ := Option.map_eq_some_iff.1 module
    have names := List.find?_some hm
    rw [Bool.or_eq_true, beq_iff_eq, beq_iff_eq] at names
    exact Module.answers_of_last? names

theorem Named.findQualified? (h : v.Named) {path written : ModulePath}
    (found : v.findQualified? path written name = some s) : s.Answers name := by
  rw [Viewpoint.findQualified?] at found
  split at found
  · cases found
  rcases (Option.orElse_eq_some _ _ _).1 found with exact | ⟨-, ending⟩
  · exact answers_of_findSome? (h.workspace.modulesAt path) exact
  · exact answers_of_findSome? (h.modulesEnding written) ending

theorem answers_of_moduleBelow? {path written : ModulePath} {m : Module}
    (found : v.moduleBelow? path written name = some m) : (Symbol.module m).Answers name := by
  refine Module.answers_of_last? (.inr ?_)
  rcases (Option.orElse_eq_some _ _ _).1 found with exact | ⟨-, ending⟩
  · have path := (List.mem_filter.1 (List.mem_of_head? exact)).2
    rw [beq_iff_eq.1 path, ModulePath.last?, List.getLast?_concat]
  · exact ModulePath.last?_of_endsWith (List.mem_filter.1 (List.mem_of_head? ending)).2

/-! ## Following declarations -/

theorem Named.indexedType? (h : v.Named) {qualifiedName : String}
    (found : v.indexedType? qualifiedName = some s) : s.Named := by
  obtain ⟨l, -, at'⟩ := List.mem_filterMap.1 (List.mem_of_find?_eq_some found)
  exact (h.workspace.symbolAt? at').1

theorem Named.typeDeclaration? (h : v.Named) {t : TypeRef} (found : v.typeDeclaration? t = some s) :
    s.Named := by
  rw [Viewpoint.typeDeclaration?] at found
  split at found
  · cases found
  rcases (Option.orElse_eq_some _ _ _).1 found with indexed | ⟨-, visible⟩
  · exact h.indexedType? indexed
  · obtain ⟨m, hm, child⟩ := List.mem_filterMap.1 (List.mem_of_find?_eq_some visible)
    exact ((h.visible m hm).child? child).2

theorem Named.aliased? (h : v.Named) {path : String} {context : ModulePath}
    (found : v.aliased? path context = some s) : s.Named := by
  rw [Viewpoint.aliased?] at found
  split at found
  · exact (h.findQualified? found).named
  · rcases (Option.orElse_eq_some _ _ _).1 found with inContext | ⟨-, plain⟩
    · exact (answers_of_findSome? (h.workspace.modulesAt context) inContext).named
    · exact (h.find? plain).named

theorem Named.target? (h : v.Named) {r : Symbol} (found : v.target? r = some s) : s.Named := by
  unfold Viewpoint.target? at found
  split at found
  · exact h.typeDeclaration? found
  · split at found
    · cases found
      trivial
    · exact h.typeDeclaration? found
  · exact h.typeDeclaration? found
  · exact h.typeDeclaration? found
  · split at found
    · exact h.typeDeclaration? found
    · exact h.aliased? found
  · exact h.typeDeclaration? found
  · cases found

theorem Named.followFor (h : v.Named) {atDistinct : Bool} {steps : Nat} {r t : Reached}
    (named : r.symbol.Named) (found : v.followFor atDistinct steps r = some t) : t.symbol.Named := by
  induction steps generalizing r with
  | zero => cases found
  | succ steps ih =>
    rw [Viewpoint.followFor] at found
    split at found
    · cases found
      exact named
    · split at found
      · cases found
      next target next => exact ih (h.target? next) found

/-! ## Members and methods -/

theorem named_of_ownMember? {r : Symbol} (named : r.Named) (found : ownMember? name r = some s) :
    s.Named ∧ s.name = name := by
  cases r with
  | enum e =>
    rcases (Option.orElse_eq_some _ _ _).1 found with enumerator | ⟨-, value⟩
    · exact Symbol.named_of_find? (.enumerator · e) (fun _ => rfl) (fun _ => trivial) enumerator
    · exact Symbol.named_of_find? .variable (fun _ => rfl) (fun _ => trivial) value
  | enumerator _ e => exact Symbol.named_of_find? .variable (fun _ => rfl) (fun _ => trivial) found
  | fault f => exact Symbol.named_of_find? .faultConstant (fun _ => rfl) (fun _ => trivial) found
  | aggregate a => exact Symbol.named_of_find? .member (fun _ => rfl) (fun _ => trivial) found
  | bitstruct b => exact Symbol.named_of_find? .member (fun _ => rfl) (fun _ => trivial) found
  | interface i =>
    obtain ⟨f, hf, rfl⟩ := Option.map_eq_some_iff.1 found
    exact ⟨trivial, named name f hf⟩
  | _ => cases found

theorem named_of_associatedValue? {r : Symbol} (found : associatedValue? name r = some s) :
    s.Named ∧ s.name = name := by
  cases r with
  | enum e => exact Symbol.named_of_find? .variable (fun _ => rfl) (fun _ => trivial) found
  | enumerator _ e => exact Symbol.named_of_find? .variable (fun _ => rfl) (fun _ => trivial) found
  | _ => cases found

/-- The key of a function that has a name of its own ends with it. -/
theorem key_of_whole {l : SymbolLocation} {f : Function} (kind : l.kind ≠ .module) (same : f.name = l.name)
    (whole : NameQuery.Whole f.shortName) :
    ∃ names, l.key = names ++ [f.shortName] ∨ l.key = names ++ [":" ++ f.shortName] := by
  have key : ∀ pre, l.qualifiedName = pre ++ f.shortName →
      l.key = NameQuery.path (pre ++ f.shortName) := by
    intro pre cut
    rw [SymbolLocation.key, cut, NameQuery.parse_append whole]
    rfl
  have qualified : l.qualifiedName = l.modulePath.qualify f.name := by
    rw [SymbolLocation.qualifiedName, if_neg fun module => kind (beq_iff_eq.1 module), same]
  rw [ModulePath.qualify] at qualified
  rcases f.name_eq with short | ⟨front, dotted⟩ <;> split at qualified
  · have cut : l.qualifiedName = "" ++ f.shortName := by rw [qualified, ← short, String.empty_append]
    obtain ⟨names, path⟩ := NameQuery.path_whole whole
    rw [key _ cut, String.empty_append]
    exact ⟨names, .inl path⟩
  · rw [short] at qualified
    obtain ⟨names, path⟩ := NameQuery.exists_path_colons whole l.modulePath.text
    rw [key _ qualified]
    exact ⟨names, path⟩
  · rw [dotted] at qualified
    obtain ⟨names, path⟩ := NameQuery.exists_path_dot whole front
    rw [key _ qualified]
    exact ⟨names, .inl path⟩
  · rw [dotted, ← String.append_assoc, ← String.append_assoc] at qualified
    obtain ⟨names, path⟩ := NameQuery.exists_path_dot whole (l.modulePath.text ++ "::" ++ front)
    rw [key _ qualified]
    exact ⟨names, .inl path⟩

/-- Under a key that ends with a whole name stands a function of that name, or one without. -/
theorem shortName_of_key {l : SymbolLocation} {f : Function} {front : List String} (kind : l.kind ≠ .module)
    (same : f.name = l.name) (key : l.key = front ++ [name]) (whole : NameQuery.Whole name) :
    f.shortName = name ∨ ¬ NameQuery.Whole f.shortName := by
  by_cases own : NameQuery.Whole f.shortName
  · obtain ⟨names, ends | ends⟩ := key_of_whole kind same own
    · rw [key] at ends
      exact .inl (List.singleton_inj.1 (List.append_inj' ends rfl).2).symm
    · rw [key] at ends
      have colon := List.singleton_inj.1 (List.append_inj' ends rfl).2
      rw [colon] at whole
      refine absurd ?_ whole.notMem_colon
      rw [String.toList_append]
      exact List.mem_cons_self
  · exact .inr own

theorem Named.method? (h : v.Named) {typeName : String} {typeModule : ModulePath}
    (found : v.method? typeName typeModule name = some s) : s.Answers name := by
  rw [Viewpoint.method?] at found
  rcases (Option.orElse_eq_some _ _ _).1 found with indexed | ⟨-, declared⟩
  · obtain ⟨l, hl, entry⟩ := List.mem_filterMap.1 (List.mem_of_find?_eq_some indexed)
    have kind := List.find?_some indexed
    rw [beq_iff_eq] at kind
    have symbol := h.workspace.symbolAt? entry
    refine ⟨symbol.1, fun whole => ?_⟩
    -- The query is exact, so the key of the entry ends with the name.
    have query : typeModule.text ++ "::" ++ (typeName ++ "." ++ name) =
        typeModule.text ++ "::" ++ typeName ++ "." ++ name := by
      rw [← String.append_assoc, ← String.append_assoc]
    obtain ⟨names, path⟩ := NameQuery.exists_path_dot whole (typeModule.text ++ "::" ++ typeName)
    rw [query, NameIndex.search, NameQuery.parse_append whole, path] at hl
    have key := h.workspace.keyed _ l hl
    have called : ∀ f : Function, l.kind ≠ .module → f.name = l.name →
        f.shortName = name ∨ ¬ NameQuery.Whole f.shortName :=
      fun f other same => shortName_of_key other same key whole
    rcases symbol.2 with ⟨m, rfl⟩ | ⟨other, same⟩
    · cases kind
    · cases s with
      | function f => exact called f other same
      | interfaceMethod f owner => exact called f other same
      | aggregate a => exact absurd kind (Symbol.kind_aggregate_ne (by decide) (by decide))
      | _ => cases kind
  · obtain ⟨f, hf, rfl⟩ := Option.map_eq_some_iff.1 declared
    obtain ⟨m, -, function⟩ := List.exists_of_findSome?_eq_some hf
    refine ⟨trivial, fun whole => .inl ?_⟩
    exact Function.shortName_of_append (Module.name_of_function? function)
      fun dot => (whole.chars _ dot).1 rfl

theorem Named.memberOrMethod? (h : v.Named) {r : Reached} (named : r.symbol.Named)
    (found : v.memberOrMethod? r name = some s) : s.Answers name := by
  rw [Viewpoint.memberOrMethod?] at found
  rcases (Option.orElse_eq_some _ _ _).1 found with own | ⟨-, found⟩
  · split at own
    · obtain ⟨named, same⟩ := named_of_ownMember? named own
      exact Symbol.answers_of_name named same
    · cases own
  rcases (Option.orElse_eq_some _ _ _).1 found with value | ⟨-, found⟩
  · split at value
    · cases value
    · obtain ⟨named, same⟩ := named_of_associatedValue? value
      exact Symbol.answers_of_name named same
  · split at found
    · obtain ⟨⟨host, path⟩, -, method⟩ := Option.bind_eq_some_iff.1 found
      exact h.method? method
    · cases found

theorem Named.distinctMethod? (h : v.Named) {r : Reached} (found : v.distinctMethod? r name = some s) :
    s.Answers name := by
  rw [Viewpoint.distinctMethod?] at found
  split at found
  · split at found
    · exact h.method? found
    · cases found
  · cases found

/-! ## Words -/

theorem Named.step? (h : v.Named) {r t : Reached} (named : r.symbol.Named)
    (found : v.step? r name = some t) : t.symbol.Answers name := by
  obtain ⟨parent, followed, found⟩ := Option.bind_eq_some_iff.1 found
  have parentNamed := h.followFor named followed
  split at found
  next method own =>
    cases found
    exact h.distinctMethod? own
  next =>
    obtain ⟨base, again, found⟩ := Option.bind_eq_some_iff.1 found
    obtain ⟨s, member, found⟩ := Option.bind_eq_some_iff.1 found
    cases found
    exact h.memberOrMethod? (h.followFor parentNamed again) member

/-- Behind further names stands what answers to the last of them. -/
theorem Named.steps? (h : v.Named) {names : List String} {r t : Reached} (answers : r.symbol.Answers name)
    (found : v.steps? r names = some t) : t.symbol.Answers ((name :: names).getLast (List.cons_ne_nil _ _)) := by
  induction names generalizing r name with
  | nil =>
    cases found
    exact answers
  | cons next names ih =>
    rw [Viewpoint.steps?] at found
    split at found
    next u step =>
      rw [List.getLast_cons (List.cons_ne_nil _ _)]
      exact ih (h.step? answers.named step) found
    next => cases found

theorem Named.first? (h : v.Named) {w : Word} {isLast : Bool} (found : v.first? w name isLast = some s) :
    s.Answers name := by
  rw [Viewpoint.first?] at found
  split at found
  · exact h.find? found
  rcases (Option.orElse_eq_some _ _ _).1 found with qualified | ⟨-, below⟩
  · exact h.findQualified? qualified
  · split at below
    · obtain ⟨m, module, rfl⟩ := Option.map_eq_some_iff.1 below
      exact answers_of_moduleBelow? module
    · cases below

/-- The path of a name ends with it. -/
theorem path_of_isName {w : Word} (h : w.isName = true) :
    w.path.map (·.text) = w.access.map (·.text) ++ [w.text] := by
  cases head : w.head? with
  | none =>
    rw [Word.isName, Word.text, head] at h
    cases h
  | some part =>
    rw [Word.path, Word.text, head, List.map_append]
    rfl

/-- What a word means answers to the text of the word. -/
theorem Named.resolve? (h : v.Named) {w : Word} (found : v.resolve? w = some s) :
    w.isName = true ∧ s.Answers w.text := by
  rw [Viewpoint.resolve?] at found
  split at found
  · cases found
  next names =>
    rw [Bool.or_eq_true, not_or, Bool.not_eq_true, Bool.not_eq_false'] at names
    refine ⟨names.1, ?_⟩
    have path := path_of_isName names.1
    split at found
    · cases found
    next name others cut =>
      obtain ⟨first, head, found⟩ := Option.bind_eq_some_iff.1 found
      obtain ⟨t, steps, found⟩ := Option.bind_eq_some_iff.1 found
      cases found
      have last : (name :: others).getLast (List.cons_ne_nil _ _) = w.text := by
        rw [List.getLast_eq_iff_getLast?_eq_some, ← cut, path, List.getLast?_concat]
      rw [← last]
      exact h.steps? (h.first? head) steps

end Viewpoint

end C3Lens
