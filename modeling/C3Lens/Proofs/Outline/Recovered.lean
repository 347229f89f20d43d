import C3Lens.Proofs.Outline.Respaced
import C3Lens.Proofs.Symbol.Spelling
import C3Lens.Proofs.Syntax.Resumed

/-!
# The outline behind a half-typed line

What is typed in front of a declaration may give symbols of its own, but as long as it has an end it takes
none from the declarations behind it: whatever these declare alone, by kind and name, they declare behind it
in a module of the same name (`outlineOfText_recovered`). What has no end takes the declaration with it
(`open_value_takes_declaration`).
-/

namespace C3Lens

/-! ## Declarations of the same kinds and names -/

/-- What stands under a name in the first table stands there in the second one too, as far as `e` sees. -/
def Table.CoveredBy {α β : Type} (e : α → β) (t t' : Table α) : Prop :=
  ∀ name a, t.get? name = some a → ∃ a', t'.get? name = some a' ∧ e a' = e a

namespace Table.CoveredBy

variable {α β : Type} {e : α → β} {t t' : Table α}

theorem empty (t' : Table α) : Table.CoveredBy e .empty t' :=
  fun _ _ no => by cases no

theorem insert (h : Table.CoveredBy e t t') (name : String) {a a' : α} (same : e a' = e a) :
    Table.CoveredBy e (t.insert name a) (t'.insert name a') := by
  intro key b found
  rw [Table.get?_insert] at found
  rw [Table.get?_insert]
  split at found
  next here => exact ⟨a', if_pos here, Option.some.inj found ▸ same⟩
  next other =>
    rw [if_neg other]
    exact h key b found

/-- Values of the same key come under their keys. -/
theorem insert_key (h : Table.CoveredBy e t t') (key : α → String) {a a' : α} (keys : key a' = key a)
    (same : e a' = e a) : Table.CoveredBy e (t.insert (key a) a) (t'.insert (key a') a') := by
  rw [keys]
  exact h.insert _ same

/-- Values that are listed under their names come into both tables. -/
theorem foldl_insert {name : α → String} {as as' : List α} (h : Table.CoveredBy name t t')
    (same : as'.map name = as.map name) :
    Table.CoveredBy name (as.foldl (fun t a => t.insert (name a) a) t)
      (as'.foldl (fun t a => t.insert (name a) a) t') := by
  induction as generalizing as' t t' with
  | nil =>
    rw [List.map_nil, List.map_eq_nil_iff] at same
    rw [same]
    exact h
  | cons a as ih =>
    cases as' with
    | nil => cases same
    | cons a' as' =>
      rw [List.map_cons, List.map_cons, List.cons.injEq] at same
      rw [List.foldl_cons, List.foldl_cons]
      exact ih (h.insert_key name same.1 same.1) same.2

theorem exists_mem_values (h : Table.CoveredBy e t t') {a : α} (ha : a ∈ t.values) :
    ∃ a' ∈ t'.values, e a' = e a := by
  obtain ⟨name, found⟩ := Table.mem_values_iff.1 ha
  obtain ⟨a', found', same⟩ := h name a found
  exact ⟨a', Table.mem_values_iff.2 ⟨name, found'⟩, same⟩

end Table.CoveredBy

/-- What the first module declares the second one declares too, by kind and name. -/
structure Module.CoveredBy (m m' : Module) : Prop where
  globals : m.globals.CoveredBy (·.name) m'.globals
  enums : m.enums.CoveredBy (·.name) m'.enums
  faults : m.faults.CoveredBy (·.name) m'.faults
  faultConstants : m.faultConstants.CoveredBy (·.name) m'.faultConstants
  structs : m.structs.CoveredBy (fun a => (a.name, a.isUnion)) m'.structs
  bitstructs : m.bitstructs.CoveredBy (·.name) m'.bitstructs
  aliases : m.aliases.CoveredBy (·.name) m'.aliases
  distincts : m.distincts.CoveredBy (·.name) m'.distincts
  interfaces : m.interfaces.CoveredBy (·.name) m'.interfaces
  functions : ∀ f ∈ m.functions, ∃ f' ∈ m'.functions, f'.name = f.name

namespace Module.CoveredBy

variable {m m' : Module}

/-- A module without declarations. -/
theorem ofPath (path : ModulePath) (doc : DocId) (nameRange range : Range) (comment? : Option DocComment)
    (generics : List String) (isPrivate : Bool) (attributes : List String) (k : Module) :
    Module.CoveredBy { Module.ofPath path doc nameRange range with
      comment? := comment?, genericParameters := generics, isPrivate := isPrivate, attributes := attributes } k :=
  ⟨.empty _, .empty _, .empty _, .empty _, .empty _, .empty _, .empty _, .empty _, .empty _,
    fun _ hf => absurd hf List.not_mem_nil⟩

theorem exists_mem_children (h : m.CoveredBy m') :
    ∀ x ∈ m.children, ∃ x' ∈ m'.children, x'.kind = x.kind ∧ x'.name = x.name := by
  have found {α β : Type} {e : α → β} {t t' : Table α} (covered : t.CoveredBy e t') {f : α → Symbol}
      (own : ∀ a ∈ t'.values, f a ∈ m'.children)
      (same : ∀ a a', e a' = e a → (f a').kind = (f a).kind ∧ (f a').name = (f a).name) :
      ∀ a ∈ t.values, ∃ x' ∈ m'.children, x'.kind = (f a).kind ∧ x'.name = (f a).name := by
    intro a ha
    obtain ⟨a', ha', label⟩ := covered.exists_mem_values ha
    exact ⟨f a', own a' ha', same a a' label⟩
  have all : ∀ x ∈ m'.children, x ∈ m'.children := fun _ hx => hx
  rw [forall_children] at all ⊢
  obtain ⟨globals, enums, faults, constants, structs, bitstructs, aliases, distincts, interfaces, functions⟩ := all
  refine ⟨found h.globals globals fun _ _ same => ⟨rfl, same⟩, found h.enums enums fun _ _ same => ⟨rfl, same⟩,
    found h.faults faults fun _ _ same => ⟨rfl, same⟩,
    found h.faultConstants constants fun _ _ same => ⟨rfl, same⟩, found h.structs structs fun a a' same => ?_,
    found h.bitstructs bitstructs fun _ _ same => ⟨rfl, same⟩,
    found h.aliases aliases fun _ _ same => ⟨rfl, same⟩, found h.distincts distincts fun _ _ same => ⟨rfl, same⟩,
    found h.interfaces interfaces fun _ _ same => ⟨rfl, same⟩, fun f hf => ?_⟩
  · obtain ⟨name, union⟩ := Prod.mk.inj same
    exact ⟨by rw [Symbol.kind, Symbol.kind, union], name⟩
  · obtain ⟨f', hf', same⟩ := h.functions f hf
    exact ⟨.function f', functions f' hf', rfl, same⟩

end Module.CoveredBy

/-! ## Names of declarations -/

namespace Place

/-- The name that a node declares, empty if there is none. -/
def declaredName (p : Place) : String :=
  (p.nameLeaf?.map Place.text).getD ""

/-- The type in front of the name of a method. -/
def receiver? (p : Place) : Option String :=
  (p.child? .methodType).bind fun m => m.tree.lastToken?.map Token.text

/-- The name of a function, behind the type of a method. -/
def functionName (p : Place) : String :=
  match p.receiver? with
  | some receiver => receiver ++ "." ++ p.declaredName
  | none => p.declaredName

end Place

namespace Outline

variable {scope : Scope} {p : Place} (comment? : Option DocComment)

theorem gives_declaredName : Gives scope (declarationOf p comment?) fun d => d.name = p.declaredName := by
  refine Gives.read (Gives.bind (P := fun n => n.1 = p.declaredName) ?_ fun n named => Gives.pure named)
  refine Gives.read ?_
  rw [Place.declaredName]
  cases p.nameLeaf? with
  | none => exact Gives.pure rfl
  | some leaf => exact Gives.pure rfl

theorem gives_declared {β : Type} {k : Declaration → Outline β} {Q : β → Prop}
    (hk : ∀ d : Declaration, d.name = p.declaredName → Gives scope (k d) Q) :
    Gives scope (declarationOf p comment? >>= k) Q :=
  Gives.bind (gives_declaredName comment?) hk

theorem gives_variableNames :
    Gives scope (variablesOf p comment?) fun vs => vs.map (·.name) = p.nameLeaves.map Place.text := by
  refine Gives.read (Gives.skip fun type => Gives.pure ?_)
  rw [List.map_map]
  rfl

theorem gives_constantNames (fault? : Option String) :
    Gives scope (faultConstantsBelow p fault? comment?) fun cs => cs.map (·.name) = p.nameLeaves.map Place.text := by
  refine Gives.read (Gives.pure ?_)
  rw [List.map_map]
  rfl

theorem gives_functionName : Gives scope (functionOf p comment?) fun f => f.name = p.functionName := by
  refine Gives.skip fun returns => ?_
  dsimp only
  refine gives_declared comment? fun d named => ?_
  have last (parameters locals : List Variable) (kind : FunctionKind) :
      Gives scope (pure { d with
        name := match p.receiver? with
          | some receiver => receiver ++ "." ++ d.name
          | none => d.name
        kind := kind
        returns := returns
        parameters := .ofList (parameters.map fun v => (v.name, v))
        receiver? := p.receiver?
        locals := locals }) fun f : Function => f.name = p.functionName := by
    refine Gives.pure ?_
    rw [Place.functionName, named]
  cases p.child? .paramList <;> cases p.child? .block <;>
    exact Gives.skip fun parameters => Gives.skip fun locals => last parameters locals _

theorem gives_structName :
    Gives scope (structOf p comment?) fun a => (a.name, a.isUnion) = (p.declaredName, p.hasLeaf .unionKw) :=
  gives_declared comment? fun _ named => Gives.skip fun members => Gives.pure (by rw [named])

theorem gives_bitstructName : Gives scope (bitstructOf p comment?) fun b => b.name = p.declaredName :=
  gives_declared comment? fun _ named => Gives.skip fun _ => Gives.skip fun _ => Gives.pure named

theorem gives_enumName : Gives scope (enumOf p comment?) fun e => e.name = p.declaredName := by
  refine Gives.read (gives_declared comment? fun d named => ?_)
  cases p.child? .enumParams <;> exact Gives.skip fun _ => Gives.skip fun _ => Gives.pure named

theorem gives_faultName : Gives scope (faultOf p comment?) fun f => f.name = p.declaredName := by
  refine gives_declared comment? fun d named => ?_
  cases p.child? .faultBody <;> exact Gives.skip fun _ => Gives.pure named

theorem gives_interfaceName : Gives scope (interfaceOf p comment?) fun i => i.name = p.declaredName := by
  refine gives_declared comment? fun d named => ?_
  cases p.child? .interfaceBody <;> exact Gives.skip fun _ => Gives.pure named

theorem gives_distinctName : Gives scope (distinctOf p comment?) fun d => d.name = p.declaredName :=
  gives_declared comment? fun _ named => Gives.skip fun _ => Gives.pure named

theorem gives_aliasName : Gives scope (aliasOf p comment?) fun a => a.name = p.declaredName := by
  refine gives_declared comment? fun d named => Gives.skip fun type? => ?_
  cases type? with
  | some type => exact Gives.skip fun _ => Gives.pure named
  | none => cases p.child? .fnType <;> exact Gives.skip fun _ => Gives.pure named

end Outline

/-! ## Nodes behind modifiers -/

/-- The places hold nodes of the kind that are twins up to modifiers in front. -/
def Place.Modified (kind : NodeKind) (p q : Place) : Prop :=
  ∃ (ms ms' : List Token) (cs ds : List Tree), p.tree = .node kind (ms.map .leaf ++ cs) ∧
    q.tree = .node kind (ms'.map .leaf ++ ds) ∧ Grammar.ModifierTokens ms ∧ Grammar.ModifierTokens ms' ∧
      Tree.Twins false kind [] [] cs ds

namespace Place

theorem line_leaves (start : Nat) (ms : List Token) (cs : List Tree) :
    ∃ start', line start (ms.map .leaf ++ cs) = line start (ms.map .leaf) ++ line start' cs := by
  induction ms generalizing start with
  | nil => exact ⟨start, rfl⟩
  | cons m ms ih =>
    obtain ⟨start', rest⟩ := ih (start + (Tree.leaf m).width)
    exact ⟨start', congrArg (_ :: ·) rest⟩

theorem isNode_of_mem_leaves {start : Nat} {ms : List Token} (kind : NodeKind) :
    ∀ p ∈ line start (ms.map .leaf), p.isNode kind = false := by
  induction ms generalizing start with
  | nil => exact fun p hp => absurd hp List.not_mem_nil
  | cons m ms ih => exact List.forall_mem_cons.2 ⟨rfl, ih⟩

namespace Modified

variable {kind : NodeKind} {p q : Place}

theorem child? (h : Modified kind p q) (below : NodeKind) :
    Option.Rel (Twin false kind below) (p.child? below) (q.child? below) := by
  obtain ⟨ms, ms', cs, ds, left, right, -, -, twins⟩ := h
  have skip (ms : List Token) (cs : List Tree) {p : Place} (tree : p.tree = .node kind (ms.map .leaf ++ cs)) :
      ∃ start, p.child? below = (line start cs).find? (·.isNode below) := by
    obtain ⟨start, parts⟩ := line_leaves p.start ms cs
    refine ⟨start, ?_⟩
    rw [Place.child?, children, tree, Tree.children, parts, List.find?_append, List.find?_eq_none.2, Option.none_or]
    exact fun q hq => Bool.eq_false_iff.1 (isNode_of_mem_leaves below q hq)
  obtain ⟨start, child⟩ := skip ms cs left
  obtain ⟨start', child'⟩ := skip ms' ds right
  rw [child, child']
  exact twins.find?_isNode below _ _

theorem childrenOf (h : Modified kind p q) (below : NodeKind) :
    List.Forall₂ (Twin false kind below) (p.childrenOf below) (q.childrenOf below) := by
  obtain ⟨ms, ms', cs, ds, left, right, -, -, twins⟩ := h
  have skip (ms : List Token) (cs : List Tree) {p : Place} (tree : p.tree = .node kind (ms.map .leaf ++ cs)) :
      ∃ start, p.childrenOf below = (line start cs).filter (·.isNode below) := by
    obtain ⟨start, parts⟩ := line_leaves p.start ms cs
    refine ⟨start, ?_⟩
    rw [Place.childrenOf, children, tree, Tree.children, parts, List.filter_append, List.filter_eq_nil_iff.2,
      List.nil_append]
    exact fun q hq => Bool.eq_false_iff.1 (isNode_of_mem_leaves below q hq)
  obtain ⟨start, child⟩ := skip ms cs left
  obtain ⟨start', child'⟩ := skip ms' ds right
  rw [child, child']
  exact twins.filter_isNode below _ _

theorem hasLeaf (h : Modified kind p q) {word : TokenKind} (plain : word.isTrivia = false)
    (other : Grammar.isModifier word = false) : p.hasLeaf word = q.hasLeaf word := by
  obtain ⟨ms, ms', cs, ds, left, right, words, words', twins⟩ := h
  have skip {ms : List Token} (words : Grammar.ModifierTokens ms) (cs : List Tree) :
      ((ms.map Tree.leaf ++ cs).filterMap Tree.token?).find? (·.kind == word) =
        (cs.filterMap Tree.token?).find? (·.kind == word) := by
    have tokens : (ms.map Tree.leaf).filterMap Tree.token? = ms := by
      rw [List.filterMap_map]
      exact List.filterMap_some
    rw [List.filterMap_append, tokens, List.find?_append, List.find?_eq_none.2, Option.none_or]
    intro t ht is
    rcases words t ht with trivia | modifier
    · rw [beq_iff_eq.1 is, plain] at trivia
      cases trivia
    · rw [beq_iff_eq.1 is, other] at modifier
      cases modifier
  have found : ∀ ts : List Token, ts.find? (·.kind == word) = (ts.filter (·.kind == word)).head? := fun ts => by
    rw [List.head?_filter]
  rw [hasLeaf_eq, hasLeaf_eq, left, right, Tree.children, Tree.children, skip words, skip words', found, found,
    twins.filter_token fun t is => by rw [beq_iff_eq.1 is, plain]]

theorem declaredName (h : Modified kind p q) : p.declaredName = q.declaredName := by
  have names := nameLeaf?_rel (h.child? .name)
  rw [Place.declaredName, Place.declaredName]
  generalize p.nameLeaf? = a at names
  generalize q.nameLeaf? = b at names
  cases names with
  | none => rfl
  | some same => exact same

theorem nameTexts (h : Modified kind p q) : p.nameLeaves.map Place.text = q.nameLeaves.map Place.text :=
  Outline.map_congr_forall₂ (nameLeaves_rel (h.childrenOf .name)) fun _ _ same => same

theorem functionName (h : Modified kind p q) : p.functionName = q.functionName := by
  have receivers := h.child? .methodType
  have same : p.receiver? = q.receiver? := by
    rw [Place.receiver?, Place.receiver?]
    generalize p.child? .methodType = a at receivers
    generalize q.child? .methodType = b at receivers
    cases receivers with
    | none => rfl
    | some receiver => rw [Option.bind_some, Option.bind_some, receiver.lastToken?]
  rw [Place.functionName, Place.functionName, same, h.declaredName]

theorem isDistinctAlias (h : Modified kind p q) (scope : Scope) (lines : LineTable) :
    Outline.isDistinctAlias scope p = Outline.isDistinctAlias { scope with lines := lines } q :=
  Outline.isDistinctAlias_eq (h.child? .type) (h.hasLeaf rfl rfl) (h.hasLeaf rfl rfl)

end Modified

end Place

/-! ## States of reading -/

namespace OutlineState

/-- Whether the module that is open is in the unit. -/
def Ready (s : OutlineState) : Prop :=
  s.isOpen = true → ∃ m, s.unit.modules.get? s.scope.moduleName = some m

/-- The second state, of a text with other lines, is in the same module, and its unit has whatever the unit
of the first one has, by kind and name. -/
structure CoveredBy (s s' : OutlineState) : Prop where
  scope : ∃ lines, s'.scope = { s.scope with lines := lines }
  isOpen : s.isOpen = true → s'.isOpen = true
  ready : s'.Ready
  unit : ∀ name m, s.unit.modules.get? name = some m →
    ∃ m', s'.unit.modules.get? name = some m' ∧ m.CoveredBy m'

section Ready

variable {s : OutlineState}

theorem Ready.modifyModule (h : s.Ready) (f : Module → Module) : (s.modifyModule f).Ready := by
  intro opened
  obtain ⟨m, found⟩ := h opened
  have get : (s.unit.modules.modify s.scope.moduleName f).get? s.scope.moduleName = some (f m) := by
    rw [Table.get?_modify, if_pos rfl, found]
    rfl
  exact ⟨f m, get⟩

theorem Ready.build {α : Type} (h : s.Ready) (b : Outline α) (add : α → Module → Module) : (s.build b add).Ready :=
  Ready.modifyModule (s := { s with pending := (b.result s.scope s.pending).2 }) h _

theorem exists_get?_register (u : SourceUnit) (m : Module) : ∃ k, (u.register m).modules.get? m.name = some k := by
  rw [SourceUnit.register]
  split <;> exact ⟨_, Table.get?_insert_self _ _ _⟩

theorem Ready.openModule (h : s.Ready) : s.openModule.Ready := by
  rw [OutlineState.openModule]
  split
  · exact h
  · exact fun _ => exists_get?_register _ _

end Ready

/-- A module without declarations comes into the unit, unless it is there. -/
theorem get?_register (u : SourceUnit) {m : Module} (nothing : ∀ k : Module, k.merge m = k) (name : String) :
    (u.register m).modules.get? name =
      if name = m.name then some ((u.modules.get? name).getD m) else u.modules.get? name := by
  rw [SourceUnit.register]
  cases known : u.modules.get? m.name with
  | none =>
    dsimp only
    rw [Table.get?_insert]
    split
    next here => rw [here, known, Option.getD_none]
    next => rfl
  | some k =>
    dsimp only
    rw [nothing, Table.get?_insert]
    split
    next here => rw [here, known, Option.getD_some]
    next => rfl

namespace CoveredBy

open Outline (Gives)
open Place (Modified)

variable {s s' : OutlineState} {kind : NodeKind} {p q : Place}

theorem modifyModule (h : CoveredBy s s') {f f' : Module → Module}
    (hf : ∀ m m' : Module, m.CoveredBy m' → (f m).CoveredBy (f' m')) :
    CoveredBy (s.modifyModule f) (s'.modifyModule f') := by
  obtain ⟨lines, scope⟩ := h.scope
  refine ⟨⟨lines, scope⟩, h.isOpen, h.ready.modifyModule f', fun name m found => ?_⟩
  have same : s'.scope.moduleName = s.scope.moduleName := by rw [scope]; rfl
  have get : (s.unit.modules.modify s.scope.moduleName f).get? name = some m := found
  have get' : (s'.modifyModule f').unit.modules.get? name =
      (s'.unit.modules.modify s.scope.moduleName f').get? name := by rw [← same]; rfl
  rw [get', Table.get?_modify]
  rw [Table.get?_modify] at get
  split at get
  next here =>
    obtain ⟨k, known, rfl⟩ := Option.map_eq_some_iff.1 get
    obtain ⟨k', known', covered⟩ := h.unit name k known
    exact ⟨f' k', by rw [if_pos here, known']; rfl, hf k k' covered⟩
  next other =>
    obtain ⟨k', known', covered⟩ := h.unit name m get
    exact ⟨k', by rw [if_neg other, known'], covered⟩

theorem extendRegion (h : CoveredBy s s') (stop stop' : Nat) :
    CoveredBy (s.extendRegion stop) (s'.extendRegion stop') :=
  h.modifyModule fun _ _ covered => ⟨covered.globals, covered.enums, covered.faults, covered.faultConstants,
    covered.structs, covered.bitstructs, covered.aliases, covered.distincts, covered.interfaces,
    covered.functions⟩

/-- What two builders give under the same label comes into the module. -/
theorem build (h : CoveredBy s s') {α β : Type} {b b' : Outline α} {add : α → Module → Module} (e : α → β)
    {label : β} (hb : Gives s.scope b fun a => e a = label) (hb' : Gives s'.scope b' fun a => e a = label)
    (hadd : ∀ a a' (m m' : Module), e a' = e a → m.CoveredBy m' → (add a m).CoveredBy (add a' m')) :
    CoveredBy (s.build b add) (s'.build b' add) := by
  have before : CoveredBy { s with pending := (b.result s.scope s.pending).2 }
      { s' with pending := (b'.result s'.scope s'.pending).2 } := ⟨h.scope, h.isOpen, h.ready, h.unit⟩
  exact before.modifyModule fun m m' covered => hadd _ _ m m' ((hb' _).trans (hb _).symm) covered

/-- Modules of the same name without declarations come into the units. -/
theorem register (h : CoveredBy s s') {m m' : Module} (name : m'.name = m.name)
    (nothing : ∀ k : Module, k.merge m = k) (nothing' : ∀ k : Module, k.merge m' = k)
    (empty : ∀ k : Module, m.CoveredBy k) :
    ∀ name k, (s.unit.register m).modules.get? name = some k →
      ∃ k', (s'.unit.register m').modules.get? name = some k' ∧ k.CoveredBy k' := by
  intro key k found
  rw [get?_register _ nothing] at found
  rw [get?_register _ nothing', name]
  split at found
  next here =>
    rw [if_pos here]
    refine ⟨_, rfl, ?_⟩
    cases known : s.unit.modules.get? key with
    | none =>
      rw [known] at found
      obtain rfl : m = k := Option.some.inj found
      exact empty _
    | some n =>
      rw [known] at found
      obtain rfl : n = k := Option.some.inj found
      obtain ⟨n', known', covered⟩ := h.unit key n known
      rw [known']
      exact covered
  next other =>
    rw [if_neg other]
    exact h.unit key k found

theorem openModule (h : CoveredBy s s') : CoveredBy s.openModule s'.openModule := by
  obtain ⟨lines, scope⟩ := h.scope
  have ready := h.ready.openModule
  have merged (d : DocId) (k : Module) : k.merge (.ofPath s.scope.path d default default) = k :=
    k.merge_ofPath _ _ _ _ none [] false []
  have empty (k : Module) : (Module.ofPath s.scope.path s.scope.doc default default).CoveredBy k :=
    .ofPath _ _ _ _ none [] false [] k
  rw [OutlineState.openModule, OutlineState.openModule] at *
  cases opened : s.isOpen with
  | true =>
    rw [h.isOpen opened]
    exact h
  | false =>
    cases opened' : s'.isOpen with
    | true =>
      refine ⟨⟨lines, scope⟩, fun _ => opened', h.ready, fun name m found => ?_⟩
      obtain ⟨k', known'⟩ := h.ready opened'
      rw [scope] at known'
      have found : (s.unit.register (.ofPath s.scope.path s.scope.doc default default)).modules.get? name = some m :=
        found
      rw [get?_register _ (merged _)] at found
      split at found
      next here =>
        cases known : s.unit.modules.get? name with
        | none =>
          rw [known] at found
          obtain rfl := Option.some.inj found
          exact ⟨k', here ▸ known', empty k'⟩
        | some n =>
          rw [known] at found
          obtain rfl : n = m := Option.some.inj found
          exact h.unit name n known
      next => exact h.unit name m found
    | false =>
      rw [opened'] at ready
      refine ⟨⟨lines, scope⟩, fun _ => rfl, ready, ?_⟩
      rw [scope]
      exact h.register rfl (merged _) (merged _) empty

theorem declareModule (h : CoveredBy s s') (node : Modified .moduleDecl p q) (comment? comment?' : Option DocComment) :
    CoveredBy (s.declareModule p comment?) (s'.declareModule q comment?') := by
  have paths := node.child? .modulePath
  have lists := node.child? .genericParams
  have both := h
  obtain ⟨lines, scope⟩ := h.scope
  rw [OutlineState.declareModule, OutlineState.declareModule]
  generalize p.child? .modulePath = a at paths ⊢
  generalize q.child? .modulePath = b at paths ⊢
  cases paths with
  | none => exact both
  | some path =>
    dsimp only
    rw [path.path]
    split
    · exact both
    have fresh {m m' : Module} (path : ModulePath) (generics : List String) (start start' : Position)
        (name : m.name = path.text) (same : m'.name = m.name) (nothing : ∀ k : Module, k.merge m = k)
        (nothing' : ∀ k : Module, k.merge m' = k) (empty : ∀ k : Module, m.CoveredBy k) :
        CoveredBy ⟨{ s.scope with path := path, genericParameters := generics }, s.unit.register m, s.pending, true,
          start⟩ ⟨{ s'.scope with path := path, genericParameters := generics }, s'.unit.register m', s'.pending,
            true, start'⟩ := by
      refine ⟨⟨lines, by rw [scope]⟩, fun _ => rfl, fun _ => ?_, both.register same nothing nothing' empty⟩
      obtain ⟨k, known⟩ := exists_get?_register s'.unit m'
      exact ⟨k, by rw [← known, same, name]; rfl⟩
    generalize p.child? .genericParams = a at lists ⊢
    generalize q.child? .genericParams = b at lists ⊢
    cases lists with
    | none =>
      refine fresh _ _ _ _ ?_ ?_ ?_ ?_ ?_
      · rfl
      · rfl
      · exact fun k => k.merge_ofPath _ _ _ _ _ _ _ _
      · exact fun k => k.merge_ofPath _ _ _ _ _ _ _ _
      · exact fun k => .ofPath _ _ _ _ _ _ _ _ k
    | some list =>
      dsimp only
      rw [Outline.map_congr_forall₂ list.nameLeaves fun _ _ same => same]
      refine fresh _ _ _ _ ?_ ?_ ?_ ?_ ?_
      · rfl
      · rfl
      · exact fun k => k.merge_ofPath _ _ _ _ _ _ _ _
      · exact fun k => k.merge_ofPath _ _ _ _ _ _ _ _
      · exact fun k => .ofPath _ _ _ _ _ _ _ _ k

theorem declare (h : CoveredBy s s') (node : Modified kind p q) (comment? comment?' : Option DocComment) :
    CoveredBy (s.declare kind p comment?) (s'.declare kind q comment?') := by
  have built {α β : Type} {b b' : Outline α} {add : α → Module → Module} (e : α → β) {label : β}
      (hb : Gives s.scope b fun a => e a = label) (hb' : Gives s'.scope b' fun a => e a = label)
      (hadd : ∀ a a' (m m' : Module), e a' = e a → m.CoveredBy m' → (add a m).CoveredBy (add a' m')) :
      CoveredBy ((s.build b add).extendRegion p.stop) ((s'.build b' add).extendRegion q.stop) :=
    (h.build e hb hb' hadd).extendRegion _ _
  have which : kind = .defDecl → Outline.isDistinctAlias s.scope p = Outline.isDistinctAlias s'.scope q := by
    rintro rfl
    obtain ⟨lines, scope⟩ := h.scope
    rw [scope]
    exact node.isDistinctAlias s.scope lines
  refine declare_induct₂ which h fun declares => ?_
  cases declares with
  | function =>
    refine built (·.name) (Outline.gives_functionName comment?)
      (node.functionName ▸ Outline.gives_functionName comment?') fun f f' m m' same covered => ?_
    refine { covered with functions := fun g hg => ?_ }
    rcases List.mem_append.1 hg with old | new
    · obtain ⟨g', hg', name⟩ := covered.functions g old
      exact ⟨g', List.mem_append_left _ hg', name⟩
    · exact ⟨f', List.mem_append_right _ (List.mem_singleton.2 rfl), List.mem_singleton.1 new ▸ same⟩
  | struct =>
    have labels : (q.declaredName, q.hasLeaf .unionKw) = (p.declaredName, p.hasLeaf .unionKw) := by
      rw [node.declaredName, node.hasLeaf rfl rfl]
    refine built (fun a => (a.name, a.isUnion)) (Outline.gives_structName comment?)
      (labels ▸ Outline.gives_structName comment?') fun a a' m m' same covered => ?_
    exact { covered with structs := covered.structs.insert_key (·.name) (Prod.mk.inj same).1 same }
  | bitstruct =>
    refine built (·.name) (Outline.gives_bitstructName comment?)
      (node.declaredName ▸ Outline.gives_bitstructName comment?') fun b b' m m' same covered => ?_
    exact { covered with bitstructs := covered.bitstructs.insert_key (·.name) same same }
  | enum =>
    refine built (·.name) (Outline.gives_enumName comment?)
      (node.declaredName ▸ Outline.gives_enumName comment?') fun e e' m m' same covered => ?_
    exact { covered with enums := covered.enums.insert_key (·.name) same same }
  | fault =>
    refine built (·.name) (Outline.gives_faultName comment?)
      (node.declaredName ▸ Outline.gives_faultName comment?') fun f f' m m' same covered => ?_
    exact { covered with faults := covered.faults.insert_key (·.name) same same }
  | faultConstants =>
    refine built (fun cs => cs.map (·.name)) (Outline.gives_constantNames comment? none)
      (node.nameTexts ▸ Outline.gives_constantNames comment?' none) fun cs cs' m m' same covered => ?_
    exact { covered with faultConstants := covered.faultConstants.foldl_insert same }
  | distinct =>
    refine built (·.name) (Outline.gives_distinctName comment?)
      (node.declaredName ▸ Outline.gives_distinctName comment?') fun d d' m m' same covered => ?_
    exact { covered with distincts := covered.distincts.insert_key (·.name) same same }
  | aliased =>
    refine built (·.name) (Outline.gives_aliasName comment?)
      (node.declaredName ▸ Outline.gives_aliasName comment?') fun a a' m m' same covered => ?_
    exact { covered with aliases := covered.aliases.insert_key (·.name) same same }
  | interface =>
    refine built (·.name) (Outline.gives_interfaceName comment?)
      (node.declaredName ▸ Outline.gives_interfaceName comment?') fun i i' m m' same covered => ?_
    exact { covered with interfaces := covered.interfaces.insert_key (·.name) same same }
  | globals =>
    refine built (fun vs => vs.map (·.name)) (Outline.gives_variableNames comment?)
      (node.nameTexts ▸ Outline.gives_variableNames comment?') fun vs vs' m m' same covered => ?_
    exact { covered with globals := covered.globals.foldl_insert same }

/-- Declarations of the same kind are read. -/
theorem step (h : CoveredBy s s') (node : Modified kind p q) (previous previous' : List Tree) :
    CoveredBy (s.step previous p) (s'.step previous' q) := by
  have kinds : p.tree.nodeKind? = some kind ∧ q.tree.nodeKind? = some kind := by
    obtain ⟨ms, ms', cs, ds, left, right, -⟩ := node
    rw [left, right]
    exact ⟨rfl, rfl⟩
  rw [OutlineState.step, OutlineState.step, kinds.1, kinds.2]
  cases kind
  case error => exact h
  case moduleDecl => exact h.declareModule node _ _
  case importDecl =>
    refine (h.openModule.modifyModule fun m m' covered => ?_).extendRegion _ _
    obtain ⟨imports, same⟩ := m.addImports_eq (importsOf p)
    obtain ⟨imports', same'⟩ := m'.addImports_eq (importsOf q)
    rw [same, same']
    exact { covered with }
  all_goals exact h.openModule.declare node _ _

/-- Twins are read. -/
theorem read {previous previous' ts us : List Tree} (h : CoveredBy s s')
    (twins : Tree.Twins false .sourceFile previous previous' ts us) (start start' stop stop' : Nat) :
    CoveredBy (s.read (placesWithPrevious start previous ts) stop)
      (s'.read (placesWithPrevious start' previous' us) stop') := by
  generalize top : NodeKind.sourceFile = parent at twins
  induction twins generalizing s s' start start' with
  | nil => exact h.openModule.extendRegion stop stop'
  | @left _ _ _ t _ _ blank _ ih =>
    cases t with
    | leaf => exact ih h _ _ top
    | node => cases blank
  | @right _ _ _ u _ _ blank _ ih =>
    cases u with
    | leaf => exact ih h _ _ top
    | node => cases blank
  | leaf _ _ _ ih => exact ih h _ _ top
  | @node _ _ _ kind _ _ cs ds below _ _ _ _ ih =>
    subst top
    exact ih (h.step (p := ⟨start, .node kind cs⟩) (q := ⟨start', .node kind ds⟩)
      ⟨[], [], cs, ds, rfl, rfl, fun t ht => absurd ht List.not_mem_nil,
        fun t ht => absurd ht List.not_mem_nil, below⟩ _ _) _ _ rfl

end CoveredBy

/-! ## What stands in front -/

/-- The second state is the first one after some declarations in the same module. -/
structure Onward (s s' : OutlineState) : Prop where
  scope : s'.scope = s.scope
  isOpen : s.isOpen = true → s'.isOpen = true
  ready : s.Ready → s'.Ready

namespace Onward

variable {s s' s'' : OutlineState}

theorem refl (s : OutlineState) : Onward s s :=
  ⟨rfl, fun opened => opened, fun ready => ready⟩

theorem trans (h : Onward s s') (k : Onward s' s'') : Onward s s'' :=
  ⟨k.scope.trans h.scope, fun opened => k.isOpen (h.isOpen opened), fun ready => k.ready (h.ready ready)⟩

theorem modifyModule (s : OutlineState) (f : Module → Module) : Onward s (s.modifyModule f) :=
  ⟨rfl, fun opened => opened, fun ready => ready.modifyModule f⟩

theorem build {α : Type} (s : OutlineState) (b : Outline α) (add : α → Module → Module) : Onward s (s.build b add) :=
  ⟨rfl, fun opened => opened, fun ready => ready.build b add⟩

theorem openModule (s : OutlineState) : Onward s s.openModule where
  scope := by
    rw [OutlineState.openModule]
    split <;> rfl
  isOpen opened := by rwa [OutlineState.openModule, if_pos opened]
  ready ready := ready.openModule

theorem declare (s : OutlineState) (kind : NodeKind) (p : Place) (comment? : Option DocComment) :
    Onward s (s.declare kind p comment?) :=
  declare_induct (.refl s) fun _ => (build s _ _).trans (modifyModule _ _)

/-- All but declarations of modules leave the reading in the module. -/
theorem step (s : OutlineState) (previous : List Tree) {p : Place} (plain : p.tree.nodeKind? ≠ some .moduleDecl) :
    Onward s (s.step previous p) := by
  unfold OutlineState.step
  split
  · exact .refl s
  · exact .refl s
  next no => exact absurd no plain
  · exact (openModule s).trans ((modifyModule _ _).trans (modifyModule _ _))
  · exact (openModule s).trans (declare _ _ _ _)

end Onward

/-- What stands in front and declares no module leaves the state of the whole ahead of that of the rest. -/
theorem CoveredBy.front {s s' : OutlineState} (h : CoveredBy s s') (none : s.unit.modules = .empty) {ts : List Tree}
    (plain : Grammar.NoModules ts) (start : Nat) (previous : List Tree) (us : List Tree) (stop : Nat) :
    ∃ s'' start' previous', CoveredBy s s'' ∧
      s'.read (placesWithPrevious start previous (ts ++ us)) stop =
        s''.read (placesWithPrevious start' previous' us) stop := by
  induction ts generalizing s' start previous with
  | nil => exact ⟨s', start, previous, h, rfl⟩
  | cons t ts ih =>
    obtain ⟨first, others⟩ := List.forall_mem_cons.1 plain
    have onward := Onward.step s' previous (p := ⟨start, t⟩) first
    obtain ⟨lines, scope⟩ := h.scope
    have next : CoveredBy s (s'.step previous ⟨start, t⟩) := by
      refine ⟨⟨lines, onward.scope.trans scope⟩, fun opened => onward.isOpen (h.isOpen opened),
        onward.ready h.ready, fun name m found => ?_⟩
      rw [none] at found
      cases found
    exact ih next others _ _

/-- Tokens outside of declarations declare nothing. -/
theorem read_leaves (s : OutlineState) (blanks : List Token) (start : Nat) (previous : List Tree) (us : List Tree)
    (stop : Nat) :
    ∃ start' previous', s.read (placesWithPrevious start previous (blanks.map .leaf ++ us)) stop =
      s.read (placesWithPrevious start' previous' us) stop := by
  induction blanks generalizing start previous with
  | nil => exact ⟨start, previous, rfl⟩
  | cons t blanks ih => exact ih _ (.leaf t :: previous)

theorem CoveredBy.start (doc : DocId) (lines lines' : LineTable) :
    CoveredBy (OutlineState.start doc lines) (OutlineState.start doc lines') := by
  rw [start_eq, start_eq]
  generalize doc.filePath = path
  exact ⟨⟨lines', rfl⟩, fun opened => opened, fun opened => absurd opened Bool.false_ne_true,
    fun name m found => by cases found⟩

end OutlineState

/-- Trees of texts that are the same up to blanks are twins, whatever stands before them. -/
theorem Tree.Similar.twins {ts us : List Tree} (h : Similar ts us) (formed : WellFormedList ts)
    (formed' : WellFormedList us) (inText : Token.InText (tokensOfList ts)) (inText' : Token.InText (tokensOfList us))
    (parent : NodeKind) (previous previous' : List Tree) : Twins false parent previous previous' ts us :=
  Paired.twins ⟨h, formed, formed', inText, inText', fun no => absurd no Bool.false_ne_true,
    fun no => absurd no Bool.false_ne_true⟩

/-- What is known of a text of which a node and what stands behind it are parts. -/
theorem Parse.parts_of_tree {s : String} {front cs us : List Tree} {kind : NodeKind} {ms : List Token}
    (tree : (ofString s).tree = .node .sourceFile (front ++ .node kind (ms.map .leaf ++ cs) :: us)) :
    (Tree.WellFormedList cs ∧ Token.InText (Tree.tokensOfList cs)) ∧
      Tree.WellFormedList us ∧ Token.InText (Tree.tokensOfList us) := by
  obtain ⟨tokens, formed⟩ := tree_ofString s
  rw [tree] at tokens formed
  have inText : Token.InText (Tree.tokensOfList (front ++ .node kind (ms.map .leaf ++ cs) :: us)) :=
    ⟨s.toList, (congrArg (· <:+: Token.ofString s) tokens).mpr (List.infix_refl _)⟩
  rw [Tree.tokensOfList_append] at inText
  have behind := (Tree.wellFormedList_append.1 formed.2).2
  have node : Token.InText (Tree.tokensOfList (ms.map .leaf ++ cs)) := inText.right.left
  rw [Tree.tokensOfList_append] at node
  exact ⟨⟨(Tree.wellFormedList_append.1 behind.1.2).2, node.right⟩, behind.2, inText.right.right⟩

/-- The symbols of a text that begins with a declaration are among those of the text behind loose tokens,
by kind and name and module by module, if all that begins among the tokens has its end among them. -/
theorem outlineOfText_recovered (doc : DocId) {s s' : String} {g : List Token} {d : Token}
    (tokens : Token.significant (Token.ofString s) = g ++ Token.significant (Token.ofString s'))
    (first : (Token.significant (Token.ofString s')).head? = some d)
    (starts : d.kind.startsDeclaration = true)
    (ended : Grammar.Ended d.kind (g.map fun t => ⟨t, []⟩)) :
    ∀ name m, (outlineOfText doc s').1.module? name = some m →
      ∃ m', (outlineOfText doc s).1.module? name = some m' ∧
        ∀ x ∈ m.children, ∃ x' ∈ m'.children, x'.kind = x.kind ∧ x'.name = x.name := by
  obtain ⟨front, blanks, ms, ms', kind, cs, ds, us, us', tree, tree', plain, words, words', similar⟩ :=
    Parse.tree_resumed tokens first starts ended
  obtain ⟨⟨formed, inText⟩, formedRest, inTextRest⟩ := Parse.parts_of_tree tree
  obtain ⟨⟨formed', inText'⟩, formedRest', inTextRest'⟩ := Parse.parts_of_tree tree'
  have bare := similar.bare
  rw [Tree.bareList_node, Tree.bareList_node, List.cons.injEq, Tree.node.injEq] at bare
  have below : Tree.Similar ds cs := ⟨bare.1.2.symm, similar.right.1.2, similar.left.1.2⟩
  have behind : Tree.Similar us' us := ⟨bare.2.symm, similar.right.2, similar.left.2⟩
  let alone := OutlineState.start doc (.ofString s')
  have unit : alone.unit.modules = .empty := rfl
  have covered := OutlineState.CoveredBy.start doc (.ofString s') (.ofString s)
  -- What stands in front of the declaration is read on both sides.
  obtain ⟨whole, start, previous, ahead, read⟩ := covered.front unit plain 0 []
    (.node kind (ms.map .leaf ++ cs) :: us) (LineTable.ofString s).byteSize
  obtain ⟨start', previous', read'⟩ := OutlineState.read_leaves alone blanks 0 []
    (.node kind (ms'.map .leaf ++ ds) :: us') (LineTable.ofString s').byteSize
  have node : Place.Modified kind ⟨start', .node kind (ms'.map .leaf ++ ds)⟩ ⟨start, .node kind (ms.map .leaf ++ cs)⟩ :=
    ⟨ms', ms, ds, cs, rfl, rfl, words', words, below.twins formed' formed inText' inText kind [] []⟩
  have done := (ahead.step node previous' previous).read
    (behind.twins formedRest' formedRest inTextRest' inTextRest .sourceFile
      (.node kind (ms'.map .leaf ++ ds) :: previous') (.node kind (ms.map .leaf ++ cs) :: previous))
    (start' + (Tree.node kind (ms'.map .leaf ++ ds)).width) (start + (Tree.node kind (ms.map .leaf ++ cs)).width)
    (LineTable.ofString s').byteSize (LineTable.ofString s).byteSize
  have out (s : String) : (outlineOfText doc s).1 = ((OutlineState.start doc (.ofString s)).read
      (placesWithPrevious 0 [] (Parse.ofString s).tree.children) (LineTable.ofString s).byteSize).unit := rfl
  intro name m found
  rw [out, tree', Tree.children, read'] at found
  obtain ⟨m', found', children⟩ := done.unit name m found
  refine ⟨m', ?_, children.exists_mem_children⟩
  rw [out, tree, Tree.children, read]
  exact found'

/-- The function behind a variable and a loose name is read. -/
theorem outlineOfText_recovered_function :
    Token.significant (Token.ofString "static int x = 1; y\nfn void f();") =
        [⟨.staticKw, "static"⟩, ⟨.ident, "int"⟩, ⟨.ident, "x"⟩, ⟨.equal, "="⟩, ⟨.intNumber, "1"⟩,
          ⟨.semicolon, ";"⟩, ⟨.ident, "y"⟩] ++ Token.significant (Token.ofString "fn void f();") ∧
      ∃ m', (outlineOfText ⟨"a.c3"⟩ "static int x = 1; y\nfn void f();").1.module? "a" = some m' ∧
        ∃ x' ∈ m'.children, x'.kind = .function ∧ x'.name = "f" := by
  have tokens : Token.significant (Token.ofString "static int x = 1; y\nfn void f();") =
      [⟨.staticKw, "static"⟩, ⟨.ident, "int"⟩, ⟨.ident, "x"⟩, ⟨.equal, "="⟩, ⟨.intNumber, "1"⟩,
        ⟨.semicolon, ";"⟩, ⟨.ident, "y"⟩] ++ Token.significant (Token.ofString "fn void f();") := by decide +kernel
  have kept := outlineOfText_recovered ⟨"a.c3"⟩ (d := ⟨.fnKw, "fn"⟩) tokens (by decide +kernel) rfl (by decide +kernel)
  have declared : ((outlineOfText ⟨"a.c3"⟩ "fn void f();").1.module? "a").any (fun m =>
      m.children.any fun x => x.kind == .function && x.name == "f") = true := by decide +kernel
  refine ⟨tokens, ?_⟩
  obtain ⟨m, found, function⟩ := (Option.any_eq_true _ _).1 declared
  obtain ⟨x, hx, same⟩ := List.any_eq_true.1 function
  rw [Bool.and_eq_true, beq_iff_eq, beq_iff_eq] at same
  obtain ⟨m', found', children⟩ := kept "a" m found
  obtain ⟨x', hx', kind, name⟩ := children x hx
  exact ⟨m', found', x', hx', kind.trans same.1, name.trans same.2⟩

/-- The value of a variable is left open, and the function behind it is lost. -/
theorem open_value_takes_declaration :
    Grammar.hasOpenEnd .fnKw [⟨⟨.ident, "int"⟩, []⟩, ⟨⟨.ident, "x"⟩, []⟩, ⟨⟨.equal, "="⟩, []⟩] = true ∧
      ((outlineOfText ⟨"a.c3"⟩ "fn void f();").1.modules.values.flatMap fun m => m.children.map fun x =>
        (x.kind, x.name)) = [(.function, "f")] ∧
      ((outlineOfText ⟨"a.c3"⟩ "int x =\nfn void f();").1.modules.values.flatMap fun m => m.children.map fun x =>
        (x.kind, x.name)) = [(.variable, "x")] := by
  decide +kernel

end C3Lens
