import C3Lens.Lookup.Viewpoint
import C3Lens.Proofs.Lookup.Visible
import C3Lens.Proofs.Outline.Delimited
import C3Lens.Proofs.Outline.Regions
import C3Lens.Proofs.Workspace.Spelling

/-!
# Parameters and local variables come first

A name inside of a function means the parameter of the name, else the last local variable of the name that is
declared before, and only then a declaration of a module (`Workspace.find?_inside_function`). The function is
searched in the module that is found at the position, and only if that is the one it was put into; that takes
that no two module declarations of the document have one name (`Document.DeclaresModulesOnce`, see
`Proofs.Outline.Regions`).

While a text is read, each function stays in the module that was in force where it stands, and the functions of
a module stand one behind the other (`OutlineState.Carries`). Both are seen at names and ranges, which nothing
changes that later happens to a unit (`SourceUnit.holdsFunctions_map_iff`).
-/

namespace C3Lens

/-! ## The order of places -/

namespace Tree

mutual

/-- A place in front of another one in the list of all places does not begin behind it. -/
theorem pairwise_placesFrom (t : Tree) (start : Nat) :
    (t.placesFrom start).Pairwise fun p q => p.start ≤ q.start := by
  match t with
  | .leaf _ => exact List.pairwise_singleton _ _
  | .node _ ts =>
    refine List.pairwise_cons.2 ⟨fun q hq => ?_, pairwise_placesOfList ts start⟩
    obtain ⟨ms, ns, -, begins⟩ := exists_tokens_of_mem_placesOfList ts hq
    exact begins ▸ Nat.le_add_right _ _

theorem pairwise_placesOfList (ts : List Tree) (start : Nat) :
    (placesOfList start ts).Pairwise fun p q => p.start ≤ q.start := by
  match ts with
  | [] => exact List.Pairwise.nil
  | t :: ts =>
    refine List.pairwise_append.2 ⟨pairwise_placesFrom t start, pairwise_placesOfList ts _, fun p hp q hq => ?_⟩
    obtain ⟨ms, ns, tokens, begins⟩ := exists_tokens_of_mem_placesFrom t hp
    obtain ⟨_, _, _, behind⟩ := exists_tokens_of_mem_placesOfList ts hq
    rw [t.width_eq, tokens, Token.charsOf_append, Token.charsOf_append, utf8Length_append,
      utf8Length_append] at behind
    omega

end

end Tree

namespace Place

theorem stop_le_of_firstLeaf? {p leaf : Place} (h : p.firstLeaf? = some leaf) :
    leaf.start = p.start ∧ leaf.stop ≤ p.stop := by
  obtain ⟨token, rfl, mem⟩ := mem_descendants_of_firstLeaf? h
  obtain ⟨ts, us, tokens, begins⟩ := p.tree.exists_tokens_of_mem_placesFrom mem
  refine ⟨rfl, ?_⟩
  rw [stop, stop, p.tree.width_eq, tokens, Token.charsOf_append, Token.charsOf_append, utf8Length_append,
    utf8Length_append, Tree.width_eq]
  omega

theorem pairwise_line (start : Nat) (ts : List Tree) : (line start ts).Pairwise fun p q => p.stop ≤ q.start := by
  induction ts generalizing start with
  | nil => exact List.Pairwise.nil
  | cons t ts ih =>
    refine List.pairwise_cons.2 ⟨fun q hq => ?_, ih _⟩
    have behind := Tree.placesFrom_subset_of_mem_line hq q.mem_descendants_self
    obtain ⟨_, _, _, begins⟩ := Tree.exists_tokens_of_mem_placesOfList ts behind
    exact begins ▸ Nat.le_add_right _ _

/-- The names directly below a place stand one behind the other. -/
theorem pairwise_nameLeaves (p : Place) : p.nameLeaves.Pairwise fun a b => a.stop ≤ b.start := by
  refine List.pairwise_filterMap.2 ((pairwise_line _ _).filter _ |>.imp fun between a first b first' => ?_)
  exact (stop_le_of_firstLeaf? first).2.trans (between.trans (stop_le_of_firstLeaf? first').1.ge)

end Place

/-! ## The order of local variables -/

/-- Ranges of declarations, each with that of a name in it, are in source order: they are those of declarations
of which none begins in front of one before it, and the names of each declaration stand one behind the other. -/
def InSourceOrder (ranges : List (Range × Range)) : Prop :=
  ∃ declarations : List (Range × List Range),
    ranges = declarations.flatMap (fun d => d.2.map (d.1, ·)) ∧
    declarations.Pairwise (fun d e => d.1.start ≤ e.1.start) ∧
    ∀ d ∈ declarations, d.2.Pairwise fun r s => r.stop ≤ s.start

/-- The ranges of the local variables, each with that of the name. -/
def Function.localRanges (f : Function) : List (Range × Range) :=
  f.locals.map fun x => (x.range, x.nameRange)

namespace Outline

variable {text : String} {scope : Scope}

section Order

variable (lines : scope.lines = .ofString text)

include lines

theorem ordered_variablesOf (p : Place) (comment? : Option DocComment) :
    Gives scope (variablesOf p comment?) fun vs => ∃ names : List Range,
      (vs.map fun v => (v.range, v.nameRange)) = names.map (scope.range p, ·) ∧
        names.Pairwise fun r s => r.stop ≤ s.start := by
  refine Gives.read (Gives.skip fun type => Gives.pure ⟨p.nameLeaves.map scope.range, ?_, ?_⟩)
  · rw [List.map_map, List.map_map]
    rfl
  · refine List.pairwise_map.2 (p.pairwise_nameLeaves.imp fun between => ?_)
    rw [Scope.range, Scope.range, Scope.rangeOf, Scope.rangeOf, lines]
    exact LineTable.position_mono text between

theorem ordered_localsOf {ps : List Place} :
    Gives scope (localsOf ps) fun vs => ∃ declarations : List (Range × List Range),
      (vs.map fun v => (v.range, v.nameRange)) = declarations.flatMap (fun d => d.2.map (d.1, ·)) ∧
        declarations.map (·.1) = ps.map scope.range ∧
        ∀ d ∈ declarations, d.2.Pairwise fun r s => r.stop ≤ s.start := by
  induction ps with
  | nil => exact Gives.pure ⟨[], rfl, rfl, fun d hd => absurd hd List.not_mem_nil⟩
  | cons q ps ih =>
    refine Gives.bind (ordered_variablesOf lines q none) fun vs ⟨names, first, between⟩ => ?_
    refine Gives.bind ih fun ws ⟨declarations, rest, starts, inner⟩ => Gives.pure ?_
    refine ⟨(scope.range q, names) :: declarations, ?_, ?_, List.forall_mem_cons.2 ⟨between, inner⟩⟩
    · rw [List.map_append, first, rest, List.flatMap_cons]
    · rw [List.map_cons, starts, List.map_cons]

theorem ordered_functionOf (p : Place) (comment? : Option DocComment) :
    Gives scope (functionOf p comment?) fun f => InSourceOrder f.localRanges := by
  have nothing : InSourceOrder [] := ⟨[], rfl, List.Pairwise.nil, fun d hd => absurd hd List.not_mem_nil⟩
  refine Gives.skip fun returns => Gives.skip fun d => ?_
  extract_lets name kind withParameters
  have function : ∀ vs, Gives scope (withParameters vs) fun f => InSourceOrder f.localRanges := by
    intro vs
    dsimp only [withParameters]
    split
    next body _ =>
      refine Gives.bind (ordered_localsOf lines) fun locals ⟨declarations, ranges, starts, inner⟩ => Gives.pure ?_
      refine ⟨declarations, ranges, ?_, inner⟩
      have places : (body.descendants.filter (·.isNode .localVarDecl)).Pairwise fun p q => p.start ≤ q.start :=
        (body.tree.pairwise_placesFrom body.start).filter _
      have sorted : (declarations.map (·.1)).Pairwise fun r s => r.start ≤ s.start := by
        rw [starts, List.pairwise_map]
        refine places.imp fun le => ?_
        rw [Scope.range, Scope.range, Scope.rangeOf, Scope.rangeOf, lines]
        exact LineTable.position_mono text le
      rwa [List.pairwise_map] at sorted
    next => exact Gives.pure nothing
  split
  · exact Gives.skip function
  · exact function []

end Order

theorem range_functionOf (p : Place) (comment? : Option DocComment) :
    Gives scope (functionOf p comment?) fun f => f.range = scope.range p := by
  have named : Gives scope (declarationOf p comment?) fun d => d.range = scope.range p :=
    Gives.read (Gives.skip fun _ => Gives.pure rfl)
  refine Gives.skip fun returns => Gives.bind named fun d hd => ?_
  extract_lets name kind withParameters
  have function : ∀ vs, Gives scope (withParameters vs) fun f => f.range = scope.range p := by
    intro vs
    dsimp only [withParameters]
    split
    · exact Gives.skip fun locals => Gives.pure hd
    · exact Gives.pure hd
  split
  · exact Gives.skip function
  · exact function []

end Outline

theorem Function.IsReadFrom.range {g : Function} {scope : Scope} {p : Place} (h : g.IsReadFrom scope p) :
    g.range = scope.range p := by
  obtain ⟨comment?, pending, rfl⟩ := h
  exact Outline.range_functionOf p comment? pending

theorem Function.IsReadFrom.ordered {text : String} {g : Function} {scope : Scope} {p : Place}
    (h : g.IsReadFrom scope p) (lines : scope.lines = .ofString text) : InSourceOrder g.localRanges := by
  obtain ⟨comment?, pending, rfl⟩ := h
  exact Outline.ordered_functionOf lines p comment? pending

/-! ## The functions of a unit -/

/-- The functions of the module of the name. -/
def SourceUnit.functionsOf (u : SourceUnit) (name : String) : List Function :=
  ((u.module? name).map (·.functions)).getD []

theorem SourceUnit.mem_functionsOf {u : SourceUnit} {m : Module} {f : Function}
    (keyed : u.modules.KeyedBy (·.name)) (hm : m ∈ u.modules.values) (hf : f ∈ m.functions) :
    f ∈ u.functionsOf m.name := by
  have found : u.module? m.name = some m := keyed.get?_of_mem hm
  rw [functionsOf, found]
  exact hf

theorem SourceUnit.functionsOf_register {u : SourceUnit} {m : Module} (bare : ∀ k : Module, k.merge m = k)
    (functions : m.functions = []) (name : String) : (u.register m).functionsOf name = u.functionsOf name := by
  rw [functionsOf, functionsOf, module?, module?, register]
  by_cases same : name = m.name
  · subst same
    cases known : u.modules.get? m.name with
    | none =>
      dsimp only
      rw [Table.get?_insert_self, Option.map_some, Option.getD_some, functions]
      rfl
    | some k =>
      dsimp only
      rw [bare, Table.get?_insert_self]
  · cases u.modules.get? m.name with
    | none => rw [Table.get?_insert, if_neg same]
    | some k => rw [Table.get?_insert, if_neg same]

/-- The function is built from an item among the parts of a text, where the module of the name is in force. -/
def Function.StandsIn (f : Function) (text file : String) (parts : List Place) (name : String) : Prop :=
  ∃ before d after, parts = before ++ d :: after ∧ d.isItem = true ∧ nameInForce file before = name ∧
    ∃ scope : Scope, scope.lines = .ofString text ∧ f.IsReadFrom scope d

theorem Function.StandsIn.append {f : Function} {text file name : String} {parts : List Place}
    (h : f.StandsIn text file parts name) (more : List Place) : f.StandsIn text file (parts ++ more) name := by
  obtain ⟨before, d, after, rfl, rest⟩ := h
  exact ⟨before, d, after ++ more, by rw [List.append_assoc, List.cons_append], rest⟩

namespace OutlineState

variable {s : OutlineState}

theorem functionsOf_extendRegion (stop : Nat) (name : String) :
    (s.extendRegion stop).unit.functionsOf name = s.unit.functionsOf name := by
  have found : (s.extendRegion stop).unit.module? name = _ := Table.get?_modify _ _ _ _
  rw [SourceUnit.functionsOf, found, SourceUnit.functionsOf]
  split
  · rw [Option.map_map]
    rfl
  · rfl

theorem functionsOf_openModule (name : String) : s.openModule.unit.functionsOf name = s.unit.functionsOf name := by
  rw [openModule]
  split
  · rfl
  · exact SourceUnit.functionsOf_register (fun k => k.merge_ofPath _ _ _ _ none [] false []) rfl name

theorem functionsOf_modifyModule {f : Module → Module} {function? : Option Function}
    (functions : ∀ m, (f m).functions = m.functions ++ function?.toList) (name : String) :
    (s.modifyModule f).unit.functionsOf name = s.unit.functionsOf name ∨
      name = s.scope.moduleName ∧
        (s.modifyModule f).unit.functionsOf name = s.unit.functionsOf name ++ function?.toList := by
  have found : (s.modifyModule f).unit.module? name = _ := Table.get?_modify _ _ _ _
  rw [SourceUnit.functionsOf, found, SourceUnit.functionsOf]
  split
  next same =>
    cases known : s.unit.module? name with
    | none =>
      have unknown : s.unit.modules.get? name = none := known
      rw [unknown]
      exact .inl rfl
    | some m =>
      have known' : s.unit.modules.get? name = some m := known
      rw [known']
      exact .inr ⟨same, functions m⟩
  next => exact .inl rfl

/-- The functions of the modules that are read from parts of a text up to an offset. -/
structure Carries (text file : String) (parts : List Place) (here : Nat) (u : SourceUnit) : Prop where
  read : ∀ name, ∀ f ∈ u.functionsOf name, f.StandsIn text file parts name
  apart : ∀ name, (u.functionsOf name).Pairwise fun f g => f.range.stop ≤ g.range.start
  passed : ∀ name, ∀ f ∈ u.functionsOf name, f.range.stop ≤ (LineTable.ofString text).position here

section Carries

variable {text file : String} {parts : List Place} {here there : Nat} {p : Place} {u v : SourceUnit}

theorem Carries.mono (h : Carries text file parts here u) (le : here ≤ there) (more : List Place)
    (same : ∀ name, v.functionsOf name = u.functionsOf name) : Carries text file (parts ++ more) there v := by
  refine ⟨fun name f hf => ?_, fun name => ?_, fun name f hf => ?_⟩
  · rw [same] at hf
    exact (h.read name f hf).append more
  · rw [same]
    exact h.apart name
  · rw [same] at hf
    exact Position.le_trans (h.passed name f hf) (LineTable.position_mono text le)

theorem Carries.item (h : Carries text file parts here u) (start : p.start = here) (item : p.isItem = true)
    {function? : Option Function} {scope : Scope} (lines : scope.lines = .ofString text)
    (read : ∀ g ∈ function?, g.IsReadFrom scope p)
    (functions : ∀ name, v.functionsOf name = u.functionsOf name ∨
      name = nameInForce file parts ∧ v.functionsOf name = u.functionsOf name ++ function?.toList) :
    Carries text file (parts ++ [p]) p.stop v := by
  have le : here ≤ p.stop := start ▸ Nat.le_add_right _ _
  have range : ∀ g ∈ function?, g.range = ⟨(LineTable.ofString text).position here,
      (LineTable.ofString text).position p.stop⟩ := by
    intro g hg
    rw [(read g hg).range, Scope.range, Scope.rangeOf, lines, start]
  refine ⟨fun name f hf => ?_, fun name => ?_, fun name f hf => ?_⟩
  · rcases functions name with same | ⟨force, more⟩
    · rw [same] at hf
      exact (h.read name f hf).append [p]
    · rw [more, List.mem_append, Option.mem_toList] at hf
      rcases hf with old | new
      · exact (h.read name f old).append [p]
      · exact ⟨parts, p, [], rfl, item, force.symm, scope, lines, read f new⟩
  · rcases functions name with same | ⟨-, more⟩
    · rw [same]
      exact h.apart name
    · rw [more, List.pairwise_append]
      refine ⟨h.apart name, ?_, fun f hf g hg => ?_⟩
      · cases function? <;> simp
      · rw [range g (Option.mem_toList.1 hg)]
        exact h.passed name f hf
  · have old : f ∈ u.functionsOf name → f.range.stop ≤ (LineTable.ofString text).position p.stop := fun hf =>
      Position.le_trans (h.passed name f hf) (LineTable.position_mono text le)
    rcases functions name with same | ⟨-, more⟩
    · exact old (same ▸ hf)
    · rw [more, List.mem_append, Option.mem_toList] at hf
      rcases hf with there | new
      · exact old there
      · rw [range f new]
        exact Position.le_refl _

theorem Carries.step {s s' : OutlineState} (h : Carries text file parts here s.unit)
    (passed : Passed text file parts here s) (start : p.start = here) (reads : s.Reads p s') :
    Carries text file (parts ++ [p]) p.stop s'.unit := by
  have le : here ≤ p.stop := start ▸ Nat.le_add_right _ _
  cases reads with
  | nothing => exact h.mono le [p] fun _ => rfl
  | opens _ bare functions => exact h.mono le [p] (SourceUnit.functionsOf_register bare functions)
  | inside => exact h.mono le [p] functionsOf_openModule
  | item item name range functions read =>
    refine h.item start item passed.lines read fun name => ?_
    rw [functionsOf_extendRegion, ← passed.inForce, ← functionsOf_openModule (s := s), ← s.scope_openModule]
    exact functionsOf_modifyModule functions name

theorem Carries.steps {more : List (List Tree × Place)} {s : OutlineState}
    (h : Carries text file parts here s.unit) (passed : Passed text file parts here s)
    (tiles : Tiles here more there) :
    Carries text file (parts ++ more.map (·.2)) there
      (more.foldl (fun s part => s.step part.1 part.2) s).unit := by
  induction more generalizing parts here s with
  | nil =>
    rw [List.map_nil, List.append_nil]
    exact tiles ▸ h
  | cons part more ih =>
    have reads := s.reads_step part.1 part.2
    have rest := ih (h.step passed tiles.1 reads) (passed.step tiles.1 reads) tiles.2
    rwa [List.append_assoc, List.singleton_append] at rest

end Carries

end OutlineState

theorem carries_outline (doc : DocId) (text : String) :
    OutlineState.Carries text doc.filePath.text (Parse.ofString text).root.children
      (LineTable.ofString text).byteSize (outlineOfText doc text).1 := by
  have nothing : ∀ name, (OutlineState.start doc (.ofString text)).unit.functionsOf name = [] := fun _ => rfl
  have start :
      OutlineState.Carries text doc.filePath.text [] 0 (OutlineState.start doc (.ofString text)).unit := by
    refine ⟨fun name f hf => ?_, fun name => ?_, fun name f hf => ?_⟩
    · rw [nothing] at hf
      cases hf
    · rw [nothing]
      exact List.Pairwise.nil
    · rw [nothing] at hf
      cases hf
  have whole := start.steps (OutlineState.passed_start doc text) (tiles_ofString text)
  rw [List.nil_append, map_placesWithPrevious] at whole
  have read := whole.mono (Nat.le_refl _) [] (v := (outlineOfText doc text).1) fun name => by
    rw [outlineOfText, outline]
    exact (OutlineState.functionsOf_extendRegion _ name).trans (OutlineState.functionsOf_openModule name)
  rwa [List.append_nil] at read

/-! ## Functions and positions -/

/-- Where modules have different names, no region is opened again but that of the module named for the file, which
then is the first one. -/
theorem isReopened_or_first {file : String} {before after : List Place} {d : Place} (inside : d.isInside = true)
    (distinct : ((before ++ d :: after).filterMap Place.opened?).Nodup) :
    isReopened (nameInForce file before) after = false ∨
      (openedIn file (before ++ [d])).head? = some (nameInForce file before) ∧
        ∀ name ∈ openedIn file (before ++ [d]), isReopened name after = true := by
  have closed := Place.opened?_of_isInside inside
  rw [List.filterMap_append, List.filterMap_cons_none closed, List.nodup_append] at distinct
  cases again : isReopened (nameInForce file before) after with
  | false => exact .inl rfl
  | true =>
    have later := mem_of_isReopened again
    have first : before.filterMap Place.opened? = [] := by
      rw [← List.getLast?_eq_none_iff]
      cases last : (before.filterMap Place.opened?).getLast? with
      | none => rfl
      | some name =>
        rw [nameInForce, last, Option.getD_some] at later
        exact absurd rfl (distinct.2.2 name (List.mem_of_getLast? last) name later)
    have force : nameInForce file before = file := by
      rw [nameInForce, first]
      rfl
    have nothing : openedIn file before = [] ∨ openedIn file before = [file] := openedIn_of_filterMap_eq_nil first
    have only : openedIn file (before ++ [d]) = [file] := by
      rw [openedIn_concat, closed, inside]
      rcases nothing with none | one
      · rw [none]
        rfl
      · rw [one]
        rfl
    rw [force] at again ⊢
    rw [only]
    exact .inr ⟨rfl, fun n hn => (List.mem_singleton.1 hn).symm ▸ again⟩

/-- Where modules have different names, the one in force is found inside of every item. -/
theorem moduleAt?_of_distinct (doc : DocId) {text : String} {before after : List Place} {d : Place} {p : Position}
    (h : InItem text before d after p)
    (distinct : ((Parse.ofString text).root.children.filterMap Place.opened?).Nodup) :
    ∃ m, (outlineOfText doc text).1.module? (nameInForce doc.filePath.text before) = some m ∧
      (outlineOfText doc text).1.moduleAt? p = some m := by
  obtain ⟨m, found, here⟩ := (seenFrom_outline doc h.parts h.item).moduleAt?_iff h.start h.stop
  rw [h.parts] at distinct
  exact ⟨m, found, here.2 (isReopened_or_first (Place.isInside_of_isItem h.item) distinct)⟩

namespace SourceUnit

/-- Inside of each function the module of the function is found. The functions of a module stand one behind the
other, and their local variables are listed in order. -/
structure HoldsFunctions (u : SourceUnit) : Prop where
  module : ∀ m ∈ u.modules.values, ∀ f ∈ m.functions, ∀ p, f.range.start < p → p < f.range.stop →
    (u.moduleAt? p).map (·.name) = some m.name
  apart : ∀ m ∈ u.modules.values, m.functions.Pairwise fun f g => f.range.stop ≤ g.range.start
  ordered : ∀ m ∈ u.modules.values, ∀ f ∈ m.functions, InSourceOrder f.localRanges

theorem holdsFunctions_outline (doc : DocId) {text : String}
    (distinct : ((Parse.ofString text).root.children.filterMap Place.opened?).Nodup) :
    (outlineOfText doc text).1.HoldsFunctions := by
  have carries := carries_outline doc text
  have keyed : (outlineOfText doc text).1.modules.KeyedBy (·.name) := (declared_outline _ _ _).1
  refine ⟨fun m hm f hf p start stop => ?_, fun m hm => ?_, fun m hm f hf => ?_⟩
  · obtain ⟨before, d, after, parts, item, force, scope, lines, read⟩ :=
      carries.read m.name f (mem_functionsOf keyed hm hf)
    rw [read.range, Scope.range, Scope.rangeOf, lines] at start stop
    obtain ⟨k, found, there⟩ := moduleAt?_of_distinct doc ⟨parts, item, start, stop⟩ distinct
    have name : k.name = nameInForce doc.filePath.text before := keyed _ k found
    rw [there, Option.map_some, name, force]
  · have found : (outlineOfText doc text).1.module? m.name = some m := keyed.get?_of_mem hm
    have apart := carries.apart m.name
    rw [functionsOf, found] at apart
    exact apart
  · obtain ⟨-, d, -, -, -, -, scope, lines, read⟩ := carries.read m.name f (mem_functionsOf keyed hm hf)
    exact read.ordered lines

section Map

variable {g : Module → Module} (range : ∀ m, (g m).range = m.range)

include range

theorem lastBefore?_map (p : Position) (ms : List Module) :
    lastBefore? p (ms.map g) = (lastBefore? p ms).map g := by
  cases ms with
  | nil => rfl
  | cons m ms =>
    show ((m :: ms).map g).foldl _ none = ((m :: ms).foldl _ none).map g
    rw [List.foldl_map]
    change List.foldl _ (Option.map g none) (m :: ms) = _
    refine List.foldl_hom (Option.map g) fun prior? k => ?_
    rw [range]
    split
    · cases prior? with
      | none => rfl
      | some q =>
        dsimp only [Option.map_some]
        rw [range, apply_ite (Option.map g), Option.map_some, Option.map_some]
    · rfl

theorem moduleAt?_map (u : SourceUnit) (doc : DocId) (p : Position) :
    (⟨doc, u.modules.map g⟩ : SourceUnit).moduleAt? p = (u.moduleAt? p).map g := by
  rw [moduleAt?, moduleAt?]
  simp only [Table.values_map, List.find?_map, lastBefore?_map range, List.head?_map, Function.comp_def, range]
  rw [map_orElse, map_orElse]

end Map

/-- That a unit holds its functions is seen at names and ranges. -/
theorem holdsFunctions_map_iff {u : SourceUnit} {g : Module → Module} (doc : DocId)
    (name : ∀ m, (g m).name = m.name) (range : ∀ m, (g m).range = m.range) {k : Function → Function}
    (functions : ∀ m, (g m).functions = m.functions.map k) (same : ∀ f, (k f).range = f.range)
    (locals : ∀ f, (k f).localRanges = f.localRanges) :
    (⟨doc, u.modules.map g⟩ : SourceUnit).HoldsFunctions ↔ u.HoldsFunctions := by
  have found : ∀ p, ((⟨doc, u.modules.map g⟩ : SourceUnit).moduleAt? p).map (·.name) =
      (u.moduleAt? p).map (·.name) := by
    intro p
    rw [moduleAt?_map range, Option.map_map, Function.comp_def]
    simp only [name]
  have modules : ∀ P : Module → Prop, (∀ m ∈ (u.modules.map g).values, P m) ↔ ∀ m ∈ u.modules.values, P (g m) := by
    intro P
    rw [Table.values_map, List.forall_mem_map]
  constructor
  · rintro ⟨module, apart, ordered⟩
    rw [modules] at module apart ordered
    refine ⟨fun m hm f hf p start stop => ?_, fun m hm => ?_, fun m hm f hf => ?_⟩
    · have here := module m hm (k f) (functions m ▸ List.mem_map_of_mem hf) p
      rw [same, found, name] at here
      exact here start stop
    · have between := apart m hm
      rw [functions, List.pairwise_map] at between
      simpa only [same] using between
    · rw [← locals]
      exact ordered m hm (k f) (functions m ▸ List.mem_map_of_mem hf)
  · rintro ⟨module, apart, ordered⟩
    refine ⟨(modules _).2 fun m hm => ?_, (modules _).2 fun m hm => ?_, (modules _).2 fun m hm => ?_⟩
    · rw [functions, List.forall_mem_map]
      intro f hf p start stop
      rw [same] at start stop
      rw [found, name]
      exact module m hm f hf p start stop
    · rw [functions, List.pairwise_map]
      simpa only [same] using apart m hm
    · rw [functions, List.forall_mem_map]
      intro f hf
      rw [locals]
      exact ordered m hm f hf

theorem holdsFunctions_setDoc_iff {u : SourceUnit} (doc : DocId) :
    (u.setDoc doc).HoldsFunctions ↔ u.HoldsFunctions :=
  holdsFunctions_map_iff doc (fun _ => rfl) (fun _ => rfl) (fun _ => rfl) (fun _ => rfl) fun f => by
    rw [Function.localRanges, Function.setDoc, List.map_map]
    rfl

theorem holdsFunctions_skeleton_iff {u : SourceUnit} : u.skeleton.HoldsFunctions ↔ u.HoldsFunctions :=
  holdsFunctions_map_iff u.doc (fun _ => rfl) (fun _ => rfl) (fun _ => rfl) (fun _ => rfl) fun f => by
    rw [Function.localRanges, Function.mapModule, List.map_map]
    rfl

/-- A function of a module is the one at each position inside of it. -/
theorem HoldsFunctions.functionAt? {u : SourceUnit} (h : u.HoldsFunctions) {m : Module} (hm : m ∈ u.modules.values)
    {f : Function} (hf : f ∈ m.functions) {p : Position} (start : f.range.start < p) (stop : p < f.range.stop) :
    m.functionAt? p = some f := by
  obtain ⟨front, behind, split⟩ := List.append_of_mem hf
  have apart := h.apart m hm
  rw [split, List.pairwise_append] at apart
  rw [Module.functionAt?, List.find?_eq_some_iff_append]
  refine ⟨?_, front, behind, split, fun g hg => ?_⟩
  · rw [Range.contains, Bool.and_eq_true, decide_eq_true_eq, decide_eq_true_eq]
    exact ⟨Position.le_of_lt start, Position.le_of_lt stop⟩
  · rw [Bool.not_eq_true', Range.contains, Bool.and_eq_false_iff, decide_eq_false_iff_not, decide_eq_false_iff_not]
    exact .inr fun inside => inside (Position.lt_of_le_of_lt (apart.2.2 g hg f List.mem_cons_self) start)

end SourceUnit

/-- No two module declarations of the document are of one name. One of them may have the name that the file has:
then they share a module with what stands in front of them. -/
def Document.DeclaresModulesOnce (d : Document) : Prop :=
  (d.parse.root.children.filterMap Place.opened?).Nodup

instance (d : Document) : Decidable d.DeclaresModulesOnce :=
  inferInstanceAs (Decidable (List.Nodup _))

namespace Document.Gives

variable {d : Document} {doc : DocId} {u : SourceUnit}

theorem shelved (h : d.Gives doc u) : u.Shelved := by
  obtain ⟨id, resolves⟩ := h
  exact ((SourceUnit.shelved_outline id d.lines d.parse.tree).setDoc doc).of_skeleton resolves.skeleton_eq

theorem holdsFunctions (h : d.Gives doc u) (read : d.IsRead) (once : d.DeclaresModulesOnce) :
    u.HoldsFunctions := by
  obtain ⟨id, resolves⟩ := h
  rw [Document.DeclaresModulesOnce, read.1] at once
  rw [← SourceUnit.holdsFunctions_skeleton_iff, resolves.skeleton_eq, SourceUnit.holdsFunctions_skeleton_iff,
    SourceUnit.holdsFunctions_setDoc_iff, read.1, read.2]
  exact SourceUnit.holdsFunctions_outline id once

end Document.Gives

/-! ## Names inside of functions -/

namespace Viewpoint

variable {v : Viewpoint} {name : String} {m : VisibleModule} {f : Function}

/-- What is found at the cursor's function is found before everything else. -/
theorem find?_of_localIn? (word : isReserved name = false) (first : v.modules.head? = some m)
    (own : v.isOwn m = true) (function : m.content.functionAt? v.cursor.position = some f) {x : Variable}
    (found : v.localIn? name f = some x) : v.find? name = some (.variable x) := by
  obtain ⟨rest, modules⟩ := List.head?_eq_some_iff.1 first
  have here : v.findIn? name m = some (.variable x) := by
    rw [findIn?, functionIn?, if_pos own, function, Option.bind_some, found]
    rfl
  rw [find?, word, if_neg Bool.false_ne_true, modules, List.findSome?_cons, here]
  rfl

end Viewpoint

/-- Of the local variables of the name that are declared before the position, the last one is found. -/
theorem Function.exists_localBefore? {f : Function} {name : String} {p : Position} {x : Variable}
    (hx : x ∈ f.locals) (named : x.name = name) (before : x.range.start < p) :
    ∃ earlier last later, f.locals = earlier ++ last :: later ∧ last.name = name ∧ last.range.start < p ∧
      (∀ y ∈ later, y.name = name → ¬ y.range.start < p) ∧ f.localBefore? name p = some last := by
  have candidate : (f.localBefore? name p).isSome = true := by
    rw [localBefore?, List.find?_isSome]
    exact ⟨x, List.mem_reverse.2 hx, by rw [named, beq_self_eq_true, decide_eq_true before]; rfl⟩
  obtain ⟨last, found⟩ := Option.isSome_iff_exists.1 candidate
  obtain ⟨here, later, earlier, split, others⟩ := List.find?_eq_some_iff_append.1 found
  rw [Bool.and_eq_true, beq_iff_eq, decide_eq_true_eq] at here
  refine ⟨earlier.reverse, last, later.reverse, ?_, here.1, here.2, fun y hy named' before' => ?_, found⟩
  · rw [← List.reverse_inj, split]
    simp
  · have other := others y (List.mem_reverse.1 hy)
    rw [named', beq_self_eq_true, decide_eq_true before'] at other
    cases other

namespace Workspace

variable {w : Workspace} {doc : DocId} {d : Document} {u : SourceUnit} {m : Module} {f : Function} {p : Position}

/-- Inside of a function its own module is searched first, at that function. -/
theorem Outlined.find?_of_localIn? (h : w.Outlined) (document : w.document? doc = some d)
    (once : d.DeclaresModulesOnce) (unit : w.symbols.unit? doc = some u) (hm : m ∈ u.modules.values)
    (hf : f ∈ m.functions) (start : f.range.start < p) (stop : p < f.range.stop) {name : String}
    (word : isReserved name = false) {x : Variable} (found : (w.viewpoint doc p).localIn? name f = some x) :
    (w.viewpoint doc p).find? name = some (.variable x) := by
  have gives := h.gives document unit
  have shelved := gives.shelved
  have holds := gives.holdsFunctions (h.read doc d document) once
  obtain ⟨k, here, name'⟩ := Option.map_eq_some_iff.1 (holds.module m hm f hf p start stop)
  obtain rfl : k = m := by
    have inUnit := shelved.keyed.get?_of_mem (SourceUnit.mem_modules_of_moduleAt? here)
    rw [name', shelved.keyed.get?_of_mem hm] at inUnit
    exact (Option.some.inj inUnit).symm
  have cursor : w.cursor doc p = ⟨doc, k.modulePath, p⟩ := by
    rw [Workspace.cursor, moduleAt?, unit, Option.bind_some, here]
    rfl
  have first : (w.viewpoint doc p).modules.head? = some ⟨doc, k, .document⟩ := by
    rw [viewpoint, cursor]
    exact head?_visibleModules_of_unit h.keyed unit shelved hm rfl
  refine Viewpoint.find?_of_localIn? word first ?_ ?_ found
  · rw [Viewpoint.isOwn, viewpoint, cursor, Bool.and_eq_true]
    exact ⟨beq_self_eq_true _, beq_self_eq_true _⟩
  · rw [viewpoint, cursor]
    exact holds.functionAt? hm hf start stop

/-- In a workspace that is reached, inside of a function of a document whose modules have different names: a name
that is not reserved means the parameter of the name; else the last local variable of the name that is declared
before the position, in the order of the source; whatever is declared elsewhere. -/
theorem find?_inside_function (h : Reachable ClientAction w) (document : w.document? doc = some d)
    (once : d.DeclaresModulesOnce) (unit : w.symbols.unit? doc = some u) (hm : m ∈ u.modules.values)
    (hf : f ∈ m.functions) (start : f.range.start < p) (stop : p < f.range.stop) {name : String}
    (word : isReserved name = false) :
    (∀ x, f.parameters.get? name = some x → (w.viewpoint doc p).find? name = some (.variable x)) ∧
    (f.parameters.get? name = none → ∀ x ∈ f.locals, x.name = name → x.range.start < p →
      ∃ earlier last later, f.locals = earlier ++ last :: later ∧ last.name = name ∧ last.range.start < p ∧
        (∀ y ∈ later, y.name = name → ¬ y.range.start < p) ∧
        (w.viewpoint doc p).find? name = some (.variable last)) ∧
    InSourceOrder f.localRanges := by
  have outlined := outlined_of_reachable h
  have found : ∀ {x : Variable}, (w.viewpoint doc p).localIn? name f = some x →
      (w.viewpoint doc p).find? name = some (.variable x) :=
    outlined.find?_of_localIn? document once unit hm hf start stop word
  refine ⟨fun x parameter => found ?_, fun none x hx named before => ?_, ?_⟩
  · rw [Viewpoint.localIn?, parameter]
    rfl
  · obtain ⟨earlier, last, later, split, named', before', others, there⟩ :=
      Function.exists_localBefore? hx named before
    refine ⟨earlier, last, later, split, named', before', others, found ?_⟩
    rw [Viewpoint.localIn?, none]
    exact there
  · exact ((outlined.gives document unit).holdsFunctions (outlined.read doc d document) once).ordered m hm f hf

/-- A document with a parameter and a local variable that have the names of global variables. -/
def shadowing : List Action :=
  [.openDocument ⟨"file:///a.c3"⟩ "int x,y;fn void f(int x){int y;}" 1]

set_option maxRecDepth 100000 in
/-- Inside of the function the parameter is found, and the local variable. -/
theorem find?_shadowing :
    let w := run shadowing
    let p : Position := ⟨0, 31⟩
    Reachable ClientAction w ∧ ∃ d u m f, w.document? ⟨"file:///a.c3"⟩ = some d ∧ d.DeclaresModulesOnce ∧
      w.symbols.unit? ⟨"file:///a.c3"⟩ = some u ∧ m ∈ u.modules.values ∧ f ∈ m.functions ∧
      f.range.start < p ∧ p < f.range.stop ∧
      (∃ x, f.parameters.get? "x" = some x ∧
        (w.viewpoint ⟨"file:///a.c3"⟩ p).find? "x" = some (.variable x)) ∧
      ∃ earlier last later, f.locals = earlier ++ last :: later ∧ last.name = "y" ∧ last.range.start < p ∧
        (∀ y ∈ later, y.name = "y" → ¬ y.range.start < p) ∧
        (w.viewpoint ⟨"file:///a.c3"⟩ p).find? "y" = some (.variable last) := by
  intro w p
  have reachable : Reachable ClientAction w :=
    Reachable.empty.act (a := .openDocument ⟨"file:///a.c3"⟩
      "int x,y;fn void f(int x){int y;}" 1) (DocId.isClient_of_prefix (by decide))
  have checks : (w.document? ⟨"file:///a.c3"⟩).any (fun d => decide d.DeclaresModulesOnce &&
      (w.symbols.unit? ⟨"file:///a.c3"⟩).any fun u => (u.moduleAt? p).any fun m => (m.functionAt? p).any fun f =>
        (f.range.start < p && p < f.range.stop) && ((f.parameters.get? "x").isSome &&
          (f.parameters.get? "y").isNone) &&
        f.locals.any fun x => x.name == "y" && x.range.start < p) = true := by
    decide +kernel
  simp only [Option.any_eq_true, Bool.and_eq_true, decide_eq_true_eq, List.any_eq_true, beq_iff_eq] at checks
  obtain ⟨d, document, once, u, unit, m, module, f, function, ⟨⟨start, stop⟩, bound, unbound⟩, y, hy, named,
    before⟩ := checks
  have hm : m ∈ u.modules.values := SourceUnit.mem_modules_of_moduleAt? module
  have hf : f ∈ m.functions := List.mem_of_find?_eq_some function
  obtain ⟨x, parameter⟩ := Option.isSome_iff_exists.1 bound
  have xFree : isReserved "x" = false := by decide
  have yFree : isReserved "y" = false := by decide
  have first := (find?_inside_function reachable document once unit hm hf start stop xFree).1 x parameter
  have second := (find?_inside_function reachable document once unit hm hf start stop yFree).2.1
    (Option.isNone_iff_eq_none.1 unbound) y hy named before
  exact ⟨reachable, d, u, m, f, document, once, unit, hm, hf, start, stop, ⟨x, parameter, first⟩, second⟩

end Workspace

end C3Lens
