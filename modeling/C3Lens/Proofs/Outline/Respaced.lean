import C3Lens.Proofs.Outline.Layout

/-!
# The outline of a text that is laid out in another way

The symbols of a text are those of its tokens. Two texts with the same tokens between their blanks and
comments have the same outline but for the ranges (`outlineOfText_respaced`), under two conditions:

* the parts that symbols keep in their text have blanks at the same places (`Tree.keptGaps`), whatever
  these blanks are;
* the doc comments in front of the declarations are the same (`Tree.comments`).

Neither can be left out. A default value, say, is kept as it is written, with one space where a blank or
comment stands, so `1+2` is not `1 + 2` there (`default_keeps_gaps`), while in a path or in a type blanks
are not seen, nor are they between the equal sign and the value.

A text without such parts and without doc comments has the symbols of its tree without blanks
(`outlineOfText_bare`).
-/

namespace C3Lens

namespace OutlineState

/-- The second state is the first one in a text with other lines, up to the ranges. -/
def Alike (s s' : OutlineState) : Prop :=
  ∃ lines unit start, s' = ⟨{ s.scope with lines := lines }, unit, s.pending, s.isOpen, start⟩ ∧
    s.unit.eraseRanges = unit.eraseRanges

namespace Alike

open Outline (Same)
open Place (Twin)

variable {s s' : OutlineState} {parent kind : NodeKind} {p q : Place}

theorem modifyModule (h : Alike s s') {f f' g : Module → Module} (hf : ∀ m, (f m).eraseRanges = g m.eraseRanges)
    (hf' : ∀ m, (f' m).eraseRanges = g m.eraseRanges) : Alike (s.modifyModule f) (s'.modifyModule f') := by
  obtain ⟨lines, unit, start, rfl, same⟩ := h
  refine ⟨lines, unit.modify s.scope.moduleName f', start, rfl, ?_⟩
  rw [OutlineState.modifyModule, SourceUnit.eraseRanges_modify _ hf, SourceUnit.eraseRanges_modify _ hf', same]

theorem extendRegion (h : Alike s s') (stop stop' : Nat) : Alike (s.extendRegion stop) (s'.extendRegion stop') :=
  h.modifyModule (g := id) (fun _ => rfl) fun _ => rfl

/-- What two builders build alike comes into the module. -/
theorem build (h : Alike s s') {α β : Type} {e : α → β} {b b' : Outline α} {add : α → Module → Module}
    (add' : β → Module → Module) (hb : ∀ lines, Same s.scope lines e b b')
    (hadd : ∀ a m, (add a m).eraseRanges = add' (e a) m.eraseRanges) : Alike (s.build b add) (s'.build b' add) := by
  obtain ⟨lines, unit, start, rfl, same⟩ := h
  obtain ⟨built, work⟩ := hb lines s.pending
  rw [build_eq, build_eq]
  dsimp only
  rw [← work]
  have after : Alike { s with pending := (b.result s.scope s.pending).2 } _ := ⟨lines, unit, start, rfl, same⟩
  refine after.modifyModule (g := add' (e (b.result s.scope s.pending).1)) (hadd _) fun m => ?_
  rw [built]
  exact hadd _ m

/-- Modules without declarations that are alike come into the units. -/
theorem register (h : Alike s s') {m m' : Module} (same : m.eraseRanges = m'.eraseRanges)
    (nothing : ∀ k : Module, k.merge m = k) (nothing' : ∀ k : Module, k.merge m' = k)
    (erased : ∀ k : Module, k.merge m.eraseRanges = k) (path : ModulePath) (generics : List String)
    (start start' : Position) :
    Alike ⟨{ s.scope with path := path, genericParameters := generics }, s.unit.register m, s.pending, true, start⟩
      ⟨{ s'.scope with path := path, genericParameters := generics }, s'.unit.register m', s'.pending, true,
        start'⟩ := by
  obtain ⟨lines, unit, _, rfl, units⟩ := h
  refine ⟨lines, unit.register m', start', rfl, ?_⟩
  rw [SourceUnit.eraseRanges_register _ nothing erased, SourceUnit.eraseRanges_register _ nothing' (same ▸ erased),
    units, same]

theorem openModule (h : Alike s s') : Alike s.openModule s'.openModule := by
  have both := h
  obtain ⟨lines, unit, start, rfl, same⟩ := h
  rw [OutlineState.openModule, OutlineState.openModule]
  split
  · exact both
  · have merged : ∀ k : Module, k.merge (.ofPath s.scope.path s.scope.doc default default) = k :=
      fun k => k.merge_ofPath _ _ _ _ none [] false []
    exact both.register rfl merged merged merged s.scope.path s.scope.genericParameters _ _

theorem declareModule (h : Alike s s') (twin : Twin true parent .moduleDecl p q) (comment? : Option DocComment) :
    Alike (s.declareModule p comment?) (s'.declareModule q comment?) := by
  have paths := twin.child? .modulePath
  have lists := twin.child? .genericParams
  have attributes : (p.childrenOf .attribute).map (·.tree.compactText) =
      (q.childrenOf .attribute).map (·.tree.compactText) :=
    Outline.map_congr_forall₂ (twin.childrenOf .attribute) fun a b found => found.text rfl (by decide) (by decide)
  have both := h
  obtain ⟨lines, unit, start, rfl, same⟩ := h
  rw [OutlineState.declareModule, OutlineState.declareModule, attributes]
  generalize p.child? .modulePath = a at paths ⊢
  generalize q.child? .modulePath = b at paths ⊢
  generalize p.child? .genericParams = a at lists ⊢
  generalize q.child? .genericParams = b at lists ⊢
  cases paths with
  | none => exact both
  | some path =>
    dsimp only
    rw [path.path]
    split
    · exact both
    cases lists with
    | none =>
      refine both.register ?_ ?_ ?_ ?_ _ _ _ _
      · rfl
      all_goals exact fun k => k.merge_ofPath _ _ _ _ _ _ _ _
    | some list =>
      dsimp only
      rw [Outline.map_congr_forall₂ list.nameLeaves fun a b same => same]
      refine both.register ?_ ?_ ?_ ?_ _ _ _ _
      · rfl
      all_goals exact fun k => k.merge_ofPath _ _ _ _ _ _ _ _

theorem declare (h : Alike s s') (twin : Twin true parent kind p q) (comment? : Option DocComment) :
    Alike (s.declare kind p comment?) (s'.declare kind q comment?) := by
  have built : ∀ {α β : Type} {e : α → β} {b b' : Outline α} {add : α → Module → Module}
      (add' : β → Module → Module), (∀ lines, Same s.scope lines e b b') →
      (∀ a m, (add a m).eraseRanges = add' (e a) m.eraseRanges) →
      Alike ((s.build b add).extendRegion p.stop) ((s'.build b' add).extendRegion q.stop) :=
    fun add' hb hadd => (h.build add' hb hadd).extendRegion _ _
  have which : kind = .defDecl → Outline.isDistinctAlias s.scope p = Outline.isDistinctAlias s'.scope q := by
    rintro rfl
    obtain ⟨lines, unit, start, rfl, -⟩ := h
    exact Outline.isDistinctAlias_eq (twin.child? .type) (twin.hasLeaf rfl) (twin.hasLeaf rfl)
  refine declare_induct₂ which h fun declares => ?_
  cases declares with
  | function =>
    refine built (fun f m => { m with functions := m.functions ++ [f] })
      (fun _ => Outline.same_functionOf twin comment?) fun f m => ?_
    rw [Module.eraseRanges, List.map_append]
    rfl
  | struct =>
    refine built (fun a m => { m with structs := m.structs.insert a.name a })
      (fun _ => Outline.same_structOf twin comment?) fun a m => ?_
    rw [Module.eraseRanges, Table.map_insert]
    rfl
  | bitstruct =>
    refine built (fun b m => { m with bitstructs := m.bitstructs.insert b.name b })
      (fun _ => Outline.same_bitstructOf twin comment?) fun b m => ?_
    rw [Module.eraseRanges, Table.map_insert]
    rfl
  | enum =>
    refine built (fun e m => { m with enums := m.enums.insert e.name e })
      (fun _ => Outline.same_enumOf twin comment?) fun e m => ?_
    rw [Module.eraseRanges, Table.map_insert]
    rfl
  | fault =>
    refine built (fun f m => { m with faults := m.faults.insert f.name f })
      (fun _ => Outline.same_faultOf twin comment?) fun f m => ?_
    rw [Module.eraseRanges, Table.map_insert]
    rfl
  | faultConstants =>
    exact built (fun cs m => m.addFaultConstants cs)
      (fun _ => Outline.same_faultConstantsBelow twin none comment?) fun cs m => m.eraseRanges_addFaultConstants cs
  | distinct =>
    refine built (fun d m => { m with distincts := m.distincts.insert d.name d })
      (fun _ => Outline.same_distinctOf twin comment?) fun d m => ?_
    rw [Module.eraseRanges, Table.map_insert]
    rfl
  | aliased =>
    refine built (fun a m => { m with aliases := m.aliases.insert a.name a })
      (fun _ => Outline.same_aliasOf twin comment?) fun a m => ?_
    rw [Module.eraseRanges, Table.map_insert]
    rfl
  | interface =>
    refine built (fun i m => { m with interfaces := m.interfaces.insert i.name i })
      (fun _ => Outline.same_interfaceOf twin comment?) fun i m => ?_
    rw [Module.eraseRanges, Table.map_insert]
    rfl
  | globals =>
    exact built (fun vs m => m.addVariables vs) (fun _ => Outline.same_variablesOf twin comment?)
      fun vs m => m.eraseRanges_addVariables vs

/-- Declarations of the same kind, with the same doc comment, are read. -/
theorem step (h : Alike s s') (twin : Twin true .sourceFile kind p q) {previous previous' : List Tree}
    (comment : NodeKind.sourceFile.takesComment kind = true → commentBefore? previous = commentBefore? previous') :
    Alike (s.step previous p) (s'.step previous' q) := by
  have kinds : p.tree.nodeKind? = some kind ∧ q.tree.nodeKind? = some kind := by
    obtain ⟨cs, ds, left, right, -⟩ := twin
    rw [left, right]
    exact ⟨rfl, rfl⟩
  have imports : importsOf p = importsOf q := by
    rw [importsOf, importsOf]
    exact congrArg _ (Outline.map_congr_forall₂ (twin.childrenOf .modulePath) fun a b path => path.path)
  have skip := h
  rw [OutlineState.step, OutlineState.step, kinds.1, kinds.2, imports]
  cases kind
  case error => exact h
  case moduleDecl =>
    rw [comment rfl]
    exact h.declareModule twin _
  case importDecl =>
    refine (h.openModule.modifyModule (g := (·.addImports (importsOf q))) (fun m => ?_) fun m => ?_).extendRegion _ _
    · exact m.eraseRanges_addImports _
    · exact m.eraseRanges_addImports _
  all_goals
    rw [comment rfl]
    exact h.openModule.declare twin _

theorem start (doc : DocId) (lines lines' : LineTable) :
    Alike (OutlineState.start doc lines) (OutlineState.start doc lines') := by
  rw [start_eq, start_eq]
  generalize doc.filePath = path
  exact ⟨lines', .ofDoc doc, ⟨0, 0⟩, rfl, rfl⟩

/-- Twins are read. -/
theorem read {previous previous' ts us : List Tree} (h : Alike s s')
    (twins : Tree.Twins true .sourceFile previous previous' ts us) (start start' stop stop' : Nat) :
    Alike (s.read (placesWithPrevious start previous ts) stop)
      (s'.read (placesWithPrevious start' previous' us) stop') := by
  generalize top : NodeKind.sourceFile = parent at twins
  induction twins generalizing s s' start start' with
  | nil => exact h.openModule.extendRegion stop stop'
  | @left _ _ _ t _ _ blank _ ih =>
    cases t with
    | leaf => exact ih h _ _ top
    | node => cases blank
  | @right _ _ _ u _ _ blank _ ih =>
    cases u with
    | leaf => exact ih h _ _ top
    | node => cases blank
  | leaf _ _ _ ih => exact ih h _ _ top
  | @node _ _ _ kind _ _ cs ds below agree comment _ _ ih =>
    subst top
    exact ih (h.step (p := ⟨start, .node kind cs⟩) (q := ⟨start', .node kind ds⟩) ⟨cs, ds, rfl, rfl, below, agree⟩
      (comment rfl)) _ _ rfl

end Alike

end OutlineState

/-- Texts with the same tokens between their blanks and comments give the same symbols up to the ranges,
and the same work that needs other documents, if blanks stand at the same places of the parts that symbols
keep in their text, and the doc comments of the declarations are the same. -/
theorem outlineOfText_respaced (doc : DocId) {s s' : String}
    (tokens : Token.significant (Token.ofString s) = Token.significant (Token.ofString s'))
    (gaps : (Parse.ofString s).tree.keptGaps = (Parse.ofString s').tree.keptGaps)
    (comments : (Parse.ofString s).tree.comments = (Parse.ofString s').tree.comments) :
    (outlineOfText doc s).1.eraseRanges = (outlineOfText doc s').1.eraseRanges ∧
      (outlineOfText doc s).2 = (outlineOfText doc s').2 := by
  have before := OutlineState.Alike.start doc (.ofString s) (.ofString s')
  obtain ⟨lines, unit, start, whole, same⟩ := before.read (Parse.twins tokens gaps comments) 0 0
    (LineTable.ofString s).byteSize (LineTable.ofString s').byteSize
  have second : outlineOfText doc s' = (unit, (outlineOfText doc s).2) :=
    congrArg (fun state => (state.unit, state.pending)) whole
  rw [second]
  exact ⟨same, rfl⟩

theorem outlineOfText_respaced_function :
    (outlineOfText ⟨"a.c3"⟩ "<*a*>fn a::T f(int n=1+2);").1.eraseRanges =
        (outlineOfText ⟨"a.c3"⟩ "<*a*> fn a :: T f(int n= 1+2) //\n;").1.eraseRanges ∧
      (outlineOfText ⟨"a.c3"⟩ "<*a*>fn a::T f(int n=1+2);").2 =
        (outlineOfText ⟨"a.c3"⟩ "<*a*> fn a :: T f(int n= 1+2) //\n;").2 := by
  have same : Token.significant (Token.ofString "<*a*>fn a::T f(int n=1+2);") =
        Token.significant (Token.ofString "<*a*> fn a :: T f(int n= 1+2) //\n;") ∧
      (Parse.ofString "<*a*>fn a::T f(int n=1+2);").tree.keptGaps =
        (Parse.ofString "<*a*> fn a :: T f(int n= 1+2) //\n;").tree.keptGaps ∧
      (Parse.ofString "<*a*>fn a::T f(int n=1+2);").tree.comments =
        (Parse.ofString "<*a*> fn a :: T f(int n= 1+2) //\n;").tree.comments := by decide +kernel
  exact outlineOfText_respaced ⟨"a.c3"⟩ same.1 same.2.1 same.2.2

/-- Texts with the same tokens and no doc comments, whose symbols differ in a default value. -/
theorem default_keeps_gaps :
    Token.significant (Token.ofString "fn T f(int n=1+2);") =
        Token.significant (Token.ofString "fn T f(int n=1 + 2);") ∧
      (Parse.ofString "fn T f(int n=1+2);").tree.comments =
        (Parse.ofString "fn T f(int n=1 + 2);").tree.comments ∧
      (outlineOfText ⟨"a.c3"⟩ "fn T f(int n=1+2);").1.eraseRanges ≠
        (outlineOfText ⟨"a.c3"⟩ "fn T f(int n=1 + 2);").1.eraseRanges := by
  let defaults (u : SourceUnit) := u.modules.values.flatMap fun m =>
    m.functions.flatMap fun f => f.parameters.values.map fun v => v.parameter?.bind (·.default?)
  have differ : Token.significant (Token.ofString "fn T f(int n=1+2);") =
        Token.significant (Token.ofString "fn T f(int n=1 + 2);") ∧
      (Parse.ofString "fn T f(int n=1+2);").tree.comments =
        (Parse.ofString "fn T f(int n=1 + 2);").tree.comments ∧
      defaults (outlineOfText ⟨"a.c3"⟩ "fn T f(int n=1+2);").1.eraseRanges ≠
        defaults (outlineOfText ⟨"a.c3"⟩ "fn T f(int n=1 + 2);").1.eraseRanges := by decide +kernel
  exact ⟨differ.1, differ.2.1, fun same => differ.2.2 (congrArg defaults same)⟩

/-! ## The tree without blanks -/

/-- No doc comment stands among the trees. -/
def Tree.Undocumented (ts : List Tree) : Prop :=
  ∀ t, Tree.leaf t ∈ ts → t.kind ≠ .docComment

theorem commentBefore?_eq_none {previous : List Tree} (h : Tree.Undocumented previous) :
    commentBefore? previous = none := by
  induction previous with
  | nil => rfl
  | cons t previous ih =>
    cases t with
    | node => rfl
    | leaf t =>
      have other : t.kind ≠ .docComment := h t List.mem_cons_self
      rw [commentBefore?]
      split
      · exact ih fun u hu => h u (List.mem_cons_of_mem _ hu)
      · exact ih fun u hu => h u (List.mem_cons_of_mem _ hu)
      · exact ih fun u hu => h u (List.mem_cons_of_mem _ hu)
      next doc => exact absurd doc other
      · rfl

namespace Tree

theorem significant_bareList (cs : List Tree) :
    Token.significant (tokensOfList (bareList cs)) = Token.significant (tokensOfList cs) := by
  rw [tokensOfList_bareList]
  simp only [Token.significant, List.filter_filter, Bool.and_self]

/-- A node whose text is not kept agrees with the node without blanks. -/
theorem agree_bare {full : Bool} {parent kind : NodeKind} {cs : List Tree} (formed : (node kind cs).WellFormed)
    (tidy : kind.Tidy cs) (plain : ∀ t ∈ tokensOfList cs, t.IsPlain) (dropped : parent.keepsText kind = false) :
    Agree full parent kind cs (bareList cs) := by
  refine ⟨fun _ kept => ?_, fun _ kept => ?_, fun path => ?_, fun type => ?_, fun name => ?_⟩
  · rw [dropped] at kept
    cases kept
  · rw [dropped] at kept
    cases kept
  · refine ModulePath.parse_compactText (significant_bareList cs).symm (tidy.path path) plain fun t mem => ?_
    have below : t ∈ Token.significant (tokensOfList cs) := tokensOfList_bareList cs ▸ mem
    exact plain t (List.mem_of_mem_filter below)
  · obtain ⟨t, last, kept⟩ := tidy.receiver type
    rw [last, tokensOfList_bareList, getLast?_significant last kept]
  · obtain ⟨t, rfl, isName⟩ := formed.1.name name
    have kept : t.kind.isTrivia = false := by
      cases kind : t.kind <;> rw [kind] at isName <;> first | rfl | cases isName
    refine ⟨t, rfl, ?_⟩
    rw [bareList_leaf, kept]
    rfl

/-- Trees that keep no text, without doc comments, are twins of the trees without blanks. -/
theorem Twins.bare {full : Bool} {parent : NodeKind} {ts : List Tree} (formed : WellFormedList ts) (tidy : TidyList ts)
    (plain : ∀ t ∈ tokensOfList ts, t.IsPlain ∧ t.kind ≠ .docComment) (dropped : keptGapsBelow parent ts = [])
    {previous previous' : List Tree} (before : Undocumented previous) (before' : Undocumented previous') :
    Twins full parent previous previous' ts (bareList ts) := by
  cases ts with
  | nil => exact .nil
  | cons t ts =>
    have rest : ∀ u ∈ tokensOfList ts, u.IsPlain ∧ u.kind ≠ .docComment :=
      fun u mem => plain u (List.mem_append_right _ mem)
    cases t with
    | leaf t =>
      have here : t.kind ≠ .docComment := (plain t (List.mem_append_left _ (List.mem_singleton_self t))).2
      have onward {previous : List Tree} (before : Undocumented previous) : Undocumented (Tree.leaf t :: previous) :=
        fun u mem => (List.mem_cons.1 mem).elim (fun same => Tree.leaf.inj same ▸ here) (before u)
      rw [bareList_leaf]
      split
      next blank => exact .left blank (Twins.bare formed.2 tidy.2 rest dropped (onward before) before')
      next kept =>
        exact .leaf t (Bool.eq_false_iff.2 kept) (Twins.bare formed.2 tidy.2 rest dropped (onward before) (onward before'))
    | node kind cs =>
      have below : ∀ u ∈ tokensOfList cs, u.IsPlain ∧ u.kind ≠ .docComment :=
        fun u mem => plain u (List.mem_append_left _ mem)
      have onward {cs previous : List Tree} (before : Undocumented previous) : Undocumented (Tree.node kind cs :: previous) :=
        fun u mem => (List.mem_cons.1 mem).elim nofun (before u)
      rw [keptGapsBelow_node, List.append_eq_nil_iff, List.append_eq_nil_iff] at dropped
      have own : parent.keepsText kind = false := by
        by_contra kept
        rw [if_pos (Bool.not_eq_false _ ▸ kept)] at dropped
        exact List.cons_ne_nil _ _ dropped.1
      rw [bareList_node]
      refine .node (Twins.bare formed.1.2 tidy.1.2 below dropped.2.1 nofun nofun)
        (agree_bare formed.1 tidy.1.1 (fun u mem => (below u mem).1) own) (fun _ _ => ?_)
        (Twins.bare formed.2 tidy.2 rest dropped.2.2 (onward before) (onward before'))
      rw [commentBefore?_eq_none before, commentBefore?_eq_none before']
termination_by sizeOf ts

end Tree

/-- A text without kept parts and doc comments has the symbols of its tree without blanks. -/
theorem outlineOfText_bare (doc : DocId) {s : String} {children : List Tree}
    (tree : (Parse.ofString s).tree = .node .sourceFile children)
    (dropped : Tree.keptGapsBelow .sourceFile (Tree.bareList children) = [])
    (undocumented : ∀ t ∈ Token.ofString s, t.kind ≠ .docComment) :
    (outlineOfText doc s).1.eraseRanges =
      (outline doc (.ofString s) (.node .sourceFile (Tree.bareList children))).1.eraseRanges := by
  have similar := Parse.similar_of_significant (s := s) rfl
  obtain ⟨tokens, formed⟩ := Parse.tree_ofString s
  rw [tree] at similar tokens formed
  have plain : ∀ t ∈ Tree.tokensOfList children, t.IsPlain ∧ t.kind ≠ .docComment := by
    intro t mem
    have there : t ∈ Token.ofString s := tokens ▸ mem
    exact ⟨Token.isPlain_of_mem there, undocumented t there⟩
  have none : Tree.keptGapsBelow .sourceFile children = [] := by
    rw [← List.length_eq_zero_iff, Tree.length_keptGapsBelow, dropped, List.length_nil]
  have twins : Tree.Twins true .sourceFile [] [] children (Tree.bareList children) :=
    .bare formed.2 similar.left.1.2 plain none nofun nofun
  have before := OutlineState.Alike.start doc (.ofString s) (.ofString s)
  obtain ⟨lines, unit, start, whole, same⟩ := before.read twins 0 0 (LineTable.ofString s).byteSize
    (LineTable.ofString s).byteSize
  have second : (outline doc (.ofString s) (.node .sourceFile (Tree.bareList children))).1 = unit :=
    congrArg OutlineState.unit whole
  rw [second, outlineOfText, tree]
  exact same

end C3Lens
