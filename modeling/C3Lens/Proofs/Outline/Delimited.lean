import C3Lens.Proofs.Outline.Children
import C3Lens.Proofs.Symbol.Names
import C3Lens.Proofs.Text.Boundary

/-!
# Names in the text, between the ends of their ranges

`delimited_outlineOfText`: whatever text is read, the two ends of the range of a name, taken back to byte
offsets, stand in front of and behind the name as it is written, and nothing if there is none, and the range
of the declaration encloses that of the name. This holds of all declarations and of all that stands inside of
them (`Symbol.Delimited`), up to parameters and inline members that are written without a name: they have the
range of the whole and of the type in place of that of a name.

Places are counted in bytes over all tokens of the tree, blanks and comments included. What is read at a place
below another one stands in the text of that (`Place.Holds`), so it stands in the whole text, and its ends are
boundaries, from which positions lead back.
-/

namespace C3Lens

/-! ## The text of a place -/

namespace Place

/-- The tokens at and below the place read `cs` between two offsets. -/
def Holds (p : Place) (cs : List Char) (start stop : Nat) : Prop :=
  ∃ front behind, Token.charsOf p.tree.tokens = front ++ cs ++ behind ∧
    start = p.start + utf8Length front ∧ stop = start + utf8Length cs

variable {p q : Place} {cs : List Char} {start stop : Nat}

theorem holds_self (p : Place) : p.Holds (Token.charsOf p.tree.tokens) p.start p.stop :=
  ⟨[], [], (List.append_nil _).symm, rfl, congrArg (p.start + ·) p.tree.width_eq⟩

/-- Nothing stands at the beginning. -/
theorem holds_nil (p : Place) : p.Holds [] p.start p.start :=
  ⟨[], Token.charsOf p.tree.tokens, rfl, rfl, rfl⟩

theorem Holds.within (h : p.Holds cs start stop) : p.start ≤ start ∧ stop ≤ p.stop := by
  obtain ⟨front, behind, text, rfl, rfl⟩ := h
  have width := p.tree.width_eq
  rw [text, utf8Length_append, utf8Length_append] at width
  rw [Place.stop]
  omega

theorem holds_leaf (at' : Nat) (token : Token) :
    Holds ⟨at', .leaf token⟩ token.text.toList at' (Place.stop ⟨at', .leaf token⟩) := by
  have text : Token.charsOf [token] = token.text.toList := List.flatMap_singleton _ _
  have self := holds_self ⟨at', .leaf token⟩
  rwa [Tree.tokens, text] at self

/-- What one of several trees holds, all of them hold together. -/
theorem Holds.widen {at' : Nat} {ts us : List Token} (h : p.Holds cs start stop)
    (begins : p.start = at' + utf8Length (Token.charsOf ts)) :
    ∃ front behind, Token.charsOf (ts ++ p.tree.tokens ++ us) = front ++ cs ++ behind ∧
      start = at' + utf8Length front ∧ stop = start + utf8Length cs := by
  obtain ⟨front, behind, text, rfl, rfl⟩ := h
  refine ⟨Token.charsOf ts ++ front, behind ++ Token.charsOf us, ?_, ?_, rfl⟩
  · simp only [Token.charsOf_append, text, List.append_assoc]
  · rw [utf8Length_append]
    omega

end Place

namespace Tree

mutual

/-- The tokens of a tree are those in front of a place, those of the place and those behind it. -/
theorem exists_tokens_of_mem_placesFrom (t : Tree) {start : Nat} {q : Place} (h : q ∈ t.placesFrom start) :
    ∃ ts us, t.tokens = ts ++ q.tree.tokens ++ us ∧ q.start = start + utf8Length (Token.charsOf ts) := by
  match t with
  | .leaf _ =>
    rw [List.mem_singleton.1 h]
    exact ⟨[], [], rfl, rfl⟩
  | .node _ children =>
    rcases List.mem_cons.1 h with rfl | below
    · exact ⟨[], [], (List.append_nil _).symm, rfl⟩
    · exact exists_tokens_of_mem_placesOfList children below

theorem exists_tokens_of_mem_placesOfList (ts : List Tree) {start : Nat} {q : Place}
    (h : q ∈ placesOfList start ts) :
    ∃ ms ns, tokensOfList ts = ms ++ q.tree.tokens ++ ns ∧ q.start = start + utf8Length (Token.charsOf ms) := by
  match ts with
  | [] => cases h
  | t :: ts =>
    rw [tokensOfList]
    rcases List.mem_append.1 h with here | later
    · obtain ⟨ms, ns, tokens, begins⟩ := exists_tokens_of_mem_placesFrom t here
      exact ⟨ms, ns ++ tokensOfList ts, by rw [tokens, List.append_assoc], begins⟩
    · obtain ⟨ms, ns, tokens, begins⟩ := exists_tokens_of_mem_placesOfList ts later
      refine ⟨t.tokens ++ ms, ns, by simp only [tokens, List.append_assoc], ?_⟩
      rw [begins, t.width_eq, Token.charsOf_append, utf8Length_append, Nat.add_assoc]

end

end Tree

namespace Place

variable {p q : Place} {cs : List Char} {start stop : Nat}

/-- What a place holds, everything that it is below holds. -/
theorem Holds.of_mem (h : q.Holds cs start stop) (below : q ∈ p.descendants) : p.Holds cs start stop := by
  obtain ⟨ts, us, tokens, begins⟩ := p.tree.exists_tokens_of_mem_placesFrom below
  rw [Holds, tokens]
  exact h.widen begins

/-- A name directly below a place is held by it. -/
theorem holds_of_mem_nameLeaves {leaf : Place} (h : leaf ∈ p.nameLeaves) :
    p.Holds leaf.text.toList leaf.start leaf.stop := by
  obtain ⟨name, child, first⟩ := List.mem_filterMap.1 h
  obtain ⟨token, rfl, mem⟩ := mem_descendants_of_firstLeaf? first
  have text : Place.text ⟨name.start, .leaf token⟩ = token.text := String.empty_append
  rw [text]
  have below := descendants_subset (List.mem_filter.1 child).1 mem
  exact (holds_leaf name.start token).of_mem below

theorem mem_nameLeaves_of_nameLeaf? {leaf : Place} (h : p.nameLeaf? = some leaf) : leaf ∈ p.nameLeaves := by
  obtain ⟨name, child, first⟩ := Option.bind_eq_some_iff.1 h
  have kind := List.find?_some child
  exact List.mem_filterMap.2 ⟨name, List.mem_filter.2 ⟨List.mem_of_find?_eq_some child, kind⟩, first⟩

end Place

/-! ## Ranges that delimit a name -/

/-- Back in offsets, the ends of the range of the name delimit exactly `written` in the text, and the range of
the declaration encloses that of the name. -/
structure Declaration.Delimits (d : Declaration) (written text : String) : Prop where
  name : ∃ front behind, text.toList = front ++ written.toList ++ behind ∧
    (LineTable.ofString text).offset d.nameRange.start = utf8Length front ∧
    (LineTable.ofString text).offset d.nameRange.stop = utf8Length (front ++ written.toList)
  start : d.range.start ≤ d.nameRange.start
  stop : d.nameRange.stop ≤ d.range.stop

/-- The parameter is read from one that is written without a name: it is called by its number. -/
def Variable.IsUnnamed (v : Variable) (text : String) : Prop :=
  ∃ p ∈ (Parse.ofString text).root.descendants, p.isNode .param = true ∧ p.nameLeaf? = none ∧
    v.range = ⟨(LineTable.ofString text).position p.start, (LineTable.ofString text).position p.stop⟩ ∧
    v.nameRange = v.range ∧ ∃ index : Nat, v.name = "$arg" ++ toString index

/-- The member is read from an inline one that is written without a name. -/
def Member.IsUnnamed (m : Member) (text : String) : Prop :=
  m.name = "" ∧ ∃ p ∈ (Parse.ofString text).root.descendants, p.isNode .memberDecl = true ∧
    p.hasLeaf .inlineKw = true ∧ p.nameLeaf? = none ∧
    m.range = ⟨(LineTable.ofString text).position p.start, (LineTable.ofString text).position p.stop⟩

/-- The names of the member and of all that stands in its body are delimited. -/
inductive Member.Delimited (text : String) : Member → Prop
  | intro {m : Member} (own : m.IsUnnamed text ∨ m.Delimits m.name text)
      (body : ∀ b, m.body? = some b → b.Delimits b.name text)
      (inside : ∀ b, m.body? = some b → ∀ k ∈ b.members, Delimited text k) : Delimited text m

/-- The names of the function, of its parameters and of its local variables are delimited. -/
structure Function.Delimited (f : Function) (text : String) : Prop where
  own : f.Delimits f.shortName text
  parameters : ∀ v ∈ f.parameters.values, v.IsUnnamed text ∨ v.Delimits v.name text
  locals : ∀ v ∈ f.locals, v.Delimits v.name text

/-- The names of the symbol and of all that stands inside of it are delimited. -/
def Symbol.Delimited (text : String) : Symbol → Prop
  | .function f | .interfaceMethod f _ => f.Delimited text
  | .aggregate a => a.Delimits a.name text ∧ ∀ m ∈ a.members, m.Delimited text
  | .bitstruct b => b.Delimits b.name text ∧ ∀ m ∈ b.members, m.Delimited text
  | .enum e => e.Delimits e.name text ∧ (∀ v ∈ e.values, v.Delimits v.name text) ∧
      ∀ x ∈ e.enumerators, x.Delimits x.name text
  | .fault f => f.Delimits f.name text ∧ ∀ c ∈ f.constants, c.Delimits c.name text
  | .interface i => i.Delimits i.name text ∧ ∀ f ∈ i.methods.values, f.Delimited text
  | .member m => m.Delimited text
  | s => s.declaration.Delimits s.name text

section Text

variable {text : String} {cs : List Char} {start stop : Nat}

/-- What the tree of a text holds stands there in the text. -/
theorem Parse.exists_of_holds (h : (ofString text).root.Holds cs start stop) :
    ∃ front behind, text.toList = front ++ cs ++ behind ∧ start = utf8Length front ∧
      stop = utf8Length (front ++ cs) := by
  obtain ⟨front, behind, chars, begins, rfl⟩ := h
  have tokens : (ofString text).root.tree.tokens = Token.ofString text := (tree_ofString text).1
  rw [tokens] at chars
  have begins : start = utf8Length front := begins.trans (Nat.zero_add _)
  refine ⟨front, behind, ?_, begins, ?_⟩
  · rw [← chars]
    exact (Token.flatMap_ofChars text.toList).symm
  · rw [begins, utf8Length_append]

/-- Its ends are boundaries of the text. -/
theorem Parse.isBoundary_of_holds (h : (ofString text).root.Holds cs start stop) :
    Text.IsBoundary text start ∧ Text.IsBoundary text stop := by
  obtain ⟨front, behind, chars, rfl, rfl⟩ := exists_of_holds h
  constructor
  · exact ⟨front, ⟨cs ++ behind, by rw [chars, List.append_assoc]⟩, rfl⟩
  · exact ⟨front ++ cs, ⟨behind, chars.symm⟩, rfl⟩

/-- A declaration with a name that is held inside of what its range covers. -/
theorem Declaration.delimits_of_holds {d : Declaration} {written : String} {first last : Nat}
    (range : d.range = ⟨(LineTable.ofString text).position first, (LineTable.ofString text).position last⟩)
    (nameRange : d.nameRange =
      ⟨(LineTable.ofString text).position start, (LineTable.ofString text).position stop⟩)
    (name : (Parse.ofString text).root.Holds written.toList start stop) (starts : first ≤ start)
    (stops : stop ≤ last) : d.Delimits written text := by
  have ends := Parse.isBoundary_of_holds name
  obtain ⟨front, behind, chars, begins, finishes⟩ := Parse.exists_of_holds name
  constructor
  · refine ⟨front, behind, chars, ?_, ?_⟩
    · rw [nameRange, LineTable.offset_position_of_isBoundary ends.1, begins]
    · rw [nameRange, LineTable.offset_position_of_isBoundary ends.2, finishes]
  · rw [range, nameRange]
    exact LineTable.position_mono text starts
  · rw [range, nameRange]
    exact LineTable.position_mono text stops

theorem Member.Delimited.withOwner {m : Member} (h : m.Delimited text) (owner : String) :
    Member.Delimited text { m with owner := owner } := by
  obtain ⟨own, body, inside⟩ := h
  exact ⟨own, body, inside⟩

end Text

namespace Outline

/-! ## Builders of declarations -/

section Builders

variable {text : String} {scope : Scope} {p : Place}

/-- A place of the tree that belongs to the text. -/
structure Reads (text : String) (scope : Scope) (p : Place) : Prop where
  lines : scope.lines = .ofString text
  below : p.descendants ⊆ (Parse.ofString text).root.descendants

theorem Reads.of_child {q : Place} (h : Reads text scope p) (child : q ∈ p.children) : Reads text scope q :=
  ⟨h.lines, List.Subset.trans (Place.descendants_subset child) h.below⟩

theorem Reads.of_child? {q : Place} {kind : NodeKind} (h : Reads text scope p) (found : p.child? kind = some q) :
    Reads text scope q :=
  h.of_child (List.mem_of_find?_eq_some found)

theorem Reads.of_childrenOf {q : Place} {kind : NodeKind} (h : Reads text scope p) (child : q ∈ p.childrenOf kind) :
    Reads text scope q :=
  h.of_child (List.mem_filter.1 child).1

theorem Reads.mem (h : Reads text scope p) : p ∈ (Parse.ofString text).root.descendants :=
  h.below p.mem_descendants_self

theorem Reads.range (h : Reads text scope p) (q : Place) :
    scope.range q = ⟨(LineTable.ofString text).position q.start, (LineTable.ofString text).position q.stop⟩ := by
  rw [Scope.range, Scope.rangeOf, h.lines]

/-- A name in the declaration at a place. -/
theorem delimits_leaf (h : Reads text scope p) {leaf : Place} (name : leaf ∈ p.nameLeaves)
    (comment? : Option DocComment) :
    (scope.declaration leaf.text (scope.range leaf) (scope.range p) comment?).Delimits leaf.text text := by
  have held := Place.holds_of_mem_nameLeaves name
  exact Declaration.delimits_of_holds (h.range p) (h.range leaf)
    (held.of_mem h.mem) held.within.1 held.within.2

/-- A name by itself. -/
theorem delimits_leaf_self (h : Reads text scope p) {leaf : Place} (name : leaf ∈ p.nameLeaves)
    (comment? : Option DocComment) :
    (scope.declaration leaf.text (scope.range leaf) (scope.range leaf) comment?).Delimits leaf.text text := by
  have held := (Place.holds_of_mem_nameLeaves name).of_mem h.mem
  exact Declaration.delimits_of_holds (h.range leaf) (h.range leaf) held (Nat.le_refl _) (Nat.le_refl _)

theorem delimits_nameOf (h : Reads text scope p) (comment? : Option DocComment) :
    Gives scope (nameOf p) fun n =>
      (scope.declaration n.1 n.2 (scope.range p) comment?).Delimits n.1 text ∧
      (scope.declaration n.1 n.2 n.2 comment?).Delimits n.1 text := by
  refine Gives.read ?_
  split
  next leaf found =>
    have name := Place.mem_nameLeaves_of_nameLeaf? found
    exact Gives.pure ⟨delimits_leaf h name comment?, delimits_leaf_self h name comment?⟩
  next =>
    have nothing : (Parse.ofString text).root.Holds [] p.start p.start := p.holds_nil.of_mem h.mem
    have empty : scope.rangeOf p.start p.start =
        ⟨(LineTable.ofString text).position p.start, (LineTable.ofString text).position p.start⟩ := by
      rw [Scope.rangeOf, h.lines]
    refine Gives.pure ⟨?_, ?_⟩
    · exact Declaration.delimits_of_holds (h.range p) empty nothing
        (Nat.le_refl _) p.holds_nil.within.2
    · exact Declaration.delimits_of_holds empty empty nothing (Nat.le_refl _) (Nat.le_refl _)

theorem delimits_declarationOf (h : Reads text scope p) (comment? : Option DocComment) :
    Gives scope (declarationOf p comment?) fun d => d.Delimits d.name text :=
  Gives.read (Gives.bind (delimits_nameOf h comment?) fun _ hn => Gives.pure hn.1)

theorem delimits_variablesOf (h : Reads text scope p) (comment? : Option DocComment) :
    Gives scope (variablesOf p comment?) fun vs => ∀ v ∈ vs, v.Delimits v.name text := by
  refine Gives.read (Gives.skip fun type => Gives.pure fun v hv => ?_)
  obtain ⟨leaf, name, rfl⟩ := List.mem_map.1 hv
  exact delimits_leaf h name comment?

/-! ## Functions -/

theorem delimits_parameterOf (h : Reads text scope p) (kind : p.isNode .param = true) (index : Nat)
    (receiver? : Option String) :
    Gives scope (parameterOf p index receiver?) fun v => v.IsUnnamed text ∨ v.Delimits v.name text := by
  refine Gives.read ?_
  cases found : p.nameLeaf? with
  | none =>
    have unnamed : ∀ v : Variable, v.range = scope.range p → v.nameRange = v.range →
        v.name = "$arg" ++ toString index → v.IsUnnamed text :=
      fun v range nameRange name => ⟨p, h.mem, kind, found, range.trans (h.range p), nameRange, index, name⟩
    refine Gives.skip fun type? => ?_
    split
    · exact Gives.skip fun _ => Gives.pure (.inl (unnamed _ rfl rfl rfl))
    · exact Gives.skip fun _ => Gives.skip fun _ => Gives.pure (.inl (unnamed _ rfl rfl rfl))
  | some leaf =>
    have delimits := delimits_leaf h (Place.mem_nameLeaves_of_nameLeaf? found) none
    refine Gives.skip fun type? => ?_
    split
    · exact Gives.skip fun _ => Gives.pure (.inr delimits)
    · exact Gives.skip fun _ => Gives.skip fun _ => Gives.pure (.inr delimits)

theorem delimits_parametersOf {ps : List Place} (h : ∀ q ∈ ps, Reads text scope q)
    (kind : ∀ q ∈ ps, q.isNode .param = true) (receiver? : Option String) (index : Nat) :
    Gives scope (parametersOf receiver? index ps) fun vs =>
      ∀ v ∈ vs, v.IsUnnamed text ∨ v.Delimits v.name text := by
  induction ps generalizing index with
  | nil => exact Gives.pure fun v hv => absurd hv List.not_mem_nil
  | cons q ps ih =>
    rw [List.forall_mem_cons] at h kind
    refine Gives.bind (delimits_parameterOf h.1 kind.1 index receiver?) fun v hv => ?_
    exact Gives.bind (ih h.2 kind.2 (index + 1)) fun vs hvs => Gives.pure (List.forall_mem_cons.2 ⟨hv, hvs⟩)

theorem delimits_localsOf {ps : List Place} (h : ∀ q ∈ ps, Reads text scope q) :
    Gives scope (localsOf ps) fun vs => ∀ v ∈ vs, v.Delimits v.name text := by
  induction ps with
  | nil => exact Gives.pure fun v hv => absurd hv List.not_mem_nil
  | cons q ps ih =>
    rw [List.forall_mem_cons] at h
    refine Gives.bind (delimits_variablesOf h.1 none) fun vs hvs => ?_
    exact Gives.bind (ih h.2) fun ws hws => Gives.pure (List.forall_mem_append.2 ⟨hvs, hws⟩)

/-- The name of a function is what is written behind the type, if there is one. -/
theorem written_declarationOf (h : Reads text scope p) (comment? : Option DocComment) :
    Gives scope (declarationOf p comment?) fun d => '.' ∉ d.name.toList := by
  refine Gives.read (Gives.bind (gives_names scope p) fun n hn => Gives.pure ?_)
  rcases hn with empty | names
  · show '.' ∉ n.1.toList
    rw [empty]
    exact List.not_mem_nil
  · have inText : (Parse.ofString text).root.Names scope.lines n.1 n.2 := names.mono h.below
    exact (Parse.exists_of_names inText).1.dot_notMem

theorem delimited_functionOf (h : Reads text scope p) (comment? : Option DocComment) :
    Gives scope (functionOf p comment?) fun f => f.Delimited text := by
  have both : Gives scope (declarationOf p comment?) fun d =>
      d.Delimits d.name text ∧ '.' ∉ d.name.toList := fun q =>
    ⟨delimits_declarationOf h comment? q, written_declarationOf h comment? q⟩
  refine Gives.skip fun returns => Gives.bind both fun d hd => ?_
  extract_lets name kind withParameters
  have called : name = d.name ∨ ∃ type, name = type ++ "." ++ d.name := by
    unfold name
    split
    · exact .inr ⟨_, rfl⟩
    · exact .inl rfl
  have whole : ∀ f : Function, f.name = name → f.nameRange = d.nameRange → f.range = d.range →
      (∀ v ∈ f.parameters.values, v.IsUnnamed text ∨ v.Delimits v.name text) →
      (∀ v ∈ f.locals, v.Delimits v.name text) → f.Delimited text := by
    intro f same nameRange range parameters locals
    refine ⟨?_, parameters, locals⟩
    have short : f.shortName = d.name := Function.shortName_of_written (same ▸ called) hd.2
    rw [short]
    refine ⟨?_, ?_, ?_⟩
    · rw [nameRange]
      exact hd.1.name
    · rw [nameRange, range]
      exact hd.1.start
    · rw [nameRange, range]
      exact hd.1.stop
  have function : ∀ vs : List Variable, (∀ v ∈ vs, v.IsUnnamed text ∨ v.Delimits v.name text) →
      Gives scope (withParameters vs) fun f => f.Delimited text := by
    intro vs hvs
    dsimp only [withParameters]
    split
    next body found =>
      have locals : ∀ q ∈ body.descendants.filter (·.isNode .localVarDecl), Reads text scope q := fun q hq =>
        ⟨h.lines, List.Subset.trans (Tree.placesFrom_subset_of_mem _ (List.mem_filter.1 hq).1)
          (h.of_child? found).below⟩
      exact Gives.bind (delimits_localsOf locals) fun locals hl =>
        Gives.pure (whole _ rfl rfl rfl (Table.forall_values_ofList hvs) hl)
    next =>
      exact Gives.pure (whole _ rfl rfl rfl (Table.forall_values_ofList hvs) fun v hv => absurd hv List.not_mem_nil)
  split
  next list found =>
    refine Gives.bind (delimits_parametersOf (fun q hq => ?_) (fun q hq => ?_) _ 0) function
    · exact (h.of_child? found).of_childrenOf hq
    · exact (List.mem_filter.1 hq).2
  next => exact function [] fun v hv => absurd hv List.not_mem_nil

/-! ## Members -/

theorem delimited_inlineMemberOf (h : Reads text scope p) (kind : p.isNode .memberDecl = true)
    (inline : p.hasLeaf .inlineKw = true) (host? : Option String) :
    Gives scope (inlineMemberOf p host?) fun ms => ∀ m ∈ ms, m.Delimited text := by
  refine Gives.read ?_
  split
  next => exact Gives.pure fun m hm => absurd hm List.not_mem_nil
  next typePlace _ =>
    refine Gives.skip fun type => ?_
    have finish : ∀ d : Declaration, d.Delimits d.name text ∨ (d.name = "" ∧ d.range = scope.range p ∧
        p.nameLeaf? = none) → Gives scope (pure [{ plainMember d type with awaitsExpansion := true }])
          fun ms => ∀ m ∈ ms, m.Delimited text := by
      intro d hd
      refine Gives.pure (List.forall_mem_singleton.2 ⟨?_, nofun, nofun⟩)
      rcases hd with delimits | ⟨name, range, unnamed⟩
      · exact .inr delimits
      · exact .inl ⟨name, p, h.mem, kind, inline, unnamed, range.trans (h.range p)⟩
    cases found : p.nameLeaf? with
    | none =>
      dsimp only
      split
      · exact Gives.skip fun _ => finish _ (.inr ⟨rfl, rfl, found⟩)
      · exact finish _ (.inr ⟨rfl, rfl, found⟩)
    | some leaf =>
      have delimits := delimits_leaf h (Place.mem_nameLeaves_of_nameLeaf? found) none
      dsimp only
      split
      · exact Gives.skip fun _ => finish _ (.inl delimits)
      · exact finish _ (.inl delimits)

theorem delimited_nestedMemberOf (h : Reads text scope p) (keyword : Token) {nested : List Member}
    (inside : ∀ m ∈ nested, m.Delimited text) :
    Gives scope (nestedMemberOf p keyword nested) fun ms => ∀ m ∈ ms, m.Delimited text := by
  refine Gives.read ?_
  split
  next => exact Gives.pure inside
  next leaf found =>
    have delimits := delimits_leaf h (Place.mem_nameLeaves_of_nameLeaf? found) none
    refine Gives.skip fun type? => Gives.pure (List.forall_mem_singleton.2 ⟨.inr delimits, ?_, ?_⟩)
    · intro b body
      cases body
      exact delimits
    · intro b body
      cases body
      exact List.forall_mem_map.2 fun m hm => (inside m hm).withOwner leaf.text

theorem delimited_fieldsOf (h : Reads text scope p) :
    Gives scope (fieldsOf p) fun ms => ∀ m ∈ ms, m.Delimited text := by
  refine Gives.read (Gives.skip fun type? => ?_)
  cases type? with
  | none => exact Gives.pure fun m hm => absurd hm List.not_mem_nil
  | some type =>
    refine Gives.pure (List.forall_mem_map.2 fun leaf name => ⟨.inr ?_, nofun, nofun⟩)
    exact delimits_leaf h name none

mutual

theorem delimited_membersOf (lines : scope.lines = .ofString text) (host? : Option String) (start : Nat)
    (ts : List Tree) (below : Tree.placesOfList start ts ⊆ (Parse.ofString text).root.descendants) :
    Gives scope (membersOf host? start ts) fun ms => ∀ m ∈ ms, m.Delimited text := by
  match ts with
  | [] => exact Gives.pure fun m hm => absurd hm List.not_mem_nil
  | t :: ts =>
    rw [Tree.placesOfList, List.append_subset] at below
    rw [membersOf]
    refine Gives.bind (delimited_membersOfPart lines host? start t below.1) fun ms hms => ?_
    refine Gives.bind (delimited_membersOf lines host? _ ts below.2) fun ns hns => Gives.pure ?_
    exact List.forall_mem_append.2 ⟨hms, hns⟩

theorem delimited_membersOfPart (lines : scope.lines = .ofString text) (host? : Option String) (start : Nat)
    (t : Tree) (below : t.placesFrom start ⊆ (Parse.ofString text).root.descendants) :
    Gives scope (membersOfPart host? start t) fun ms => ∀ m ∈ ms, m.Delimited text := by
  match t with
  | .leaf _ => exact Gives.pure fun m hm => absurd hm List.not_mem_nil
  | .node kind parts =>
    by_cases declares : kind = .memberDecl
    · subst declares
      have here : Reads text scope ⟨start, .node .memberDecl parts⟩ := ⟨lines, below⟩
      rw [membersOfPart]
      split
      next inline => exact delimited_inlineMemberOf here rfl inline host?
      split
      · have inner := List.Subset.trans (Place.descendants_of_children ⟨start, .node .memberDecl parts⟩) below
        refine Gives.bind (delimited_membersOfBody lines start parts inner) fun nested hn => ?_
        exact delimited_nestedMemberOf here _ hn
      · exact delimited_fieldsOf here
    · rw [membersOfPart]
      · exact Gives.pure fun m hm => absurd hm List.not_mem_nil
      · exact fun parts same => declares (Tree.node.inj same).1

theorem delimited_membersOfBody (lines : scope.lines = .ofString text) (start : Nat) (ts : List Tree)
    (below : Tree.placesOfList start ts ⊆ (Parse.ofString text).root.descendants) :
    Gives scope (membersOfBody start ts) fun ms => ∀ m ∈ ms, m.Delimited text := by
  match ts with
  | [] => exact Gives.pure fun m hm => absurd hm List.not_mem_nil
  | .leaf t :: ts =>
    rw [Tree.placesOfList, List.append_subset] at below
    rw [membersOfBody]
    · exact delimited_membersOfBody lines _ ts below.2
    · simp
  | .node kind parts :: ts =>
    rw [Tree.placesOfList, List.append_subset] at below
    by_cases body : kind = .structBody
    · subst body
      rw [membersOfBody]
      apply delimited_membersOf lines none start parts
      exact List.Subset.trans (Place.descendants_of_children ⟨start, .node .structBody parts⟩) below.1
    · rw [membersOfBody]
      · exact delimited_membersOfBody lines _ ts below.2
      · exact fun parts same => body (Tree.node.inj same).1

end

theorem delimited_membersBelow (h : Reads text scope p) (owner : String) (host? : Option String) :
    Gives scope (membersBelow p owner host?) fun ms => ∀ m ∈ ms, m.Delimited text := by
  unfold membersBelow
  split
  next body found =>
    have inner := List.Subset.trans body.descendants_of_children (h.of_child? found).below
    refine Gives.bind (delimited_membersOf h.lines host? _ _ inner) fun ms hms => Gives.pure ?_
    exact List.forall_mem_map.2 fun m hm => (hms m hm).withOwner owner
  next => exact Gives.pure fun m hm => absurd hm List.not_mem_nil

theorem delimited_structOf (h : Reads text scope p) (comment? : Option DocComment) :
    Gives scope (structOf p comment?) fun a => (Symbol.aggregate a).Delimited text :=
  Gives.bind (delimits_declarationOf h comment?) fun _ hd =>
    Gives.bind (delimited_membersBelow h _ _) fun _ hms => Gives.pure ⟨hd, hms⟩

theorem delimited_bitstructOf (h : Reads text scope p) (comment? : Option DocComment) :
    Gives scope (bitstructOf p comment?) fun b => (Symbol.bitstruct b).Delimited text :=
  Gives.bind (delimits_declarationOf h comment?) fun _ hd => Gives.skip fun _ =>
    Gives.bind (delimited_membersBelow h _ _) fun _ hms => Gives.pure ⟨hd, hms⟩

/-! ## Enums and faults -/

theorem delimits_associatedValuesOf {ps : List Place} (h : ∀ q ∈ ps, Reads text scope q) :
    Gives scope (associatedValuesOf ps) fun vs => ∀ v ∈ vs, v.Delimits v.name text := by
  induction ps with
  | nil => exact Gives.pure fun v hv => absurd hv List.not_mem_nil
  | cons q ps ih =>
    rw [List.forall_mem_cons] at h
    refine Gives.skip fun type => Gives.bind (delimits_declarationOf h.1 none) fun d hd => ?_
    exact Gives.bind (ih h.2) fun vs hvs => Gives.pure (List.forall_mem_cons.2 ⟨hd, hvs⟩)

theorem delimited_enumOf (h : Reads text scope p) (comment? : Option DocComment) :
    Gives scope (enumOf p comment?) fun e => (Symbol.enum e).Delimited text := by
  refine Gives.read (Gives.bind (delimits_declarationOf h comment?) fun d hd => ?_)
  extract_lets places withValues
  have inside : ∀ q ∈ places, Reads text scope q := by
    intro q hq
    unfold places at hq
    split at hq
    next body found => exact (h.of_child? found).of_childrenOf hq
    next => cases hq
  have enum : ∀ values : List Variable, (∀ v ∈ values, v.Delimits v.name text) →
      Gives scope (withValues values) fun e => (Symbol.enum e).Delimited text := by
    intro values hvs
    have enumerator : ∀ q ∈ places, Gives scope (do
        let n ← nameOf q
        return ({ scope.declaration n.1 n.2 n.2 none with
          value := enumeratorValue q, enumName := d.name } : Enumerator)) fun x => x.Delimits x.name text :=
      fun q hq => Gives.bind (delimits_nameOf (inside q hq) none) fun n hn => Gives.pure hn.2
    exact Gives.bind (gives_mapM enumerator) fun enumerators hes => Gives.pure ⟨hd, hvs, hes⟩
  split
  next list found =>
    exact Gives.bind (delimits_associatedValuesOf fun q hq => (h.of_child? found).of_childrenOf hq) enum
  next => exact enum [] fun v hv => absurd hv List.not_mem_nil

theorem delimits_faultConstantsBelow (h : Reads text scope p) (fault? : Option String)
    (comment? : Option DocComment) :
    Gives scope (faultConstantsBelow p fault? comment?) fun cs => ∀ c ∈ cs, c.Delimits c.name text :=
  Gives.read (Gives.pure (List.forall_mem_map.2 fun _ name => delimits_leaf_self h name comment?))

theorem delimited_faultOf (h : Reads text scope p) (comment? : Option DocComment) :
    Gives scope (faultOf p comment?) fun f => (Symbol.fault f).Delimited text := by
  refine Gives.bind (delimits_declarationOf h comment?) fun d hd => ?_
  dsimp only
  split
  next body found =>
    exact Gives.bind (delimits_faultConstantsBelow (h.of_child? found) _ _) fun cs hcs => Gives.pure ⟨hd, hcs⟩
  next => exact Gives.pure ⟨hd, fun c hc => absurd hc List.not_mem_nil⟩

/-! ## Interfaces, aliases and distinct types -/

theorem delimited_methodsOf {ps : List (List Tree × Place)} (h : ∀ q ∈ ps, Reads text scope q.2) :
    Gives scope (methodsOf ps) fun fs => ∀ f ∈ fs, f.Delimited text := by
  induction ps with
  | nil => exact Gives.pure fun f hf => absurd hf List.not_mem_nil
  | cons q ps ih =>
    rw [List.forall_mem_cons] at h
    unfold methodsOf
    split
    · refine Gives.bind (delimited_functionOf h.1 _) fun f hf => ?_
      exact Gives.bind (ih h.2) fun fs hfs => Gives.pure (List.forall_mem_cons.2 ⟨hf, hfs⟩)
    · exact ih h.2

theorem delimited_interfaceOf (h : Reads text scope p) (comment? : Option DocComment) :
    Gives scope (interfaceOf p comment?) fun i => (Symbol.interface i).Delimited text := by
  refine Gives.bind (delimits_declarationOf h comment?) fun d hd => ?_
  dsimp only
  split
  next body found =>
    have inner := List.Subset.trans body.descendants_of_children (h.of_child? found).below
    have methods : ∀ q ∈ placesWithPrevious body.start [] body.tree.children, Reads text scope q.2 :=
      fun q hq => ⟨h.lines, List.Subset.trans (placesWithPrevious_subset hq) inner⟩
    exact Gives.bind (delimited_methodsOf methods) fun fs hfs =>
      Gives.pure ⟨hd, Table.forall_values_ofList hfs⟩
  next => exact Gives.pure ⟨hd, fun f hf => absurd hf List.not_mem_nil⟩

theorem delimits_distinctOf (h : Reads text scope p) (comment? : Option DocComment) :
    Gives scope (distinctOf p comment?) fun d => d.Delimits d.name text :=
  Gives.bind (delimits_declarationOf h comment?) fun _ hd => Gives.skip fun _ => Gives.pure hd

theorem delimits_aliasOf (h : Reads text scope p) (comment? : Option DocComment) :
    Gives scope (aliasOf p comment?) fun a => a.Delimits a.name text := by
  refine Gives.bind (delimits_declarationOf h comment?) fun d hd => Gives.skip fun type? => ?_
  split
  · exact Gives.pure hd
  · split
    · exact Gives.pure hd
    · exact Gives.pure hd

theorem builds_delimited (h : Reads text scope p) : Builds (Symbol.Delimited text) scope p where
  function := delimited_functionOf h
  struct := delimited_structOf h
  bitstruct := delimited_bitstructOf h
  enum := delimited_enumOf h
  fault := delimited_faultOf h
  faultConstants := delimits_faultConstantsBelow h none
  aliased := delimits_aliasOf h
  distinct := delimits_distinctOf h
  interface := delimited_interfaceOf h
  globals := delimits_variablesOf h

end Builders

end Outline

/-- Whatever text is read, all declarations of all modules and all that stands inside of them are named where
the ranges of their names say: nothing but the name as it is written, or nothing at all if there is none, is
between the two ends in the text, and the range of the declaration encloses them. The exceptions are
parameters and inline members that are written without a name. -/
theorem delimited_outlineOfText (doc : DocId) (text : String) :
    ∀ m ∈ (outlineOfText doc text).1.modules.values, ∀ s ∈ m.children, s.Delimited text :=
  forall_children_outline doc fun _ _ lines below => Outline.builds_delimited ⟨lines, below⟩

/-- A method of a module of its own. -/
theorem delimited_outlineOfText_method :
    ∃ m ∈ (outlineOfText ⟨"a.c3"⟩ "module a;\nfn int Foo.f(int n);").1.modules.values, ∃ s ∈ m.children,
      s.declaration.name = "Foo.f" ∧ s.Delimited "module a;\nfn int Foo.f(int n);" := by
  have named : "Foo.f" ∈ (outlineOfText ⟨"a.c3"⟩ "module a;\nfn int Foo.f(int n);").1.modules.values.flatMap
      fun m => m.children.map fun s => s.declaration.name := by decide +kernel
  obtain ⟨m, hm, named⟩ := List.mem_flatMap.1 named
  obtain ⟨s, hs, name⟩ := List.mem_map.1 named
  exact ⟨m, hm, s, hs, name, delimited_outlineOfText _ _ m hm s hs⟩

end C3Lens
