import C3Lens.Proofs.Outline.Compact

/-!
# Trees that give the same symbols

Of a tree without blanks almost everything about its symbols can be told. Two things cannot. Some parts
are kept in their text, and where a blank or comment stands between two tokens of such a part, the text
has a blank (`Tree.keptGaps`). And a doc comment belongs to the declaration behind it (`Tree.comments`).
Trees that agree in these two and are similar are twins (`Tree.Twins`): whatever one of them has the other
one has too, which is said for each way in which the builders look at a tree.
-/

namespace C3Lens

/-! ## What the builders take from blanks and comments -/

namespace NodeKind

/-- Whether a symbol keeps the text of a node of the kind directly below one of the kind `parent`:
the attributes of a module, default values and values of enumerators, function types, the targets of
aliases that are no types, interfaces and the type behind an enum. -/
def keepsText (parent kind : NodeKind) : Bool :=
  match parent, kind with
  | .moduleDecl, .attribute | .param, .defaultValue | .enumerator, .enumValue | .type, .fnType
  | .defDecl, .fnType | .defDecl, .aliasTarget | .interfaceImpl, .type | .enumDef, .type => true
  | _, _ => false

/-- Whether a symbol takes the doc comment in front of a node of the kind directly below one of the kind
`parent`: the declarations of a text but for its imports, and the methods of an interface. -/
def takesComment (parent kind : NodeKind) : Bool :=
  match parent, kind with
  | .sourceFile, .importDecl | .sourceFile, .error => false
  | .sourceFile, _ | .interfaceBody, .fnDef => true
  | _, _ => false

end NodeKind

namespace Tree

/-- Where blanks and comments stand in the text of a tree, as far as symbols keep it. -/
def visibleGaps (t : Tree) : List Bool :=
  if t.nodeKind? = some .defaultValue ∨ t.nodeKind? = some .enumValue then t.valueGaps else t.gaps

mutual

/-- Where blanks and comments stand in the parts of a tree whose text symbols keep. -/
def keptGaps : Tree → List (List Bool)
  | leaf _ => []
  | node kind children => keptGapsBelow kind children

/-- The same for trees side by side below a node of the kind `parent`. -/
def keptGapsBelow (parent : NodeKind) : List Tree → List (List Bool)
  | [] => []
  | t :: ts =>
    (if (t.nodeKind?.map parent.keepsText).getD false then [t.visibleGaps] else []) ++
      (keptGaps t ++ keptGapsBelow parent ts)

end

mutual

/-- The doc comments of the declarations in a tree. -/
def comments : Tree → List (Option DocComment)
  | leaf _ => []
  | node kind children => commentsBelow kind [] children

/-- The same for trees side by side below a node of the kind `parent`; `previous` is what stands before
them, the nearest first. -/
def commentsBelow (parent : NodeKind) (previous : List Tree) : List Tree → List (Option DocComment)
  | [] => []
  | t :: ts =>
    (if (t.nodeKind?.map parent.takesComment).getD false then [commentBefore? previous] else []) ++
      (comments t ++ commentsBelow parent (t :: previous) ts)

end

theorem keptGapsBelow_leaf (parent : NodeKind) (t : Token) (ts : List Tree) :
    keptGapsBelow parent (leaf t :: ts) = keptGapsBelow parent ts :=
  rfl

theorem keptGapsBelow_node (parent kind : NodeKind) (children ts : List Tree) :
    keptGapsBelow parent (node kind children :: ts) =
      (if parent.keepsText kind then [(node kind children).visibleGaps] else []) ++
        (keptGapsBelow kind children ++ keptGapsBelow parent ts) :=
  rfl

theorem commentsBelow_leaf (parent : NodeKind) (previous : List Tree) (t : Token) (ts : List Tree) :
    commentsBelow parent previous (leaf t :: ts) = commentsBelow parent (leaf t :: previous) ts :=
  rfl

theorem commentsBelow_node (parent kind : NodeKind) (previous children ts : List Tree) :
    commentsBelow parent previous (node kind children :: ts) =
      (if parent.takesComment kind then [commentBefore? previous] else []) ++
        (commentsBelow kind [] children ++ commentsBelow parent (node kind children :: previous) ts) :=
  rfl

theorem length_ite_singleton {α : Type} (c : Bool) (a b : α) :
    (if c then [a] else []).length = (if c then [b] else []).length := by
  cases c <;> rfl

/-- The number of kept parts is seen without blanks. -/
theorem length_keptGapsBelow (parent : NodeKind) (ts : List Tree) :
    (keptGapsBelow parent ts).length = (keptGapsBelow parent (bareList ts)).length := by
  cases ts with
  | nil => rfl
  | cons t ts =>
    cases t with
    | leaf t =>
      rw [keptGapsBelow_leaf, bareList_leaf]
      split
      · exact length_keptGapsBelow parent ts
      · exact length_keptGapsBelow parent ts
    | node kind children =>
      rw [keptGapsBelow_node, bareList_node, keptGapsBelow_node, List.length_append, List.length_append,
        List.length_append, List.length_append, length_keptGapsBelow kind children,
        length_keptGapsBelow parent ts, length_ite_singleton]
termination_by ts

/-- The number of declarations is seen without blanks. -/
theorem length_commentsBelow (parent : NodeKind) (previous previous' : List Tree) (ts : List Tree) :
    (commentsBelow parent previous ts).length = (commentsBelow parent previous' (bareList ts)).length := by
  cases ts with
  | nil => rfl
  | cons t ts =>
    cases t with
    | leaf t =>
      rw [commentsBelow_leaf, bareList_leaf]
      split
      · exact length_commentsBelow parent _ _ ts
      · exact length_commentsBelow parent _ _ ts
    | node kind children =>
      rw [commentsBelow_node, bareList_node, commentsBelow_node, List.length_append, List.length_append,
        List.length_append, List.length_append, length_commentsBelow kind [] [] children,
        length_commentsBelow parent _ (node kind (bareList children) :: previous') ts, length_ite_singleton]
termination_by ts

/-! ## Twins -/

/-- What is the same of two nodes besides what stands below them, if they stand below a node of the kind
`parent`; their texts are the same in full twins only. -/
structure Agree (full : Bool) (parent kind : NodeKind) (ts us : List Tree) : Prop where
  text : full = true → parent.keepsText kind = true → kind ≠ .defaultValue → kind ≠ .enumValue →
    (node kind ts).compactText = (node kind us).compactText
  value : full = true → parent.keepsText kind = true → kind = .defaultValue ∨ kind = .enumValue →
    SameValue (node kind ts).compactText (node kind us).compactText
  path : kind = .modulePath →
    ModulePath.parse (node kind ts).compactText = ModulePath.parse (node kind us).compactText
  receiver : kind = .methodType → (tokensOfList ts).getLast? = (tokensOfList us).getLast?
  name : kind = .name → ∃ t, ts = [leaf t] ∧ us = [leaf t]

/-- Trees side by side below a node of the kind `parent` that give the same symbols; `previous` and
`previous'` are what stands before them, the nearest first. -/
inductive Twins (full : Bool) : NodeKind → List Tree → List Tree → List Tree → List Tree → Prop
  | nil {parent previous previous'} : Twins full parent previous previous' [] []
  | left {parent previous previous' t ts us} (blank : t.isBlank = true) :
    Twins full parent (t :: previous) previous' ts us → Twins full parent previous previous' (t :: ts) us
  | right {parent previous previous' u ts us} (blank : u.isBlank = true) :
    Twins full parent previous (u :: previous') ts us → Twins full parent previous previous' ts (u :: us)
  | leaf {parent previous previous' ts us} (t : Token) (significant : t.kind.isTrivia = false) :
    Twins full parent (leaf t :: previous) (leaf t :: previous') ts us →
      Twins full parent previous previous' (leaf t :: ts) (leaf t :: us)
  | node {parent previous previous' kind ts us cs ds} (below : Twins full kind [] [] cs ds)
    (agree : Agree full parent kind cs ds)
    (comment : full = true → parent.takesComment kind = true → commentBefore? previous = commentBefore? previous') :
    Twins full parent (node kind cs :: previous) (node kind ds :: previous') ts us →
      Twins full parent previous previous' (node kind cs :: ts) (node kind ds :: us)

theorem getLast?_significant {ts : List Token} {t : Token} (last : ts.getLast? = some t)
    (kept : t.kind.isTrivia = false) : (Token.significant ts).getLast? = some t := by
  obtain ⟨front, rfl⟩ := List.getLast?_eq_some_iff.1 last
  rw [Token.significant_append, Token.significant_cons kept, List.getLast?_append]
  rfl

/-- Nodes that are the same up to blanks agree, if the gaps are the same where the text is kept. -/
theorem agree_of_similar {full : Bool} {parent kind : NodeKind} {cs ds : List Tree}
    (similar : Similar [node kind cs] [node kind ds]) (formed : (node kind cs).WellFormed)
    (formed' : (node kind ds).WellFormed) (inText : Token.InText (tokensOfList cs))
    (inText' : Token.InText (tokensOfList ds))
    (gaps : full = true → parent.keepsText kind = true →
      (node kind cs).visibleGaps = (node kind ds).visibleGaps) : Agree full parent kind cs ds := by
  have significant : Token.significant (node kind cs).tokens = Token.significant (node kind ds).tokens := by
    have whole := similar.significant
    simpa only [tokensOfList, List.append_nil] using whole
  have tidy : kind.Tidy cs := similar.left.1.1
  have tidy' : kind.Tidy ds := similar.right.1.1
  refine ⟨fun full kept none none' => ?_, fun full kept value => ?_, fun path => ?_, fun type => ?_, fun name => ?_⟩
  · have other : ¬ (some kind = some NodeKind.defaultValue ∨ some kind = some NodeKind.enumValue) :=
      fun value => value.elim (fun is => none (Option.some.inj is)) fun is => none' (Option.some.inj is)
    have same := gaps full kept
    rw [visibleGaps, visibleGaps, nodeKind?, nodeKind?, if_neg other, if_neg other] at same
    exact compactText_congr significant same
  · have same := gaps full kept
    have kinds : some kind = some NodeKind.defaultValue ∨ some kind = some NodeKind.enumValue :=
      value.imp (congrArg some) (congrArg some)
    rw [visibleGaps, visibleGaps, nodeKind?, nodeKind?, if_pos kinds, if_pos kinds] at same
    exact sameValue_compactText significant same inText inText'
  · exact ModulePath.parse_compactText significant (tidy.path path) (fun _ => inText.isPlain)
      fun _ => inText'.isPlain
  · obtain ⟨t, last, kept⟩ := tidy.receiver type
    obtain ⟨t', last', kept'⟩ := tidy'.receiver type
    have same := congrArg List.getLast? significant
    rw [tokens, tokens, getLast?_significant last kept, getLast?_significant last' kept'] at same
    rw [last, last', same]
  · obtain ⟨t, rfl, isName⟩ := formed.1.name name
    obtain ⟨t', rfl, isName'⟩ := formed'.1.name name
    have kept : ∀ {kind : TokenKind}, kind.isName = true → kind.isTrivia = false := by
      intro kind h
      cases kind <;> first | rfl | cases h
    have one (t : Token) (h : t.kind.isName = true) : Token.significant (node kind [leaf t]).tokens = [t] := by
      rw [tokens, tokensOfList, tokensOfList, tokens, List.append_nil, Token.significant_cons (kept h)]
      rfl
    rw [one t isName, one t' isName', List.singleton_inj] at significant
    exact ⟨t, rfl, by rw [significant]⟩

/-- Three parts of equal lengths are the same if they are so together. -/
theorem append_three_inj {α : Type} {as bs cs as' bs' cs' : List α} (first : as.length = as'.length)
    (second : bs.length = bs'.length) (same : as ++ (bs ++ cs) = as' ++ (bs' ++ cs')) :
    as = as' ∧ bs = bs' ∧ cs = cs' := by
  obtain ⟨front, rest⟩ := List.append_inj same first
  exact ⟨front, List.append_inj rest second⟩

/-- Trees side by side of two texts, which stand below a node of the kind `parent`, are similar, and in full
with blanks at the same places where texts are kept and with the same doc comments. -/
structure Paired (full : Bool) (parent : NodeKind) (previous previous' ts us : List Tree) : Prop where
  similar : Similar ts us
  formed : WellFormedList ts
  formed' : WellFormedList us
  inText : Token.InText (tokensOfList ts)
  inText' : Token.InText (tokensOfList us)
  gaps : full = true → keptGapsBelow parent ts = keptGapsBelow parent us
  comments : full = true → commentsBelow parent previous ts = commentsBelow parent previous' us

namespace Paired

variable {full : Bool} {parent : NodeKind} {previous previous' ts us : List Tree}

theorem symm (h : Paired full parent previous previous' ts us) : Paired full parent previous' previous us ts :=
  ⟨⟨h.similar.bare.symm, h.similar.right, h.similar.left⟩, h.formed', h.formed, h.inText', h.inText,
    fun full => (h.gaps full).symm, fun full => (h.comments full).symm⟩

/-- Before a blank and behind it. -/
theorem blank {t : Token} (h : Paired full parent previous previous' (leaf t :: ts) us)
    (trivia : t.kind.isTrivia = true) : Paired full parent (leaf t :: previous) previous' ts us where
  similar := by
    refine ⟨?_, h.similar.left.2, h.similar.right⟩
    rw [← h.similar.bare, bareList_leaf, if_pos trivia]
  formed := h.formed.2
  formed' := h.formed'
  inText := h.inText.right
  inText' := h.inText'
  gaps := h.gaps
  comments := h.comments

/-- Before a significant token and behind it. -/
theorem leaf {t u : Token} (h : Paired full parent previous previous' (leaf t :: ts) (leaf u :: us))
    (significant : ¬ t.kind.isTrivia = true) (significant' : ¬ u.kind.isTrivia = true) :
    t = u ∧ Paired full parent (Tree.leaf t :: previous) (Tree.leaf u :: previous') ts us := by
  have bare := h.similar.bare
  rw [bareList_leaf, bareList_leaf, if_neg significant, if_neg significant', List.cons.injEq] at bare
  exact ⟨Tree.leaf.inj bare.1, ⟨bare.2, h.similar.left.2, h.similar.right.2⟩, h.formed.2, h.formed'.2,
    h.inText.right, h.inText'.right, h.gaps, h.comments⟩

/-- Before a node, in it and behind it. -/
theorem node {kind kind' : NodeKind} {cs ds : List Tree}
    (h : Paired full parent previous previous' (node kind cs :: ts) (node kind' ds :: us)) :
    kind = kind' ∧ Agree full parent kind cs ds ∧
      (full = true → parent.takesComment kind = true → commentBefore? previous = commentBefore? previous') ∧
      Paired full kind [] [] cs ds ∧
      Paired full parent (Tree.node kind cs :: previous) (Tree.node kind' ds :: previous') ts us := by
  have bare := h.similar.bare
  rw [bareList_node, bareList_node, List.cons.injEq, Tree.node.injEq] at bare
  obtain ⟨⟨rfl, inside⟩, behind⟩ := bare
  have both : Similar [Tree.node kind cs] [Tree.node kind ds] :=
    ⟨congrArg (fun below => [Tree.node kind below]) inside, ⟨h.similar.left.1, trivial⟩, ⟨h.similar.right.1, trivial⟩⟩
  have gaps (is : full = true) := append_three_inj (length_ite_singleton _ _ _)
    (by rw [length_keptGapsBelow, inside, ← length_keptGapsBelow])
    ((keptGapsBelow_node _ _ _ _).symm.trans ((h.gaps is).trans (keptGapsBelow_node _ _ _ _)))
  have comments (is : full = true) := append_three_inj (length_ite_singleton _ _ _)
    (by rw [length_commentsBelow kind [] [], inside, ← length_commentsBelow])
    ((commentsBelow_node _ _ _ _ _).symm.trans ((h.comments is).trans (commentsBelow_node _ _ _ _ _)))
  have inText : Token.InText (tokensOfList cs) := h.inText.left
  have inText' : Token.InText (tokensOfList ds) := h.inText'.left
  refine ⟨rfl, agree_of_similar both h.formed.1 h.formed'.1 inText inText' fun is kept => ?_, fun is takes => ?_, ?_, ?_⟩
  · have own := (gaps is).1
    rw [if_pos kept, if_pos kept] at own
    exact List.singleton_inj.1 own
  · have own := (comments is).1
    rw [if_pos takes, if_pos takes] at own
    exact List.singleton_inj.1 own
  · exact ⟨⟨inside, h.similar.left.1.2, h.similar.right.1.2⟩, h.formed.1.2, h.formed'.1.2, inText, inText',
      fun is => (gaps is).2.1, fun is => (comments is).2.1⟩
  · exact ⟨⟨behind, h.similar.left.2, h.similar.right.2⟩, h.formed.2, h.formed'.2,
      h.inText.right, h.inText'.right, fun is => (gaps is).2.2, fun is => (comments is).2.2⟩

theorem twins {full : Bool} {parent : NodeKind} {previous previous' ts us : List Tree}
    (h : Paired full parent previous previous' ts us) : Twins full parent previous previous' ts us := by
  cases ts with
  | nil =>
    cases us with
    | nil => exact .nil
    | cons u us =>
      have bare := h.similar.bare
      cases u with
      | leaf u =>
        by_cases blank : u.kind.isTrivia = true
        · exact .right blank (twins (h.symm.blank blank).symm)
        · rw [bareList_leaf, if_neg blank] at bare
          cases bare
      | node => cases bare
  | cons t ts =>
    cases t with
    | leaf t =>
      by_cases blank : t.kind.isTrivia = true
      · exact .left blank (twins (h.blank blank))
      cases us with
      | nil =>
        have bare := h.similar.bare
        rw [bareList_leaf, if_neg blank] at bare
        cases bare
      | cons u us =>
        cases u with
        | leaf u =>
          by_cases blank' : u.kind.isTrivia = true
          · exact .right blank' (twins (h.symm.blank blank').symm)
          · obtain ⟨rfl, rest⟩ := h.leaf blank blank'
            exact .leaf t (Bool.eq_false_iff.2 blank) (twins rest)
        | node =>
          have bare := h.similar.bare
          rw [bareList_leaf, if_neg blank, bareList_node] at bare
          cases bare
    | node kind cs =>
      cases us with
      | nil => cases h.similar.bare
      | cons u us =>
        cases u with
        | leaf u =>
          by_cases blank : u.kind.isTrivia = true
          · exact .right blank (twins (h.symm.blank blank).symm)
          · have bare := h.similar.bare
            rw [bareList_leaf, if_neg blank, bareList_node] at bare
            cases bare
        | node kind' ds =>
          obtain ⟨rfl, agree, comment, below, rest⟩ := h.node
          exact .node (twins below) agree comment (twins rest)
termination_by sizeOf ts + sizeOf us

end Paired

end Tree

/-- The trees of texts with the same significant tokens are twins, if blanks stand at the same places of
the parts that are kept in their text, and the doc comments of the declarations are the same. -/
theorem Parse.twins {s s' : String}
    (tokens : Token.significant (Token.ofString s) = Token.significant (Token.ofString s'))
    (gaps : (ofString s).tree.keptGaps = (ofString s').tree.keptGaps)
    (comments : (ofString s).tree.comments = (ofString s').tree.comments) :
    Tree.Twins true .sourceFile [] [] (ofString s).tree.children (ofString s').tree.children := by
  obtain ⟨children, -, tree, leaves, -⟩ := lossless s
  obtain ⟨children', -, tree', leaves', -⟩ := lossless s'
  have similar := similar_of_significant tokens
  have formed := (tree_ofString s).2
  have formed' := (tree_ofString s').2
  rw [tree] at gaps comments similar formed leaves ⊢
  rw [tree'] at gaps comments similar formed' leaves' ⊢
  have bare := similar.bare
  rw [Tree.bareList_node, Tree.bareList_node, List.cons.injEq, Tree.node.injEq] at bare
  refine Tree.Paired.twins ⟨⟨bare.1.2, similar.left.1.2, similar.right.1.2⟩, formed.2, formed'.2,
    ⟨s.toList, ?_⟩, ⟨s'.toList, ?_⟩, fun _ => gaps, fun _ => comments⟩
  · exact (congrArg (· <:+: Token.ofString s) leaves).mpr (List.infix_refl _)
  · exact (congrArg (· <:+: Token.ofString s') leaves').mpr (List.infix_refl _)

/-! ## Places of twins -/

/-- The places hold nodes of the kind below nodes of the kind `parent` that give the same symbols. -/
def Place.Twin (full : Bool) (parent kind : NodeKind) (p q : Place) : Prop :=
  ∃ cs ds, p.tree = .node kind cs ∧ q.tree = .node kind ds ∧ Tree.Twins full kind [] [] cs ds ∧
    Tree.Agree full parent kind cs ds

namespace Tree.Twins

open Place (Twin line)

variable {full : Bool} {parent : NodeKind} {previous previous' ts us : List Tree}

theorem find?_isNode (h : Twins full parent previous previous' ts us) (kind : NodeKind) (start start' : Nat) :
    Option.Rel (Twin full parent kind) ((line start ts).find? (·.isNode kind))
      ((line start' us).find? (·.isNode kind)) := by
  induction h generalizing start start' with
  | nil => exact .none
  | @left _ _ _ t _ _ blank _ ih =>
    cases t with
    | leaf => exact ih _ _
    | node => cases blank
  | @right _ _ _ u _ _ blank _ ih =>
    cases u with
    | leaf => exact ih _ _
    | node => cases blank
  | leaf _ _ _ ih => exact ih _ _
  | @node _ _ _ kind' _ _ cs ds below agree _ _ _ ih =>
    rw [line, line, List.find?_cons, List.find?_cons]
    by_cases same : kind' = kind
    · subst same
      have here (start : Nat) (cs : List Tree) : (Place.mk start (.node kind' cs)).isNode kind' = true :=
        beq_self_eq_true _
      rw [here, here]
      exact .some ⟨cs, ds, rfl, rfl, below, agree⟩
    · have other (start : Nat) (cs : List Tree) : (Place.mk start (.node kind' cs)).isNode kind = false :=
        beq_eq_false_iff_ne.2 fun h => same (Option.some.inj h)
      rw [other, other]
      exact ih _ _

theorem filter_isNode (h : Twins full parent previous previous' ts us) (kind : NodeKind) (start start' : Nat) :
    List.Forall₂ (Twin full parent kind) ((line start ts).filter (·.isNode kind))
      ((line start' us).filter (·.isNode kind)) := by
  induction h generalizing start start' with
  | nil => exact .nil
  | @left _ _ _ t _ _ blank _ ih =>
    cases t with
    | leaf => exact ih _ _
    | node => cases blank
  | @right _ _ _ u _ _ blank _ ih =>
    cases u with
    | leaf => exact ih _ _
    | node => cases blank
  | leaf _ _ _ ih => exact ih _ _
  | @node _ _ _ kind' _ _ cs ds below agree _ _ _ ih =>
    rw [line, line, List.filter_cons, List.filter_cons]
    by_cases same : kind' = kind
    · subst same
      have here (start : Nat) (cs : List Tree) : (Place.mk start (.node kind' cs)).isNode kind' = true :=
        beq_self_eq_true _
      rw [if_pos (here _ _), if_pos (here _ _)]
      exact .cons ⟨cs, ds, rfl, rfl, below, agree⟩ (ih _ _)
    · have other (start : Nat) (cs : List Tree) : ¬ (Place.mk start (.node kind' cs)).isNode kind = true :=
        fun h => same (Option.some.inj (beq_iff_eq.1 h))
      rw [if_neg (other _ _), if_neg (other _ _)]
      exact ih _ _

/-- Twins have the same significant tokens directly below. -/
theorem filter_token (h : Twins full parent previous previous' ts us) {f : Token → Bool}
    (plain : ∀ t, f t = true → t.kind.isTrivia = false) :
    (ts.filterMap Tree.token?).filter f = (us.filterMap Tree.token?).filter f := by
  have skipped : ∀ {t : Tree} {ts : List Tree}, t.isBlank = true →
      ((t :: ts).filterMap Tree.token?).filter f = (ts.filterMap Tree.token?).filter f := by
    intro t ts blank
    cases t with
    | leaf t =>
      refine List.filter_cons_of_neg fun is => ?_
      exact Bool.false_ne_true ((plain t is).symm.trans blank)
    | node => cases blank
  induction h with
  | nil => rfl
  | left blank _ ih => rw [skipped blank, ih]
  | right blank _ ih => rw [skipped blank, ih]
  | leaf t _ _ ih =>
    have first (ts : List Tree) : (Tree.leaf t :: ts).filterMap Tree.token? = t :: ts.filterMap Tree.token? := rfl
    rw [first, first, List.filter_cons, List.filter_cons, ih]
  | node _ _ _ _ _ ih => exact ih

/-- Twins have the same nodes of a kind anywhere below. -/
theorem filter_places (h : Twins full parent previous previous' ts us) (kind : NodeKind) (start start' : Nat) :
    List.Forall₂ (fun p q => ∃ parent, Twin full parent kind p q)
      ((Tree.placesOfList start ts).filter (·.isNode kind))
      ((Tree.placesOfList start' us).filter (·.isNode kind)) := by
  induction h generalizing start start' with
  | nil => exact .nil
  | @left _ _ _ t _ _ blank _ ih =>
    cases t with
    | leaf => exact ih _ _
    | node => cases blank
  | @right _ _ _ u _ _ blank _ ih =>
    cases u with
    | leaf => exact ih _ _
    | node => cases blank
  | leaf _ _ _ ih => exact ih _ _
  | @node parent _ _ kind' _ _ cs ds below agree _ _ inside behind =>
    rw [Tree.placesOfList, Tree.placesOfList, List.filter_append, List.filter_append]
    refine List.rel_append ?_ (behind _ _)
    rw [Tree.placesFrom, Tree.placesFrom, List.filter_cons, List.filter_cons]
    by_cases same : kind' = kind
    · subst same
      have here (start : Nat) (cs : List Tree) : (Place.mk start (.node kind' cs)).isNode kind' = true :=
        beq_self_eq_true _
      rw [if_pos (here _ _), if_pos (here _ _)]
      exact .cons ⟨parent, cs, ds, rfl, rfl, below, agree⟩ (inside _ _)
    · have other (start : Nat) (cs : List Tree) : ¬ (Place.mk start (.node kind' cs)).isNode kind = true :=
        fun h => same (Option.some.inj (beq_iff_eq.1 h))
      rw [if_neg (other _ _), if_neg (other _ _)]
      exact inside _ _

end Tree.Twins

namespace Place

theorem isToken_eq (p : Place) (kind : TokenKind) :
    p.isToken kind = ((p.tree.token?.map fun t => t.kind == kind).getD false) := by
  obtain ⟨start, t⟩ := p
  cases t with
  | leaf t => exact Bool.eq_iff_iff.2 (by rw [isToken, beq_iff_eq]; exact Option.some_inj.trans beq_iff_eq.symm)
  | node => rfl

/-- The tokens directly below. -/
theorem filterMap_leaves (p : Place) :
    (p.leaves.filterMap fun l => l.tree.token?) = p.tree.children.filterMap Tree.token? := by
  obtain ⟨start, t⟩ := p
  suffices lines : ∀ (start : Nat) (ts : List Tree),
      (((line start ts).filter (·.tree.tokenKind?.isSome)).filterMap fun l => l.tree.token?) =
        ts.filterMap Tree.token? from lines start t.children
  intro start ts
  induction ts generalizing start with
  | nil => rfl
  | cons t ts ih =>
    cases t with
    | leaf t => exact congrArg (t :: ·) (ih _)
    | node => exact ih _

theorem leaf?_token (p : Place) (kind : TokenKind) :
    (p.leaf? kind).bind (·.tree.token?) = (p.tree.children.filterMap Tree.token?).find? (·.kind == kind) := by
  obtain ⟨start, t⟩ := p
  suffices lines : ∀ (start : Nat) (ts : List Tree),
      ((line start ts).find? (·.isToken kind)).bind (·.tree.token?) =
        (ts.filterMap Tree.token?).find? (·.kind == kind) from lines start t.children
  intro start ts
  induction ts generalizing start with
  | nil => rfl
  | cons t ts ih =>
    rw [line, List.find?_cons, isToken_eq]
    cases t with
    | leaf t =>
      have first : (Tree.leaf t :: ts).filterMap Tree.token? = t :: ts.filterMap Tree.token? := rfl
      rw [first, List.find?_cons]
      dsimp only [Tree.token?, Option.map_some, Option.getD_some]
      cases t.kind == kind with
      | true => rfl
      | false => exact ih _
    | node => exact ih _

theorem hasLeaf_eq (p : Place) (kind : TokenKind) :
    p.hasLeaf kind = ((p.tree.children.filterMap Tree.token?).find? (·.kind == kind)).isSome := by
  rw [← leaf?_token, hasLeaf]
  cases found : p.leaf? kind with
  | none => rfl
  | some leaf =>
    have isToken : leaf.isToken kind = true := List.find?_some (p := fun leaf : Place => leaf.isToken kind) found
    rw [isToken_eq] at isToken
    rw [Option.bind_some]
    cases token : leaf.tree.token? with
    | none =>
      rw [token] at isToken
      cases isToken
    | some => rfl

theorem Twin.firstLeaf? {full : Bool} {parent : NodeKind} {p q : Place} (h : Twin full parent .name p q) :
    ∃ t, p.firstLeaf? = some ⟨p.start, .leaf t⟩ ∧ q.firstLeaf? = some ⟨q.start, .leaf t⟩ := by
  obtain ⟨cs, ds, left, right, -, agree⟩ := h
  obtain ⟨t, rfl, rfl⟩ := agree.name rfl
  exact ⟨t, by rw [Place.firstLeaf?, left]; rfl, by rw [Place.firstLeaf?, right]; rfl⟩

theorem nameLeaf?_rel {full : Bool} {parent : NodeKind} {p q : Place}
    (names : Option.Rel (Twin full parent .name) (p.child? .name) (q.child? .name)) :
    Option.Rel (fun a b => a.text = b.text) p.nameLeaf? q.nameLeaf? := by
  rw [Place.nameLeaf?, Place.nameLeaf?]
  generalize p.child? .name = a at names
  generalize q.child? .name = b at names
  cases names with
  | none => exact .none
  | some name =>
    obtain ⟨t, left, right⟩ := name.firstLeaf?
    rw [Option.bind_some, Option.bind_some, left, right]
    exact .some rfl

theorem nameLeaves_rel {full : Bool} {parent : NodeKind} {p q : Place}
    (names : List.Forall₂ (Twin full parent .name) (p.childrenOf .name) (q.childrenOf .name)) :
    List.Forall₂ (fun a b => a.text = b.text) p.nameLeaves q.nameLeaves := by
  rw [Place.nameLeaves, Place.nameLeaves]
  generalize p.childrenOf .name = as at names
  generalize q.childrenOf .name = bs at names
  induction names with
  | nil => exact .nil
  | cons name _ ih =>
    obtain ⟨t, left, right⟩ := name.firstLeaf?
    rw [List.filterMap_cons_some left, List.filterMap_cons_some right]
    exact .cons rfl ih

namespace Twin

variable {full : Bool} {parent kind : NodeKind} {p q : Place}

theorem below (h : Twin full parent kind p q) : Tree.Twins full kind [] [] p.tree.children q.tree.children := by
  obtain ⟨cs, ds, left, right, below, -⟩ := h
  rw [left, right]
  exact below

theorem isNode (h : Twin full parent kind p q) (other : NodeKind) : p.isNode other = q.isNode other := by
  obtain ⟨cs, ds, left, right, -, -⟩ := h
  rw [Place.isNode, Place.isNode, left, right]
  rfl

theorem child? (h : Twin full parent kind p q) (below : NodeKind) :
    Option.Rel (Twin full kind below) (p.child? below) (q.child? below) :=
  h.below.find?_isNode below _ _

theorem childrenOf (h : Twin full parent kind p q) (below : NodeKind) :
    List.Forall₂ (Twin full kind below) (p.childrenOf below) (q.childrenOf below) :=
  h.below.filter_isNode below _ _

theorem descendants (h : Twin full parent kind p q) (below : NodeKind) :
    List.Forall₂ (fun p q => ∃ parent, Twin full parent below p q) (p.descendants.filter (·.isNode below))
      (q.descendants.filter (·.isNode below)) := by
  have single : Tree.Twins full parent [] [] [p.tree] [q.tree] := by
    obtain ⟨cs, ds, left, right, inside, agree⟩ := h
    rw [left, right]
    exact .node inside agree (fun _ _ => rfl) .nil
  have whole := single.filter_places below p.start q.start
  simp only [Tree.placesOfList, List.append_nil] at whole
  exact whole

theorem tokens (h : Twin full parent kind p q) {f : Token → Bool}
    (plain : ∀ t, f t = true → t.kind.isTrivia = false) :
    (p.leaves.filterMap fun l => l.tree.token?).filter f = (q.leaves.filterMap fun l => l.tree.token?).filter f := by
  rw [filterMap_leaves, filterMap_leaves, h.below.filter_token plain]

theorem find?_token (h : Twin full parent kind p q) {word : TokenKind} (plain : word.isTrivia = false) :
    (p.tree.children.filterMap Tree.token?).find? (·.kind == word) =
      (q.tree.children.filterMap Tree.token?).find? (·.kind == word) := by
  have found : ∀ ts : List Token, ts.find? (·.kind == word) = (ts.filter (·.kind == word)).head? := fun ts => by
    rw [List.head?_filter]
  rw [found, found, h.below.filter_token fun t is => by rw [beq_iff_eq.1 is, plain]]

theorem hasLeaf (h : Twin full parent kind p q) {word : TokenKind} (plain : word.isTrivia = false) :
    p.hasLeaf word = q.hasLeaf word := by
  rw [hasLeaf_eq, hasLeaf_eq, h.find?_token plain]

theorem text (h : Twin true parent kind p q) (kept : parent.keepsText kind = true) (none : kind ≠ .defaultValue)
    (none' : kind ≠ .enumValue) : p.tree.compactText = q.tree.compactText := by
  obtain ⟨cs, ds, left, right, -, agree⟩ := h
  rw [left, right, agree.text rfl kept none none']

theorem value (h : Twin true parent kind p q) (kept : parent.keepsText kind = true)
    (value : kind = .defaultValue ∨ kind = .enumValue) : SameValue p.tree.compactText q.tree.compactText := by
  obtain ⟨cs, ds, left, right, -, agree⟩ := h
  rw [left, right]
  exact agree.value rfl kept value

theorem path (h : Twin full parent .modulePath p q) :
    ModulePath.parse p.tree.compactText = ModulePath.parse q.tree.compactText := by
  obtain ⟨cs, ds, left, right, -, agree⟩ := h
  rw [left, right, agree.path rfl]

theorem lastToken? (h : Twin full parent .methodType p q) : p.tree.lastToken? = q.tree.lastToken? := by
  obtain ⟨cs, ds, left, right, -, agree⟩ := h
  rw [left, right]
  exact agree.receiver rfl

/-- The names of twins read the same. -/
theorem nameLeaf? (h : Twin full parent kind p q) :
    Option.Rel (fun a b => a.text = b.text) p.nameLeaf? q.nameLeaf? :=
  nameLeaf?_rel (h.child? .name)

theorem nameLeaves (h : Twin full parent kind p q) :
    List.Forall₂ (fun a b => a.text = b.text) p.nameLeaves q.nameLeaves :=
  nameLeaves_rel (h.childrenOf .name)

end Twin

end Place

end C3Lens
