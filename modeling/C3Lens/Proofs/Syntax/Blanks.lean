import C3Lens.Proofs.Syntax.Loops

/-!
# Reading without a look at the blanks

The grammar looks at significant tokens only. Two readers that come before the same significant tokens
(`Reader.Level`), with whatever blanks and comments between them, read the same: an action answers the
same, and adds trees that are the same up to blanks and comments (`Grammar.Blind`). `Blind` is a class, so
that the actions built from others have it by their shape; the actions that ask for the place reached, by
the cursor or by a checkpoint, have rules of their own (`Blind.unlessMoved`, `BlindSince`).

Two kinds of nodes have to be looked at more closely, since their symbols are made from their tokens: the
type of a receiver ends with its name, and the path of a module is made of names and colons by turns
(`NodeKind.Tidy`), wherever the blanks stand.
-/

namespace C3Lens

/-! ## Trees without blanks -/

namespace Tree

/-- Whether a tree is a blank or a comment. -/
def isBlank (t : Tree) : Bool :=
  (t.tokenKind?.map TokenKind.isTrivia).getD false

mutual

/-- A tree without the blanks and comments in it. -/
def bare : Tree → Tree
  | leaf t => leaf t
  | node kind children => node kind (bareList children)

/-- Trees side by side without the blanks and comments among them and in them. -/
def bareList : List Tree → List Tree
  | [] => []
  | t :: ts => if t.isBlank then bareList ts else bare t :: bareList ts

end

end Tree

/-! ## Tokens of receivers and of paths -/

namespace Token

/-- The significant tokens among tokens. -/
def significant (ts : List Token) : List Token :=
  ts.filter fun t => !t.kind.isTrivia

/-- What follows the first name of a path: colons and names by turns. -/
inductive PathTail : List Token → Prop
  | nil : PathTail []
  | cons {a b : Token} {ts : List Token} (colons : a.kind = .colonColon) (name : b.kind = .ident) :
    PathTail ts → PathTail (a :: b :: ts)

/-- The tokens of a path, or none. -/
inductive PathTokens : List Token → Prop
  | nil : PathTokens []
  | name {a : Token} {ts : List Token} (name : a.kind = .ident) : PathTail ts → PathTokens (a :: ts)

theorem PathTail.significant {ts : List Token} (h : PathTail ts) : ∀ t ∈ ts, t.kind.isTrivia = false := by
  induction h with
  | nil => exact fun t ht => absurd ht List.not_mem_nil
  | cons colons name _ ih =>
    exact List.forall_mem_cons.2 ⟨by rw [colons]; rfl, List.forall_mem_cons.2 ⟨by rw [name]; rfl, ih⟩⟩

theorem PathTokens.significant {ts : List Token} (h : PathTokens ts) : ∀ t ∈ ts, t.kind.isTrivia = false := by
  cases h with
  | nil => exact fun t ht => absurd ht List.not_mem_nil
  | name name tail => exact List.forall_mem_cons.2 ⟨by rw [name]; rfl, tail.significant⟩

theorem significant_append (ts us : List Token) :
    significant (ts ++ us) = significant ts ++ significant us :=
  List.filter_append ts us

theorem significant_cons {t : Token} (h : t.kind.isTrivia = false) (ts : List Token) :
    significant (t :: ts) = t :: significant ts :=
  List.filter_cons_of_pos (by rw [h]; rfl)

theorem significant_cons_of_trivia {t : Token} (h : t.kind.isTrivia = true) (ts : List Token) :
    significant (t :: ts) = significant ts :=
  List.filter_cons_of_neg (by rw [h]; exact Bool.false_ne_true)

theorem significant_of_trivia {ts : List Token} (h : ∀ t ∈ ts, t.kind.isTrivia = true) :
    significant ts = [] := by
  refine List.filter_eq_nil_iff.2 fun t ht => ?_
  rw [h t ht]
  exact Bool.false_ne_true

end Token

/-- The tokens below a node are in order where symbols are made from them: the type of a receiver ends
with a significant token, and the path of a module is made of names and colons by turns. -/
structure NodeKind.Tidy (kind : NodeKind) (children : List Tree) : Prop where
  receiver : kind = .methodType →
    ∃ t, (Tree.tokensOfList children).getLast? = some t ∧ t.kind.isTrivia = false
  path : kind = .modulePath → Token.PathTokens (Token.significant (Tree.tokensOfList children))

/-- Whether nothing is asked of the tokens below a node of the kind. -/
@[reducible] def NodeKind.isFree : NodeKind → Bool
  | .methodType | .modulePath => false
  | _ => true

theorem NodeKind.tidy_of_isFree (kind : NodeKind) (h : kind.isFree = true) (children : List Tree) :
    kind.Tidy children where
  receiver type := by
    rw [type] at h
    cases h
  path type := by
    rw [type] at h
    cases h

namespace Tree

mutual

/-- The tokens below every node are in order. -/
def Tidy : Tree → Prop
  | leaf _ => True
  | node kind children => kind.Tidy children ∧ TidyList children

/-- The same for all nodes of trees side by side. -/
def TidyList : List Tree → Prop
  | [] => True
  | t :: ts => t.Tidy ∧ TidyList ts

end

/-- Trees that are the same up to blanks and comments, with their tokens in order. -/
structure Similar (ts us : List Tree) : Prop where
  bare : bareList ts = bareList us
  left : TidyList ts
  right : TidyList us

variable {ts us ts' us' : List Tree}

theorem bareList_leaf (t : Token) (ts : List Tree) :
    bareList (leaf t :: ts) = if t.kind.isTrivia then bareList ts else leaf t :: bareList ts :=
  rfl

theorem bareList_node (kind : NodeKind) (children ts : List Tree) :
    bareList (node kind children :: ts) = node kind (bareList children) :: bareList ts :=
  rfl

theorem bareList_append (ts us : List Tree) : bareList (ts ++ us) = bareList ts ++ bareList us := by
  induction ts with
  | nil => rfl
  | cons t ts ih =>
    rw [List.cons_append, bareList, bareList, ih]
    split
    · rfl
    · rw [List.cons_append]

theorem bareList_blanks {ts : List Token} (h : ∀ t ∈ ts, t.kind.isTrivia = true) :
    bareList (ts.map leaf) = [] := by
  induction ts with
  | nil => rfl
  | cons t ts ih =>
    obtain ⟨first, rest⟩ := List.forall_mem_cons.1 h
    have blank : (leaf t).isBlank = true := first
    rw [List.map_cons, bareList, if_pos blank, ih rest]

theorem tidyList_append : TidyList (ts ++ us) ↔ TidyList ts ∧ TidyList us := by
  induction ts with
  | nil => exact ⟨fun h => ⟨trivial, h⟩, fun h => h.2⟩
  | cons t ts ih => rw [List.cons_append, TidyList, ih, TidyList, and_assoc]

theorem tidyList_leaves (ts : List Token) : TidyList (ts.map leaf) := by
  induction ts with
  | nil => trivial
  | cons t ts ih => exact ⟨trivial, ih⟩

mutual

/-- The significant tokens of a tree are those of the tree without blanks. -/
theorem tokens_bare (t : Tree) (h : t.isBlank = false) : t.bare.tokens = Token.significant t.tokens := by
  match t with
  | leaf t =>
    have significant : t.kind.isTrivia = false := h
    rw [bare, tokens, Token.significant_cons significant]
    rfl
  | node kind children =>
    rw [bare, tokens, tokens, tokensOfList_bareList children]

theorem tokensOfList_bareList (ts : List Tree) :
    tokensOfList (bareList ts) = Token.significant (tokensOfList ts) := by
  match ts with
  | [] => rfl
  | t :: ts =>
    rw [bareList, tokensOfList, Token.significant_append]
    split
    next blank =>
      cases t with
      | leaf t =>
        have trivia : ∀ u ∈ (leaf t).tokens, u.kind.isTrivia = true := fun u hu => by
          rw [tokens, List.mem_singleton] at hu
          rw [hu]
          exact blank
        rw [Token.significant_of_trivia trivia, List.nil_append, tokensOfList_bareList ts]
      | node kind children => cases blank
    next some => rw [tokensOfList, tokens_bare t (Bool.eq_false_iff.2 some), tokensOfList_bareList ts]

end

namespace Similar

theorem append (h : Similar ts us) (k : Similar ts' us') : Similar (ts ++ ts') (us ++ us') where
  bare := by rw [bareList_append, bareList_append, h.bare, k.bare]
  left := tidyList_append.2 ⟨h.left, k.left⟩
  right := tidyList_append.2 ⟨h.right, k.right⟩

theorem nil : Similar [] [] :=
  ⟨rfl, trivial, trivial⟩

theorem leaf (t : Token) : Similar [.leaf t] [.leaf t] :=
  ⟨rfl, ⟨trivial, trivial⟩, ⟨trivial, trivial⟩⟩

theorem blanks {ts us : List Token} (h : ∀ t ∈ ts, t.kind.isTrivia = true)
    (k : ∀ t ∈ us, t.kind.isTrivia = true) : Similar (ts.map .leaf) (us.map .leaf) where
  bare := by rw [bareList_blanks h, bareList_blanks k]
  left := tidyList_leaves ts
  right := tidyList_leaves us

/-- Trees that are similar make similar nodes. -/
theorem node {kind : NodeKind} (h : Similar ts us) (left : kind.Tidy ts) (right : kind.Tidy us) :
    Similar [.node kind ts] [.node kind us] where
  bare := congrArg (fun children => [Tree.node kind children]) h.bare
  left := ⟨⟨left, h.left⟩, trivial⟩
  right := ⟨⟨right, h.right⟩, trivial⟩

theorem significant (h : Similar ts us) :
    Token.significant (tokensOfList ts) = Token.significant (tokensOfList us) := by
  rw [← tokensOfList_bareList, h.bare, tokensOfList_bareList]

end Similar

end Tree

/-! ## Lexemes without blanks -/

/-- The lexeme without the blanks behind it. -/
def Lexeme.bare (l : Lexeme) : Lexeme :=
  ⟨l.token, []⟩

@[simp] theorem Lexeme.kind_bare (l : Lexeme) : l.bare.kind = l.kind :=
  rfl

@[simp] theorem Lexeme.text_bare (l : Lexeme) : l.bare.text = l.text :=
  rfl

theorem Lexeme.significant_tokens {ls : List Lexeme} (plain : ∀ l ∈ ls, l.kind.isTrivia = false)
    (blanks : ∀ l ∈ ls, ∀ t ∈ l.blanks, t.kind.isTrivia = true) :
    Token.significant (ls.flatMap Lexeme.tokens) = ls.map Lexeme.token := by
  induction ls with
  | nil => rfl
  | cons l ls ih =>
    obtain ⟨first, others⟩ := List.forall_mem_cons.1 plain
    obtain ⟨here, later⟩ := List.forall_mem_cons.1 blanks
    rw [List.flatMap_cons, Token.significant_append, ih others later, Lexeme.tokens,
      Token.significant_cons first, Token.significant_of_trivia here]
    rfl

namespace Lookahead

variable (l : Lexeme) (ls : List Lexeme)

theorem isUserType_bare : isUserType l.bare = isUserType l :=
  rfl

theorem isTypeHead_bare : isTypeHead l.bare = isTypeHead l :=
  rfl

theorem afterGroup?_bare (depth : Nat) :
    afterGroup? depth (ls.map Lexeme.bare) = (afterGroup? depth ls).map (List.map Lexeme.bare) := by
  induction ls generalizing depth with
  | nil => rfl
  | cons l ls ih =>
    rw [List.map_cons, afterGroup?, afterGroup?, Lexeme.kind_bare, ih]
    split <;> rfl

theorem afterPath_bare (ls : List Lexeme) :
    afterPath (ls.map Lexeme.bare) = (afterPath ls).map Lexeme.bare := by
  fun_induction afterPath ls with
  | case1 a b ls path ih =>
    rw [List.map_cons, List.map_cons, afterPath, Lexeme.kind_bare, Lexeme.kind_bare, if_pos path, ih]
  | case2 a b ls noPath =>
    rw [List.map_cons, List.map_cons, afterPath, Lexeme.kind_bare, Lexeme.kind_bare, if_neg noPath]
  | case3 ls short =>
    cases ls with
    | nil => rfl
    | cons a ls =>
      cases ls with
      | nil => rfl
      | cons b ls => exact absurd rfl (short a b ls)

theorem afterSuffixes?_bare (depth : Nat) :
    afterSuffixes? depth (ls.map Lexeme.bare) = (afterSuffixes? depth ls).map (List.map Lexeme.bare) := by
  induction ls generalizing depth with
  | nil =>
    rw [List.map_nil, afterSuffixes?]
    split <;> rfl
  | cons l ls ih =>
    rw [List.map_cons, afterSuffixes?, afterSuffixes?, Lexeme.kind_bare]
    split
    · split <;> first | exact ih _ | rfl
    · exact ih _

theorem headKind?_bare : headKind? (ls.map Lexeme.bare) = headKind? ls := by
  cases ls <;> rfl

theorem headIs_bare (p : TokenKind → Bool) : headIs p (ls.map Lexeme.bare) = headIs p ls := by
  rw [headIs, headKind?_bare, headIs]

theorem afterArguments?_bare (head : Lexeme) :
    afterArguments? head.bare (ls.map Lexeme.bare) =
      (afterArguments? head ls).map (List.map Lexeme.bare) := by
  have first : (ls.map Lexeme.bare).head?.map Lexeme.kind = ls.head?.map Lexeme.kind := headKind?_bare ls
  rw [afterArguments?, afterArguments?, first, isUserType_bare]
  split
  · exact afterGroup?_bare ls 0
  · split
    · exact afterGroup?_bare ls 0
    · rfl
  · rfl

theorem afterType?_bare :
    afterType? (ls.map Lexeme.bare) = (afterType? ls).map (List.map Lexeme.bare) := by
  rw [afterType?, afterType?, afterPath_bare]
  cases afterPath ls with
  | nil => rfl
  | cons head rest =>
    rw [List.map_cons]
    dsimp only
    rw [isTypeHead_bare, afterArguments?_bare]
    split
    · cases afterArguments? head rest with
      | none => rfl
      | some behind => exact afterSuffixes?_bare behind 0
    · rfl

theorem isSome_afterType?_bare : (afterType? (ls.map Lexeme.bare)).isSome = (afterType? ls).isSome := by
  rw [afterType?_bare, Option.isSome_map]

theorem map_headIs_bare (p : TokenKind → Bool) :
    (afterType? (ls.map Lexeme.bare)).map (headIs p) = (afterType? ls).map (headIs p) := by
  rw [afterType?_bare, Option.map_map]
  exact congrArg (fun f => (afterType? ls).map f) (funext fun behind => headIs_bare behind p)

theorem atTypedName_bare : atTypedName (ls.map Lexeme.bare) = atTypedName ls := by
  rw [atTypedName, map_headIs_bare, atTypedName]

theorem atReceiver_bare : atReceiver (ls.map Lexeme.bare) = atReceiver ls := by
  rw [atReceiver, afterPath_bare, atReceiver]
  match afterPath ls with
  | [] => rfl
  | [a] => rfl
  | a :: b :: rest => rfl

theorem atDirective_bare : atDirective (ls.map Lexeme.bare) = atDirective ls := by
  cases ls <;> rfl

theorem atLocalVariable_bare : atLocalVariable (ls.map Lexeme.bare) = atLocalVariable ls := by
  have rest : (ls.map Lexeme.bare).dropWhile (fun l => isLocalModifier l.kind) =
      (ls.dropWhile fun l => isLocalModifier l.kind).map Lexeme.bare := by
    rw [List.dropWhile_map]
    rfl
  rw [atLocalVariable, atLocalVariable, rest]
  cases ls.dropWhile fun l => isLocalModifier l.kind with
  | nil => rfl
  | cons l tail =>
    have type := afterType?_bare (l :: tail)
    rw [List.map_cons] at type ⊢
    dsimp only
    rw [type, headIs_bare, headKind?_bare, Lexeme.kind_bare, ← List.map_cons, List.length_map, List.length_map]
    cases afterType? (l :: tail) with
    | none => rfl
    | some behind =>
      rw [Option.map_some]
      dsimp only
      rw [← List.map_tail, headIs_bare, headIs_bare]

end Lookahead

/-! ## Readers before the same tokens -/

namespace Reader

/-- The significant tokens to come, without the blanks between them. -/
def coming (r : Reader) : List Lexeme :=
  r.ahead.map Lexeme.bare

/-- The readers come before the same significant tokens. -/
structure Level (r s : Reader) : Prop where
  left : r.Orderly
  right : s.Orderly
  coming : r.coming = s.coming

/-- From one reader to another the trees were added to the open node, and their tokens were taken from
those to come. -/
structure Adds (r s : Reader) (ts : List Tree) : Prop where
  builder : ∀ b, r.builder? = some b → s.builder? = some (b.add ts)
  rest : r.rest = Tree.tokensOfList ts ++ s.rest

/-- From `r` to `r'` and from `s` to `s'` the same was read up to blanks and comments, and the readers
come before the same tokens. -/
structure Together (r s r' s' : Reader) : Prop where
  level : r'.Level s'
  trees : ∃ ts us, r.Adds r' ts ∧ s.Adds s' us ∧ Tree.Similar ts us

variable {r s r' s' r'' s'' : Reader} {ts us : List Tree}

theorem Builds.adds (h : r.Builds s ts) : r.Adds s ts :=
  ⟨h.builder, h.rest⟩

theorem Adds.refl (r : Reader) : r.Adds r [] :=
  (Builds.refl r).adds

theorem Adds.trans (h : r.Adds r' ts) (k : r'.Adds r'' us) : r.Adds r'' (ts ++ us) where
  builder b found := by rw [k.builder _ (h.builder b found), TreeBuilder.add_add]
  rest := by rw [h.rest, k.rest, Tree.tokensOfList_append, List.append_assoc]

/-- What was added since a node was started becomes the node. -/
theorem Adds.finish {kind : NodeKind} (h : (r.start kind).Adds s ts) :
    r.Adds s.finish [.node kind ts] where
  builder b found := by
    have inside : s.builder? = some ((b.start kind).add ts) := h.builder _ (by rw [start, found]; rfl)
    rw [Reader.finish, inside]
    exact b.finish?_start_add kind ts
  rest := by
    have inside : r.rest = _ := h.rest
    rw [inside]
    simp [Tree.tokensOfList, Tree.tokens, Reader.rest, Reader.finish]

/-- A node that is started at a checkpoint takes in what was added since. -/
theorem Adds.startAt (kind : NodeKind) (h : r.Adds r' ts) (k : (r'.startAt r.checkpoint kind).Adds s us) :
    (r.start kind).Adds s (ts ++ us) where
  builder b found := by
    obtain ⟨c, opened, rfl⟩ := Option.map_eq_some_iff.1 found
    have there : r.checkpoint = c.checkpoint := by rw [Reader.checkpoint, opened]; rfl
    have inside : (r'.startAt r.checkpoint kind).builder? = some ((c.start kind).add ts) := by
      rw [Reader.startAt, h.builder c opened, there]
      exact c.startAt?_checkpoint_add kind ts
    rw [k.builder _ inside, TreeBuilder.add_add]
  rest := by
    have before : (r.start kind).rest = _ := h.rest
    have behind : r'.rest = _ := k.rest
    rw [before, behind, Tree.tokensOfList_append, List.append_assoc]

/-- The significant tokens that were added are those that were taken. -/
theorem Adds.significant (h : r.Adds s ts) {ls : List Lexeme} (before : r.Orderly) (behind : s.Orderly)
    (ahead : r.ahead = ls ++ s.ahead) (plain : ∀ l ∈ ls, l.kind.isTrivia = false) :
    Token.significant (Tree.tokensOfList ts) = ls.map Lexeme.token := by
  have taken : r.blanks ++ ls.flatMap Lexeme.tokens = Tree.tokensOfList ts ++ s.blanks := by
    have whole : r.blanks ++ r.ahead.flatMap Lexeme.tokens =
        Tree.tokensOfList ts ++ (s.blanks ++ s.ahead.flatMap Lexeme.tokens) := h.rest
    rw [ahead, List.flatMap_append, ← List.append_assoc, ← List.append_assoc] at whole
    exact List.append_cancel_right whole
  have lexemes := Lexeme.significant_tokens plain fun l hl =>
    before.ahead l (ahead ▸ List.mem_append_left _ hl)
  have both := congrArg Token.significant taken
  rw [Token.significant_append, Token.significant_append, Token.significant_of_trivia before.blanks,
    Token.significant_of_trivia behind.blanks, List.nil_append, List.append_nil, lexemes] at both
  exact both.symm

namespace Level

theorem length (h : r.Level s) : r.ahead.length = s.ahead.length := by
  have lengths : (r.ahead.map Lexeme.bare).length = (s.ahead.map Lexeme.bare).length :=
    congrArg List.length h.coming
  rwa [List.length_map, List.length_map] at lengths

/-- Readers differ only in the blanks behind the tokens to come. -/
theorem cases_ahead (h : r.Level s) :
    (r.ahead = [] ∧ s.ahead = []) ∨ ∃ l k ls ks, r.ahead = l :: ls ∧ s.ahead = k :: ks ∧
      l.token = k.token ∧ ls.map Lexeme.bare = ks.map Lexeme.bare := by
  have coming : r.ahead.map Lexeme.bare = s.ahead.map Lexeme.bare := h.coming
  cases left : r.ahead with
  | nil =>
    rw [left, List.map_nil, eq_comm, List.map_eq_nil_iff] at coming
    exact .inl ⟨rfl, coming⟩
  | cons l ls =>
    cases right : s.ahead with
    | nil => exact absurd h.length (by rw [left, right]; exact Nat.succ_ne_zero _)
    | cons k ks =>
      rw [left, right, List.map_cons, List.map_cons, List.cons.injEq] at coming
      exact .inr ⟨l, k, ls, ks, rfl, rfl, (congrArg Lexeme.token coming.1 :), coming.2⟩

theorem start (h : r.Level s) (kind : NodeKind) : (r.start kind).Level (s.start kind) :=
  ⟨⟨h.left.blanks, h.left.ahead⟩, ⟨h.right.blanks, h.right.ahead⟩, h.coming⟩

theorem finish (h : r.Level s) : r.finish.Level s.finish :=
  ⟨⟨h.left.blanks, h.left.ahead⟩, ⟨h.right.blanks, h.right.ahead⟩, h.coming⟩

theorem startAt (h : r.Level s) (c c' : Checkpoint) (kind : NodeKind) :
    (r.startAt c kind).Level (s.startAt c' kind) :=
  ⟨⟨h.left.blanks, h.left.ahead⟩, ⟨h.right.blanks, h.right.ahead⟩, h.coming⟩

end Level

namespace Together

theorem refl (h : r.Level s) : Together r s r s :=
  ⟨h, [], [], .refl r, .refl s, .nil⟩

theorem trans (h : Together r s r' s') (k : Together r' s' r'' s'') : Together r s r'' s'' := by
  obtain ⟨ts, us, added, added', similar⟩ := h.trees
  obtain ⟨vs, ws, addedThen, addedThen', similarThen⟩ := k.trees
  exact ⟨k.level, _, _, added.trans addedThen, added'.trans addedThen', similar.append similarThen⟩

theorem trans_eq (h : Together r s r' s') (same : s' = s'') : Together r s r' s'' :=
  same ▸ h

theorem flush (h : r.Level s) : Together r s r.flush s.flush where
  level := by
    rw [flush_eq, flush_eq]
    exact ⟨⟨nofun, h.left.ahead⟩, ⟨nofun, h.right.ahead⟩, h.coming⟩
  trees := ⟨_, _, (Builds.flush r).adds, (Builds.flush s).adds, .blanks h.left.blanks h.right.blanks⟩

theorem bump (h : r.Level s) : Together r s r.bump s.bump := by
  obtain ⟨left, right⟩ | ⟨l, k, ls, ks, left, right, token, behind⟩ := h.cases_ahead
  · rw [bump_of_nil left, bump_of_nil right]
    exact .flush h
  · have leaves : Tree.Similar [.leaf l.token] [.leaf k.token] := token ▸ .leaf l.token
    refine ⟨⟨((Builds.bump left).formed h.left).1, ((Builds.bump right).formed h.right).1, ?_⟩,
      _, _, (Builds.bump left).adds, (Builds.bump right).adds,
      .append (.blanks h.left.blanks h.right.blanks) leaves⟩
    rw [bump_of_cons left, bump_of_cons right]
    exact behind

theorem report (h : r.Level s) (cause : SyntaxError.Cause) :
    Together r s (r.report cause) (s.report cause) :=
  ⟨⟨⟨h.left.blanks, h.left.ahead⟩, ⟨h.right.blanks, h.right.ahead⟩, h.coming⟩,
    [], [], ⟨fun _ found => found, rfl⟩, ⟨fun _ found => found, rfl⟩, .nil⟩

/-- What was read since a node was started becomes the node. -/
theorem finish {kind : NodeKind} (free : kind.isFree = true)
    (h : Together (r.start kind) (s.start kind) r' s') : Together r s r'.finish s'.finish := by
  obtain ⟨ts, us, added, added', similar⟩ := h.trees
  exact ⟨h.level.finish, _, _, added.finish, added'.finish, similar.node (kind.tidy_of_isFree free _) (kind.tidy_of_isFree free _)⟩

theorem startAt (kind : NodeKind) (h : Together r s r' s')
    (k : Together (r'.startAt r.checkpoint kind) (s'.startAt s.checkpoint kind) r'' s'') :
    Together (r.start kind) (s.start kind) r'' s'' := by
  obtain ⟨ts, us, added, added', similar⟩ := h.trees
  obtain ⟨vs, ws, addedThen, addedThen', similarThen⟩ := k.trees
  exact ⟨k.level, _, _, added.startAt kind addedThen, added'.startAt kind addedThen',
    similar.append similarThen⟩

end Together

end Reader

/-! ## Actions that do not look at blanks -/

namespace Grammar

/-- Before the same significant tokens the action answers the same and reads the same. -/
class Blind {α : Type} (m : Grammar α) : Prop where
  run : ∀ r s : Reader, r.Level s →
    m.answer r = m.answer s ∧ Reader.Together r s (m.after r) (m.after s)

section

variable {α β : Type} {m m' : Grammar α} {f : α → Grammar β}

/-- An action that answers from the significant tokens to come. -/
theorem Blind.ofLook (m : Grammar α) (g : List Lexeme → α) (h : ∀ r, m.run r = (g r.coming, r)) :
    Blind m where
  run r s level := by
    have answer (r : Reader) : m.answer r = g r.coming := congrArg Prod.fst (h r)
    have after (r : Reader) : m.after r = r := congrArg Prod.snd (h r)
    rw [answer, answer, after, after, level.coming]
    exact ⟨rfl, .refl level⟩

instance (a : α) : Blind (pure a : Grammar α) :=
  .ofLook _ (fun _ => a) fun _ => rfl

theorem Blind.bind [hm : Blind m] (hf : ∀ a, Blind (f a)) : Blind (m >>= f) where
  run r s level := by
    obtain ⟨answer, first⟩ := hm.run r s level
    obtain ⟨answer', second⟩ := (hf (m.answer r)).run _ _ first.level
    have out (r : Reader) : (m >>= f).answer r = (f (m.answer r)).answer (m.after r) := rfl
    have behind (r : Reader) : (m >>= f).after r = (f (m.answer r)).after (m.after r) := rfl
    rw [out, out, behind, behind, ← answer]
    exact ⟨answer', first.trans second⟩

instance [Blind m] [hf : ∀ a, Blind (f a)] : Blind (m >>= f) :=
  .bind hf

instance {c : Prop} [Decidable c] [Blind m] [Blind m'] : Blind (if c then m else m') := by
  split <;> infer_instance

/-- What depends on the tokens to come does not depend on the blanks between them. -/
theorem Blind.ahead {f : List Lexeme → Grammar β} (plain : ∀ ls, f (ls.map Lexeme.bare) = f ls)
    (hf : ∀ ls, Blind (f ls)) : Blind (ahead >>= f) where
  run r s level := by
    have coming : r.ahead.map Lexeme.bare = s.ahead.map Lexeme.bare := level.coming
    have same : f r.ahead = f s.ahead := by rw [← plain, coming, plain]
    have out (r : Reader) : (Grammar.ahead >>= f).answer r = (f r.ahead).answer r := rfl
    have behind (r : Reader) : (Grammar.ahead >>= f).after r = (f r.ahead).after r := rfl
    rw [out, out, behind, behind, ← same]
    exact (hf r.ahead).run r s level

end

theorem headKind?_coming (r : Reader) : r.coming.head?.map Lexeme.kind = r.ahead.head?.map Lexeme.kind :=
  Lookahead.headKind?_bare r.ahead

theorem kindAt_coming (r : Reader) (n : Nat) : r.coming[n]?.map Lexeme.kind = r.ahead[n]?.map Lexeme.kind := by
  rw [Reader.coming, List.getElem?_map, Option.map_map]
  rfl

instance (n : Nat) : Blind (kindAt n) :=
  .ofLook _ (fun ls => ls[n]?.map Lexeme.kind) fun r => by rw [kindAt_coming]; rfl

instance : Blind current :=
  .ofLook _ (fun ls => ls.head?.map Lexeme.kind) fun r => by rw [headKind?_coming]; rfl

instance : Blind currentText := by
  refine .ofLook _ (fun ls => (ls.head?.map Lexeme.text).getD "") fun r => ?_
  have text : r.coming.head?.map Lexeme.text = r.ahead.head?.map Lexeme.text := by
    rw [Reader.coming, List.head?_map, Option.map_map]
    rfl
  rw [text]
  rfl

instance (kind : TokenKind) : Blind (looksAt kind) := by
  unfold looksAt
  infer_instance

instance (n : Nat) (kind : TokenKind) : Blind (looksAtNth n kind) := by
  unfold looksAtNth
  infer_instance

instance (p : TokenKind → Bool) : Blind (looksAtAny p) := by
  unfold looksAtAny
  infer_instance

instance (n : Nat) (p : TokenKind → Bool) : Blind (looksAtNthAny n p) := by
  unfold looksAtNthAny
  infer_instance

instance : Blind atEnd :=
  .ofLook _ List.isEmpty fun r => by rw [Reader.coming, List.isEmpty_map]; rfl

instance : Blind flush :=
  ⟨fun _ _ level => ⟨rfl, .flush level⟩⟩

instance : Blind bump :=
  ⟨fun _ _ level => ⟨rfl, .bump level⟩⟩

instance (cause : SyntaxError.Cause) : Blind (report cause) :=
  ⟨fun _ _ level => ⟨rfl, .report level cause⟩⟩

instance (kind : NodeKind) (body : Grammar Unit) [free : Holds kind.isFree] [hb : Blind body] :
    Blind (node kind body) where
  run r s level := by
    have flushed := Reader.Together.flush level
    have inside := (hb.run _ _ (flushed.level.start kind)).2
    exact ⟨rfl, flushed.trans (inside.finish free.holds)⟩

/-- Whether an action has placed a token does not depend on blanks. -/
theorem Blind.moved {α : Type} {body : Grammar Unit} {f : Bool → Grammar α} [reads : Reads body]
    [hb : Blind body] (hf : ∀ still, Blind (f still)) :
    Blind do
      let before ← cursor
      body
      let behind ← cursor
      f (behind == before) where
  run r s level := by
    have together := (hb.run r s level).2
    have still : ((body.after r).cursor == r.cursor) = ((body.after s).cursor == s.cursor) := by
      have left := (reads.run r).cursor_add_length
      have right := (reads.run s).cursor_add_length
      have before := level.length
      have behind := together.level.length
      rw [Bool.eq_iff_iff, beq_iff_eq, beq_iff_eq]
      omega
    obtain ⟨answer, second⟩ := (hf ((body.after r).cursor == r.cursor)).run _ _ together.level
    refine ⟨answer.trans ?_, together.trans ?_⟩
    · exact congrArg (fun b => (f b).answer (body.after s)) still
    · exact second.trans_eq (congrArg (fun b => (f b).after (body.after s)) still)

theorem after_loopAtMost_succ {α : Type} (step : α → Grammar (Option α)) (n : Nat) (a : α) (r : Reader) :
    (loopAtMost step (n + 1) a).after r =
      ((step a).answer r).elim ((step a).after r)
        fun next => (loopAtMost step n next).after ((step a).after r) := by
  rw [after, run_loopAtMost_succ]
  cases (step a).answer r <;> rfl

instance {α : Type} (step : α → Grammar (Option α)) (n : Nat) (a : α) [h : ∀ a, Blind (step a)] :
    Blind (loopAtMost step n a) := by
  induction n generalizing a with
  | zero => exact inferInstanceAs (Blind (pure ()))
  | succ n ih =>
    refine .bind fun next? => ?_
    cases next? with
    | none => infer_instance
    | some next => exact ih next

instance {α : Type} (step : α → Grammar (Option α)) (a : α) [h : ∀ a, Blind (step a)] :
    Blind (loopFrom step a) :=
  .ahead (fun ls => by rw [List.length_map]) fun _ => inferInstance

theorem Blind.nest {α : Type} {within : (α → Grammar Unit) → α → Grammar Unit}
    (h : ∀ inner, (∀ a, Reads (inner a)) → (∀ a, Blind (inner a)) → ∀ a, Blind (within inner a))
    (reads : ∀ inner, (∀ a, Reads (inner a)) → ∀ a, Reads (within inner a)) (a : α) :
    Blind (nest within a) := by
  have most : ∀ depth a, Reads (nestAtMost within depth a) ∧ Blind (nestAtMost within depth a) := by
    intro depth
    induction depth with
    | zero => exact fun _ => ⟨inferInstanceAs (Reads (pure ())), inferInstanceAs (Blind (pure ()))⟩
    | succ depth ih =>
      exact fun a => ⟨reads _ (fun a => (ih a).1) a, h _ (fun a => (ih a).1) (fun a => (ih a).2) a⟩
  exact .ahead (fun ls => by rw [List.length_map]) fun ls => (most _ a).2

instance (step : Grammar Bool) (u : Unit) [Blind step] : Blind (plain step u) := by
  unfold plain
  infer_instance

instance (step : Grammar Bool) [Blind step] : Blind (loop step) := by
  unfold loop
  infer_instance

/-! ## Nodes from a checkpoint on -/

/-- The action carries on what was read from `r` and `s` on, alike up to blanks. -/
def BlindSince {α : Type} (r s : Reader) (m m' : Grammar α) : Prop :=
  ∀ r' s', Reader.Together r s r' s' →
    m.answer r' = m'.answer s' ∧ Reader.Together r s (m.after r') (m'.after s')

section

variable {α β : Type} {r s : Reader}

theorem BlindSince.ofBlind (m : Grammar α) [h : Blind m] : BlindSince r s m m := by
  intro r' s' since
  obtain ⟨answer, together⟩ := h.run _ _ since.level
  exact ⟨answer, since.trans together⟩

theorem BlindSince.bind {m m' : Grammar α} {f f' : α → Grammar β} (hm : BlindSince r s m m')
    (hf : ∀ a, BlindSince r s (f a) (f' a)) : BlindSince r s (m >>= f) (m' >>= f') := by
  intro r' s' since
  obtain ⟨answer, first⟩ := hm r' s' since
  have out : (m >>= f).answer r' = (f (m'.answer s')).answer (m.after r') := by
    rw [← answer]
    rfl
  have behind : (m >>= f).after r' = (f (m'.answer s')).after (m.after r') := by
    rw [← answer]
    rfl
  rw [out, behind]
  exact hf (m'.answer s') _ _ first

theorem BlindSince.ahead {f f' : List Lexeme → Grammar β}
    (plain : ∀ ls, f' (ls.map Lexeme.bare) = f' ls) (hf : ∀ ls, BlindSince r s (f ls) (f' ls)) :
    BlindSince r s (ahead >>= f) (ahead >>= f') := by
  intro r' s' since
  have coming : r'.ahead.map Lexeme.bare = s'.ahead.map Lexeme.bare := since.level.coming
  have same : f' s'.ahead = f' r'.ahead := by rw [← plain, ← coming, plain]
  have out : (Grammar.ahead >>= f').answer s' = (f' s'.ahead).answer s' := rfl
  have behind : (Grammar.ahead >>= f').after s' = (f' s'.ahead).after s' := rfl
  rw [out, behind, same]
  exact hf r'.ahead r' s' since

/-- A node from a checkpoint on takes in what was read since. -/
theorem BlindSince.nodeFrom (kind : NodeKind) (body : Grammar Unit) [free : Holds kind.isFree]
    [h : Blind body] :
    BlindSince r s (nodeFrom r.checkpoint kind body) (nodeFrom s.checkpoint kind body) := by
  intro r' s' since
  have inside := (h.run _ _ (since.level.startAt r.checkpoint s.checkpoint kind)).2
  exact ⟨rfl, (since.startAt kind inside).finish free.holds⟩

theorem Blind.checkpoint {f : Checkpoint → Grammar α}
    (h : ∀ r s : Reader, BlindSince r s (f r.checkpoint) (f s.checkpoint)) : Blind (checkpoint >>= f) where
  run r s level := by
    have flushed := Reader.Together.flush level
    obtain ⟨answer, together⟩ := h r.flush s.flush _ _ (.refl flushed.level)
    exact ⟨answer, flushed.trans together⟩

end

end Grammar

end C3Lens
