import C3Lens.Proofs.Blueprint.Parsing
import C3Lens.Proofs.TypeSyntax.Basic

/-!
# The grammar reads written types

In front of the tokens of a proper type the grammar gathers the tree of the type and notes no error
(`TypeSyntax.IsProper.takes`), whatever types are nested in it. An argument is read as a type because looking
ahead finds a comma or the closing bracket behind it (`TypeSyntax.IsProper.afterType?`), for which the brackets
inside of the argument have to be passed over (`Balanced`).
-/

namespace C3Lens

open C3Lens.Tree (tokensOfList)

namespace TypeSyntax

open Blueprint (bracketed Begins Avoids avoids_cons begins_cons)
open Grammar (Takes)
open Token (bareLexeme)

/-! ## Brackets that are passed over -/

/-- Looking for the end of a bracket group passes over the tokens. -/
def Balanced (ts : List Token) : Prop :=
  ∀ (depth : Nat) (rest : List Token), Lookahead.afterGroup? (depth + 1) ((ts ++ rest).map bareLexeme) =
    Lookahead.afterGroup? (depth + 1) (rest.map bareLexeme)

theorem afterGroup?_cons (depth : Nat) (t : Token) (ts : List Token) :
    Lookahead.afterGroup? depth ((t :: ts).map bareLexeme) =
      if Lookahead.deeper depth t.kind = 0 then some (ts.map bareLexeme)
      else Lookahead.afterGroup? (Lookahead.deeper depth t.kind) (ts.map bareLexeme) :=
  rfl

theorem deeper_opener {kind : TokenKind} (opens : kind.isOpener = true) (depth : Nat) :
    Lookahead.deeper depth kind = depth + 1 := by
  rw [Lookahead.deeper, if_pos opens]

theorem deeper_closer {kind : TokenKind} (closes : kind.isCloser = true) (depth : Nat) :
    Lookahead.deeper depth kind = depth - 1 := by
  have other : kind.isOpener = false := by
    cases kind <;> first | rfl | cases closes
  rw [Lookahead.deeper, other, if_neg Bool.false_ne_true, if_pos closes]

namespace Balanced

variable {ts us : List Token}

theorem nil : Balanced [] :=
  fun _ _ => rfl

theorem append (h : Balanced ts) (k : Balanced us) : Balanced (ts ++ us) := by
  intro depth rest
  rw [List.append_assoc, h, k]

theorem plain {t : Token} (noOpener : t.kind.isOpener = false) (noCloser : t.kind.isCloser = false) :
    Balanced [t] := by
  intro depth rest
  have same : Lookahead.deeper (depth + 1) t.kind = depth + 1 := by
    rw [Lookahead.deeper, noOpener, noCloser]
    rfl
  rw [List.singleton_append, afterGroup?_cons, same, if_neg (Nat.succ_ne_zero depth)]

theorem bracketed {opener closer : Token} (opens : opener.kind.isOpener = true)
    (closes : closer.kind.isCloser = true) (h : Balanced ts) : Balanced (opener :: (ts ++ [closer])) := by
  intro depth rest
  rw [List.cons_append, List.append_assoc, List.singleton_append, afterGroup?_cons, deeper_opener opens,
    if_neg (Nat.succ_ne_zero _), h, afterGroup?_cons, deeper_closer closes, Nat.add_sub_cancel,
    if_neg (Nat.succ_ne_zero _)]

/-- A whole bracket group is passed over. -/
theorem afterGroup?_bracketed {opener closer : Token} (opens : opener.kind.isOpener = true)
    (closes : closer.kind.isCloser = true) (h : Balanced ts) (rest : List Token) :
    Lookahead.afterGroup? 0 ((opener :: (ts ++ closer :: rest)).map bareLexeme) = some (rest.map bareLexeme) := by
  rw [afterGroup?_cons, deeper_opener opens, if_neg (Nat.succ_ne_zero _), h, afterGroup?_cons, deeper_closer closes,
    Nat.add_sub_cancel, if_pos rfl]

theorem trees {ts : List Tree} (h : ∀ t ∈ ts, Balanced t.tokens) : Balanced (tokensOfList ts) := by
  induction ts with
  | nil => exact .nil
  | cons t ts ih =>
    obtain ⟨first, others⟩ := List.forall_mem_cons.1 h
    exact first.append (ih others)

end Balanced

/-! ## The tokens of a type -/

theorem treesOfList_eq_map (ts : List TypeSyntax) : treesOfList ts = ts.map tree := by
  induction ts with
  | nil => rfl
  | cons t ts ih => rw [treesOfList, ih, List.map_cons]

theorem kind_wordToken (name : String) :
    (wordToken name).kind = .faultKw ∧ name = "fault" ∨ (wordToken name).kind = .ident ∧ name ≠ "fault" := by
  by_cases reserved : name = "fault"
  · exact .inl ⟨if_pos reserved, reserved⟩
  · exact .inr ⟨if_neg reserved, reserved⟩

/-- What stands behind the name of a type. -/
def treesBehindName (inBraces : Bool) (arguments : List TypeSyntax) (marks : List TypeMark) : List Tree :=
  argumentTrees inBraces (arguments.map tree) ++ marks.map TypeMark.tree

theorem tree_named (path : List String) (name : String) (inBraces : Bool) (arguments : List TypeSyntax)
    (marks : List TypeMark) : (named path name inBraces arguments marks).tree =
      .node .type (pathTrees path ++ .leaf (wordToken name) :: treesBehindName inBraces arguments marks) := by
  rw [tree, treesOfList_eq_map]
  rfl

theorem tokens_named (path : List String) (name : String) (inBraces : Bool) (arguments : List TypeSyntax)
    (marks : List TypeMark) (rest : List Token) : (named path name inBraces arguments marks).tokens ++ rest =
      tokensOfList (pathTrees path) ++
        wordToken name :: (tokensOfList (treesBehindName inBraces arguments marks) ++ rest) := by
  rw [tokens, tree_named, Tree.tokens, Tree.tokensOfList_append, List.append_assoc]
  rfl

/-- A type begins with a word. -/
theorem exists_tokens (t : TypeSyntax) : ∃ u us, t.tokens = u :: us ∧ (u.kind = .ident ∨ u.kind = .faultKw) := by
  obtain ⟨path, name, inBraces, arguments, marks⟩ := t
  have tokens := tokens_named path name inBraces arguments marks []
  rw [List.append_nil, List.append_nil] at tokens
  rw [tokens]
  cases path with
  | nil => exact ⟨_, _, rfl, (kind_wordToken name).symm.imp And.left And.left⟩
  | cons part path => exact ⟨_, _, rfl, .inl rfl⟩

theorem tokens_ne_nil (t : TypeSyntax) : t.tokens ≠ [] := by
  obtain ⟨u, us, tokens, -⟩ := t.exists_tokens
  rw [tokens]
  exact List.cons_ne_nil u us

theorem opener_closer (inBraces : Bool) :
    ((opener inBraces).kind.isOpener = true ∧ (opener inBraces).kind.isTrivia = false) ∧
      (closer inBraces).kind.isCloser = true ∧ (closer inBraces).kind.isTrivia = false := by
  cases inBraces <;> decide

theorem argumentTrees_cons (inBraces : Bool) (t : Tree) (ts : List Tree) : argumentTrees inBraces (t :: ts) =
    [.node .genericArgs (bracketed (opener inBraces) (closer inBraces) (List.intersperse Blueprint.comma (t :: ts)))] :=
  rfl

theorem tokens_bracketed (opener closer : Token) (ts : List Tree) :
    tokensOfList (bracketed opener closer ts) = opener :: (tokensOfList ts ++ [closer]) := by
  rw [bracketed, tokensOfList, Tree.tokensOfList_append]
  rfl

theorem tokens_argumentTrees_cons (inBraces : Bool) (t : Tree) (ts : List Tree) :
    tokensOfList (argumentTrees inBraces (t :: ts)) =
      opener inBraces :: (tokensOfList (List.intersperse Blueprint.comma (t :: ts)) ++ [closer inBraces]) := by
  rw [argumentTrees_cons, tokensOfList, Tree.tokens, tokens_bracketed, tokensOfList, List.append_nil]

theorem balanced_mark (mark : TypeMark) : Balanced mark.tree.tokens := by
  cases mark with
  | star => exact .plain rfl rfl
  | question => exact .plain rfl rfl
  | bang => exact .plain rfl rfl
  | array size? =>
    rw [TypeMark.tree, Tree.tokens, tokens_bracketed]
    refine .bracketed rfl rfl ?_
    cases size? with
    | none => exact .nil
    | some numeral => exact .plain rfl rfl

theorem balanced_arguments (inBraces : Bool) {ts : List Tree} (h : ∀ t ∈ ts, Balanced t.tokens) :
    Balanced (tokensOfList (List.intersperse Blueprint.comma ts)) ∧
      Balanced (tokensOfList (argumentTrees inBraces ts)) := by
  have comma : Balanced Blueprint.comma.tokens := .plain (t := ⟨.comma, ","⟩) rfl rfl
  have inside := Balanced.trees (Blueprint.forall_mem_intersperse (p := fun t => Balanced t.tokens) comma h)
  refine ⟨inside, ?_⟩
  cases ts with
  | nil => exact .nil
  | cons t ts =>
    obtain ⟨⟨opens, -⟩, closes, -⟩ := opener_closer inBraces
    rw [tokens_argumentTrees_cons]
    exact .bracketed opens closes inside

theorem balanced_tokens (t : TypeSyntax) (h : t.IsProper) : Balanced t.tokens := by
  induction h with
  | @named path name inBraces arguments marks _ _ _ _ _ ih =>
    have whole := tokens_named path name inBraces arguments marks []
    rw [List.append_nil, List.append_nil] at whole
    rw [whole, ← List.singleton_append]
    refine (Balanced.trees ?_).append (.append (.plain ?_ ?_) ?_)
    · refine List.forall_mem_flatMap.2 fun part _ => ?_
      exact List.forall_mem_cons.2 ⟨.plain rfl rfl, List.forall_mem_singleton.2 (.plain rfl rfl)⟩
    · rcases kind_wordToken name with ⟨kind, -⟩ | ⟨kind, -⟩ <;> rw [kind] <;> rfl
    · rcases kind_wordToken name with ⟨kind, -⟩ | ⟨kind, -⟩ <;> rw [kind] <;> rfl
    · rw [treesBehindName, Tree.tokensOfList_append]
      refine (balanced_arguments inBraces (List.forall_mem_map.2 ih)).2.append (.trees ?_)
      exact List.forall_mem_map.2 fun mark _ => balanced_mark mark

/-! ## Looking ahead -/

/-- The kinds of the tokens with which marks begin. -/
def markKinds : List TokenKind :=
  [.star, .question, .bang, .leftBracket]

/-- What stands behind marks can be told at the first of them, as far as it does not go on with one. -/
theorem avoids_marks {kinds : List TokenKind} (other : ∀ kind ∈ markKinds, kind ∉ kinds) (marks : List TypeMark)
    {rest : List Token} (h : Avoids kinds rest) : Avoids kinds (tokensOfList (marks.map TypeMark.tree) ++ rest) := by
  cases marks with
  | nil => exact h
  | cons mark marks =>
    cases mark with
    | star => exact avoids_cons (other .star (by decide)) _
    | question => exact avoids_cons (other .question (by decide)) _
    | bang => exact avoids_cons (other .bang (by decide)) _
    | array size? => exact avoids_cons (other .leftBracket (by decide)) _

theorem avoids_behindName (inBraces : Bool) (arguments : List TypeSyntax) (marks : List TypeMark)
    {rest : List Token} (h : Avoids [.colonColon] rest) :
    Avoids [.colonColon] (tokensOfList (treesBehindName inBraces arguments marks) ++ rest) := by
  rw [treesBehindName, Tree.tokensOfList_append, List.append_assoc]
  cases arguments with
  | nil => exact avoids_marks (by decide) marks h
  | cons a as =>
    rw [List.map_cons, tokens_argumentTrees_cons]
    exact avoids_cons (by cases inBraces <;> decide) _

theorem afterPath_path (path : List String) (name : String) {rest : List Token} (h : Avoids [.colonColon] rest) :
    Lookahead.afterPath ((tokensOfList (pathTrees path) ++ wordToken name :: rest).map bareLexeme) =
      (wordToken name :: rest).map bareLexeme := by
  induction path with
  | nil =>
    cases rest with
    | nil => rfl
    | cons u us => exact if_neg fun both => h.ne (List.mem_singleton_self _) (congrArg some both.2)
  | cons part path ih => exact ih

theorem isTypeHead_wordToken {name : String} (h : IsTypeWord name) :
    Lookahead.isTypeHead (bareLexeme (wordToken name)) = true := by
  have kind : (bareLexeme (wordToken name)).kind = (wordToken name).kind := rfl
  have text : (bareLexeme (wordToken name)).text = name := rfl
  rcases kind_wordToken name with ⟨reserved, -⟩ | ⟨ident, -⟩
  · rw [Lookahead.isTypeHead, kind, reserved]
  · rw [Lookahead.isTypeHead, kind, ident]
    dsimp only
    rw [text]
    exact Bool.or_eq_true_iff.2 (h.symm.imp And.right id)

theorem isUserType_wordToken (name : String) :
    Lookahead.isUserType (bareLexeme (wordToken name)) = isTypeName name := by
  have kind : (bareLexeme (wordToken name)).kind = (wordToken name).kind := rfl
  have text : (bareLexeme (wordToken name)).text = name := rfl
  rw [Lookahead.isUserType, kind, text]
  rcases kind_wordToken name with ⟨reserved, rfl⟩ | ⟨ident, -⟩
  · decide
  · rw [ident]
    rfl

theorem afterArguments?_arguments {name : String} {inBraces : Bool} (user : inBraces = true → isTypeName name = true)
    {ts : List Tree} (h : ∀ t ∈ ts, Balanced t.tokens) {rest : List Token}
    (behind : Avoids [.leftGeneric, .leftBrace] rest) : Lookahead.afterArguments? (bareLexeme (wordToken name))
      ((tokensOfList (argumentTrees inBraces ts) ++ rest).map bareLexeme) = some (rest.map bareLexeme) := by
  cases ts with
  | nil =>
    have none : argumentTrees inBraces [] = [] := rfl
    rw [none, tokensOfList, List.nil_append, Lookahead.afterArguments?]
    cases rest with
    | nil => rfl
    | cons u us =>
      have kind : (bareLexeme u).kind = u.kind := rfl
      rw [List.map_cons, List.head?_cons, Option.map_some, kind]
      split
      next generic => exact absurd generic (behind.ne (by decide))
      next brace => exact absurd brace (behind.ne (by decide))
      next => rfl
  | cons t ts =>
    obtain ⟨⟨opens, -⟩, closes, -⟩ := opener_closer inBraces
    have group := Balanced.afterGroup?_bracketed opens closes (balanced_arguments inBraces h).1 rest
    rw [tokens_argumentTrees_cons, List.cons_append, List.append_assoc, List.singleton_append]
    cases inBraces with
    | false => exact group
    | true =>
      refine Eq.trans (if_pos ?_) group
      rw [isUserType_wordToken, user rfl]

theorem afterSuffixes?_marks (marks : List TypeMark) {rest : List Token} (behind : Avoids markKinds rest) :
    Lookahead.afterSuffixes? 0 ((tokensOfList (marks.map TypeMark.tree) ++ rest).map bareLexeme) =
      some (rest.map bareLexeme) := by
  induction marks with
  | nil =>
    cases rest with
    | nil => rfl
    | cons u us =>
      have kind : (bareLexeme u).kind = u.kind := rfl
      have other {kind : TokenKind} (mem : kind ∈ markKinds) : u.kind ≠ kind :=
        fun same => behind.ne mem (congrArg some same)
      have here : tokensOfList (([] : List TypeMark).map TypeMark.tree) ++ u :: us = u :: us := rfl
      rw [here, List.map_cons, Lookahead.afterSuffixes?, if_pos rfl, kind]
      split
      · exact absurd ‹_› (other (by decide))
      · exact absurd ‹_› (other (by decide))
      · exact absurd ‹_› (other (by decide))
      · exact absurd ‹_› (other (by decide))
      · rfl
  | cons mark marks ih =>
    rcases mark with _ | _ | _ | _ | numeral <;> exact ih

/-- Looking ahead finds what stands behind the type. -/
theorem IsProper.afterType? {t : TypeSyntax} (h : t.IsProper) {rest : List Token}
    (behind : Avoids (continuing true) rest) :
    Lookahead.afterType? ((t.tokens ++ rest).map bareLexeme) = some (rest.map bareLexeme) := by
  obtain ⟨parts, word, user, inner, -⟩ := h
  next path name inBraces arguments marks =>
  have noColons : Avoids [.colonColon] rest := behind.fewer (by decide)
  have noArguments : Avoids [.leftGeneric, .leftBrace] rest := behind.fewer (by decide)
  have path := afterPath_path path name (avoids_behindName inBraces arguments marks noColons)
  have balanced : ∀ t ∈ arguments.map tree, Balanced t.tokens :=
    List.forall_mem_map.2 fun a mem => balanced_tokens a (inner a mem)
  have arguments := afterArguments?_arguments user balanced (avoids_marks (by decide) marks noArguments)
  rw [tokens_named, Lookahead.afterType?, path, List.map_cons]
  dsimp only
  rw [if_pos (isTypeHead_wordToken word), treesBehindName, Tree.tokensOfList_append, List.append_assoc, arguments,
    Option.bind_some]
  exact afterSuffixes?_marks marks (behind.fewer (by decide))

/-! ## Reading -/

/-- A path is read up to the name that no `::` stands behind. -/
theorem takes_path (path : List String) :
    Takes Grammar.qualifier () (pathTrees path) fun rest => Avoids [.colonColon] rest.tail := by
  rw [pathTrees, List.flatMap_def]
  refine .loop (P := fun _ => True) (List.forall_mem_map.2 fun part _ => ?_)
    (List.forall_mem_map.2 fun _ _ => List.cons_ne_nil _ _) (fun _ _ _ => trivial) ?_ fun _ _ => trivial
  · refine .present ?_ fun _ _ => rfl
    refine .look (a := true) (Grammar.sees_looksAtNth _ _) ?_ fun _ _ => rfl
    refine .cons (.bump rfl) ?_ fun _ _ => trivial
    exact .cons (.bump rfl) (.pure true) fun _ _ => trivial
  · refine .lookEach (Grammar.sees_looksAt _) fun rest _ => ?_
    refine .look (a := false) (Grammar.sees_looksAtNth .colonColon 1) ?_ fun rest h => ?_
    · rw [Bool.and_false]
      exact .pure false
    · have next := h .colonColon (List.mem_singleton_self _)
      rwa [List.head?_tail] at next

theorem takes_word (name : String) :
    Takes (Grammar.typeNameWith Grammar.type) () [.leaf (wordToken name)] fun _ => True := by
  have head (rest : List Token) :
      (tokensOfList [.leaf (wordToken name)] ++ rest).head?.map Token.kind = some (wordToken name).kind := rfl
  rcases kind_wordToken name with ⟨kind, -⟩ | ⟨kind, -⟩
  · refine .look (a := some TokenKind.faultKw) Grammar.sees_current (.bump (by rw [kind]; rfl)) fun rest _ => ?_
    rw [head, kind]
  · refine .look (a := some TokenKind.ident) Grammar.sees_current (.bump (by rw [kind]; rfl)) fun rest _ => ?_
    rw [head, kind]

theorem takes_suffixes (marks : List TypeMark) :
    Takes Grammar.suffixes () (marks.map TypeMark.tree) (Avoids markKinds) := by
  refine .loopEach (P := fun _ => True) (List.forall_mem_map.2 fun mark _ => ?_)
    (List.forall_mem_map.2 fun mark _ => by cases mark <;> nofun) (fun _ _ _ => trivial) ?_ fun _ _ => trivial
  · cases mark with
    | star =>
      exact .look (a := some .star) Grammar.sees_current (.cons (.bump rfl) (.pure true) fun _ _ => trivial)
        fun _ _ => rfl
    | question =>
      exact .look (a := some .question) Grammar.sees_current (.cons (.bump rfl) (.pure true) fun _ _ => trivial)
        fun _ _ => rfl
    | bang =>
      exact .look (a := some .bang) Grammar.sees_current (.cons (.bump rfl) (.pure true) fun _ _ => trivial)
        fun _ _ => rfl
    | array size? =>
      exact .look (a := some .leftBracket) Grammar.sees_current
        (.cons (Blueprint.takes_arraySuffix size?) (.pure true) fun _ _ => trivial) fun _ _ => rfl
  · refine .lookEach Grammar.sees_current fun rest h => ?_
    split
    · exact absurd ‹_› (h.ne (by decide))
    · exact absurd ‹_› (h.ne (by decide))
    · exact absurd ‹_› (h.ne (by decide))
    · exact absurd ‹_› (h.ne (by decide))
    · exact .pure false

/-! ### Arguments -/

section

variable {a : TypeSyntax} (inBraces : Bool)

/-- One step reads an argument, behind which stands a comma or the closing bracket. -/
theorem takes_argument (h : a.IsProper) (ih : Takes (Grammar.type true) () [a.tree] (Avoids (continuing true))) :
    Takes (Grammar.argumentStep Grammar.type (closer inBraces).kind) true [a.tree]
      (Begins [.comma, (closer inBraces).kind]) := by
  obtain ⟨u, us, tokens, word⟩ := a.exists_tokens
  have first (rest : List Token) : tokensOfList [a.tree] ++ rest = u :: (us ++ rest) := by
    rw [tokensOfList, tokensOfList, List.append_nil]
    exact congrArg (· ++ rest) tokens
  have other (kind : TokenKind) (notIdent : kind ≠ .ident) (notFault : kind ≠ .faultKw) (rest : List Token) :
      ((tokensOfList [a.tree] ++ rest).head?.map Token.kind == some kind) = false := by
    rw [first]
    rcases word with word | word <;> simpa [word] using Ne.symm ‹_›
  have ends {rest : List Token} (behind : Begins [.comma, (closer inBraces).kind] rest) :
      Avoids (continuing true) rest :=
    behind.avoids (by cases inBraces <;> decide)
  refine .look (a := false) Grammar.sees_atEnd (.absent ?_ fun rest _ => ?_) fun rest _ => by rw [first]; rfl
  · refine .moved (.absent (.lookAhead fun ls rest there behind => ?_) fun rest _ => ?_) ?_
    · have isType : ((Lookahead.afterType? ls).map (Lookahead.headIs fun kind =>
          kind == .comma || kind == (closer inBraces).kind)).getD false = true := by
        have same : tokensOfList [a.tree] ++ rest = a.tokens ++ rest := by
          rw [tokensOfList, tokensOfList, List.append_nil]
          rfl
        rw [same] at there
        rw [Lexeme.eq_of_tokens (g := fun ls => ((Lookahead.afterType? ls).map (Lookahead.headIs fun kind =>
          kind == .comma || kind == (closer inBraces).kind)).getD false)
          (fun ls => by rw [Lookahead.map_headIs_bare]) there, h.afterType? (ends behind)]
        obtain ⟨t, ts, rfl, mem⟩ := behind
        have kind : (bareLexeme t).kind = t.kind := rfl
        rw [Option.map_some, Option.getD_some, Lookahead.headIs, Lookahead.headKind?, List.map_cons, List.head?_cons,
          Option.map_some, Option.map_some, Option.getD_some, kind]
        simpa using mem
      dsimp only
      rw [if_pos isType]
      exact ih.weaken fun _ => ends
    · exact other .comma (by decide) (by decide) rest
    · rw [tokensOfList, tokensOfList, List.append_nil]
      exact a.tokens_ne_nil
  · exact other _ (by cases inBraces <;> decide) (by cases inBraces <;> decide) rest

theorem takes_comma : Takes (Grammar.argumentStep Grammar.type (closer inBraces).kind) true [Blueprint.comma]
    fun _ => True := by
  refine .look (a := false) Grammar.sees_atEnd (.absent ?_ fun rest _ => ?_) fun _ _ => rfl
  · exact .moved (.present (.bump rfl) fun _ _ => rfl) nofun
  · cases inBraces <;> rfl

theorem takes_noArgument : Takes (Grammar.argumentStep Grammar.type (closer inBraces).kind) false []
    (Begins [(closer inBraces).kind]) := by
  refine .lookEach Grammar.sees_atEnd fun rest _ => .present ?_ ?_
  · rw [Bool.or_true]
    exact .pure false
  · rintro _ ⟨t, ts, rfl, mem⟩
    simp [tokensOfList, List.mem_singleton.1 mem]

/-- Arguments with commas between them are read one after the other. -/
theorem takes_arguments {arguments : List TypeSyntax} (h : ∀ a ∈ arguments, a.IsProper)
    (ih : ∀ a ∈ arguments, Takes (Grammar.type true) () [a.tree] (Avoids (continuing true))) :
    Takes (Grammar.loop (Grammar.argumentStep Grammar.type (closer inBraces).kind)) ()
      (List.intersperse Blueprint.comma (arguments.map tree)) (Begins [(closer inBraces).kind]) := by
  induction arguments with
  | nil => exact .loop_none (takes_noArgument inBraces)
  | cons a as tail =>
    obtain ⟨proper, propers⟩ := List.forall_mem_cons.1 h
    obtain ⟨first, others⟩ := List.forall_mem_cons.1 ih
    have argument := takes_argument inBraces proper first
    cases as with
    | nil =>
      refine argument.loopNext (.loop_none (takes_noArgument inBraces)) ?_
      rintro _ ⟨t, ts, rfl, mem⟩
      exact begins_cons (List.mem_cons_of_mem _ mem) ts
    | cons b as =>
      have rest := (takes_comma inBraces).loopNext (tail propers others) fun _ _ => trivial
      rw [List.map_cons, List.map_cons, List.intersperse_cons_cons, ← List.map_cons]
      exact argument.loopNext rest fun _ _ => begins_cons List.mem_cons_self _

end

/-- The arguments of a type are read, in braces only behind the name of a user-defined type. -/
theorem takes_argumentTrees {arguments : List TypeSyntax} {inBraces allowed : Bool}
    (h : ∀ a ∈ arguments, a.IsProper)
    (ih : ∀ a ∈ arguments, Takes (Grammar.type true) () [a.tree] (Avoids (continuing true)))
    (braces : inBraces = true → arguments ≠ [] → allowed = true) :
    Takes (Grammar.typeArgumentsWith Grammar.type allowed) () (argumentTrees inBraces (arguments.map tree))
      fun rest => arguments = [] → Avoids [.leftGeneric] rest ∧ (allowed = true → Avoids [.leftBrace] rest) := by
  have list := takes_arguments inBraces h ih
  cases arguments with
  | nil =>
    refine .lookEach Grammar.sees_current fun rest behind => ?_
    obtain ⟨noGeneric, noBrace⟩ := behind rfl
    have here : tokensOfList (argumentTrees inBraces (([] : List TypeSyntax).map tree)) ++ rest = rest := rfl
    rw [here]
    split
    · next generic => exact absurd generic (noGeneric.ne (List.mem_singleton_self _))
    · next brace =>
      cases allowed with
      | false => exact .pure ()
      | true => exact absurd brace ((noBrace rfl).ne (List.mem_singleton_self _))
    · exact .pure ()
  | cons a as =>
    obtain ⟨⟨-, plain⟩, -, plain'⟩ := opener_closer inBraces
    have whole : Takes (Grammar.genericArgumentsWith Grammar.type (closer inBraces).kind) ()
        (argumentTrees inBraces ((a :: as).map tree)) fun _ => True :=
      .node .genericArgs (.cons (.bump plain) (list.bind (.expect plain' _)
        fun _ _ => begins_cons (List.mem_singleton_self _) _) fun _ _ => trivial)
    refine .weaken (P := fun _ => True) ?_ fun _ _ => trivial
    cases inBraces with
    | false => exact .look (a := some TokenKind.leftGeneric) Grammar.sees_current whole fun _ _ => rfl
    | true =>
      refine .look (a := some TokenKind.leftBrace) Grammar.sees_current ?_ fun _ _ => rfl
      dsimp only
      rw [if_pos (braces rfl (List.cons_ne_nil a as))]
      exact whole

/-! ### Types -/

theorem mem_continuing (braces : Bool) :
    ∀ kind ∈ markKinds ++ [.leftGeneric, .colonColon], kind ∈ continuing braces := by
  cases braces <;> decide

/-- In front of its tokens a proper type is read, up to where it does not go on. -/
theorem IsProper.takes {t : TypeSyntax} (h : t.IsProper) {braces : Bool} (uses : t.UsesBraces → braces = true) :
    Takes (Grammar.type braces) () [t.tree] (Avoids (continuing braces)) := by
  -- By induction on the nesting. In arguments braces are always allowed, whatever they are in the type itself.
  induction h generalizing braces with
  | @named path name inBraces arguments marks _ _ user inner _ ih =>
    have nested : ∀ a ∈ arguments, Takes (Grammar.type true) () [a.tree] (Avoids (continuing true)) :=
      fun a mem => ih a mem fun _ => rfl
    have marked {rest : List Token} (behind : Avoids (continuing braces) rest) : Avoids markKinds rest :=
      behind.fewer fun kind mem => mem_continuing braces kind (List.mem_append_left _ mem)
    have noColons {rest : List Token} (behind : Avoids (continuing braces) rest) : Avoids [.colonColon] rest :=
      behind.fewer fun kind mem => mem_continuing braces kind (by rw [List.mem_singleton.1 mem]; decide)
    rw [tree_named, Grammar.type_eq]
    refine .node .type ?_
    refine (takes_path path).bind (.lookAhead fun ls rest tokens _ => ?_) fun rest behind => ?_
    · have isUserType : (ls.head?.map Lookahead.isUserType).getD false = isTypeName name := by
        obtain ⟨l, ls, rfl, token, -⟩ := List.map_eq_cons_iff.1 tokens
        rw [List.head?_cons, Option.map_some, Option.getD_some, ← isUserType_wordToken, ← token]
        rfl
      dsimp only
      rw [isUserType]
      refine (takes_word name).cons ?_ fun _ _ => trivial
      refine (takes_argumentTrees inner nested fun inBraces some => ?_).bind
        ((takes_suffixes marks).weaken fun _ => marked) fun rest behind _ => ⟨?_, fun allowed => ?_⟩
      · rw [uses ⟨inBraces, some⟩, user inBraces]
        rfl
      · exact avoids_marks (by decide) marks (behind.fewer fun kind mem =>
          mem_continuing braces kind (by rw [List.mem_singleton.1 mem]; decide))
      · refine avoids_marks (by decide) marks (behind.fewer fun kind mem => ?_)
        rw [List.mem_singleton.1 mem, (Bool.and_eq_true_iff.1 allowed).1]
        decide
    · exact avoids_behindName inBraces arguments marks (noColons behind)

end TypeSyntax

end C3Lens
