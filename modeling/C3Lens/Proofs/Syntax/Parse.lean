import C3Lens.Proofs.Syntax.Loops

/-!
# Parsing takes in everything

The loop over the items of a text ends only where no significant token is left, so a whole reading
takes in all tokens, and what it builds is one tree of them.

Results:
* `Grammar.rounds_progress`: every round of every loop ends the loop or places a significant token, every
  nested reading has fewer tokens before it, and all tokens are placed in the end.
* `Parse.lossless`: the tree of a text is one source file, built without a mistake, and its leaves are
  the tokens of the text, which spell the text.
-/

namespace C3Lens

/-! ## Looking ahead -/

namespace Lookahead

theorem afterGroup?_round (depth : Nat) (l : Lexeme) (ls : List Lexeme) :
    afterGroup? depth (l :: ls) = some ls ∨
      ∃ inner, afterGroup? depth (l :: ls) = afterGroup? inner ls := by
  rw [afterGroup?]
  split
  · exact .inl rfl
  · exact .inr ⟨_, rfl⟩

theorem afterSuffixes?_round (depth : Nat) (l : Lexeme) (ls : List Lexeme) :
    afterSuffixes? depth (l :: ls) = some (l :: ls) ∨
      ∃ inner, afterSuffixes? depth (l :: ls) = afterSuffixes? inner ls := by
  rw [afterSuffixes?]
  split
  · split
    · exact .inr ⟨0, rfl⟩
    · exact .inr ⟨0, rfl⟩
    · exact .inr ⟨0, rfl⟩
    · exact .inr ⟨1, rfl⟩
    · exact .inl rfl
  · exact .inr ⟨_, rfl⟩

theorem afterPath_round (l : Lexeme) (ls : List Lexeme) :
    afterPath (l :: ls) = l :: ls ∨ afterPath (l :: ls) = afterPath ls.tail := by
  cases ls with
  | nil => exact .inl rfl
  | cons b ls =>
    rw [afterPath]
    split
    · exact .inr rfl
    · exact .inl rfl

end Lookahead

/-! ## A whole text -/

namespace Grammar

/-- The reader behind all items of a text. -/
def lastOf (ts : List Token) : Reader :=
  (loop itemStep).after ((Reader.ofTokens ts).start .sourceFile)

theorem run_lastOf (ts : List Token) : ((Reader.ofTokens ts).start .sourceFile).Run (lastOf ts).flush :=
  .trans ((inferInstance : Reads (loop itemStep)).run _) (.flush _)

/-- The loop over the items ends where no significant token is left. -/
theorem ahead_lastOf (ts : List Token) : (lastOf ts).ahead = [] := by
  have productive : Productive (plain itemStep) := Steps.productive inferInstance
  obtain ⟨u, s, ends, last⟩ := productive.loopFrom_ends () ((Reader.ofTokens ts).start .sourceFile)
  have answer : (plain itemStep u).answer s = if itemStep.answer s then some () else none := rfl
  have stops : itemStep.answer s = false := by
    cases goes : itemStep.answer s with
    | false => rfl
    | true =>
      rw [answer, goes] at ends
      cases ends
  have nothing : s.ahead = [] := ahead_of_itemStep stops
  have fewer := ((inferInstance : Reads (plain itemStep u)).run s).ahead_suffix
  rw [nothing, List.suffix_nil] at fewer
  calc (lastOf ts).ahead
    _ = ((plain itemStep u).after s).ahead := congrArg Reader.ahead last
    _ = [] := fewer

theorem rest_lastOf (ts : List Token) : (lastOf ts).flush.rest = [] := by
  rw [Reader.rest, Reader.flush_ahead, ahead_lastOf, Reader.flush_eq]
  rfl

theorem cursor_lastOf (ts : List Token) :
    (lastOf ts).flush.cursor = (ts.filter (!·.kind.isTrivia)).length := by
  have sum := (run_lastOf ts).cursor_add_length
  rw [Reader.flush_ahead, ahead_lastOf] at sum
  calc (lastOf ts).flush.cursor
    _ = 0 + (Lexeme.arrange ts).2.length := sum
    _ = (ts.filter (!·.kind.isTrivia)).length := by rw [Nat.zero_add, Lexeme.length_arrange]

/-- Reading goes on by placing tokens: a round of a loop that does not end the loop places a
significant token, and so no loop is cut off by its bound; types, bodies and blocks read what nests in
them only where fewer tokens are to come; a round of looking ahead that does not end the search goes on
behind a token; and in the end all tokens are placed. -/
theorem rounds_progress :
    (∀ {α : Type} (step : α → Grammar (Option α)), Repeated step →
      (∀ a next r, (step a).answer r = some next → r.cursor < ((step a).after r).cursor) ∧
      ∀ a r, (loopFrom step a).run r =
        match (step a).answer r with
        | some next => (loopFrom step next).run ((step a).after r)
        | none => ((), (step a).after r)) ∧
    (∀ other braces r,
      (type braces).run r = (typeWith (shorterThan r.ahead.length type other) braces).run r) ∧
    (∀ other r, structBody.run r =
      (structBodyWith (shorterThan r.ahead.length (fun _ => structBody) other ())).run r) ∧
    (∀ other r,
      block.run r = (blockWith (shorterThan r.ahead.length (fun _ => block) other ())).run r) ∧
    (∀ l ls, (∀ depth, Lookahead.afterGroup? depth (l :: ls) = some ls ∨
        ∃ inner, Lookahead.afterGroup? depth (l :: ls) = Lookahead.afterGroup? inner ls) ∧
      (∀ depth, Lookahead.afterSuffixes? depth (l :: ls) = some (l :: ls) ∨
        ∃ inner, Lookahead.afterSuffixes? depth (l :: ls) = Lookahead.afterSuffixes? inner ls) ∧
      (Lookahead.afterPath (l :: ls) = l :: ls ∨
        Lookahead.afterPath (l :: ls) = Lookahead.afterPath ls.tail)) ∧
    ∀ ts, (sourceFile.after (.ofTokens ts)).rest = [] ∧
      (sourceFile.after (.ofTokens ts)).cursor = (ts.filter (!·.kind.isTrivia)).length := by
  refine ⟨fun step repeated => ?_, run_type, run_structBody, run_block, fun l ls => ?_, fun ts => ?_⟩
  · have ⟨reads, productive⟩ := repeated.productive
    exact ⟨productive, productive.run_loopFrom⟩
  · exact ⟨fun depth => Lookahead.afterGroup?_round depth l ls,
      fun depth => Lookahead.afterSuffixes?_round depth l ls, Lookahead.afterPath_round l ls⟩
  · exact ⟨rest_lastOf ts, cursor_lastOf ts⟩

end Grammar

/-! ## The tree of a text -/

theorem Token.flatMap_ofChars (cs : List Char) : (ofChars cs).flatMap (·.text.toList) = cs := by
  match cs with
  | [] => rw [ofChars, List.flatMap_nil]
  | c :: s =>
    rw [ofChars, List.flatMap_cons, flatMap_ofChars, String.toList_ofList, List.take_append_drop]
termination_by cs.length
decreasing_by
  simp only [List.length_drop, List.length_cons]
  omega

/-- The tokens of a text spell it. -/
theorem Tree.spell_ofString (s : String) : spell (Token.ofString s) = s := by
  rw [← String.toList_inj, spell, String.toList_join, List.flatMap_map]
  exact Token.flatMap_ofChars s.toList

namespace Parse

/-- What reading tokens builds: one source file, all nodes finished, without a mistake on the way. -/
theorem builder_ofTokens (ts : List Token) :
    ∃ children, Tree.tokensOfList children = ts ∧ Tree.WellFormed (.node .sourceFile children) ∧
      (Grammar.sourceFile.after (.ofTokens ts)).builder? = some ⟨[.node .sourceFile children], []⟩ := by
  obtain ⟨children, inside⟩ := (Grammar.run_lastOf ts).built
  have whole := inside.finish fun _ => NodeKind.fits_of_isGroup rfl children
  refine ⟨children, ?_, (whole.formed (Reader.orderly_ofTokens ts)).2.1, whole.builder _ rfl⟩
  calc Tree.tokensOfList children
    _ = Tree.tokensOfList children ++ (Grammar.lastOf ts).flush.rest := by
      rw [Grammar.rest_lastOf, List.append_nil]
    _ = ((Reader.ofTokens ts).start .sourceFile).rest := inside.rest.symm
    _ = ts := Reader.rest_ofTokens ts

theorem tree_of_builder {ts : List Token} {children : List Tree}
    (built : (Grammar.sourceFile.after (.ofTokens ts)).builder? =
      some ⟨[.node .sourceFile children], []⟩) : (ofTokens ts).tree = .node .sourceFile children := by
  calc (ofTokens ts).tree
    _ = (Grammar.sourceFile.after (.ofTokens ts)).tree?.getD (.node .sourceFile []) := rfl
    _ = .node .sourceFile children := by rw [Reader.tree?, built]; rfl

/-- The leaves of the tree of a text spell the text, and below its nodes stands what fits their kinds. -/
theorem tree_ofString (s : String) :
    (ofString s).tree.tokens = Token.ofString s ∧ (ofString s).tree.WellFormed := by
  obtain ⟨children, tokens, formed, built⟩ := builder_ofTokens (Token.ofString s)
  have tree : (ofString s).tree = .node .sourceFile children := tree_of_builder built
  rw [tree]
  exact ⟨tokens, formed⟩

/-- The tree of a text is one source file, built without a mistake and with all nodes finished. Its
leaves are the tokens of the text, and its text is the text. -/
theorem lossless (s : String) :
    ∃ children,
      (Grammar.sourceFile.after (.ofTokens (Token.ofString s))).builder? =
        some ⟨[.node .sourceFile children], []⟩ ∧
      (ofString s).tree = .node .sourceFile children ∧
      (ofString s).tree.tokens = Token.ofString s ∧
      (ofString s).tree.text = s := by
  obtain ⟨children, -, -, built⟩ := builder_ofTokens (Token.ofString s)
  obtain ⟨leaves, -⟩ := tree_ofString s
  refine ⟨children, built, tree_of_builder built, leaves, ?_⟩
  rw [Tree.text, leaves, Tree.spell_ofString]

end Parse

end C3Lens
