import C3Lens.Proofs.Syntax.Recovery

/-!
# The tree behind a half-typed line

Where loose tokens come before a declaration and all ends among them that begins there, the items read
from them declare no module, and behind them the text is read as it is read alone: the tree of the whole is
that of the text alone, up to blanks and comments, behind other nodes (`Parse.tree_resumed`). Modifiers at
the end of the tokens go into the first declaration.
-/

-- An instance spells out the action that it is about.
set_option synthInstance.maxSize 16384

namespace C3Lens

namespace Grammar

/-! ## The items in front -/

section

variable {next : TokenKind} {coming : List Lexeme} [Resumes coming]

theorem after_items {r : Reader} (more : r.ahead ≠ []) :
    (loop itemStep).after r = (loop itemStep).after (item.after r) := by
  have productive : Productive (plain itemStep) := Steps.productive inferInstance
  have step : (plain itemStep ()).run r = (some (), item.after r) := by
    have run : (plain itemStep ()).run r =
        (if (itemStep.run r).1 then some () else none, (itemStep.run r).2) := rfl
    have once : itemStep.run r = (if r.ahead.isEmpty = true then pure false else do
        item
        return true : Grammar Bool).run r := rfl
    have some : ¬ r.ahead.isEmpty = true := by rwa [List.isEmpty_iff]
    rw [if_neg some] at once
    rw [run, once]
    rfl
  have whole := productive.run_loopFrom () r
  rw [answer, after, step] at whole
  exact congrArg Prod.snd whole

/-- The items read from loose tokens declare no modules, and leave only modifiers. -/
theorem items_front {r : Reader} {front : List Lexeme} (ahead : r.ahead = front ++ coming)
    (ended : Ended next front) (head : Lookahead.headKind? coming = some next) :
    ∃ (s : Reader) (ts : List Tree) (words : List Lexeme), r.Run s ∧ r.Adds s ts ∧ NoModules ts ∧
      (loop itemStep).after r = (loop itemStep).after s ∧ s.ahead = words ++ coming ∧
      ∀ l ∈ words, isModifier l.kind = true := by
  obtain words | ⟨ts, added, plain, left, rest, ended'⟩ := item_front ahead ended head
  · exact ⟨r, [], front, .refl r, .refl r, fun t ht => absurd ht List.not_mem_nil, rfl, ahead, words⟩
  · have more : r.ahead ≠ [] := by
      obtain ⟨d, ds, starting, -⟩ := (inferInstance : Resumes coming).head
      rw [ahead, starting]
      simp
    have fewer := ((inferInstance : Gains item).moves r more).fewer
    have shorter : left.length < front.length := by
      rw [rest, ahead, List.length_append, List.length_append] at fewer
      omega
    obtain ⟨s, us, words, run, added', plain', same, there, modifiers⟩ := items_front rest ended' head
    exact ⟨s, ts ++ us, words, .trans ((inferInstance : Reads item).run r) run, added.trans added',
      plain.append plain', (after_items more).trans same, there, modifiers⟩
termination_by front.length

end

/-! ## The first declaration -/

theorem after_look {α β : Type} {m : Grammar α} (hm : Looks m) (f : α → Grammar β) (r : Reader) :
    (m >>= f).after r = (f (m.answer r)).after r :=
  congrArg Prod.snd (hm.run_bind f r)

/-- What begins with a reserved word of a declaration is a node, whatever the rest is. -/
theorem unmodified_starts {d : TokenKind} (starts : d.startsDeclaration = true) :
    ∃ kind body, kind.isFree = true ∧ Reads body ∧ Blind body ∧
      ∀ (c : Checkpoint) (r : Reader), current.answer r = some d →
        (unmodified c).after r = (nodeFrom c kind body).after r := by
  cases d
  case' moduleKw => refine ⟨.moduleDecl, moduleDeclaration, rfl, inferInstance, inferInstance, ?_⟩
  case' importKw => refine ⟨.importDecl, importDeclaration, rfl, inferInstance, inferInstance, ?_⟩
  case' fnKw => refine ⟨.fnDef, functionDefinition false, rfl, inferInstance, inferInstance, ?_⟩
  case' macroKw => refine ⟨.macroDef, functionDefinition true, rfl, inferInstance, inferInstance, ?_⟩
  case' structKw => refine ⟨.structDef, structDefinition, rfl, inferInstance, inferInstance, ?_⟩
  case' unionKw => refine ⟨.structDef, structDefinition, rfl, inferInstance, inferInstance, ?_⟩
  case' bitstructKw => refine ⟨.bitstructDef, bitstructDefinition, rfl, inferInstance, inferInstance, ?_⟩
  case' enumKw => refine ⟨.enumDef, enumDefinition, rfl, inferInstance, inferInstance, ?_⟩
  case' faultdefKw => refine ⟨.faultdefDecl, faultConstants, rfl, inferInstance, inferInstance, ?_⟩
  case' defKw => refine ⟨.defDecl, aliasDeclaration, rfl, inferInstance, inferInstance, ?_⟩
  case' aliasKw => refine ⟨.defDecl, aliasDeclaration, rfl, inferInstance, inferInstance, ?_⟩
  case' distinctKw => refine ⟨.distinctDecl, distinctDeclaration, rfl, inferInstance, inferInstance, ?_⟩
  case' typedefKw => refine ⟨.distinctDecl, distinctDeclaration, rfl, inferInstance, inferInstance, ?_⟩
  case' interfaceKw => refine ⟨.interfaceDef, interfaceDefinition, rfl, inferInstance, inferInstance, ?_⟩
  all_goals first
    | intro c r is
      unfold unmodified
      rw [after_look inferInstance, after_look inferInstance, is]
    | cases starts

/-- The tokens are modifiers, blanks and comments. -/
def ModifierTokens (ts : List Token) : Prop :=
  ∀ t ∈ ts, t.kind.isTrivia = true ∨ isModifier t.kind = true

/-- What modifiers in front of a declaration add to the tree. -/
theorem modifiers_front {r : Reader} {words coming : List Lexeme} [hc : Resumes coming] (orderly : r.Orderly)
    (ahead : r.ahead = words ++ coming) (modify : ∀ l ∈ words, isModifier l.kind = true) :
    (modifiers.after r).ahead = coming ∧ (modifiers.after r).Orderly ∧
      ∃ ms, r.Adds (modifiers.after r) (ms.map .leaf) ∧ ModifierTokens ms := by
  obtain ⟨d, rest, rfl, starts⟩ := hc.head
  have noWord : isModifier d.kind = false := by
    revert starts
    cases d.kind <;> first | exact fun _ => rfl | exact fun no => absurd no Bool.false_ne_true
  have there : (modifiers.after r).ahead = d :: rest := by
    rw [ahead_modifiers, ahead, List.dropWhile_append_of_pos modify, List.dropWhile_cons, noWord]
    rfl
  obtain ⟨_, built⟩ := ((inferInstance : Reads modifiers).run r).built
  have orderly' := (built.formed orderly).1
  obtain ⟨ms, added⟩ := (inferInstance : Leafy modifiers).leaves r
  refine ⟨there, orderly', ms, added, fun t ht => ?_⟩
  have significant : Token.significant (Tree.tokensOfList (ms.map .leaf)) = words.map Lexeme.token := by
    refine added.significant orderly orderly' (by rw [there]; exact ahead) fun l hl => ?_
    have word := modify l hl
    revert word
    cases l.kind <;> first | exact fun _ => rfl | exact fun no => absurd no Bool.false_ne_true
  rw [Tree.tokensOfList_leaves] at significant
  by_cases trivia : t.kind.isTrivia = true
  · exact .inl trivia
  · have mem : t ∈ Token.significant ms := List.mem_filter.2 ⟨ht, by simp [trivia]⟩
    rw [significant] at mem
    obtain ⟨l, hl, rfl⟩ := List.mem_map.1 mem
    exact .inr (modify l hl)

/-- The first declaration behind modifiers is read the same whatever the modifiers are, and these go into
its node. -/
theorem item_modified {r s : Reader} {words words' coming coming' : List Lexeme} [Resumes coming]
    [Resumes coming'] (left : r.Orderly) (right : s.Orderly) (ahead : r.ahead = words ++ coming)
    (ahead' : s.ahead = words' ++ coming') (same : coming.map Lexeme.bare = coming'.map Lexeme.bare)
    (modify : ∀ l ∈ words, isModifier l.kind = true) (modify' : ∀ l ∈ words', isModifier l.kind = true) :
    ∃ (blanks blanks' ms ms' : List Token) (kind : NodeKind) (cs ds : List Tree),
      r.Adds (item.after r) (blanks.map .leaf ++ [.node kind (ms.map .leaf ++ cs)]) ∧
        s.Adds (item.after s) (blanks'.map .leaf ++ [.node kind (ms'.map .leaf ++ ds)]) ∧
        ModifierTokens ms ∧ ModifierTokens ms' ∧ Tree.Similar [.node kind cs] [.node kind ds] ∧
        (item.after r).Level (item.after s) := by
  have flushed (r : Reader) (orderly : r.Orderly) : r.flush.Orderly :=
    ((Reader.Builds.flush r).formed orderly).1
  obtain ⟨there, orderly, ms, added, words⟩ := modifiers_front (flushed r left) (r.flush_ahead.trans ahead) modify
  obtain ⟨there', orderly', ms', added', words'⟩ :=
    modifiers_front (flushed s right) (s.flush_ahead.trans ahead') modify'
  obtain ⟨d, rest, starting, starts⟩ := (inferInstance : Resumes coming).head
  have level : (modifiers.after r.flush).Level (modifiers.after s.flush) :=
    ⟨orderly, orderly', by rw [Reader.coming, Reader.coming, there, there', same]⟩
  obtain ⟨kind, body, free, _, blind, reading⟩ := unmodified_starts starts
  have current : current.answer (modifiers.after r.flush) = some d.kind := answer_current (there.trans starting)
  have current' : Grammar.current.answer (modifiers.after s.flush) = some d.kind :=
    ((inferInstance : Blind Grammar.current).run _ _ level).1.symm.trans current
  have run : item.after r = (nodeFrom r.flush.checkpoint kind body).after (modifiers.after r.flush) :=
    reading r.flush.checkpoint _ current
  have run' : item.after s = (nodeFrom s.flush.checkpoint kind body).after (modifiers.after s.flush) :=
    reading s.flush.checkpoint _ current'
  have together := (blind.run _ _ (level.startAt r.flush.checkpoint s.flush.checkpoint kind)).2
  obtain ⟨cs, ds, inside, inside', similar⟩ := together.trees
  refine ⟨r.blanks, s.blanks, ms, ms', kind, cs, ds, ?_, ?_, words, words',
    similar.node (kind.tidy_of_isFree free _) (kind.tidy_of_isFree free _), ?_⟩
  · rw [run]
    exact (Reader.Builds.flush r).adds.trans (added.startAt kind inside).finish
  · rw [run']
    exact (Reader.Builds.flush s).adds.trans (added'.startAt kind inside').finish
  · rw [run, run']
    exact together.level.finish

end Grammar

/-! ## Whole texts -/

namespace Parse

open Grammar

/-- What the items of a text add to the tree stands at its top, and behind it only blanks and comments. -/
theorem children_of_adds {ts : List Token} {trees : List Tree}
    (added : ((Reader.ofTokens ts).start .sourceFile).Adds (lastOf ts) trees) :
    ∃ blanks : List Token, (∀ t ∈ blanks, t.kind.isTrivia = true) ∧
      (ofTokens ts).tree = .node .sourceFile (trees ++ blanks.map .leaf) := by
  obtain ⟨_, built⟩ := ((inferInstance : Reads (loop itemStep)).run ((Reader.ofTokens ts).start .sourceFile)).built
  have orderly := (built.formed ⟨(Reader.orderly_ofTokens ts).blanks, (Reader.orderly_ofTokens ts).ahead⟩).1
  have whole := (added.trans (Reader.Builds.flush (lastOf ts)).adds).finish
  exact ⟨(lastOf ts).blanks, orderly.blanks, tree_of_builder (whole.builder _ rfl)⟩

end Parse

namespace Grammar

theorem hasOpenValue_bare (ls : List Lexeme) : hasOpenValue (ls.map Lexeme.bare) = hasOpenValue ls := by
  induction ls with
  | nil => rfl
  | cons l ls ih =>
    rw [List.map_cons, hasOpenValue, hasOpenValue, ih, List.all_map]
    rfl

theorem hasOpenEnd_bare (next : TokenKind) (ls : List Lexeme) :
    hasOpenEnd next (ls.map Lexeme.bare) = hasOpenEnd next ls := by
  induction ls with
  | nil => rfl
  | cons l ls ih =>
    have typed := Lookahead.atTypedName_bare (l :: ls)
    rw [List.map_cons] at typed
    rw [List.map_cons, hasOpenEnd, hasOpenEnd, ih, hasOpenValue_bare, Lookahead.afterPath_bare, List.isEmpty_map,
      typed]
    simp only [Lexeme.kind_bare, Lexeme.text_bare, List.all_map]
    rfl

theorem ended_bare {next : TokenKind} {ls : List Lexeme} (h : Ended next (ls.map Lexeme.bare)) : Ended next ls where
  loose l hl := h.loose l.bare (List.mem_map_of_mem hl)
  ends := by rw [← hasOpenEnd_bare, h.ends]

end Grammar

namespace Parse

open Grammar

/-- Behind loose tokens among which all ends that begins there, a text that begins with a declaration is
read as it is read alone, up to blanks and comments; the items in front of it declare no modules. -/
theorem tree_resumed {s s' : String} {g : List Token} {d : Token}
    (tokens : Token.significant (Token.ofString s) = g ++ Token.significant (Token.ofString s'))
    (first : (Token.significant (Token.ofString s')).head? = some d)
    (starts : d.kind.startsDeclaration = true) (ended : Ended d.kind (g.map fun t => ⟨t, []⟩)) :
    ∃ (front : List Tree) (blanks ms ms' : List Token) (kind : NodeKind) (cs ds us us' : List Tree),
      (ofString s).tree = .node .sourceFile (front ++ .node kind (ms.map .leaf ++ cs) :: us) ∧
        (ofString s').tree = .node .sourceFile (blanks.map .leaf ++ .node kind (ms'.map .leaf ++ ds) :: us') ∧
        NoModules front ∧ ModifierTokens ms ∧ ModifierTokens ms' ∧
        Tree.Similar (.node kind cs :: us) (.node kind ds :: us') := by
  let r := (Reader.ofTokens (Token.ofString s)).start .sourceFile
  let r' := (Reader.ofTokens (Token.ofString s')).start .sourceFile
  have orderly (ts : List Token) : ((Reader.ofTokens ts).start .sourceFile).Orderly :=
    ⟨(Reader.orderly_ofTokens ts).blanks, (Reader.orderly_ofTokens ts).ahead⟩
  have alone : r'.ahead.map Lexeme.bare = (Token.significant (Token.ofString s')).map fun t => ⟨t, []⟩ :=
    Lexeme.bare_arrange _
  have both : r.ahead.map Lexeme.bare = (Token.significant (Token.ofString s)).map fun t => ⟨t, []⟩ :=
    Lexeme.bare_arrange _
  rw [tokens, List.map_append, ← alone, List.map_eq_append_iff] at both
  obtain ⟨front, coming, ahead, before, same⟩ := both
  have head {ls : List Lexeme} (is : ls.map Lexeme.bare = r'.ahead.map Lexeme.bare) :
      Lookahead.headKind? ls = some d.kind := by
    rw [← Lookahead.headKind?_bare, is, alone, Lookahead.headKind?, List.head?_map, first]
    rfl
  have resumes {ls : List Lexeme} (is : Lookahead.headKind? ls = some d.kind) : Resumes ls := by
    cases ls with
    | nil => cases is
    | cons l ls => exact ⟨l, ls, rfl, by rw [Option.some.inj is, starts]⟩
  have _ := resumes (head same)
  have _ := resumes (head rfl)
  obtain ⟨r₁, ts, words, run, added, plain, loops, there, modify⟩ :=
    items_front ahead (ended_bare (before.symm ▸ ended)) (head same)
  have orderly₁ : r₁.Orderly := by
    obtain ⟨_, built⟩ := run.built
    exact (built.formed (orderly _)).1
  obtain ⟨blanks, blanks', ms, ms', kind, cs, ds, item₁, item₂, words₁, words₂, similar, level⟩ :=
    item_modified orderly₁ (orderly _) there (List.nil_append r'.ahead).symm same modify
      fun l hl => absurd hl List.not_mem_nil
  have more {u : Reader} {ls ks : List Lexeme} (is : u.ahead = ls ++ ks) [hk : Resumes ks] : u.ahead ≠ [] := by
    obtain ⟨d, ds, starting, -⟩ := hk.head
    rw [is, starting]
    exact fun none => by cases List.append_eq_nil_iff.1 none |>.2
  obtain ⟨us, us', rest, rest', similar'⟩ :=
    ((inferInstance : Blind (loop itemStep)).run _ _ level).2.trees
  rw [← after_items (more there)] at rest
  rw [← after_items (more (List.nil_append r'.ahead).symm)] at rest'
  have whole := added.trans (item₁.trans rest)
  rw [← loops] at whole
  obtain ⟨last, trivia, tree⟩ := children_of_adds whole
  obtain ⟨last', trivia', tree'⟩ := children_of_adds (item₂.trans rest')
  refine ⟨ts ++ blanks.map .leaf, blanks', ms, ms', kind, cs, ds, us ++ last.map .leaf, us' ++ last'.map .leaf,
    tree.trans ?_, tree'.trans ?_, plain.append (noModules_leaves _), words₁, words₂,
    similar.append (similar'.append (.blanks trivia trivia'))⟩
  · simp
  · simp

end Parse

end C3Lens
