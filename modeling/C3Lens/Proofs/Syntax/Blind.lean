import C3Lens.Proofs.Syntax.Blanks
import C3Lens.Proofs.Syntax.Parse

/-!
# The grammar does not look at blanks

Every action of the grammar is `Blind`: before the same significant tokens it answers the same and adds
the same trees, up to blanks and comments. For a whole text this says that the tree of a text is
determined by its significant tokens, up to blanks and comments (`Parse.similar_of_significant`).
-/

-- An instance spells out the action that it is about.
set_option synthInstance.maxSize 16384

namespace C3Lens.Grammar

/-! ## Tokens -/

instance (kind : TokenKind) : Blind (eat kind) := by
  unfold eat
  infer_instance

instance (kind : TokenKind) : Blind (skip kind) := by
  unfold skip
  infer_instance

instance (kind : TokenKind) (cause : SyntaxError.Cause) : Blind (expect kind cause) := by
  unfold expect
  infer_instance

instance (p : TokenKind → Bool) : Blind (wordStep p) := by
  unfold wordStep
  infer_instance

instance (cause : SyntaxError.Cause) : Blind (stray cause) := by
  unfold stray
  infer_instance

/-! ## Types and parameters -/

instance (depth : Nat) : Blind (groupStep depth) := by
  unfold groupStep
  refine .bind fun kind? => ?_
  split <;> infer_instance

instance : Blind bumpGroup := by
  unfold bumpGroup
  infer_instance

instance (kind : TokenKind) : Blind (bumpWhole kind) := by
  unfold bumpWhole
  infer_instance

instance (stops : List TokenKind) : Blind (untilStep stops) := by
  unfold untilStep
  refine .bind fun kind? => ?_
  split <;> infer_instance

instance (stops : List TokenKind) : Blind (bumpUntil stops) := by
  unfold bumpUntil
  infer_instance

instance : Blind attributeStep := by
  unfold attributeStep
  infer_instance

instance : Blind attributes := by
  unfold attributes
  infer_instance

instance : Blind name := by
  unfold name
  infer_instance

instance : Blind qualifierStep := by
  unfold qualifierStep
  infer_instance

instance : Blind qualifier := by
  unfold qualifier
  infer_instance

instance : Blind atUntypedParameter := by
  unfold atUntypedParameter
  refine .bind fun kind? => ?_
  split <;> infer_instance

section

variable (type : Bool → Grammar Unit) [∀ b, Reads (type b)] [∀ b, Blind (type b)]

instance : Blind (parameterWith type) := by
  unfold parameterWith
  infer_instance

instance : Blind (parameterStep type) := by
  unfold parameterStep
  refine .bind fun kind? => ?_
  split
  · infer_instance
  · infer_instance
  · infer_instance
  · infer_instance
  · exact Blind.moved (f := fun still => if still then do
        if ← looksAtAny TokenKind.isCloser then return false
        stray .strayInParameterList
        return true
      else return true) inferInstance

instance : Blind (parameterListWith type) := by
  unfold parameterListWith
  infer_instance

instance : Blind (functionTypeWith type) := by
  unfold functionTypeWith
  infer_instance

instance (close : TokenKind) : Blind (argumentWith type close) := by
  unfold argumentWith
  refine .bind fun comma => ?_
  split
  · infer_instance
  · refine .ahead (fun ls => ?_) fun ls => inferInstance
    dsimp only
    rw [Lookahead.map_headIs_bare]

instance (close : TokenKind) : Blind (argumentStep type close) := by
  have moved : Blind (do
      let before ← cursor
      argumentWith type close
      return (← cursor) != before) :=
    .moved (f := fun still => pure !still) inferInstance
  unfold argumentStep
  infer_instance

instance (close : TokenKind) : Blind (genericArgumentsWith type close) := by
  unfold genericArgumentsWith
  infer_instance

end

instance : Blind suffixStep := by
  unfold suffixStep
  refine .bind fun kind? => ?_
  split <;> infer_instance

instance : Blind suffixes := by
  unfold suffixes
  infer_instance

section

variable (type : Bool → Grammar Unit) [∀ b, Reads (type b)] [∀ b, Blind (type b)]

instance : Blind (typeNameWith type) := by
  unfold typeNameWith
  refine .bind fun kind? => ?_
  split <;> infer_instance

instance (inBraces : Bool) : Blind (typeArgumentsWith type inBraces) := by
  unfold typeArgumentsWith
  refine .bind fun kind? => ?_
  split <;> infer_instance

instance (braces : Bool) : Blind (typeWith type braces) := by
  have parts : Blind (do
      qualifier
      let isUserType := ((← ahead).head?.map Lookahead.isUserType).getD false
      typeNameWith type
      typeArgumentsWith type (braces && isUserType)
      suffixes) := by
    refine .bind fun _ => .ahead (fun ls => ?_) fun ls => inferInstance
    cases ls <;> rfl
  unfold typeWith
  infer_instance

end

instance (braces : Bool) : Blind (type braces) :=
  .nest (fun _ _ _ _ => inferInstance) (fun _ _ _ => inferInstance) braces

instance : Blind parameterList := by
  unfold parameterList
  infer_instance

instance : Blind functionType := by
  unfold functionType
  infer_instance

/-! ## Structs, enums and faults -/

instance : Blind interfaceType := by
  unfold interfaceType
  refine .bind fun isName => .ahead (fun ls => ?_) fun ls => inferInstance
  rw [Lookahead.isSome_afterType?_bare]

instance : Blind interfaceStep := by
  unfold interfaceStep
  refine .bind fun kind? => ?_
  split
  · infer_instance
  · infer_instance
  · infer_instance
  · exact Blind.moved (f := fun still => if still then do
        if ← looksAtAny TokenKind.isCloser then return false
        bump
        return true
      else return true) inferInstance

instance : Blind interfaces := by
  unfold interfaces
  infer_instance

instance : Blind bitRange := by
  unfold bitRange
  infer_instance

instance : Blind furtherMemberStep := by
  unfold furtherMemberStep
  infer_instance

instance : Blind furtherMembers := by
  unfold furtherMembers
  infer_instance

instance : Blind memberEnd := by
  unfold memberEnd
  infer_instance

instance : Blind inlineMember := by
  unfold inlineMember
  infer_instance

instance (body : Grammar Unit) [Blind body] : Blind (nestedMemberWith body) := by
  unfold nestedMemberWith
  infer_instance

instance : Blind typedMembers := by
  unfold typedMembers
  refine .ahead (fun ls => ?_) fun ls => inferInstance
  rw [Lookahead.isSome_afterType?_bare]

instance (body : Grammar Unit) [Blind body] : Blind (memberPartsWith body) := by
  unfold memberPartsWith
  refine .bind fun kind? => ?_
  split <;> infer_instance

instance (body : Grammar Unit) [Blind body] : Blind (memberWith body) := by
  unfold memberWith
  infer_instance

instance (body : Grammar Unit) [Reads body] [Blind body] : Blind (memberStep body) := by
  have moved : Blind (do
      let before ← cursor
      memberWith body
      if (← cursor) == before then stray .strayInStructBody
      return true) :=
    .moved (f := fun still => if still then do
      stray .strayInStructBody
      return true
    else return true) inferInstance
  unfold memberStep
  infer_instance

instance (body : Grammar Unit) [Reads body] [Blind body] : Blind (structBodyWith body) := by
  unfold structBodyWith
  infer_instance

instance : Blind structBody :=
  .nest (fun _ _ _ _ => inferInstance) (fun _ _ _ => inferInstance) ()

instance : Blind structDefinition := by
  unfold structDefinition
  infer_instance

instance : Blind bitstructDefinition := by
  unfold bitstructDefinition
  infer_instance

instance : Blind enumParameterStep := by
  unfold enumParameterStep
  refine .bind fun kind? => ?_
  split
  · infer_instance
  · infer_instance
  · infer_instance
  · exact Blind.moved (f := fun still => if still then do
        if ← looksAtAny TokenKind.isCloser then return false
        stray .strayInEnumParameters
        return true
      else return true) inferInstance

instance : Blind enumParameters := by
  unfold enumParameters
  infer_instance

instance : Blind enumValue := by
  unfold enumValue
  refine .bind fun kind? => ?_
  split <;> infer_instance

instance : Blind enumeratorStep := by
  unfold enumeratorStep
  refine .bind fun kind? => ?_
  split <;> infer_instance

instance : Blind enumBody := by
  unfold enumBody
  infer_instance

instance : Blind enumBacking := by
  unfold enumBacking
  refine .bind fun colon => ?_
  split
  · refine .bind fun _ => .ahead (fun ls => ?_) fun ls => inferInstance
    rw [Lookahead.isSome_afterType?_bare]
  · infer_instance

instance : Blind enumDefinition := by
  unfold enumDefinition
  infer_instance

instance : Blind faultConstantStep := by
  unfold faultConstantStep
  refine .bind fun kind? => ?_
  split <;> infer_instance

instance : Blind faultDefinition := by
  unfold faultDefinition
  infer_instance

instance : Blind looseConstantStep := by
  unfold looseConstantStep
  infer_instance

instance : Blind faultConstants := by
  unfold faultConstants
  infer_instance

/-! ## Bodies of functions -/

instance : Blind initializer := by
  unfold initializer
  infer_instance

instance : Blind furtherVariableStep := by
  unfold furtherVariableStep
  infer_instance

instance : Blind furtherVariables := by
  unfold furtherVariables
  infer_instance

instance : Blind localModifiers := by
  unfold localModifiers
  infer_instance

instance : Blind localVariables := by
  unfold localVariables
  infer_instance

instance : Blind foreachType := by
  unfold foreachType
  refine .bind fun kind? => ?_
  split <;> infer_instance

instance : Blind foreachVariable := by
  unfold foreachVariable
  infer_instance

instance : Blind foreachStep := by
  unfold foreachStep
  refine .bind fun kind? => ?_
  split
  · infer_instance
  · infer_instance
  · infer_instance
  · infer_instance
  · exact Blind.moved (f := fun still => if still then do
        bump
        return true
      else return true) inferInstance

instance : Blind loopHeader := by
  have declared : Blind (do
      if Lookahead.atLocalVariable (← ahead) then localVariables
      bumpUntil [.rightParen]
      skip .rightParen) := by
    refine .ahead (fun ls => ?_) fun ls => inferInstance
    rw [Lookahead.atLocalVariable_bare]
  unfold loopHeader
  infer_instance

instance : Blind directive := by
  unfold directive
  infer_instance

instance (block : Grammar Unit) [Blind block] : Blind (expressionStep block) := by
  unfold expressionStep
  refine .bind fun kind? => ?_
  split <;> infer_instance

instance (block : Grammar Unit) [Blind block] : Blind (statementWith block) := by
  unfold statementWith
  refine .bind fun kind? => ?_
  split
  all_goals try infer_instance
  refine .ahead (fun ls => ?_) fun ls => inferInstance
  rw [Lookahead.atDirective_bare, Lookahead.atLocalVariable_bare]

instance (block : Grammar Unit) [Blind block] : Blind (statementStep block) := by
  unfold statementStep
  infer_instance

instance (block : Grammar Unit) [Blind block] : Blind (blockWith block) := by
  unfold blockWith
  infer_instance

instance : Blind block :=
  .nest (fun _ _ _ _ => inferInstance) (fun _ _ _ => inferInstance) ()

/-! ## Top-level declarations -/

instance : Blind pathStep := by
  unfold pathStep
  infer_instance

theorem run_pathStep (r : Reader) :
    (plain pathStep ()).run r =
      if r.ahead.head?.map Lexeme.kind == some .colonColon && r.ahead[1]?.map Lexeme.kind == some .ident then
        (some (), r.bump.bump)
      else (none, r) := by
  have step : pathStep.run r =
      (if (r.ahead.head?.map Lexeme.kind == some .colonColon && r.ahead[1]?.map Lexeme.kind == some .ident) = true
        then (do bump; bump; return true) else return false : Grammar Bool).run r := rfl
  have round : (plain pathStep ()).run r =
      (if (pathStep.run r).1 then some () else none, (pathStep.run r).2) := rfl
  rw [round, step]
  split <;> rfl

/-- Colons and names are taken by turns. -/
theorem taken_pathSteps (n : Nat) (r : Reader) : ∃ ls,
    r.ahead = ls ++ ((loopAtMost (plain pathStep) n ()).after r).ahead ∧
      Token.PathTail (ls.map Lexeme.token) := by
  induction n generalizing r with
  | zero => exact ⟨[], rfl, .nil⟩
  | succ n ih =>
    rw [after_loopAtMost_succ, answer, after, run_pathStep]
    split
    next path =>
      obtain ⟨colons, name⟩ := Bool.and_eq_true_iff.1 path
      obtain ⟨a, first, isColons⟩ := Option.map_eq_some_iff.1 (beq_iff_eq.1 colons)
      obtain ⟨b, second, isName⟩ := Option.map_eq_some_iff.1 (beq_iff_eq.1 name)
      obtain ⟨ls, ahead, tail⟩ := ih r.bump.bump
      obtain ⟨rest, front⟩ := List.head?_eq_some_iff.1 first
      rw [front, List.getElem?_cons_succ, ← List.head?_eq_getElem?] at second
      obtain ⟨rest', front'⟩ := List.head?_eq_some_iff.1 second
      rw [Reader.bump_ahead, Reader.bump_ahead, front, front'] at ahead
      refine ⟨a :: b :: ls, ?_, .cons isColons isName tail⟩
      rw [front, front']
      exact congrArg (a :: b :: ·) ahead
    next => exact ⟨[], rfl, .nil⟩

/-- The tokens of a path are taken, or none. -/
theorem taken_path (r : Reader) :
    let m : Grammar Unit := do
      if ← looksAt .ident then
        bump
        loop pathStep
      else
        report .noModulePath
    ∃ ls, r.ahead = ls ++ (m.after r).ahead ∧ Token.PathTokens (ls.map Lexeme.token) := by
  intro m
  have run : m.after r = (if (r.ahead.head?.map Lexeme.kind == some .ident) = true then (do bump; loop pathStep)
      else report .noModulePath : Grammar Unit).after r := rfl
  rw [run]
  split
  next name =>
    obtain ⟨a, first, isName⟩ := Option.map_eq_some_iff.1 (beq_iff_eq.1 name)
    obtain ⟨rest, front⟩ := List.head?_eq_some_iff.1 first
    obtain ⟨ls, ahead, tail⟩ := taken_pathSteps (r.bump.ahead.length + 1) r.bump
    replace ahead : r.bump.ahead = ls ++ ((do bump; loop pathStep : Grammar Unit).after r).ahead := ahead
    rw [Reader.bump_ahead, front, List.tail_cons] at ahead
    exact ⟨a :: ls, front.trans (congrArg (a :: ·) ahead), .name isName tail⟩
  next => exact ⟨[], rfl, .nil⟩

instance : Blind modulePath where
  run r s level := by
    have flushed := Reader.Together.flush level
    let m : Grammar Unit := do
      if ← looksAt .ident then
        bump
        loop pathStep
      else
        report .noModulePath
    have together := ((inferInstance : Blind m).run _ _ (flushed.level.start .modulePath)).2
    obtain ⟨ts, us, added, added', similar⟩ := together.trees
    have tidy : ∀ {r s : Reader} {ts : List Tree}, r.Orderly → s.Orderly → s = m.after r → r.Adds s ts →
        NodeKind.modulePath.Tidy ts := by
      rintro r s ts before behind rfl added
      obtain ⟨ls, ahead, path⟩ := taken_path r
      refine ⟨nofun, fun _ => ?_⟩
      rwa [added.significant before behind ahead fun l hl => path.significant _ (List.mem_map_of_mem hl)]
    have opened := flushed.level.start .modulePath
    refine ⟨rfl, flushed.trans ⟨together.level.finish, _, _, added.finish, added'.finish,
      similar.node ?_ ?_⟩⟩
    · exact tidy opened.left together.level.left rfl added
    · exact tidy opened.right together.level.right rfl added'

instance (close : TokenKind) : Blind (genericParameterStep close) := by
  unfold genericParameterStep
  infer_instance

instance : Blind genericParameters := by
  unfold genericParameters
  infer_instance

instance : Blind moduleDeclaration := by
  unfold moduleDeclaration
  infer_instance

instance : Blind importStep := by
  unfold importStep
  infer_instance

instance : Blind importDeclaration := by
  unfold importDeclaration
  infer_instance

instance : Blind omitsReturnType := by
  unfold omitsReturnType
  infer_instance

instance : Blind receiverStep := by
  unfold receiverStep
  infer_instance

theorem kind_of_atReceiver {a : Lexeme} {ls : List Lexeme} (receiver : Lookahead.atReceiver (a :: ls) = true) :
    a.kind = .ident := by
  cases ls with
  | nil => cases receiver
  | cons b ls =>
    by_cases path : a.kind = .ident ∧ b.kind = .colonColon
    · exact path.1
    · rw [Lookahead.atReceiver, Lookahead.afterPath, if_neg path] at receiver
      exact of_decide_eq_true (Bool.and_eq_true_iff.1 receiver).1

theorem atReceiver_path {a b : Lexeme} {ls : List Lexeme} (path : b.kind = .colonColon)
    (receiver : Lookahead.atReceiver (a :: b :: ls) = true) : Lookahead.atReceiver ls = true := by
  by_cases name : a.kind = .ident
  · have onward : Lookahead.afterPath (a :: b :: ls) = Lookahead.afterPath ls := by
      rw [Lookahead.afterPath, if_pos ⟨name, path⟩]
    rw [Lookahead.atReceiver, onward] at receiver
    exact receiver
  · exact absurd (kind_of_atReceiver receiver) name

theorem run_receiverStep (r : Reader) :
    (plain receiverStep ()).run r =
      if (r.ahead[1]?.map Lexeme.kind == some .colonColon) then (some (), r.bump.bump) else (none, r) := by
  have step : receiverStep.run r =
      (if (r.ahead[1]?.map Lexeme.kind == some .colonColon) = true then (do bump; bump; return true)
        else return false : Grammar Bool).run r := rfl
  have round : (plain receiverStep ()).run r =
      (if (receiverStep.run r).1 then some () else none, (receiverStep.run r).2) := rfl
  rw [round, step]
  split <;> rfl

/-- Behind the path in front of a receiver's type there is the name of the type. -/
theorem ahead_receiverPath {r : Reader} (receiver : Lookahead.atReceiver r.ahead = true) :
    ∃ l ls, ((loop receiverStep).after r).ahead = l :: ls ∧ l.kind = .ident := by
  have most : ∀ n (r : Reader), Lookahead.atReceiver r.ahead = true →
      Lookahead.atReceiver ((loopAtMost (plain receiverStep) n ()).after r).ahead = true := by
    intro n
    induction n with
    | zero => exact fun _ receiver => receiver
    | succ n ih =>
      intro r receiver
      have loops := run_loopAtMost_succ (plain receiverStep) n () r
      have step := run_receiverStep r
      by_cases path : (r.ahead[1]?.map Lexeme.kind == some .colonColon) = true
      · rw [if_pos path] at step
        have goes : (plain receiverStep ()).answer r = some () := congrArg Prod.fst step
        have behind : (plain receiverStep ()).after r = r.bump.bump := congrArg Prod.snd step
        rw [goes, behind] at loops
        have onward : (loopAtMost (plain receiverStep) (n + 1) ()).after r =
            (loopAtMost (plain receiverStep) n ()).after r.bump.bump := congrArg Prod.snd loops
        rw [onward]
        refine ih _ ?_
        rw [Reader.bump_ahead, Reader.bump_ahead]
        obtain ⟨b, second, colons⟩ := Option.map_eq_some_iff.1 (beq_iff_eq.1 path)
        obtain ⟨a, ls, ahead⟩ : ∃ a ls, r.ahead = a :: b :: ls := by
          cases ahead : r.ahead with
          | nil =>
            rw [ahead] at second
            cases second
          | cons a ls =>
            rw [ahead, List.getElem?_cons_succ, ← List.head?_eq_getElem?] at second
            obtain ⟨ls, rfl⟩ := List.head?_eq_some_iff.1 second
            exact ⟨a, ls, rfl⟩
        rw [ahead] at receiver ⊢
        exact atReceiver_path colons receiver
      · rw [if_neg path] at step
        have stops : (plain receiverStep ()).answer r = none := congrArg Prod.fst step
        have behind : (plain receiverStep ()).after r = r := congrArg Prod.snd step
        rw [stops, behind] at loops
        have here : (loopAtMost (plain receiverStep) (n + 1) ()).after r = r := congrArg Prod.snd loops
        rwa [here]
  have last : Lookahead.atReceiver ((loop receiverStep).after r).ahead = true := most _ r receiver
  cases ahead : ((loop receiverStep).after r).ahead with
  | nil =>
    rw [ahead] at last
    cases last
  | cons l ls =>
    rw [ahead] at last
    exact ⟨l, ls, rfl, kind_of_atReceiver last⟩

/-- The last token of the type of a receiver is the name of the type. -/
theorem together_receiver {r s : Reader} (level : r.Level s) (receiver : Lookahead.atReceiver r.ahead = true) :
    let m : Grammar Unit := node .methodType do
      loop receiverStep
      bump
    Reader.Together r s (m.after r) (m.after s) := by
  have flushed := Reader.Together.flush level
  have opened := flushed.level.start .methodType
  have path := ((inferInstance : Blind (loop receiverStep)).run _ _ opened).2
  obtain ⟨l, ls, left, identifier⟩ : ∃ l ls,
      ((loop receiverStep).after (r.flush.start .methodType)).ahead = l :: ls ∧ l.kind = .ident :=
    ahead_receiverPath (by rwa [← r.flush_ahead] at receiver)
  refine flushed.trans ?_
  obtain ⟨nothing, -⟩ | ⟨l', k, ls', ks, left', right, token, -⟩ := path.level.cases_ahead
  · exact absurd (nothing.symm.trans left) (List.cons_ne_nil l ls).symm
  obtain rfl : l' = l := (List.cons.inj (left'.symm.trans left)).1
  obtain ⟨ts, us, added, added', similar⟩ := path.trees
  have name := Reader.Together.bump path.level
  have addedName := added.trans (Reader.Builds.bump left).adds
  have addedName' := added'.trans (Reader.Builds.bump right).adds
  have leaves : Tree.Similar [.leaf l'.token] [.leaf k.token] := token ▸ .leaf l'.token
  have inside := similar.append (.append (.blanks path.level.left.blanks path.level.right.blanks) leaves)
  have type : ∀ (ts : List Tree) (blanks : List Token) (t : Token), t.kind = .ident →
      NodeKind.methodType.Tidy (ts ++ (blanks.map .leaf ++ [.leaf t])) := by
    refine fun ts blanks t identifier => ⟨fun _ => ⟨t, ?_, by rw [identifier]; rfl⟩, nofun⟩
    simp [Tree.tokensOfList_append, Tree.tokensOfList, Tree.tokens]
  exact ⟨name.level.finish, _, _, addedName.finish, addedName'.finish,
    inside.node (type _ _ _ identifier) (type _ _ _ (token ▸ identifier))⟩

instance : Blind receiver where
  run r s level := by
    let m : Grammar Unit := do
      node .methodType do
        loop receiverStep
        bump
      bump
    have same : Lookahead.atReceiver s.ahead = Lookahead.atReceiver r.ahead := by
      have coming : r.ahead.map Lexeme.bare = s.ahead.map Lexeme.bare := level.coming
      rw [← Lookahead.atReceiver_bare, ← coming, Lookahead.atReceiver_bare]
    have behind (r : Reader) :
        receiver.after r = (if Lookahead.atReceiver r.ahead = true then m else pure ()).after r := rfl
    refine ⟨rfl, ?_⟩
    by_cases there : Lookahead.atReceiver r.ahead = true
    · have type := together_receiver level there
      rw [behind, behind, same, if_pos there]
      exact type.trans (.bump type.level)
    · rw [behind, behind, same, if_neg there]
      exact .refl level

instance (isMacro : Bool) : Blind (signature isMacro) := by
  unfold signature
  infer_instance

instance (isMacro : Bool) : Blind (functionDefinition isMacro) := by
  unfold functionDefinition
  infer_instance

instance : Blind methodStep := by
  unfold methodStep
  refine .bind fun _ => .bind fun _ => ?_
  split
  · infer_instance
  · refine .bind fun _ => ?_
    split
    · exact .checkpoint fun r s => .bind (.nodeFrom _ _) fun _ => .ofBlind _
    · infer_instance

instance : Blind extendedStep := by
  unfold extendedStep
  refine .ahead (fun ls => ?_) fun ls => inferInstance
  rw [Lookahead.isSome_afterType?_bare]

instance : Blind interfaceDefinition := by
  unfold interfaceDefinition
  infer_instance

instance (previous : Option TokenKind) : Blind (aliasTargetStep previous) := by
  unfold aliasTargetStep
  refine .bind fun kind? => ?_
  split <;> infer_instance

instance : Blind aliasTarget := by
  unfold aliasTarget
  infer_instance

instance : Blind aliasDeclaration := by
  have target : Blind (do
      let behind? := Lookahead.afterType? (← ahead)
      if ← looksAt .fnKw then
        functionType
      else if (behind?.map (Lookahead.headIs fun kind => kind == .semicolon || kind == .atIdent)).getD false then
        type true
      else
        aliasTarget
      attributes
      expect .semicolon .noSemicolon) := by
    refine .ahead (fun ls => ?_) fun ls => inferInstance
    dsimp only
    rw [Lookahead.map_headIs_bare]
  unfold aliasDeclaration
  infer_instance

instance : Blind distinctDeclaration := by
  unfold distinctDeclaration
  infer_instance

instance : Blind constantDeclaration := by
  unfold constantDeclaration
  infer_instance

instance : Blind globalVariables := by
  unfold globalVariables
  infer_instance

/-- One step of skipping what is no declaration, told whether a token has been skipped. -/
def skipStep (consumed : Bool) : Grammar Bool := do
  match ← current with
  | none => return false
  | some kind =>
    if consumed && (kind.startsDeclaration || Lookahead.atDirective (← ahead)) then
      return false
    match kind with
    | .semicolon =>
      bump
      return false
    | .leftBrace =>
      bumpGroup
      return false
    | kind =>
      bumpWhole kind
      return true

theorem run_recoveryStep (start : Nat) (r : Reader) :
    (recoveryStep start).run r = (skipStep (r.cursor != start)).run r := by
  have looked (f : Option TokenKind → Grammar Bool) :
      (current >>= f).run r = (f (r.ahead.head?.map Lexeme.kind)).run r := rfl
  rw [recoveryStep, skipStep, looked, looked]
  cases r.ahead.head?.map Lexeme.kind with
  | none => rfl
  | some kind => rfl

instance (consumed : Bool) : Blind (skipStep consumed) := by
  unfold skipStep
  refine .bind fun kind? => ?_
  split
  · infer_instance
  · refine .ahead (fun ls => ?_) fun ls => ?_
    · rw [Lookahead.atDirective_bare]
    · split
      · infer_instance
      · split <;> infer_instance

theorem run_plain_recoveryStep (start : Nat) (r : Reader) :
    (plain (recoveryStep start) ()).run r = (plain (skipStep (r.cursor != start)) ()).run r := by
  have round (step : Grammar Bool) : (plain step ()).run r =
      (if (step.run r).1 then some () else none, (step.run r).2) := rfl
  rw [round, round, run_recoveryStep]

/-- How much has been skipped since a place does not depend on blanks. -/
theorem together_recoverySteps {start start' m : Nat} {r s : Reader} (level : r.Level s)
    (since : r.cursor + start' = s.cursor + start) :
    Reader.Together r s ((loopAtMost (plain (recoveryStep start)) m ()).after r)
      ((loopAtMost (plain (recoveryStep start')) m ()).after s) := by
  induction m generalizing r s with
  | zero => exact .refl level
  | succ m ih =>
    have consumed : (s.cursor != start') = (r.cursor != start) := by
      rw [Bool.eq_iff_iff, bne_iff_ne, bne_iff_ne]
      omega
    have left := run_plain_recoveryStep start r
    have right := run_plain_recoveryStep start' s
    rw [consumed] at right
    have step : Blind (plain (skipStep (r.cursor != start)) ()) := inferInstance
    obtain ⟨answer, first⟩ := step.run r s level
    have same : (plain (recoveryStep start) ()).answer r = (plain (recoveryStep start') ()).answer s :=
      (congrArg Prod.fst left).trans (answer.trans (congrArg Prod.fst right).symm)
    have first : Reader.Together r s ((plain (recoveryStep start) ()).after r)
        ((plain (recoveryStep start') ()).after s) := by
      rw [after, after, left, right]
      exact first
    have placed := ((inferInstance : Reads (plain (recoveryStep start) ())).run r).cursor_add_length
    have placed' := ((inferInstance : Reads (plain (recoveryStep start') ())).run s).cursor_add_length
    have before := level.length
    have behind := first.level.length
    rw [after_loopAtMost_succ, after_loopAtMost_succ, same]
    cases (plain (recoveryStep start') ()).answer s with
    | none => exact first
    | some next => exact first.trans (ih first.level (by omega))

instance : Blind recover where
  run r s level := by
    have reported := Reader.Together.report level .noDeclaration
    have length := level.length
    refine ⟨rfl, reported.trans ?_⟩
    have loops (r : Reader) : recover.after r =
      (loopAtMost (plain (recoveryStep r.cursor)) (r.ahead.length + 1) ()).after (r.report .noDeclaration) := rfl
    rw [loops, loops, length]
    exact together_recoverySteps reported.level (Nat.add_comm _ _)

instance : Blind modifiers := by
  unfold modifiers
  infer_instance

theorem blindSince_unmodified (r s : Reader) :
    BlindSince r s (unmodified r.checkpoint) (unmodified s.checkpoint) := by
  have second (ls : List Lexeme) :
      (ls.map Lexeme.bare)[1]?.map Lookahead.isUserType = ls[1]?.map Lookahead.isUserType := by
    rw [List.getElem?_map, Option.map_map]
    rfl
  have plain (ls : List Lexeme) : Lookahead.atDirective (ls.map Lexeme.bare) = Lookahead.atDirective ls ∧
      Lookahead.atTypedName (ls.map Lexeme.bare) = Lookahead.atTypedName ls :=
    ⟨Lookahead.atDirective_bare ls, Lookahead.atTypedName_bare ls⟩
  unfold unmodified
  refine .ahead (fun ls => ?_) fun ls => .bind (.ofBlind current) fun kind? => ?_
  · rw [second, (plain ls).1, (plain ls).2]
  split <;> try exact .nodeFrom _ _
  -- What no reserved word begins.
  split
  · exact .nodeFrom _ _
  · split
    · exact .ofBlind directive
    · split <;> exact .nodeFrom _ _

instance : Blind item :=
  .checkpoint fun r s => .bind (.ofBlind modifiers) fun _ => blindSince_unmodified r s

instance : Blind itemStep := by
  unfold itemStep
  infer_instance

end C3Lens.Grammar

namespace C3Lens

theorem Lexeme.bare_arrange (ts : List Token) :
    (arrange ts).2.map Lexeme.bare = (Token.significant ts).map fun t => ⟨t, []⟩ := by
  induction ts with
  | nil => rfl
  | cons t ts ih =>
    rw [arrange, Token.significant]
    dsimp only
    split
    next trivia => rw [List.filter_cons_of_neg (by simp [trivia]), ih, Token.significant]
    next significant =>
      rw [List.filter_cons_of_pos (by simp [significant]), List.map_cons, ih, List.map_cons, Token.significant]
      rfl

theorem Reader.level_ofTokens {ts us : List Token} (same : Token.significant ts = Token.significant us) :
    (ofTokens ts).Level (ofTokens us) where
  left := orderly_ofTokens ts
  right := orderly_ofTokens us
  coming := by
    have coming (ts : List Token) : (ofTokens ts).coming = (Token.significant ts).map fun t => ⟨t, []⟩ :=
      Lexeme.bare_arrange ts
    rw [coming, coming, same]

namespace Parse

/-- The tree of a text is determined by its significant tokens, up to blanks and comments. -/
theorem similar_of_significant {s s' : String}
    (same : Token.significant (Token.ofString s) = Token.significant (Token.ofString s')) :
    Tree.Similar [(ofString s).tree] [(ofString s').tree] := by
  have opened := (Reader.level_ofTokens same).start .sourceFile
  have items := ((inferInstance : Grammar.Blind (Grammar.loop Grammar.itemStep)).run _ _ opened).2
  have whole := (items.trans (.flush items.level)).finish (by decide)
  obtain ⟨ts, us, added, added', similar⟩ := whole.trees
  obtain ⟨children, -, -, built⟩ := builder_ofTokens (Token.ofString s)
  obtain ⟨children', -, -, built'⟩ := builder_ofTokens (Token.ofString s')
  have only {ts : List Tree} {child : Tree} (h : some (TreeBuilder.empty.add ts) = some ⟨[child], []⟩) :
      ts = [child] := by
    have held : ts.reverse ++ [] = [child] := congrArg TreeBuilder.held (Option.some.inj h)
    rw [List.append_nil, List.reverse_eq_iff] at held
    exact held
  have left : ts = [(ofString s).tree] := by
    rw [only ((added.builder _ rfl).symm.trans built), ← tree_of_builder built]
    rfl
  have right : us = [(ofString s').tree] := by
    rw [only ((added'.builder _ rfl).symm.trans built'), ← tree_of_builder built']
    rfl
  rw [← left, ← right]
  exact similar

end Parse

end C3Lens
