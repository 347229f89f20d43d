import C3Lens.Proofs.Syntax.Progress

/-!
# The loops of the grammar
-/

-- An instance spells out the action that it is about.
set_option synthInstance.maxSize 16384

namespace C3Lens.Grammar

/-! ## Tokens -/

instance (kind : TokenKind) : Steps (eat kind) := by
  refine Strides.steps ?_ fun _ _ _ _ _ => rfl
  unfold eat
  infer_instance

instance (p : TokenKind → Bool) : Steps (wordStep p) := by
  refine Strides.steps ?_ fun _ _ _ _ _ => rfl
  unfold wordStep
  infer_instance

instance (cause : SyntaxError.Cause) : Gains (stray cause) where
  moves r more := (inferInstance : Gains (node .error bump)).moves (r.report cause) more

instance (depth : Nat) : Gains (groupStep depth) := by
  unfold groupStep
  refine .current fun kind => ?_
  infer_instance

theorem productive_groupStep : Productive groupStep := by
  rintro depth next ⟨blanks, _ | ⟨l, ls⟩, offset, cursor, builder?, errors⟩ goes
  · cases goes
  · exact (inferInstance : Gains (groupStep depth)).moves _ (List.cons_ne_nil l ls)

instance : Gains bumpGroup := by
  unfold bumpGroup
  infer_instance

instance (kind : TokenKind) : Gains (bumpWhole kind) := by
  unfold bumpWhole
  infer_instance

instance (stops : List TokenKind) : Steps (untilStep stops) := by
  refine Strides.steps ?_ fun _ _ _ _ _ => rfl
  unfold untilStep
  refine .look fun kind? => ?_
  split <;> infer_instance

instance : Steps attributeStep := by
  refine Strides.steps ?_ fun _ _ _ _ _ => rfl
  unfold attributeStep
  infer_instance

instance : Steps qualifierStep := by
  refine Strides.steps ?_ fun _ _ _ _ _ => rfl
  unfold qualifierStep
  infer_instance

instance (type : Bool → Grammar Unit) [∀ b, Reads (type b)] : Steps (parameterStep type) := by
  refine Strides.steps ?_ fun _ _ _ _ _ => rfl
  unfold parameterStep
  refine .look fun kind? => ?_
  split
  all_goals try infer_instance
  refine .unlessMoved ?_
  infer_instance

theorem steps_moved (body : Grammar Unit) [hb : Reads body] :
    Steps do
      let before ← cursor
      body
      return (← cursor) != before where
  moves r goes := by
    have moved : ((body.after r).cursor != r.cursor) = true := goes
    exact Nat.lt_of_le_of_ne (hb.run r).cursor_le (Ne.symm (bne_iff_ne.1 moved))

instance (type : Bool → Grammar Unit) (close : TokenKind) [∀ b, Reads (type b)] :
    Steps (argumentStep type close) := by
  have argument := steps_moved (argumentWith type close)
  unfold argumentStep
  infer_instance

instance : Steps suffixStep := by
  refine Strides.steps ?_ fun _ _ _ _ _ => rfl
  unfold suffixStep
  refine .look fun kind? => ?_
  split <;> infer_instance

instance : Steps interfaceStep := by
  refine Strides.steps ?_ fun _ _ _ _ _ => rfl
  unfold interfaceStep
  refine .look fun kind? => ?_
  split
  all_goals try infer_instance
  refine .unlessMoved ?_
  infer_instance

instance : Steps furtherMemberStep := by
  refine Strides.steps ?_ fun _ _ _ _ _ => rfl
  unfold furtherMemberStep
  infer_instance

instance (body : Grammar Unit) [Reads body] : Steps (memberStep body) := by
  refine Strides.steps ?_ fun _ _ _ _ _ => rfl
  unfold memberStep
  have member : Strides (unlessMoved (memberWith body) (do stray .strayInStructBody; return true)) :=
    .unlessMoved inferInstance
  infer_instance

instance : Steps enumParameterStep := by
  refine Strides.steps ?_ fun _ _ _ _ _ => rfl
  unfold enumParameterStep
  refine .look fun kind? => ?_
  split
  all_goals try infer_instance
  refine .unlessMoved ?_
  infer_instance

theorem moves_name {r : Reader} {l : Lexeme} {ls : List Lexeme} (ahead : r.ahead = l :: ls)
    (h : l.kind.isName = true) : Moves name r := by
  refine .look ?_
  rw [answer_looksAtAny ahead, if_pos h]
  exact (inferInstance : Gains (node .name bump)).moves r (ahead ▸ List.cons_ne_nil l ls)

theorem moves_wordStep {p : TokenKind → Bool} {r : Reader} {l : Lexeme} {ls : List Lexeme}
    (ahead : r.ahead = l :: ls) (h : p l.kind = true) : Moves (wordStep p) r := by
  refine .look ?_
  rw [answer_looksAtAny ahead, if_pos h]
  exact .first (moves_bump (ahead ▸ List.cons_ne_nil l ls))

theorem isName_of_isVariableName {kind : TokenKind} (h : kind.isVariableName = true) :
    kind.isName = true := by
  unfold TokenKind.isVariableName at h
  split at h
  · rfl
  · rfl
  · cases h

/-- Where there is a token of the kind, the step places one if it answers `true`. -/
def StridesAt (kind : TokenKind) (step : Grammar Bool) : Prop :=
  ∀ (r : Reader) (l : Lexeme) (ls : List Lexeme), r.ahead = l :: ls → l.kind = kind →
    step.answer r = true → Moves step r

theorem StridesAt.of {step : Grammar Bool} (kind : TokenKind) [h : Strides step] :
    StridesAt kind step :=
  fun r _ _ ahead _ goes => h.moves r (by simp [ahead]) goes

theorem Strides.current {f : Option TokenKind → Grammar Bool}
    (hf : ∀ kind, StridesAt kind (f (some kind))) : Strides (current >>= f) where
  moves r more goes := by
    obtain ⟨l, ls, ahead⟩ := List.exists_cons_of_ne_nil more
    have looked : Grammar.current.answer r = some l.kind := answer_current ahead
    have answer : (f (some l.kind)).answer r = true := by
      calc (f (some l.kind)).answer r
        _ = (f (Grammar.current.answer r)).answer r := by rw [looked]
        _ = true := goes
    refine .look ?_
    rw [looked]
    exact hf l.kind r l ls ahead rfl answer

instance : Steps faultConstantStep := by
  refine Strides.steps ?_ fun _ _ _ _ _ => rfl
  unfold faultConstantStep
  refine .current fun kind => ?_
  split <;> try exact .of _
  next word =>
    intro r l ls ahead same _
    exact .first (moves_name ahead (by rw [same, Option.some.inj word]; rfl))

instance : Steps enumeratorStep := by
  refine Strides.steps ?_ fun _ _ _ _ _ => rfl
  unfold enumeratorStep
  refine .current fun kind => ?_
  split <;> try exact .of _
  next word =>
    intro r l ls ahead same _
    have inside : (r.flush.start .enumerator).ahead = l :: ls := r.flush_ahead.trans ahead
    exact .first (.node _ (.first (moves_name inside (by rw [same, Option.some.inj word]; rfl))))

instance : Steps looseConstantStep := by
  unfold looseConstantStep
  infer_instance

instance : Steps furtherVariableStep := by
  refine Strides.steps ?_ fun _ _ _ _ _ => rfl
  unfold furtherVariableStep
  infer_instance

instance : Steps foreachStep := by
  refine Strides.steps ?_ fun _ _ _ _ _ => rfl
  unfold foreachStep
  refine .look fun kind? => ?_
  split
  all_goals try infer_instance
  refine .unlessMoved ?_
  infer_instance

instance (block : Grammar Unit) [Reads block] : Gains (blockWith block) := by
  unfold blockWith
  infer_instance

instance : Gains block :=
  .nest nests_block (fun _ _ _ => inferInstance) ()

instance : Steps pathStep := by
  refine Strides.steps ?_ fun _ _ _ _ _ => rfl
  unfold pathStep
  infer_instance

instance (close : TokenKind) : Steps (genericParameterStep close) := by
  refine Strides.steps ?_ fun _ _ _ _ _ => rfl
  have parameter : Gains (do
      if ← looksAtAny TokenKind.isVariableName then
        name
        return true
      else
        bump
        return true : Grammar Bool) :=
    .looksAtAny fun r l ls ahead names => .first (moves_name ahead (isName_of_isVariableName names))
  unfold genericParameterStep
  infer_instance

instance : Steps importStep := by
  unfold importStep
  infer_instance

instance : Steps receiverStep := by
  refine Strides.steps ?_ fun _ _ _ _ _ => rfl
  unfold receiverStep
  infer_instance

instance (isMacro : Bool) : Gains (functionDefinition isMacro) := by
  unfold functionDefinition
  infer_instance

instance : Steps methodStep := by
  refine Strides.steps ?_ fun _ _ _ _ _ => rfl
  have method : Strides (do
      nodeFrom (← checkpoint) .fnDef (functionDefinition false)
      return true : Grammar Bool) := by
    have := Gains.checkpoint fun c => (inferInstance : Gains (do
      nodeFrom c .fnDef (functionDefinition false)
      return true : Grammar Bool))
    infer_instance
  unfold methodStep
  infer_instance

instance : Steps extendedStep := by
  unfold extendedStep
  infer_instance

instance (start : Nat) : Steps (recoveryStep start) := by
  refine Strides.steps ?_ fun _ _ _ _ _ => rfl
  unfold recoveryStep
  refine .look fun kind? => ?_
  split
  · infer_instance
  · refine .look fun _ => .look fun _ => ?_
    split
    · infer_instance
    · split <;> infer_instance

/-! ## Types and local variables -/

/-- The kinds of the tokens that a type which is recognised by looking ahead begins with. -/
def startsType : TokenKind → Bool
  | .ident | .faultKw | .ctIdent => true
  | _ => false

theorem startsType_of_isTypeHead {l : Lexeme} (h : Lookahead.isTypeHead l = true) :
    startsType l.kind = true := by
  unfold Lookahead.isTypeHead at h
  split at h
  next same => exact congrArg startsType same
  next same => exact congrArg startsType same
  next same => exact congrArg startsType same
  next => cases h

theorem startsType_of_afterType? {l : Lexeme} {ls behind : List Lexeme}
    (h : Lookahead.afterType? (l :: ls) = some behind) : startsType l.kind = true := by
  unfold Lookahead.afterType? at h
  cases ls with
  | nil =>
    rw [show Lookahead.afterPath [l] = [l] from rfl] at h
    dsimp only at h
    split at h
    next head => exact startsType_of_isTypeHead head
    next => cases h
  | cons b ls =>
    rw [Lookahead.afterPath] at h
    by_cases path : l.kind = .ident ∧ b.kind = .colonColon
    · rw [path.1]
      rfl
    · rw [if_neg path] at h
      dsimp only at h
      split at h
      next head => exact startsType_of_isTypeHead head
      next => cases h

theorem moves_typeName (type : Bool → Grammar Unit) [∀ b, Reads (type b)] {r : Reader} {l : Lexeme}
    {ls : List Lexeme} (ahead : r.ahead = l :: ls) (h : startsType l.kind = true) :
    Moves (typeNameWith type) r := by
  have more : r.ahead ≠ [] := ahead ▸ List.cons_ne_nil l ls
  refine .look ?_
  rw [answer_current ahead]
  unfold startsType at h
  split at h
  · next same =>
    rw [same]
    exact moves_bump more
  · next same =>
    rw [same]
    exact moves_bump more
  · next same =>
    rw [same]
    exact .first (moves_bump more)
  · cases h

theorem moves_type (braces : Bool) {r : Reader} {l : Lexeme} {ls : List Lexeme}
    (ahead : r.ahead = l :: ls) (h : startsType l.kind = true) : Moves (type braces) r := by
  refine .nest nests_type fun inner reads => .node _ (.later fun same => .look (.first ?_))
  exact moves_typeName inner (same.trans (r.flush_ahead.trans ahead)) h

/-- What begins a declaration of a local variable, behind its modifiers. -/
theorem startsLocal_of_atLocalVariable {l : Lexeme} {ls : List Lexeme}
    (h : Lookahead.atLocalVariable (l :: ls) = true) (plain : Lookahead.isLocalModifier l.kind = false) :
    l.kind = .varKw ∨ startsType l.kind = true := by
  unfold Lookahead.atLocalVariable at h
  rw [List.dropWhile_cons_of_neg (by simp [plain])] at h
  dsimp only at h
  split at h
  next word => exact .inl word
  next =>
    rw [if_neg (by simp)] at h
    right
    split at h
    next => cases h
    next behind found => exact startsType_of_afterType? found

theorem moves_localVariables {r : Reader} {l : Lexeme} {ls : List Lexeme} (ahead : r.ahead = l :: ls)
    (h : Lookahead.atLocalVariable (l :: ls) = true) : Moves localVariables r := by
  have inside : (r.flush.start .localVarDecl).ahead = l :: ls := r.flush_ahead.trans ahead
  refine .node _ ?_
  cases modifier : Lookahead.isLocalModifier l.kind with
  | true => exact .first (.loop (moves_wordStep inside modifier))
  | false =>
    refine .later fun same => ?_
    have begins := startsLocal_of_atLocalVariable h modifier
    have there := same.trans inside
    refine .look (.look (.look (.ite (fun word => ?_) fun noWord => .ite (fun _ => ?_) fun typed => ?_)))
    · exact .first (moves_bump (there ▸ List.cons_ne_nil l ls))
    · rw [answer_looksAt there] at noWord
      have begins : startsType l.kind = true :=
        begins.resolve_left fun word => noWord (beq_iff_eq.2 word)
      exact .first (moves_type true there begins)
    · simp only [Bool.not_eq_true', Bool.not_eq_false, Bool.and_eq_true, answer_looksAt there] at typed
      exact .first (moves_name there (by rw [beq_iff_eq.1 typed.1]; rfl))

/-! ## Statements -/

instance : Gains directive := by
  unfold directive
  infer_instance

instance : Gains loopHeader := by
  unfold loopHeader
  infer_instance

section

variable (block : Grammar Unit) [Gains block]

instance [Reads block] : Steps (expressionStep block) := by
  refine Strides.steps ?_ fun _ _ _ _ _ => rfl
  unfold expressionStep
  refine .look fun kind? => ?_
  split <;> infer_instance

theorem moves_expressionStep {r : Reader} {l : Lexeme} {ls : List Lexeme} (ahead : r.ahead = l :: ls)
    (inside : l.kind ≠ .rightBrace) : Moves (expressionStep block) r := by
  have more : r.ahead ≠ [] := ahead ▸ List.cons_ne_nil l ls
  refine .look ?_
  rw [answer_current ahead]
  split
  next no => cases no
  next closes => exact absurd (Option.some.inj closes) inside
  all_goals exact (inferInstance : Gains _).moves r more

theorem moves_statement [Reads block] {r : Reader} {l : Lexeme} {ls : List Lexeme} (ahead : r.ahead = l :: ls)
    (inside : l.kind ≠ .rightBrace) : Moves (statementWith block) r := by
  have more : r.ahead ≠ [] := ahead ▸ List.cons_ne_nil l ls
  refine .look ?_
  rw [answer_current ahead]
  split
  all_goals try exact (inferInstance : Gains _).moves r more
  -- What no reserved word begins.
  refine .look (.ite (fun _ => ?_) fun _ => .ite (fun declares => ?_) fun _ => ?_)
  · exact (inferInstance : Gains directive).moves r more
  · rw [show Grammar.ahead.answer r = r.ahead from rfl, ahead] at declares
    exact moves_localVariables ahead declares
  · exact .loop (moves_expressionStep block ahead inside)

instance [Reads block] : Steps (statementStep block) := by
  refine Strides.steps ⟨fun r more goes => ?_⟩ fun _ _ _ _ _ => rfl
  obtain ⟨l, ls, ahead⟩ := List.exists_cons_of_ne_nil more
  have atBrace : (looksAt .rightBrace).answer r = (l.kind == .rightBrace) := answer_looksAt ahead _
  have notAtEnd : atEnd.answer r = false := by
    calc atEnd.answer r
      _ = r.ahead.isEmpty := rfl
      _ = false := by rw [ahead]; rfl
  have answer : (statementStep block).answer r =
      (if (looksAt .rightBrace).answer r || atEnd.answer r then pure false else do
        statementWith block
        return true).answer r := rfl
  have inside : l.kind ≠ .rightBrace := by
    intro closes
    rw [atBrace, closes] at answer
    exact absurd (answer.symm.trans goes) Bool.false_ne_true
  refine .look (.look (.ite (fun ends => ?_) fun _ => .first (moves_statement block ahead inside)))
  rw [notAtEnd, atBrace, beq_false_of_ne inside] at ends
  cases ends

end

/-! ## Declarations -/

instance : Gains moduleDeclaration := by
  unfold moduleDeclaration
  infer_instance

instance : Gains importDeclaration := by
  unfold importDeclaration
  infer_instance

instance : Gains structDefinition := by
  unfold structDefinition
  infer_instance

instance : Gains bitstructDefinition := by
  unfold bitstructDefinition
  infer_instance

instance : Gains enumDefinition := by
  unfold enumDefinition
  infer_instance

instance : Gains faultDefinition := by
  unfold faultDefinition
  infer_instance

instance : Gains faultConstants := by
  unfold faultConstants
  infer_instance

instance : Gains interfaceDefinition := by
  unfold interfaceDefinition
  infer_instance

instance : Gains aliasDeclaration := by
  unfold aliasDeclaration
  infer_instance

instance : Gains distinctDeclaration := by
  unfold distinctDeclaration
  infer_instance

instance : Gains constantDeclaration := by
  unfold constantDeclaration
  infer_instance

theorem moves_globalVariables {r : Reader} {l : Lexeme} {ls : List Lexeme} (ahead : r.ahead = l :: ls)
    (h : Lookahead.atTypedName (l :: ls) = true) : Moves globalVariables r := by
  unfold Lookahead.atTypedName at h
  cases found : Lookahead.afterType? (l :: ls) with
  | none =>
    rw [found] at h
    cases h
  | some behind => exact .first (moves_type true ahead (startsType_of_afterType? found))

/-- At the first token nothing has been skipped. -/
theorem moves_recoveryStep {r : Reader} (more : r.ahead ≠ []) : Moves (recoveryStep r.cursor) r := by
  obtain ⟨l, ls, ahead⟩ := List.exists_cons_of_ne_nil more
  refine .look ?_
  rw [answer_current ahead]
  refine .look (.look (.ite (fun stops => ?_) fun _ => ?_))
  · simp [show cursor.answer r = r.cursor from rfl] at stops
  · split <;> exact (inferInstance : Gains _).moves r more

theorem moves_recover {r : Reader} (more : r.ahead ≠ []) : Moves recover r :=
  .behind (.look (.loop (moves_recoveryStep more)))

instance (c : Checkpoint) : Grows (unmodified c) := by
  unfold unmodified
  refine .bind fun ls => .bind fun kind? => ?_
  split <;> infer_instance

instance (c : Checkpoint) : Gains (unmodified c) where
  moves r more := by
    obtain ⟨l, ls, ahead⟩ := List.exists_cons_of_ne_nil more
    refine .look (.look ?_)
    rw [answer_current ahead]
    split
    all_goals try exact (inferInstance : Gains _).moves r more
    · next kind _ =>
      refine .ite (fun _ => ?_) fun _ => .ite (fun _ => ?_) fun _ => .ite (fun declares => ?_) fun _ => ?_
      · exact (inferInstance : Gains (nodeFrom c .faultDef faultDefinition)).moves r more
      · exact (inferInstance : Gains directive).moves r more
      · rw [show Grammar.ahead.answer r = r.ahead from rfl, ahead] at declares
        exact .nodeFrom _ _ (moves_globalVariables ahead declares)
      · exact .nodeFrom _ _ (moves_recover more)
    · next no => cases no

instance : Gains item :=
  .checkpoint fun _ => ⟨fun _ more => .later fun same => (inferInstance : Gains _).moves _ (same ▸ more)⟩

instance : Steps itemStep := by
  refine Strides.steps ?_ fun _ _ _ _ _ => rfl
  unfold itemStep
  infer_instance

theorem productive_aliasTargetStep : Productive aliasTargetStep := by
  rintro previous next ⟨blanks, _ | ⟨l, ls⟩, offset, cursor, builder?, errors⟩ goes
  · cases goes
  · refine .look (.ite (fun ends => ?_) fun _ => ?_)
    · have answer : (aliasTargetStep previous).answer
          ⟨blanks, l :: ls, offset, cursor, builder?, errors⟩ = none := by
        calc _
          _ = (if endsAliasTarget previous l.kind then pure none else do
              bumpWhole l.kind
              return some (some l.kind)).answer _ := rfl
          _ = none := by rw [if_pos ends]; rfl
      cases answer.symm.trans goes
    · exact (inferInstance : Gains _).moves _ (List.cons_ne_nil l ls)

theorem ahead_of_itemStep {r : Reader} (stops : itemStep.answer r = false) : r.ahead = [] := by
  cases ahead : r.ahead with
  | nil => rfl
  | cons l ls =>
    have answer : itemStep.answer r =
        (if r.ahead.isEmpty then pure false else do
          item
          return true).answer r := rfl
    rw [ahead] at answer
    exact absurd (answer.symm.trans stops).symm Bool.false_ne_true

/-! ## All loops -/

/-- The steps that the loops of the grammar repeat. -/
inductive Repeated : {α : Type} → (α → Grammar (Option α)) → Prop
  | group : Repeated groupStep
  | words (p : TokenKind → Bool) : Repeated (plain (wordStep p))
  | upTo (stops : List TokenKind) : Repeated (plain (untilStep stops))
  | attribute : Repeated (plain attributeStep)
  | qualifier : Repeated (plain qualifierStep)
  | parameter : Repeated (plain (parameterStep type))
  | argument (close : TokenKind) : Repeated (plain (argumentStep type close))
  | suffix : Repeated (plain suffixStep)
  | interface : Repeated (plain interfaceStep)
  | member : Repeated (plain (memberStep structBody))
  | furtherMember : Repeated (plain furtherMemberStep)
  | enumParameter : Repeated (plain enumParameterStep)
  | enumerator : Repeated (plain enumeratorStep)
  | faultConstant : Repeated (plain faultConstantStep)
  | looseConstant : Repeated (plain looseConstantStep)
  | furtherVariable : Repeated (plain furtherVariableStep)
  | foreachVariable : Repeated (plain foreachStep)
  | expression : Repeated (plain (expressionStep block))
  | statement : Repeated (plain (statementStep block))
  | path : Repeated (plain pathStep)
  | genericParameter (close : TokenKind) : Repeated (plain (genericParameterStep close))
  | furtherImport : Repeated (plain importStep)
  | receiver : Repeated (plain receiverStep)
  | method : Repeated (plain methodStep)
  | extended : Repeated (plain extendedStep)
  | aliasTarget : Repeated aliasTargetStep
  | recovery (start : Nat) : Repeated (plain (recoveryStep start))
  | item : Repeated (plain itemStep)

theorem Repeated.productive {α : Type} {step : α → Grammar (Option α)} (h : Repeated step) :
    (∀ a, Reads (step a)) ∧ Productive step := by
  cases h
  case group => exact ⟨inferInstance, productive_groupStep⟩
  case aliasTarget => exact ⟨inferInstance, productive_aliasTargetStep⟩
  all_goals exact ⟨inferInstance, Steps.productive inferInstance⟩

end C3Lens.Grammar
