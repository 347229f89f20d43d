import C3Lens.Proofs.Syntax.Reading

/-!
# The grammar reads

Every action of the grammar is a reading (`Grammar.Reads`): each is built from actions that read. The
actions that take the reader of what nests in them as an argument read if it does, and so the limits
of nesting do not matter.
-/

-- An instance spells out the action that it is about.
set_option synthInstance.maxSize 16384

namespace C3Lens.Grammar

/-! ## Tokens -/

instance (kind : TokenKind) : Reads (eat kind) := by
  unfold eat
  infer_instance

instance (kind : TokenKind) : Reads (skip kind) := by
  unfold skip
  infer_instance

instance (kind : TokenKind) (cause : SyntaxError.Cause) : Reads (expect kind cause) := by
  unfold expect
  infer_instance

instance (p : TokenKind → Bool) : Reads (wordStep p) := by
  unfold wordStep
  infer_instance

instance (cause : SyntaxError.Cause) : Reads (stray cause) := by
  unfold stray
  infer_instance

/-! ## Types and parameters -/

instance (depth : Nat) : Reads (groupStep depth) := by
  unfold groupStep
  refine .bind fun kind? => ?_
  split <;> infer_instance

instance : Reads bumpGroup := by
  unfold bumpGroup
  infer_instance

instance (kind : TokenKind) : Reads (bumpWhole kind) := by
  unfold bumpWhole
  infer_instance

instance (stops : List TokenKind) : Reads (untilStep stops) := by
  unfold untilStep
  refine .bind fun kind? => ?_
  split <;> infer_instance

instance (stops : List TokenKind) : Reads (bumpUntil stops) := by
  unfold bumpUntil
  infer_instance

instance : Reads attributeStep := by
  unfold attributeStep
  infer_instance

instance : Reads attributes := by
  unfold attributes
  infer_instance

/-- A name is read only where an identifier is the next token. -/
instance : Reads name where
  run r := by
    have next : (looksAtAny TokenKind.isName).answer r =
        ((r.ahead.head?.map Lexeme.kind).map TokenKind.isName).getD false := rfl
    show Reader.Run r ((if (looksAtAny TokenKind.isName).answer r then node .name bump
      else report .noName).after r)
    rw [next]
    cases ahead : r.ahead with
    | nil => exact .report r _
    | cons l ls =>
      rw [List.head?_cons, Option.map_some, Option.map_some, Option.getD_some]
      split
      next identifier =>
        have blanks : r.flush.blanks = [] := by rw [Reader.flush_eq]
        exact (Reader.Run.flush r).trans (.name blanks (r.flush_ahead.trans ahead) identifier)
      next => exact .report r _

instance : Reads qualifierStep := by
  unfold qualifierStep
  infer_instance

instance : Reads qualifier := by
  unfold qualifier
  infer_instance

instance : Reads atUntypedParameter := by
  unfold atUntypedParameter
  refine .bind fun kind? => ?_
  split <;> infer_instance

instance (type : Bool → Grammar Unit) [∀ b, Reads (type b)] : Reads (parameterWith type) := by
  unfold parameterWith
  infer_instance

instance (type : Bool → Grammar Unit) [∀ b, Reads (type b)] : Reads (parameterStep type) := by
  unfold parameterStep
  refine .bind fun kind? => ?_
  split <;> infer_instance

instance (type : Bool → Grammar Unit) [∀ b, Reads (type b)] : Reads (parameterListWith type) := by
  unfold parameterListWith
  infer_instance

instance (type : Bool → Grammar Unit) [∀ b, Reads (type b)] : Reads (functionTypeWith type) := by
  unfold functionTypeWith
  infer_instance

instance (type : Bool → Grammar Unit) (close : TokenKind) [∀ b, Reads (type b)] :
    Reads (argumentWith type close) := by
  unfold argumentWith
  infer_instance

instance (type : Bool → Grammar Unit) (close : TokenKind) [∀ b, Reads (type b)] :
    Reads (argumentStep type close) := by
  unfold argumentStep
  infer_instance

instance (type : Bool → Grammar Unit) (close : TokenKind) [∀ b, Reads (type b)] :
    Reads (genericArgumentsWith type close) := by
  unfold genericArgumentsWith
  infer_instance

instance : Reads suffixStep := by
  unfold suffixStep
  refine .bind fun kind? => ?_
  split <;> infer_instance

instance : Reads suffixes := by
  unfold suffixes
  infer_instance

instance (type : Bool → Grammar Unit) [∀ b, Reads (type b)] : Reads (typeNameWith type) := by
  unfold typeNameWith
  refine .bind fun kind? => ?_
  split <;> infer_instance

instance (type : Bool → Grammar Unit) (inBraces : Bool) [∀ b, Reads (type b)] :
    Reads (typeArgumentsWith type inBraces) := by
  unfold typeArgumentsWith
  refine .bind fun kind? => ?_
  split <;> infer_instance

instance (type : Bool → Grammar Unit) (braces : Bool) [∀ b, Reads (type b)] :
    Reads (typeWith type braces) := by
  unfold typeWith
  infer_instance

instance (braces : Bool) : Reads (type braces) :=
  .nest (fun _ _ => inferInstance) braces

instance : Reads parameterList := by
  unfold parameterList
  infer_instance

instance : Reads functionType := by
  unfold functionType
  infer_instance

/-! ## Structs, enums and faults -/

instance : Reads interfaceType := by
  unfold interfaceType
  infer_instance

instance : Reads interfaceStep := by
  unfold interfaceStep
  refine .bind fun kind? => ?_
  split <;> infer_instance

instance : Reads interfaces := by
  unfold interfaces
  infer_instance

instance : Reads bitRange := by
  unfold bitRange
  infer_instance

instance : Reads furtherMemberStep := by
  unfold furtherMemberStep
  infer_instance

instance : Reads furtherMembers := by
  unfold furtherMembers
  infer_instance

instance : Reads memberEnd := by
  unfold memberEnd
  infer_instance

instance : Reads inlineMember := by
  unfold inlineMember
  infer_instance

instance (body : Grammar Unit) [Reads body] : Reads (nestedMemberWith body) := by
  unfold nestedMemberWith
  infer_instance

instance : Reads typedMembers := by
  unfold typedMembers
  infer_instance

instance (body : Grammar Unit) [Reads body] : Reads (memberPartsWith body) := by
  unfold memberPartsWith
  refine .bind fun kind? => ?_
  split <;> infer_instance

instance (body : Grammar Unit) [Reads body] : Reads (memberWith body) := by
  unfold memberWith
  infer_instance

instance (body : Grammar Unit) [Reads body] : Reads (memberStep body) := by
  unfold memberStep
  infer_instance

instance (body : Grammar Unit) [Reads body] : Reads (structBodyWith body) := by
  unfold structBodyWith
  infer_instance

instance : Reads structBody :=
  .nest (fun _ _ => inferInstance) ()

instance : Reads structDefinition := by
  unfold structDefinition
  infer_instance

instance : Reads bitstructDefinition := by
  unfold bitstructDefinition
  infer_instance

instance : Reads enumParameterStep := by
  unfold enumParameterStep
  refine .bind fun kind? => ?_
  split <;> infer_instance

instance : Reads enumParameters := by
  unfold enumParameters
  infer_instance

instance : Reads enumValue := by
  unfold enumValue
  refine .bind fun kind? => ?_
  split <;> infer_instance

instance : Reads enumeratorStep := by
  unfold enumeratorStep
  refine .bind fun kind? => ?_
  split <;> infer_instance

instance : Reads enumBody := by
  unfold enumBody
  infer_instance

instance : Reads enumBacking := by
  unfold enumBacking
  infer_instance

instance : Reads enumDefinition := by
  unfold enumDefinition
  infer_instance

instance : Reads faultConstantStep := by
  unfold faultConstantStep
  refine .bind fun kind? => ?_
  split <;> infer_instance

instance : Reads faultDefinition := by
  unfold faultDefinition
  infer_instance

instance : Reads looseConstantStep := by
  unfold looseConstantStep
  infer_instance

instance : Reads faultConstants := by
  unfold faultConstants
  infer_instance

/-! ## Bodies of functions -/

instance : Reads initializer := by
  unfold initializer
  infer_instance

instance : Reads furtherVariableStep := by
  unfold furtherVariableStep
  infer_instance

instance : Reads furtherVariables := by
  unfold furtherVariables
  infer_instance

instance : Reads localModifiers := by
  unfold localModifiers
  infer_instance

instance : Reads localVariables := by
  unfold localVariables
  infer_instance

instance : Reads foreachType := by
  unfold foreachType
  refine .bind fun kind? => ?_
  split <;> infer_instance

instance : Reads foreachVariable := by
  unfold foreachVariable
  infer_instance

instance : Reads foreachStep := by
  unfold foreachStep
  refine .bind fun kind? => ?_
  split <;> infer_instance

instance : Reads loopHeader := by
  unfold loopHeader
  infer_instance

instance : Reads directive := by
  unfold directive
  infer_instance

instance (block : Grammar Unit) [Reads block] : Reads (expressionStep block) := by
  unfold expressionStep
  refine .bind fun kind? => ?_
  split <;> infer_instance

instance (block : Grammar Unit) [Reads block] : Reads (statementWith block) := by
  unfold statementWith
  refine .bind fun kind? => ?_
  split <;> infer_instance

instance (block : Grammar Unit) [Reads block] : Reads (statementStep block) := by
  unfold statementStep
  infer_instance

instance (block : Grammar Unit) [Reads block] : Reads (blockWith block) := by
  unfold blockWith
  infer_instance

instance : Reads block :=
  .nest (fun _ _ => inferInstance) ()

/-! ## Top-level declarations -/

instance : Reads pathStep := by
  unfold pathStep
  infer_instance

/-- The action places tokens of the class, and no others. -/
def TakesOnly {α : Type} (p : TokenKind → Bool) (m : Grammar α) (r : Reader) : Prop :=
  ∃ ls, r.ahead = ls ++ (m.after r).ahead ∧ ∀ l ∈ ls, p l.kind = true

section

variable {α β : Type} {p : TokenKind → Bool} {m m' : Grammar α} {f : α → Grammar β} {r : Reader}

theorem TakesOnly.none (same : (m.after r).ahead = r.ahead) : TakesOnly p m r :=
  ⟨[], same.symm, fun _ hl => absurd hl List.not_mem_nil⟩

theorem TakesOnly.bind (hm : TakesOnly p m r) (hf : TakesOnly p (f (m.answer r)) (m.after r)) :
    TakesOnly p (m >>= f) r := by
  obtain ⟨ls, ahead, first⟩ := hm
  obtain ⟨ls', ahead', second⟩ := hf
  refine ⟨ls ++ ls', ?_, List.forall_mem_append.2 ⟨first, second⟩⟩
  rw [ahead, ahead', List.append_assoc]
  rfl

theorem TakesOnly.ite {c : Prop} [Decidable c] (h : c → TakesOnly p m r) (h' : ¬ c → TakesOnly p m' r) :
    TakesOnly p (if c then m else m') r := by
  split
  next yes => exact h yes
  next no => exact h' no

theorem takesOnly_bump (h : ∀ kind, r.ahead.head?.map Lexeme.kind = some kind → p kind = true) :
    TakesOnly p bump r := by
  have behind : (bump.after r).ahead = r.ahead.tail := r.bump_ahead
  cases ahead : r.ahead with
  | nil => exact .none (by rw [behind, ahead]; rfl)
  | cons l ls =>
    refine ⟨[l], by rw [behind, ahead]; rfl, List.forall_mem_singleton.2 (h _ ?_)⟩
    rw [ahead]
    rfl

theorem TakesOnly.loop {step : Grammar Bool} (h : ∀ r, TakesOnly p step r) (r : Reader) :
    TakesOnly p (loop step) r := by
  suffices most : ∀ n r, TakesOnly p (loopAtMost (plain step) n ()) r from most _ r
  intro n
  induction n with
  | zero => exact fun _ => .none rfl
  | succ n ih =>
    intro r
    have once : TakesOnly p (plain step ()) r := h r
    refine .bind once ?_
    cases (plain step ()).answer r with
    | none => exact .none rfl
    | some => exact ih _

end

theorem takesOnly_pathStep (r : Reader) : TakesOnly TokenKind.isPathPart pathStep r := by
  have colons : TakesOnly TokenKind.isPathPart (looksAt .colonColon) r := .none rfl
  have identifier : TakesOnly TokenKind.isPathPart (looksAtNth 1 .ident) r := .none rfl
  refine colons.bind (identifier.bind (.ite (fun go => ?_) fun _ => .none rfl))
  obtain ⟨atColons, behind⟩ := Bool.and_eq_true_iff.1 go
  have first : r.ahead.head?.map Lexeme.kind = some .colonColon := beq_iff_eq.1 atColons
  have second : r.bump.ahead.head?.map Lexeme.kind = some .ident := by
    have next : r.ahead[1]?.map Lexeme.kind = some .ident := beq_iff_eq.1 behind
    rw [r.bump_ahead, List.head?_tail]
    exact next
  refine .bind (takesOnly_bump fun kind is => ?_) (.bind (takesOnly_bump fun kind is => ?_) (.none rfl))
  · rw [Option.some.inj (is.symm.trans first)]
    rfl
  · rw [Option.some.inj (is.symm.trans second)]
    rfl

/-- The path of a module is read from identifiers and the colons between them. -/
instance : Reads modulePath where
  run r := by
    let body : Grammar Unit := do
      if ← looksAt .ident then
        bump
        loop pathStep
      else
        report .noModulePath
    have only : TakesOnly TokenKind.isPathPart body (r.flush.start .modulePath) := by
      have look : TakesOnly TokenKind.isPathPart (looksAt .ident) (r.flush.start .modulePath) := .none rfl
      refine look.bind (.ite (fun is => .bind (takesOnly_bump fun kind first => ?_) ?_) fun _ => .none rfl)
      · rw [Option.some.inj (first.symm.trans (beq_iff_eq.1 is))]
        rfl
      · exact .loop takesOnly_pathStep _
    obtain ⟨ls, ahead, parts⟩ := only
    have inside : Reads body := inferInstance
    exact (Reader.Run.flush r).trans (.path ahead parts (inside.run _))

instance (close : TokenKind) : Reads (genericParameterStep close) := by
  unfold genericParameterStep
  infer_instance

instance : Reads genericParameters := by
  unfold genericParameters
  infer_instance

instance : Reads moduleDeclaration := by
  unfold moduleDeclaration
  infer_instance

instance : Reads importStep := by
  unfold importStep
  infer_instance

instance : Reads importDeclaration := by
  unfold importDeclaration
  infer_instance

instance : Reads omitsReturnType := by
  unfold omitsReturnType
  infer_instance

instance : Reads receiverStep := by
  unfold receiverStep
  infer_instance

instance : Reads receiver := by
  unfold receiver
  infer_instance

instance (isMacro : Bool) : Reads (signature isMacro) := by
  unfold signature
  infer_instance

instance (isMacro : Bool) : Reads (functionDefinition isMacro) := by
  unfold functionDefinition
  infer_instance

instance : Reads methodStep := by
  unfold methodStep
  refine .bind fun _ => .bind fun _ => ?_
  split
  · infer_instance
  · refine .bind fun _ => ?_
    split
    · exact .checkpoint fun r => .bind (.nodeFrom _ _) fun _ => .ofReads _
    · infer_instance

instance : Reads extendedStep := by
  unfold extendedStep
  infer_instance

instance : Reads interfaceDefinition := by
  unfold interfaceDefinition
  infer_instance

instance (previous : Option TokenKind) : Reads (aliasTargetStep previous) := by
  unfold aliasTargetStep
  refine .bind fun kind? => ?_
  split <;> infer_instance

instance : Reads aliasTarget := by
  unfold aliasTarget
  infer_instance

instance : Reads aliasDeclaration := by
  unfold aliasDeclaration
  infer_instance

instance : Reads distinctDeclaration := by
  unfold distinctDeclaration
  infer_instance

instance : Reads constantDeclaration := by
  unfold constantDeclaration
  infer_instance

instance : Reads globalVariables := by
  unfold globalVariables
  infer_instance

instance (start : Nat) : Reads (recoveryStep start) := by
  unfold recoveryStep
  refine .bind fun kind? => ?_
  split
  · infer_instance
  · -- The kind is looked at again behind the test for the next declaration.
    refine .bind fun _ => .bind fun _ => ?_
    split
    · infer_instance
    · split <;> infer_instance

instance : Reads recover := by
  unfold recover
  infer_instance

instance : Reads modifiers := by
  unfold modifiers
  infer_instance

theorem continues_unmodified (r : Reader) : Continues r (unmodified r.checkpoint) := by
  unfold unmodified
  refine .bind (.ofReads ahead) fun ls => .bind (.ofReads current) fun kind? => ?_
  split <;> try exact .nodeFrom _ _
  -- What no reserved word begins.
  split
  · exact .nodeFrom _ _
  · split
    · exact .ofReads directive
    · split <;> exact .nodeFrom _ _

instance : Reads item :=
  .checkpoint fun r => .bind (.ofReads modifiers) fun _ => continues_unmodified r

instance : Reads itemStep := by
  unfold itemStep
  infer_instance

end C3Lens.Grammar
