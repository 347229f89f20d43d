import C3Lens.Proofs.Syntax.Grammar

/-!
# Nesting

Types, bodies of aggregates and blocks nest, and what nests begins behind a token of what it nests in.
So `nest` never reaches its limit: `type`, `structBody` and `block` satisfy the equations of a reader
without limits, even if what nests is read only where fewer tokens are to come than at the beginning
(`run_type`, `run_structBody`, `run_block`).
-/

-- An instance spells out the action that it is about.
set_option synthInstance.maxSize 16384

namespace C3Lens.Grammar

/-! ## Actions that do the same on short texts -/

/-- The actions do the same where at most `n` significant tokens are to come. -/
class Alike (n : Nat) {α : Type} (m m' : Grammar α) : Prop where
  run : ∀ r : Reader, r.ahead.length ≤ n → m.run r = m'.run r

theorem Reads.length_le {α : Type} {n : Nat} (m : Grammar α) [h : Reads m] {r : Reader}
    (few : r.ahead.length ≤ n) : (m.after r).ahead.length ≤ n :=
  Nat.le_trans (h.run r).ahead_suffix.length_le few

section

variable {α β : Type} {n : Nat} {m m' m'' : Grammar α} {f f' : α → Grammar β}

instance (priority := high) : Alike n m m :=
  ⟨fun _ _ => rfl⟩

theorem Alike.trans (h : Alike n m m') (k : Alike n m' m'') : Alike n m m'' :=
  ⟨fun r few => (h.run r few).trans (k.run r few)⟩

theorem Alike.bind [Reads m] [hm : Alike n m m'] (hf : ∀ a, Alike n (f a) (f' a)) :
    Alike n (m >>= f) (m' >>= f') := by
  constructor
  intro r few
  have first : m.run r = m'.run r := hm.run r few
  have second : (f (m.answer r)).run (m.after r) = (f' (m.answer r)).run (m.after r) :=
    (hf _).run _ (Reads.length_le m few)
  calc (m >>= f).run r
    _ = (f (m.answer r)).run (m.after r) := rfl
    _ = (f' (m.answer r)).run (m.after r) := second
    _ = (f' (m'.run r).1).run (m'.run r).2 := by rw [← first]; rfl
    _ = (m' >>= f').run r := rfl

instance [Reads m] [Alike n m m'] [hf : ∀ a, Alike n (f a) (f' a)] : Alike n (m >>= f) (m' >>= f') :=
  .bind hf

/-- Behind a token there are fewer tokens. -/
theorem alike_bump {f f' : Unit → Grammar β} (hf : ∀ u, Alike n (f u) (f' u)) :
    Alike (n + 1) (bump >>= f) (bump >>= f') := by
  constructor
  intro r few
  have fewer : r.bump.ahead.length ≤ n := by
    rw [Reader.bump_ahead, List.length_tail]
    omega
  exact (hf ()).run r.bump fewer

/-- Behind a look at the end of the text, only what follows this look matters. -/
theorem alike_of_answer {look : Grammar α} (a : α)
    (answer : ∀ r : Reader, r.ahead = [] → look.run r = (a, r)) (h : Alike 0 (f a) (f' a)) :
    Alike 0 (look >>= f) (look >>= f') := by
  constructor
  intro r few
  have looked : look.run r = (a, r) := answer r (List.length_eq_zero_iff.1 (Nat.le_zero.1 few))
  calc (look >>= f).run r
    _ = (f (look.run r).1).run (look.run r).2 := rfl
    _ = (f a).run r := by rw [looked]
    _ = (f' a).run r := h.run r few
    _ = (f' (look.run r).1).run (look.run r).2 := by rw [looked]
    _ = (look >>= f').run r := rfl

theorem alike_current {f f' : Option TokenKind → Grammar β} (h : Alike 0 (f none) (f' none)) :
    Alike 0 (current >>= f) (current >>= f') := by
  refine alike_of_answer none (fun r nothing => ?_) h
  calc current.run r
    _ = (r.ahead.head?.map Lexeme.kind, r) := rfl
    _ = (none, r) := by rw [nothing]; rfl

theorem alike_atEnd {f f' : Bool → Grammar β} (h : Alike 0 (f true) (f' true)) :
    Alike 0 (atEnd >>= f) (atEnd >>= f') := by
  refine alike_of_answer true (fun r nothing => ?_) h
  calc atEnd.run r
    _ = (r.ahead.isEmpty, r) := rfl
    _ = (true, r) := by rw [nothing]; rfl

instance {c : Prop} [Decidable c] {k k' : Grammar α} [Alike n m m'] [Alike n k k'] :
    Alike n (if c then m else k) (if c then m' else k') := by
  split <;> infer_instance

end

theorem alike_node {n : Nat} (kind : NodeKind) {body body' : Grammar Unit} (h : Alike n body body') :
    Alike n (node kind body) (node kind body') := by
  constructor
  intro r few
  have inside : body.run (r.flush.start kind) = body'.run (r.flush.start kind) :=
    h.run _ (by rwa [← r.flush_ahead] at few)
  calc (node kind body).run r
    _ = ((), (body.run (r.flush.start kind)).2.finish) := rfl
    _ = ((), (body'.run (r.flush.start kind)).2.finish) := by rw [inside]
    _ = (node kind body').run r := rfl

instance (n : Nat) (kind : NodeKind) (body body' : Grammar Unit) [h : Alike n body body'] :
    Alike n (node kind body) (node kind body') :=
  alike_node kind h

instance {α : Type} (n : Nat) (step step' : α → Grammar (Option α)) (a : α) [∀ a, Reads (step a)]
    [h : ∀ a, Alike n (step a) (step' a)] : Alike n (loopFrom step a) (loopFrom step' a) := by
  have most : ∀ k a, Alike n (loopAtMost step k a) (loopAtMost step' k a) := by
    intro k
    induction k with
    | zero => exact fun a => inferInstanceAs (Alike n (pure ()) (pure ()))
    | succ k ih =>
      intro a
      refine .bind fun next? => ?_
      cases next? with
      | none => infer_instance
      | some next => exact ih next
  exact .bind fun _ => most _ a

instance (n : Nat) (step step' : Grammar Bool) [Reads step] [Alike n step step'] :
    Alike n (loop step) (loop step') := by
  unfold loop plain
  infer_instance

/-! ## What nests begins behind a token -/

section

variable {α : Type} {within : (α → Grammar Unit) → α → Grammar Unit}

/-- What nests in `within` is read behind a token of it. -/
structure Nests (within : (α → Grammar Unit) → α → Grammar Unit) : Prop where
  reads : ∀ inner, (∀ a, Reads (inner a)) → ∀ a, Reads (within inner a)
  atEnd : ∀ inner inner' a, (∀ a, Reads (inner a)) → Alike 0 (within inner a) (within inner' a)
  behind : ∀ n inner inner' a, (∀ a, Reads (inner a)) → (∀ a, Alike n (inner a) (inner' a)) →
    Alike (n + 1) (within inner a) (within inner' a)

namespace Nests

theorem reads_atMost (h : Nests within) (depth : Nat) (a : α) : Reads (nestAtMost within depth a) := by
  induction depth generalizing a with
  | zero => exact inferInstanceAs (Reads (pure ()))
  | succ depth ih => exact h.reads _ ih a

/-- Limits above the number of tokens do not matter. -/
theorem atMost_alike (h : Nests within) {n depth depth' : Nat} (le : n < depth) (le' : n < depth')
    (a : α) : Alike n (nestAtMost within depth a) (nestAtMost within depth' a) := by
  induction n generalizing depth depth' a with
  | zero =>
    obtain _ | depth := depth
    · omega
    obtain _ | depth' := depth'
    · omega
    exact h.atEnd _ _ a (h.reads_atMost depth)
  | succ n ih =>
    obtain _ | depth := depth
    · omega
    obtain _ | depth' := depth'
    · omega
    exact h.behind n _ _ a (h.reads_atMost depth) fun a => ih (by omega) (by omega) a

theorem nest_alike (h : Nests within) {n depth : Nat} (le : n < depth) (a : α) :
    Alike n (nestAtMost within depth a) (nest within a) := by
  constructor
  intro r few
  have limited : Alike r.ahead.length (nestAtMost within depth a)
      (nestAtMost within (r.ahead.length + 1) a) := h.atMost_alike (by omega) (by omega) a
  exact limited.run r (Nat.le_refl _)

end Nests

/-- Reads what nests as `inner` does where fewer than `n` tokens are to come, and does anything
elsewhere. -/
def shorterThan (n : Nat) (inner other : α → Grammar Unit) (a : α) : Grammar Unit := do
  if (← ahead).length < n then inner a else other a

theorem shorterThan_alike (n : Nat) (inner other : α → Grammar Unit) (a : α) :
    Alike n (inner a) (shorterThan (n + 1) inner other a) := by
  constructor
  intro r few
  have short : r.ahead.length < n + 1 := by omega
  calc (inner a).run r
    _ = (if r.ahead.length < n + 1 then inner a else other a).run r := by rw [if_pos short]
    _ = (shorterThan (n + 1) inner other a).run r := rfl

/-- The equation of `nest` without a limit: what nests is read in the same way, and only where fewer
tokens are to come. -/
theorem Nests.run_nest (h : Nests within) (other : α → Grammar Unit) (a : α) (r : Reader) :
    (nest within a).run r = (within (shorterThan r.ahead.length (nest within) other) a).run r := by
  have limited : (nest within a).run r = (within (nestAtMost within r.ahead.length) a).run r := rfl
  have reads := h.reads_atMost r.ahead.length
  rw [limited]
  cases count : r.ahead.length with
  | zero =>
    rw [count] at reads
    exact (h.atEnd _ _ a reads).run r (by omega)
  | succ n =>
    rw [count] at reads
    have inner (a : α) : Alike n (nestAtMost within (n + 1) a)
        (shorterThan (n + 1) (nest within) other a) :=
      (h.nest_alike (Nat.lt_succ_self n) a).trans (shorterThan_alike n _ other a)
    exact (h.behind n _ _ a reads inner).run r (by omega)

end

/-! ## Types -/

section

variable {n : Nat} {type type' : Bool → Grammar Unit} [∀ b, Reads (type b)]
  [∀ b, Alike n (type b) (type' b)]

instance : Alike n (parameterWith type) (parameterWith type') := by
  unfold parameterWith
  infer_instance

instance : Alike n (parameterStep type) (parameterStep type') := by
  unfold parameterStep
  refine .bind fun kind? => ?_
  split <;> infer_instance

instance : Alike n (parameterListWith type) (parameterListWith type') := by
  unfold parameterListWith
  infer_instance

instance : Alike (n + 1) (functionTypeWith type) (functionTypeWith type') := by
  unfold functionTypeWith
  exact alike_node _ (alike_bump fun _ => inferInstance)

instance (close : TokenKind) : Alike n (argumentStep type close) (argumentStep type' close) := by
  unfold argumentStep argumentWith
  infer_instance

instance (close : TokenKind) :
    Alike (n + 1) (genericArgumentsWith type close) (genericArgumentsWith type' close) := by
  unfold genericArgumentsWith
  exact alike_node _ (alike_bump fun _ => inferInstance)

instance : Alike (n + 1) (typeNameWith type) (typeNameWith type') := by
  unfold typeNameWith
  refine .bind fun kind? => ?_
  split <;> infer_instance

instance (inBraces : Bool) :
    Alike (n + 1) (typeArgumentsWith type inBraces) (typeArgumentsWith type' inBraces) := by
  unfold typeArgumentsWith
  refine .bind fun kind? => ?_
  split <;> infer_instance

instance (braces : Bool) : Alike (n + 1) (typeWith type braces) (typeWith type' braces) := by
  unfold typeWith
  infer_instance

end

theorem nests_type : Nests typeWith where
  reads _ _ _ := inferInstance
  behind _ _ _ _ _ _ := inferInstance
  atEnd type type' braces reads := by
    have name : Alike 0 (typeNameWith type) (typeNameWith type') := by
      unfold typeNameWith
      exact alike_current inferInstance
    have arguments (inBraces : Bool) :
        Alike 0 (typeArgumentsWith type inBraces) (typeArgumentsWith type' inBraces) := by
      unfold typeArgumentsWith
      exact alike_current inferInstance
    unfold typeWith
    infer_instance

/-- A type reads the types in it as such, where fewer tokens are to come. -/
theorem run_type (other : Bool → Grammar Unit) (braces : Bool) (r : Reader) :
    (type braces).run r = (typeWith (shorterThan r.ahead.length type other) braces).run r :=
  nests_type.run_nest other braces r

/-- A type reads the types in it as such. -/
theorem type_eq (braces : Bool) : type braces = typeWith type braces := by
  refine StateT.ext fun r => ?_
  -- Nested types are read by the same grammar on both sides of the bound, so that it drops out.
  have inner : shorterThan r.ahead.length type type = type := by
    funext braces
    refine StateT.ext fun s => ?_
    have runs : (shorterThan r.ahead.length type type braces).run s =
        (if s.ahead.length < r.ahead.length then type braces else type braces).run s := rfl
    rw [runs, ite_self]
  have runs := run_type type braces r
  rwa [inner] at runs

/-! ## Bodies of aggregates -/

section

variable {n : Nat} {body body' : Grammar Unit}

instance [Reads body] [Alike n body body'] : Alike n (memberStep body) (memberStep body') := by
  have nested : Alike n (nestedMemberWith body) (nestedMemberWith body') := by
    unfold nestedMemberWith
    infer_instance
  have parts : Alike n (memberPartsWith body) (memberPartsWith body') := by
    unfold memberPartsWith
    refine .bind fun kind? => ?_
    split <;> infer_instance
  unfold memberStep memberWith
  infer_instance

theorem alike_memberStep : Alike 0 (memberStep body) (memberStep body') := by
  unfold memberStep
  refine .bind fun closes => alike_atEnd ?_
  rw [Bool.or_true, if_pos rfl, if_pos rfl]
  infer_instance

end

theorem nests_structBody : Nests fun body (_ : Unit) => structBodyWith (body ()) where
  reads _ _ _ := inferInstance
  behind n body body' _ _ _ := by
    unfold structBodyWith
    exact alike_node _ (alike_bump fun _ => inferInstance)
  atEnd body body' _ _ := by
    have step : Alike 0 (memberStep (body ())) (memberStep (body' ())) := alike_memberStep
    unfold structBodyWith
    infer_instance

/-- A body reads the bodies in it as such, where fewer tokens are to come. -/
theorem run_structBody (other : Unit → Grammar Unit) (r : Reader) :
    structBody.run r =
      (structBodyWith (shorterThan r.ahead.length (fun _ => structBody) other ())).run r :=
  nests_structBody.run_nest other () r

/-! ## Blocks -/

section

variable {n : Nat} {block block' : Grammar Unit}

instance [Reads block] [Alike n block block'] : Alike n (statementStep block) (statementStep block') := by
  have expression : Alike n (expressionStep block) (expressionStep block') := by
    unfold expressionStep
    refine .bind fun kind? => ?_
    split <;> infer_instance
  have statement : Alike n (statementWith block) (statementWith block') := by
    unfold statementWith
    refine .bind fun kind? => ?_
    split <;> infer_instance
  unfold statementStep
  infer_instance

theorem alike_statementStep : Alike 0 (statementStep block) (statementStep block') := by
  unfold statementStep
  refine .bind fun closes => alike_atEnd ?_
  rw [Bool.or_true, if_pos rfl, if_pos rfl]
  infer_instance

end

theorem nests_block : Nests fun block (_ : Unit) => blockWith (block ()) where
  reads _ _ _ := inferInstance
  behind n block block' _ _ _ := by
    unfold blockWith
    exact alike_node _ (alike_bump fun _ => inferInstance)
  atEnd block block' _ _ := by
    have step : Alike 0 (statementStep (block ())) (statementStep (block' ())) := alike_statementStep
    unfold blockWith
    infer_instance

/-- A block reads the blocks in it as such, where fewer tokens are to come. -/
theorem run_block (other : Unit → Grammar Unit) (r : Reader) :
    block.run r = (blockWith (shorterThan r.ahead.length (fun _ => block) other ())).run r :=
  nests_block.run_nest other () r

end C3Lens.Grammar
