import Mathlib.Data.List.TakeWhile
import C3Lens.Proofs.Syntax.Blind

/-!
# What a half-typed line takes with it

Between two declarations there may stand tokens that are no declaration. An action that begins at such
tokens may stop at the reserved word of the declaration behind them or read on into it. Most actions stop
there, whatever the tokens are, as long as none of them opens or closes a group (`Stays`): no token that
they take begins a declaration. Three do not: the type of a constant takes an `fn`, what is assigned ends
at a semicolon or a comma only, and some directives end at a colon or a semicolon only.
-/

-- An instance spells out the action that it is about.
set_option synthInstance.maxSize 16384

namespace C3Lens

/-- Whether a token of the kind opens or closes no group and begins no declaration. -/
def TokenKind.isLoose (kind : TokenKind) : Bool :=
  !(kind.isOpener || kind.isCloser || kind.startsDeclaration)

namespace Grammar

/-- The tokens begin with a reserved word at which reading can resume. -/
class Resumes (coming : List Lexeme) : Prop where
  head : ∃ d ds, coming = d :: ds ∧ d.kind.startsDeclaration = true

/-- A property of loose tokens that is left to them when the first one is taken. -/
class Front (P : List Lexeme → Prop) : Prop where
  loose : ∀ {l : Lexeme} {ls : List Lexeme}, P (l :: ls) → l.kind.isLoose = true
  tail : ∀ {l : Lexeme} {ls : List Lexeme}, P (l :: ls) → P ls

/-- Tokens with the property stand in front of those coming. -/
def Before (P : List Lexeme → Prop) (coming ls : List Lexeme) : Prop :=
  ∃ front, ls = front ++ coming ∧ P front

/-- In front of the tokens coming, the action takes none of them. -/
class Stays {α : Type} (P : List Lexeme → Prop) (coming : List Lexeme) (m : Grammar α) : Prop where
  run : ∀ r : Reader, Before P coming r.ahead → Before P coming (m.after r).ahead

/-- The same, unless they are the next tokens. -/
class Within {α : Type} (P : List Lexeme → Prop) (coming : List Lexeme) (m : Grammar α) : Prop where
  run : ∀ (r : Reader) (l : Lexeme) (front : List Lexeme), r.ahead = l :: front ++ coming → P (l :: front) →
    Before P coming (m.after r).ahead

/-- A token of the kind begins no declaration. -/
class Plain (kind : TokenKind) : Prop where
  starts : kind.startsDeclaration = false

instance : Plain .ident := ⟨rfl⟩
instance : Plain .atIdent := ⟨rfl⟩
instance : Plain .equal := ⟨rfl⟩
instance : Plain .comma := ⟨rfl⟩
instance : Plain .colon := ⟨rfl⟩
instance : Plain .semicolon := ⟨rfl⟩

/-- A token of the kind opens a group. -/
class Opens (kind : TokenKind) : Prop where
  opens : kind.isOpener = true

instance : Opens .leftParen := ⟨rfl⟩
instance : Opens .leftBrace := ⟨rfl⟩

section

variable {P : List Lexeme → Prop} {coming : List Lexeme} {α β : Type} {m m' : Grammar α} {f : α → Grammar β}

instance (priority := low) [h : Looks m] : Stays P coming m :=
  ⟨fun r before => (h.after r).symm ▸ before⟩

instance : Stays P coming flush :=
  ⟨fun r before => r.flush_ahead.symm ▸ before⟩

instance (cause : SyntaxError.Cause) : Stays P coming (report cause) :=
  ⟨fun _ before => before⟩

theorem Stays.bind [hm : Stays P coming m] (hf : ∀ a, Stays P coming (f a)) : Stays P coming (m >>= f) :=
  ⟨fun r before => (hf _).run _ (hm.run r before)⟩

instance [Stays P coming m] [hf : ∀ a, Stays P coming (f a)] : Stays P coming (m >>= f) :=
  .bind hf

theorem Before.bind {r : Reader} [hf : ∀ a, Stays P coming (f a)] (hm : Before P coming (m.after r).ahead) :
    Before P coming ((m >>= f).after r).ahead :=
  (hf _).run _ hm

instance {c : Prop} [Decidable c] [Stays P coming m] [Stays P coming m'] :
    Stays P coming (if c then m else m') := by
  split <;> infer_instance

instance (kind : NodeKind) (body : Grammar Unit) [h : Stays P coming body] : Stays P coming (node kind body) :=
  ⟨fun r before => h.run (r.flush.start kind) (r.flush_ahead.symm ▸ before)⟩

instance (priority := low) [h : Stays P coming m] : Within P coming m :=
  ⟨fun r l front ahead has => h.run r ⟨l :: front, ahead, has⟩⟩

instance [Front P] : Within P coming bump where
  run r l front ahead has := by
    have behind : (bump.after r).ahead = r.ahead.tail := r.bump_ahead
    rw [behind, ahead]
    exact ⟨front, rfl, Front.tail has⟩

instance [h : Within P coming m] [hf : ∀ a, Stays P coming (f a)] : Within P coming (m >>= f) :=
  ⟨fun r l front ahead has => (hf _).run _ (h.run r l front ahead has)⟩

theorem Before.look {r : Reader} [hm : Looks m] (h : Before P coming ((f (m.answer r)).after r).ahead) :
    Before P coming ((m >>= f).after r).ahead := by
  have run : (m >>= f).after r = (f (m.answer r)).after r := congrArg Prod.snd (hm.run_bind f r)
  rw [run]
  exact h

theorem Within.look [Looks m] (hf : ∀ a, Within P coming (f a)) : Within P coming (m >>= f) :=
  ⟨fun r l front ahead has => .look ((hf _).run r l front ahead has)⟩

/-- The next token is loose. -/
theorem Within.next [Front P] {f : Option TokenKind → Grammar β}
    (loose : ∀ kind : TokenKind, kind.isLoose = true → Within P coming (f (some kind))) :
    Within P coming (current >>= f) where
  run r l front ahead has := by
    refine .look ?_
    rw [answer_current ahead]
    exact (loose _ (Front.loose has)).run r l front ahead has

instance (kind : NodeKind) (body : Grammar Unit) [h : Within P coming body] :
    Within P coming (node kind body) :=
  ⟨fun r l front ahead => h.run (r.flush.start kind) l front (r.flush_ahead.trans ahead)⟩

/-- Where a token that begins no declaration is next, it is one of those in front. -/
theorem Before.cases {ls : List Lexeme} [hc : Resumes coming] (h : Before P coming ls) :
    (ls = coming ∧ P [] ∧ ∃ d ds, coming = d :: ds ∧ d.kind.startsDeclaration = true) ∨
      ∃ l front, ls = l :: front ++ coming ∧ P (l :: front) := by
  obtain ⟨front, rfl, has⟩ := h
  cases front with
  | nil => exact .inl ⟨rfl, has, hc.head⟩
  | cons l front => exact .inr ⟨l, front, rfl, has⟩

theorem Stays.any {p : TokenKind → Bool} [Resumes coming] [hm : Within P coming m]
    [hm' : Stays P coming m'] (plain : ∀ kind : TokenKind, kind.startsDeclaration = true → p kind = false) :
    Stays P coming (do if ← looksAtAny p then m else m') where
  run r before := by
    refine .look ?_
    obtain ⟨here, -, d, ds, head, starts⟩ | ⟨l, front, ahead, has⟩ := before.cases
    · rw [answer_looksAtAny (here.trans head), plain _ starts, if_neg Bool.false_ne_true]
      exact hm'.run r before
    · split
      · exact hm.run r l front ahead has
      · exact hm'.run r before

instance (kind : TokenKind) [plain : Plain kind] [Resumes coming] [Within P coming m] [Stays P coming m'] :
    Stays P coming (looksAt kind >>= fun yes => if yes = true then m else m') := by
  have same : (looksAt kind >>= fun yes => if yes = true then m else m') =
      (looksAtAny (· == kind) >>= fun yes => if yes = true then m else m') := by
    funext r
    rcases r with ⟨_, _ | ⟨l, ls⟩, _, _, _, _⟩ <;> rfl
  rw [same]
  refine Stays.any fun k starts => beq_eq_false_iff_ne.2 fun same => ?_
  rw [same, plain.starts] at starts
  cases starts

/-- No group opens here. -/
instance (kind : TokenKind) [opens : Opens kind] [Front P] [Resumes coming] [hm' : Stays P coming m'] :
    Stays P coming (looksAt kind >>= fun yes => if yes = true then m else m') where
  run r before := by
    have opens := opens.opens
    have no : (looksAt kind).answer r = false := by
      obtain ⟨here, -, d, ds, head, starts⟩ | ⟨l, front, ahead, has⟩ := before.cases
      · rw [answer_looksAt (here.trans head)]
        refine beq_eq_false_iff_ne.2 fun same => ?_
        rw [same] at starts
        revert opens starts
        cases kind <;> decide
      · rw [answer_looksAt ahead]
        refine beq_eq_false_iff_ne.2 fun same => ?_
        have loose := Front.loose has
        rw [same, TokenKind.isLoose, opens] at loose
        cases loose
    refine .look ?_
    rw [no, if_neg Bool.false_ne_true]
    exact hm'.run r before

/-- The next token begins a declaration or is loose. -/
theorem Stays.next [Front P] [Resumes coming] {f : Option TokenKind → Grammar β}
    (starting : ∀ kind : TokenKind, kind.startsDeclaration = true → Stays P coming (f (some kind)))
    (loose : ∀ kind : TokenKind, kind.isLoose = true → Within P coming (f (some kind))) :
    Stays P coming (current >>= f) where
  run r before := by
    refine .look ?_
    obtain ⟨here, -, d, ds, head, starts⟩ | ⟨l, front, ahead, has⟩ := before.cases
    · rw [answer_current (here.trans head)]
      exact (starting _ starts).run r before
    · rw [answer_current ahead]
      exact (loose _ (Front.loose has)).run r l front ahead has

instance {α : Type} (step : α → Grammar (Option α)) (n : Nat) (a : α) [h : ∀ a, Stays P coming (step a)] :
    Stays P coming (loopAtMost step n a) := by
  induction n generalizing a with
  | zero => exact inferInstanceAs (Stays P coming (pure ()))
  | succ n ih =>
    refine .bind fun next? => ?_
    cases next? with
    | none => exact inferInstanceAs (Stays P coming (pure ()))
    | some next => exact ih next

instance {α : Type} (step : α → Grammar (Option α)) (a : α) [h : ∀ a, Stays P coming (step a)] :
    Stays P coming (loopFrom step a) := by
  unfold loopFrom
  infer_instance

instance (step : Grammar Bool) (u : Unit) [Stays P coming step] : Stays P coming (plain step u) := by
  unfold plain
  infer_instance

instance (step : Grammar Bool) [Stays P coming step] : Stays P coming (loop step) := by
  unfold loop
  infer_instance

end

/-! ## Actions that stay -/

section

variable {P : List Lexeme → Prop} [Front P] {coming : List Lexeme} [Resumes coming]

instance (kind : TokenKind) [Plain kind] : Stays P coming (skip kind) := by
  unfold skip
  infer_instance

instance (kind : TokenKind) (cause : SyntaxError.Cause) [Plain kind] : Stays P coming (expect kind cause) := by
  unfold expect
  infer_instance

instance : Stays P coming attributes := by
  have step : Stays P coming attributeStep := by
    unfold attributeStep
    infer_instance
  unfold attributes
  infer_instance

instance : Stays P coming name := by
  unfold name
  refine .any fun kind starts => ?_
  cases kind <;> first | rfl | cases starts

/-- The modifiers in front of a declaration. -/
def isModifier : TokenKind → Bool := fun kind => kind matches .externKw | .staticKw | .tlocalKw

instance : Stays P coming modifiers := by
  have step : Stays P coming (wordStep isModifier) := by
    unfold wordStep
    refine .any fun kind starts => ?_
    cases kind <;> first | rfl | cases starts
  exact inferInstanceAs (Stays P coming (loop (wordStep isModifier)))

/-! ### Types -/

omit [Front P] in
theorem front_suffix [hP : Front P] {front ls : List Lexeme} (h : P (front ++ ls)) : P ls := by
  induction front with
  | nil => exact h
  | cons l front ih => exact ih (hP.tail h)

/-- Reading a path takes what looking ahead skips. -/
theorem ahead_qualifier (r : Reader) : (qualifier.after r).ahead = Lookahead.afterPath r.ahead := by
  have productive : Productive (plain qualifierStep) := Steps.productive inferInstance
  have step (r : Reader) : (plain qualifierStep ()).run r =
      if (r.ahead.head?.map Lexeme.kind == some .ident && r.ahead[1]?.map Lexeme.kind == some .colonColon) = true
      then (some (), r.bump.bump) else (none, r) := by
    have run : qualifierStep.run r =
        (if (r.ahead.head?.map Lexeme.kind == some .ident &&
          r.ahead[1]?.map Lexeme.kind == some .colonColon) = true
        then (do bump; bump; return true) else return false : Grammar Bool).run r := rfl
    have round : (plain qualifierStep ()).run r =
        (if (qualifierStep.run r).1 then some () else none, (qualifierStep.run r).2) := rfl
    rw [round, run]
    split <;> rfl
  suffices loop : ∀ (ls : List Lexeme) (r : Reader), r.ahead = ls →
      ((loopFrom (plain qualifierStep) ()).after r).ahead = Lookahead.afterPath ls from loop _ r rfl
  intro ls
  have stops : ∀ r : Reader,
      ¬ (r.ahead.head?.map Lexeme.kind == some .ident &&
        r.ahead[1]?.map Lexeme.kind == some .colonColon) = true →
      ((loopFrom (plain qualifierStep) ()).after r).ahead = r.ahead := by
    intro r noPath
    have run := step r
    rw [if_neg noPath] at run
    rw [after, productive.run_loopFrom, answer, after, run]
  fun_induction Lookahead.afterPath ls with
  | case1 a b ls path ih =>
    intro r ahead
    have run := step r
    rw [if_pos (by rw [ahead]; simp [path.1, path.2])] at run
    rw [after, productive.run_loopFrom, answer, after, run]
    exact ih r.bump.bump (by rw [Reader.bump_ahead, Reader.bump_ahead, ahead]; rfl)
  | case2 a b ls noPath =>
    intro r ahead
    rw [stops r, ahead]
    rw [ahead]
    simpa using noPath
  | case3 ls short =>
    intro r ahead
    rw [stops r, ahead]
    rw [ahead]
    cases ls with
    | nil => simp
    | cons a ls =>
      cases ls with
      | nil => simp
      | cons b ls => exact absurd rfl (short a b ls)

omit [Front P] in
/-- A path ends in front of a declaration. -/
theorem afterPath_append (front : List Lexeme) :
    Lookahead.afterPath (front ++ coming) = Lookahead.afterPath front ++ coming := by
  obtain ⟨d, ds, rfl, starts⟩ := (inferInstance : Resumes coming).head
  have noName : d.kind ≠ .ident := fun same => by
    rw [same] at starts
    cases starts
  have noColons : d.kind ≠ .colonColon := fun same => by
    rw [same] at starts
    cases starts
  fun_induction Lookahead.afterPath front with
  | case1 a b ls path ih =>
    rw [List.cons_append, List.cons_append, Lookahead.afterPath, if_pos path, ih]
  | case2 a b ls noPath => rw [List.cons_append, List.cons_append, Lookahead.afterPath, if_neg noPath]
  | case3 ls short =>
    cases ls with
    | nil =>
      cases ds with
      | nil => rfl
      | cons e ds =>
        rw [List.nil_append, Lookahead.afterPath, if_neg fun path => noName path.1]
    | cons a ls =>
      cases ls with
      | nil => rw [List.cons_append, List.nil_append, Lookahead.afterPath, if_neg fun path => noColons path.2]
      | cons b ls => exact absurd rfl (short a b ls)

omit [Front P] in
theorem afterPath_suffix [hP : Front P] {front : List Lexeme} (h : P front) : P (Lookahead.afterPath front) := by
  fun_induction Lookahead.afterPath front with
  | case1 a b ls path ih => exact ih (hP.tail (hP.tail h))
  | case2 => exact h
  | case3 => exact h

instance : Stays P coming suffixes := by
  have step : Stays P coming suffixStep := by
    unfold suffixStep
    refine .next (fun kind starts => ?_) fun kind loose => ?_
    · cases kind <;> first | (cases starts; done) | exact inferInstanceAs (Stays P coming (pure false))
    · split <;> first | infer_instance | (next same => rw [Option.some.inj same] at loose; cases loose)
  unfold suffixes
  infer_instance

/-- Groups are not opened here, so no generic arguments follow. -/
instance (type : Bool → Grammar Unit) (inBraces : Bool) : Stays P coming (typeArgumentsWith type inBraces) := by
  unfold typeArgumentsWith
  refine .next (fun kind starts => ?_) fun kind loose => ?_
  · cases kind <;> first | (cases starts; done) | exact inferInstanceAs (Stays P coming (pure ()))
  · split <;> first | infer_instance | (next same => rw [Option.some.inj same] at loose; cases loose)

/-- Only the `fn` of a declaration can be taken for the name of a type. -/
theorem before_typeName (type : Bool → Grammar Unit) {r : Reader} (before : Before P coming r.ahead)
    (named : r.ahead = coming → Lookahead.headKind? coming ≠ some .fnKw) :
    Before P coming ((typeNameWith type).after r).ahead := by
  unfold typeNameWith
  refine .look ?_
  obtain ⟨here, -, d, ds, head, starts⟩ | ⟨l, front, ahead, has⟩ := before.cases
  · have noFunction : d.kind ≠ .fnKw := fun same => named here (by rw [head, ← same]; rfl)
    rw [answer_current (here.trans head)]
    cases kind : d.kind
    all_goals first
      | (rw [kind] at starts; cases starts; done)
      | exact absurd kind noFunction
      | exact (inferInstance : Stays P coming (report .noType)).run r before
  · have loose := Front.loose has
    rw [answer_current ahead]
    split
    all_goals first
      | exact (inferInstance : Within P coming _).run r l front ahead has
      | (next same => rw [Option.some.inj same] at loose; cases loose)

theorem before_type (braces : Bool) {r : Reader} {front : List Lexeme} (ahead : r.ahead = front ++ coming)
    (has : P front) (named : Lookahead.afterPath front = [] → Lookahead.headKind? coming ≠ some .fnKw) :
    Before P coming ((type braces).after r).ahead := by
  let inner := nestAtMost typeWith r.ahead.length
  let opened := r.flush.start .type
  let behind := qualifier.after opened
  have run : (type braces).after r = Reader.finish ((do
      typeNameWith inner
      typeArgumentsWith inner (braces && (behind.ahead.head?.map Lookahead.isUserType).getD false)
      suffixes : Grammar Unit).after behind) := rfl
  have path : behind.ahead = Lookahead.afterPath front ++ coming := by
    rw [ahead_qualifier, ← afterPath_append]
    exact congrArg _ (r.flush_ahead.trans ahead)
  have name := before_typeName inner ⟨_, path, afterPath_suffix has⟩ fun all => by
    rw [path, List.append_left_eq_self] at all
    exact named all
  rw [run]
  exact (inferInstance : Stays P coming (do
    typeArgumentsWith inner (braces && (behind.ahead.head?.map Lookahead.isUserType).getD false)
    suffixes)).run _ name

/-! ### Up to a token -/

theorem bumpWhole_of_isLoose {kind : TokenKind} (loose : kind.isLoose = true) : bumpWhole kind = bump := by
  refine if_neg fun opens => ?_
  rw [TokenKind.isLoose, opens] at loose
  cases loose

omit [Resumes coming] in
/-- Among the tokens one of the stops is found before the declaration. -/
theorem before_bumpUntil (stops : List TokenKind) {r : Reader} {front : List Lexeme}
    (ahead : r.ahead = front ++ coming) (has : P front) (stop : ∃ l ∈ front, stops.contains l.kind = true) :
    Before P coming ((bumpUntil stops).after r).ahead := by
  suffices most : ∀ (n : Nat) (r : Reader) (front : List Lexeme), r.ahead = front ++ coming → P front →
      (∃ l ∈ front, stops.contains l.kind = true) →
      Before P coming ((loopAtMost (plain (untilStep stops)) n ()).after r).ahead from most _ r front ahead has stop
  intro n
  induction n with
  | zero => exact fun r front ahead has _ => ⟨front, ahead, has⟩
  | succ n ih =>
    rintro r (_ | ⟨l, front⟩) ahead has ⟨stop, mem, stops'⟩
    · cases mem
    have looked (f : Option TokenKind → Grammar Bool) : (current >>= f) r = f (current.answer r) r := rfl
    have step : untilStep stops r =
        (if (stops.contains l.kind || l.kind.isCloser) = true then pure false else do
          bumpWhole l.kind
          return true : Grammar Bool) r := by
      rw [untilStep, looked, answer_current ahead]
    rw [bumpWhole_of_isLoose (Front.loose has)] at step
    have round : (plain (untilStep stops) ()) r =
        (if (untilStep stops r).1 then some () else none, (untilStep stops r).2) := rfl
    rw [after_loopAtMost_succ, answer, after, StateT.run, round, step]
    split
    next => exact ⟨l :: front, ahead, has⟩
    next goes =>
      rw [Bool.or_eq_true, not_or] at goes
      refine ih r.bump front (by rw [Reader.bump_ahead, ahead]; rfl) (Front.tail has) ?_
      rcases List.mem_cons.1 mem with rfl | later
      · exact absurd stops' goes.1
      · exact ⟨stop, later, stops'⟩

/-- What is assigned among the tokens ends among them. -/
class Settled (P : List Lexeme → Prop) : Prop where
  ends : ∀ {l : Lexeme} {ls : List Lexeme}, P (l :: ls) → l.kind = .equal →
    ∃ stop ∈ ls, stop.kind = .semicolon ∨ stop.kind = .comma

instance [Settled P] : Stays P coming initializer where
  run r before := by
    unfold initializer
    refine .look ?_
    obtain ⟨here, -, d, ds, head, starts⟩ | ⟨l, front, ahead, has⟩ := before.cases
    · have other : (d.kind == .equal) = false := beq_eq_false_iff_ne.2 fun same => by
        rw [same] at starts
        cases starts
      rw [answer_looksAt (here.trans head), other, if_neg Bool.false_ne_true]
      exact before
    · rw [answer_looksAt ahead]
      split
      next equal =>
        obtain ⟨stop, mem, kinds⟩ := Settled.ends has (beq_iff_eq.1 equal)
        have inside : (r.flush.start .initializer).bump.ahead = front ++ coming := by
          have same : (r.flush.start .initializer).ahead = l :: front ++ coming := r.flush_ahead.trans ahead
          rw [Reader.bump_ahead, same]
          rfl
        exact before_bumpUntil _ inside (Front.tail has)
          ⟨stop, mem, by rcases kinds with kind | kind <;> rw [kind] <;> rfl⟩
      next => exact before

instance [Settled P] : Stays P coming furtherVariables := by
  have step : Stays P coming furtherVariableStep := by
    refine ⟨fun r before => ?_⟩
    unfold furtherVariableStep
    refine .look (.look ?_)
    obtain ⟨here, -, d, ds, head, starts⟩ | ⟨l, front, ahead, has⟩ := before.cases
    · have other : (d.kind == .comma) = false := beq_eq_false_iff_ne.2 fun same => by
        rw [same] at starts
        cases starts
      rw [answer_looksAt (here.trans head), other, Bool.false_and, if_neg Bool.false_ne_true]
      exact before
    · split
      · exact (inferInstance : Within P coming (do
          bump
          name
          initializer
          return true : Grammar Bool)).run r l front ahead has
      · exact before
  unfold furtherVariables
  infer_instance

/-! ### What loose tokens are taken for -/

instance : Within P coming faultDefinition := by
  unfold faultDefinition
  infer_instance

theorem before_constant [Settled P] {r : Reader} {l : Lexeme} {front : List Lexeme}
    (ahead : r.ahead = l :: front ++ coming) (has : P (l :: front))
    (named : Lookahead.afterPath front = [] → Lookahead.headKind? coming ≠ some .fnKw) :
    Before P coming (constantDeclaration.after r).ahead := by
  have behind : r.bump.ahead = front ++ coming := by
    rw [Reader.bump_ahead, ahead]
    rfl
  let typed : Grammar Unit :=
    if (!((looksAtAny TokenKind.isVariableName).answer r.bump && (looksAtNthAny 1 fun kind =>
      kind == .equal || kind == .semicolon || kind == .atIdent).answer r.bump)) = true then type true
    else pure ()
  let rest : Grammar Unit := do
    name
    attributes
    initializer
    expect .semicolon .noSemicolon
  have run : constantDeclaration.after r = rest.after (typed.after r.bump) := by
    have run : constantDeclaration.after r =
        (if (!((looksAtAny TokenKind.isVariableName).answer r.bump && (looksAtNthAny 1 fun kind =>
          kind == .equal || kind == .semicolon || kind == .atIdent).answer r.bump)) = true then do
            type true
            rest
          else rest).after r.bump := rfl
    rw [run]
    dsimp only [typed]
    split <;> rfl
  have type : Before P coming (typed.after r.bump).ahead := by
    dsimp only [typed]
    split
    · exact before_type true behind (Front.tail has) named
    · exact ⟨front, behind, Front.tail has⟩
  rw [run]
  exact (inferInstance : Stays P coming rest).run _ type

omit [Front P] in
/-- The reserved word of a declaration is no name of a type. -/
theorem afterType?_of_path {front : List Lexeme} (all : Lookahead.afterPath front = []) :
    Lookahead.afterType? (front ++ coming) = none := by
  obtain ⟨d, ds, head, starts⟩ := (inferInstance : Resumes coming).head
  have noHead : ¬ Lookahead.isTypeHead d = true := fun is => by
    have begins := startsType_of_isTypeHead is
    unfold startsType at begins
    split at begins
    all_goals first | (next same => rw [same] at starts; cases starts) | cases begins
  rw [Lookahead.afterType?, afterPath_append, all, List.nil_append, head]
  exact if_neg noHead

theorem before_globals [Settled P] {r : Reader} {front : List Lexeme} (ahead : r.ahead = front ++ coming)
    (has : P front) (typed : Lookahead.atTypedName r.ahead = true) :
    Before P coming (globalVariables.after r).ahead := by
  have behind : Before P coming ((type true).after r).ahead := by
    refine before_type true ahead has fun all => ?_
    -- The name of the type would be the reserved word of the declaration.
    rw [Lookahead.atTypedName, ahead, afterType?_of_path all] at typed
    cases typed
  unfold globalVariables
  exact behind.bind

omit [Resumes coming] in
theorem within_skipStep (consumed : Bool) : Within P coming (skipStep consumed) := by
  unfold skipStep
  refine .next fun kind loose => .look fun ls => ?_
  split
  · exact inferInstanceAs (Within P coming (pure false))
  · split
    · infer_instance
    · cases loose
    · rw [bumpWhole_of_isLoose loose]
      infer_instance

/-- Once a token is skipped, skipping stops in front of a declaration. -/
theorem stays_skipStep : Stays P coming (skipStep true) := by
  have within : Within P coming (skipStep true) := within_skipStep true
  unfold skipStep at within ⊢
  refine ⟨fun r before => ?_⟩
  obtain ⟨here, -, d, ds, head, starts⟩ | ⟨l, front, ahead, has⟩ := before.cases
  · refine Before.look ?_
    rw [answer_current (here.trans head)]
    refine Before.look ?_
    rw [if_pos (by rw [starts]; rfl)]
    exact before
  · exact within.run r l front ahead has

/-- A token is skipped at least, and then no token that begins a declaration. -/
theorem before_recover {r : Reader} {l : Lexeme} {front : List Lexeme} (ahead : r.ahead = l :: front ++ coming)
    (has : P (l :: front)) : Before P coming (recover.after r).ahead := by
  suffices most : ∀ (start n : Nat) (r : Reader), start ≤ r.cursor → (r.ahead = coming → start < r.cursor) →
      Before P coming r.ahead →
      Before P coming ((loopAtMost (plain (recoveryStep start)) n ()).after r).ahead by
    refine most r.cursor _ (r.report .noDeclaration) (Nat.le_refl _) (fun none => ?_) ⟨_, ahead, has⟩
    exact absurd (congrArg List.length (ahead.symm.trans none)) (by simp; omega)
  intro start n
  induction n with
  | zero => exact fun r _ _ before => before
  | succ n ih =>
    intro r le moved before
    have step : (plain (recoveryStep start) ()).after r = (skipStep (r.cursor != start)).after r := by
      have run := congrArg Prod.snd (run_recoveryStep start r)
      exact run
    have first : Before P coming ((plain (recoveryStep start) ()).after r).ahead := by
      rw [step]
      obtain ⟨here, -, -⟩ | ⟨l, front, ahead, has⟩ := before.cases
      · have consumed : (r.cursor != start) = true := bne_iff_ne.2 (Nat.ne_of_gt (moved here))
        rw [consumed]
        exact stays_skipStep.run r before
      · exact (within_skipStep _).run r l front ahead has
    rw [after_loopAtMost_succ]
    cases goes : (plain (recoveryStep start) ()).answer r with
    | none => exact first
    | some next =>
      have later : start < ((plain (recoveryStep start) ()).after r).cursor :=
        Nat.lt_of_le_of_lt le (Steps.productive (inferInstance : Steps (recoveryStep start)) () next r goes)
      exact ih _ (Nat.le_of_lt later) (fun _ => later) first

end

/-! ## Half-typed lines -/

/-- The kind of the token at which a directive ends, if it does not end by itself. -/
def directiveEnd? (text : String) : Option TokenKind :=
  if ["$if", "$elif", "$switch", "$case", "$for", "$foreach"].contains text then some .colon
  else if ["$assert", "$include", "$exec", "$echo", "$error"].contains text then some .semicolon
  else none

/-- Whether something is assigned among the tokens that does not end there. -/
def hasOpenValue : List Lexeme → Bool
  | [] => false
  | l :: ls => (l.kind == .equal && ls.all fun t => t.kind != .semicolon && t.kind != .comma) || hasOpenValue ls

/-- Whether, somewhere among the tokens, something begins that has no end among them and so goes on into
what follows them, which begins with a token of the kind `next`: the path of the type of a constant, before
a function; the value of a constant or of a variable; a directive. -/
def hasOpenEnd (next : TokenKind) : List Lexeme → Bool
  | [] => false
  | l :: ls =>
    (l.kind == .constKw && next == .fnKw && (Lookahead.afterPath ls).isEmpty) ||
    ((l.kind == .constKw || Lookahead.atTypedName (l :: ls)) && hasOpenValue ls) ||
    (l.kind == .ctIdent && ((directiveEnd? l.text).map fun stop => ls.all (·.kind != stop)).getD false) ||
    hasOpenEnd next ls

/-- All tokens are loose. -/
def Loose (ls : List Lexeme) : Prop :=
  ∀ l ∈ ls, l.kind.isLoose = true

instance (ls : List Lexeme) : Decidable (Loose ls) :=
  inferInstanceAs (Decidable (∀ l ∈ ls, l.kind.isLoose = true))

instance : Front Loose where
  loose h := h _ List.mem_cons_self
  tail h := (List.forall_mem_cons.1 h).2

/-- Loose tokens among which all that is assigned ends. -/
structure Assigned (ls : List Lexeme) : Prop where
  loose : Loose ls
  ends : hasOpenValue ls = false

/-- Loose tokens among which all ends that begins there. -/
structure Ended (next : TokenKind) (ls : List Lexeme) : Prop where
  loose : Loose ls
  ends : hasOpenEnd next ls = false

instance (next : TokenKind) (ls : List Lexeme) : Decidable (Ended next ls) :=
  decidable_of_iff (Loose ls ∧ hasOpenEnd next ls = false) ⟨fun h => ⟨h.1, h.2⟩, fun h => ⟨h.loose, h.ends⟩⟩

instance : Front Assigned where
  loose h := h.loose _ List.mem_cons_self
  tail h := ⟨Front.tail h.loose, (Bool.or_eq_false_iff.1 h.ends).2⟩

instance : Settled Assigned where
  ends := by
    intro l ls h equal
    have no := (Bool.or_eq_false_iff.1 h.ends).1
    rw [equal, beq_self_eq_true, Bool.true_and, List.all_eq_false] at no
    obtain ⟨stop, mem, stops⟩ := no
    refine ⟨stop, mem, ?_⟩
    by_cases semicolon : stop.kind = .semicolon
    · exact .inl semicolon
    · exact .inr (by simpa [semicolon] using stops)

instance (next : TokenKind) : Front (Ended next) where
  loose h := h.loose _ List.mem_cons_self
  tail h := ⟨Front.tail h.loose, (Bool.or_eq_false_iff.1 h.ends).2⟩

section

variable {next : TokenKind} {l : Lexeme} {front coming : List Lexeme}

theorem Ended.typed (h : Ended next (l :: front)) (const : l.kind = .constKw)
    (path : Lookahead.afterPath front = []) : next ≠ .fnKw := by
  have first := h.ends
  rw [hasOpenEnd, const, path] at first
  intro function
  rw [function] at first
  simp at first

theorem Ended.assigned (h : Ended next (l :: front))
    (declares : l.kind = .constKw ∨ Lookahead.atTypedName (l :: front) = true) : Assigned (l :: front) := by
  have first := h.ends
  rw [hasOpenEnd] at first
  have value : hasOpenValue front = false := by
    rcases declares with const | typed
    · simp [const] at first
      exact first.1.2
    · simp [typed] at first
      exact first.1.1.2
  refine ⟨h.loose, ?_⟩
  have noEqual : (l.kind == .equal) = false := beq_eq_false_iff_ne.2 fun equal => by
    rcases declares with const | typed
    · rw [equal] at const
      cases const
    · have begins : startsType l.kind = true := by
        rw [Lookahead.atTypedName] at typed
        cases found : Lookahead.afterType? (l :: front) with
        | none =>
          rw [found] at typed
          cases typed
        | some behind => exact startsType_of_afterType? found
      rw [equal] at begins
      cases begins
  rw [hasOpenValue, noEqual, value]
  rfl

theorem Ended.directive (h : Ended next (l :: front)) (word : l.kind = .ctIdent) {stop : TokenKind}
    (ends : directiveEnd? l.text = some stop) : ∃ t ∈ front, t.kind = stop := by
  have first := h.ends
  rw [hasOpenEnd, word, ends] at first
  have closed := (Bool.or_eq_false_iff.1 (Bool.or_eq_false_iff.1 first).1).2
  simpa using closed

variable [Resumes coming]

theorem afterSuffixes?_append (loose : Loose front) :
    Lookahead.afterSuffixes? 0 (front ++ coming) = (Lookahead.afterSuffixes? 0 front).map (· ++ coming) := by
  induction front with
  | nil =>
    obtain ⟨d, ds, rfl, starts⟩ := (inferInstance : Resumes coming).head
    have stops : Lookahead.afterSuffixes? 0 (d :: ds) = some (d :: ds) := by
      rw [Lookahead.afterSuffixes?, if_pos rfl]
      split
      all_goals first | (next same => rw [same] at starts; cases starts) | rfl
    exact stops
  | cons l front ih =>
    obtain ⟨first, others⟩ := List.forall_mem_cons.1 loose
    rw [List.cons_append, Lookahead.afterSuffixes?, Lookahead.afterSuffixes?, if_pos rfl, if_pos rfl]
    split
    all_goals first | (next same => rw [same] at first; cases first; done) | exact ih others | rfl

omit [Resumes coming] in
/-- Without a bracket there are no generic arguments. -/
theorem afterArguments?_of_plain (head : Lexeme) {ls : List Lexeme}
    (plain : ∀ l ∈ ls.head?, l.kind.isOpener = false) : Lookahead.afterArguments? head ls = some ls := by
  rw [Lookahead.afterArguments?]
  cases ls with
  | nil => rfl
  | cons l ls =>
    have closed := plain l rfl
    dsimp only [List.head?_cons, Option.map_some]
    split
    all_goals first | (next same => rw [Option.some.inj same] at closed; cases closed) | rfl

theorem isOpener_of_isLoose {kind : TokenKind} (h : kind.isLoose = true) : kind.isOpener = false := by
  rw [TokenKind.isLoose, Bool.not_eq_true', Bool.or_eq_false_iff, Bool.or_eq_false_iff] at h
  exact h.1.1

/-- A type and the name behind it are recognised among loose tokens whatever follows. -/
theorem atTypedName_append (loose : Loose front) (typed : Lookahead.atTypedName (front ++ coming) = true) :
    Lookahead.atTypedName front = true := by
  obtain ⟨d, ds, starting, starts⟩ := (inferInstance : Resumes coming).head
  cases path : Lookahead.afterPath front with
  | nil =>
    rw [Lookahead.atTypedName, afterType?_of_path path] at typed
    cases typed
  | cons head rest =>
    have inside : Loose rest := Front.tail (path ▸ afterPath_suffix loose : Loose (head :: rest))
    have noGroup : ∀ l ∈ (rest ++ coming).head?, l.kind.isOpener = false := by
      intro l first
      cases rest with
      | nil =>
        rw [starting] at first
        cases first
        revert starts
        cases d.kind <;> first | exact fun _ => rfl | exact fun no => absurd no Bool.false_ne_true
      | cons x rest =>
        cases first
        exact isOpener_of_isLoose (Front.loose inside)
    have noGroup' : ∀ l ∈ rest.head?, l.kind.isOpener = false :=
      fun l first => isOpener_of_isLoose (inside l (List.mem_of_mem_head? first))
    rw [Lookahead.atTypedName, Lookahead.afterType?, afterPath_append, path, List.cons_append] at typed
    rw [Lookahead.atTypedName, Lookahead.afterType?, path]
    dsimp only at typed ⊢
    rw [afterArguments?_of_plain head noGroup, Option.bind_some, afterSuffixes?_append inside] at typed
    rw [afterArguments?_of_plain head noGroup', Option.bind_some]
    split at typed
    next is =>
      rw [if_pos is]
      cases behind : Lookahead.afterSuffixes? 0 rest with
      | none =>
        rw [behind] at typed
        cases typed
      | some behind' =>
        rw [behind] at typed
        cases behind' with
        | nil =>
          rw [starting] at typed
          have name : d.kind.isVariableName = true := typed
          revert starts name
          cases d.kind <;> first | exact fun no => absurd no Bool.false_ne_true | exact fun _ no => absurd no Bool.false_ne_true
        | cons x behind' => exact typed
    next => cases typed

end

/-! ## Items of loose tokens -/

/-- The action adds tokens and no nodes to the tree. -/
class Leafy {α : Type} (m : Grammar α) : Prop where
  leaves : ∀ r : Reader, ∃ ts : List Token, r.Adds (m.after r) (ts.map .leaf)

section

variable {α β : Type} {m m' : Grammar α} {f : α → Grammar β}

instance (priority := low) [h : Looks m] : Leafy m :=
  ⟨fun r => ⟨[], (h.after r).symm ▸ .refl r⟩⟩

instance : Leafy bump where
  leaves r := by
    cases ahead : r.ahead with
    | nil =>
      have flushed : bump.after r = r.flush := Reader.bump_of_nil ahead
      exact ⟨r.blanks, flushed ▸ (Reader.Builds.flush r).adds⟩
    | cons l ls => exact ⟨r.blanks ++ [l.token], by rw [List.map_append]; exact (Reader.Builds.bump ahead).adds⟩

theorem Leafy.bind [hm : Leafy m] (hf : ∀ a, Leafy (f a)) : Leafy (m >>= f) where
  leaves r := by
    obtain ⟨ts, first⟩ := hm.leaves r
    obtain ⟨us, second⟩ := (hf (m.answer r)).leaves (m.after r)
    exact ⟨ts ++ us, by rw [List.map_append]; exact first.trans second⟩

instance [Leafy m] [hf : ∀ a, Leafy (f a)] : Leafy (m >>= f) :=
  .bind hf

instance {c : Prop} [Decidable c] [Leafy m] [Leafy m'] : Leafy (if c then m else m') := by
  split <;> infer_instance

instance (step : α → Grammar (Option α)) (n : Nat) (a : α) [h : ∀ a, Leafy (step a)] :
    Leafy (loopAtMost step n a) := by
  induction n generalizing a with
  | zero => exact inferInstanceAs (Leafy (pure ()))
  | succ n ih =>
    refine .bind fun next? => ?_
    cases next? with
    | none => exact inferInstanceAs (Leafy (pure ()))
    | some next => exact ih next

instance (step : α → Grammar (Option α)) (a : α) [h : ∀ a, Leafy (step a)] : Leafy (loopFrom step a) := by
  unfold loopFrom
  infer_instance

end

instance (step : Grammar Bool) [Leafy step] : Leafy (loop step) := by
  unfold loop plain
  infer_instance

instance (kind : TokenKind) : Leafy (skip kind) := by
  unfold skip
  infer_instance

instance (kind : TokenKind) : Leafy (bumpWhole kind) := by
  have step (depth : Nat) : Leafy (groupStep depth) := by
    unfold groupStep
    refine .bind fun kind? => ?_
    split <;> infer_instance
  unfold bumpWhole bumpGroup
  infer_instance

instance (stops : List TokenKind) : Leafy (bumpUntil stops) := by
  have step : Leafy (untilStep stops) := by
    unfold untilStep
    refine .bind fun kind? => ?_
    split <;> infer_instance
  unfold bumpUntil
  infer_instance

instance : Leafy directive := by
  unfold directive
  infer_instance

instance : Leafy modifiers := by
  unfold modifiers wordStep
  infer_instance

/-- The trees are no declarations of modules. -/
def NoModules (ts : List Tree) : Prop :=
  ∀ t ∈ ts, t.nodeKind? ≠ some .moduleDecl

theorem NoModules.append {ts us : List Tree} (h : NoModules ts) (k : NoModules us) : NoModules (ts ++ us) :=
  List.forall_mem_append.2 ⟨h, k⟩

theorem noModules_leaves (ts : List Token) : NoModules (ts.map .leaf) := by
  intro t ht
  obtain ⟨token, -, rfl⟩ := List.mem_map.1 ht
  exact nofun

section

variable {next : TokenKind} {coming : List Lexeme} [Resumes coming]

omit [Resumes coming] in
/-- What is left of the tokens still ends. -/
theorem Ended.before {P : List Lexeme → Prop} {r s : Reader} {front : List Lexeme} (ahead : r.ahead = front ++ coming)
    (ended : Ended next front) (run : r.Run s) (before : Before P coming s.ahead) :
    Before (Ended next) coming s.ahead := by
  obtain ⟨left, same, -⟩ := before
  obtain ⟨taken, whole⟩ := run.ahead_suffix
  rw [same, ahead, ← List.append_assoc] at whole
  exact ⟨left, same, front_suffix (List.append_cancel_right whole ▸ ended)⟩

omit [Resumes coming] in
/-- The modifiers in front are taken. -/
theorem ahead_modifiers (r : Reader) :
    (modifiers.after r).ahead = r.ahead.dropWhile fun l => isModifier l.kind := by
  have productive : Productive (plain (wordStep isModifier)) := Steps.productive inferInstance
  suffices loop : ∀ (ls : List Lexeme) (r : Reader), r.ahead = ls →
      ((loopFrom (plain (wordStep isModifier)) ()).after r).ahead = ls.dropWhile fun l => isModifier l.kind from
    loop _ r rfl
  have step (r : Reader) : (plain (wordStep isModifier) ()).run r =
      if (looksAtAny isModifier).answer r = true then (some (), r.bump) else (none, r) := by
    have run : (wordStep isModifier).run r = (if (looksAtAny isModifier).answer r = true then
        (do bump; return true) else return false : Grammar Bool).run r := rfl
    have round : (plain (wordStep isModifier) ()).run r =
        (if ((wordStep isModifier).run r).1 then some () else none, ((wordStep isModifier).run r).2) := rfl
    rw [round, run]
    split <;> rfl
  intro ls
  induction ls with
  | nil =>
    intro r ahead
    have nothing : (looksAtAny isModifier).answer r = false := by
      have answer : (looksAtAny isModifier).answer r =
          ((r.ahead.head?.map Lexeme.kind).map isModifier).getD false := rfl
      rw [answer, ahead]
      rfl
    rw [after, productive.run_loopFrom, answer, after, step, nothing]
    exact ahead
  | cons l ls ih =>
    intro r ahead
    rw [after, productive.run_loopFrom, answer, after, step, answer_looksAtAny ahead, List.dropWhile_cons]
    cases isModifier l.kind with
    | true => exact ih r.bump (by rw [Reader.bump_ahead, ahead]; rfl)
    | false => exact ahead

/-- From the reader on, the action reads a directive, or makes one node since the checkpoint that declares
no module, and stops in front of the tokens coming. -/
structure Sidesteps (coming : List Lexeme) (c : Checkpoint) (r : Reader) (m : Grammar Unit) : Prop where
  stops : ∃ P, Before P coming (m.after r).ahead
  makes : (∃ kind body, kind ≠ .moduleDecl ∧ Reads body ∧ m.after r = (nodeFrom c kind body).after r) ∨
    m.after r = directive.after r

omit [Resumes coming] in
theorem Sidesteps.look {α : Type} {c : Checkpoint} {r : Reader} {m : Grammar α} {f : α → Grammar Unit}
    [hm : Looks m] (h : Sidesteps coming c r (f (m.answer r))) : Sidesteps coming c r (m >>= f) := by
  have same : (m >>= f).after r = (f (m.answer r)).after r := congrArg Prod.snd (hm.run_bind f r)
  exact ⟨same ▸ h.stops, same ▸ h.makes⟩

omit [Resumes coming] in
theorem before_directive [hc : Resumes coming] {r : Reader} {l : Lexeme} {front : List Lexeme}
    (ahead : r.ahead = l :: front ++ coming) (ended : Ended next (l :: front)) (word : l.kind = .ctIdent) :
    Before (Ended next) coming (directive.after r).ahead := by
  have behind : r.bump.ahead = front ++ coming := by
    rw [Reader.bump_ahead, ahead]
    rfl
  have text : currentText.answer r = l.text := by
    have answer : currentText.answer r = (r.ahead.head?.map Lexeme.text).getD "" := rfl
    rw [answer, ahead]
    rfl
  have upTo (stop : TokenKind) [Plain stop] (ends : directiveEnd? l.text = some stop) :
      Before (Ended next) coming ((do
        bumpUntil [stop]
        skip stop : Grammar Unit).after r.bump).ahead := by
    obtain ⟨t, mem, same⟩ := ended.directive word ends
    exact (before_bumpUntil [stop] behind (Front.tail ended) ⟨t, mem, by simp [same]⟩).bind
  unfold directive
  refine .look ?_
  rw [text]
  have run (m : Grammar Unit) : (bump >>= fun _ => m).after r = m.after r.bump := rfl
  rw [run]
  split
  next colon => exact upTo .colon (by rw [directiveEnd?, if_pos colon])
  next other =>
    split
    next semicolon => exact upTo .semicolon (by rw [directiveEnd?, if_neg other, if_pos semicolon])
    next => exact (inferInstance : Stays (Ended next) coming (skip .colon)).run _ ⟨front, behind, Front.tail ended⟩

theorem sidesteps_unmodified (c : Checkpoint) {r : Reader} {l : Lexeme} {front : List Lexeme}
    (ahead : r.ahead = l :: front ++ coming) (ended : Ended next (l :: front))
    (head : Lookahead.headKind? coming = some next) : Sidesteps coming c r (unmodified c) := by
  have loose : l.kind.isLoose = true := Front.loose ended
  have node {kind : NodeKind} {body : Grammar Unit} (other : kind ≠ .moduleDecl) (reads : Reads body)
      {P : List Lexeme → Prop} (stops : Before P coming (body.after (r.startAt c kind)).ahead) :
      Sidesteps coming c r (nodeFrom c kind body) :=
    ⟨⟨P, stops⟩, .inl ⟨kind, body, other, reads, rfl⟩⟩
  have started (kind : NodeKind) : (r.startAt c kind).ahead = l :: front ++ coming := ahead
  have taken : Grammar.ahead.answer r = r.ahead := rfl
  unfold unmodified
  refine .look (.look ?_)
  rw [answer_current ahead, taken]
  split
  all_goals try
    next same =>
      rw [Option.some.inj same] at loose
      cases loose
  next same =>
    have const : l.kind = .constKw := Option.some.inj same
    refine node (by decide) inferInstance (before_constant (started _) (ended.assigned (.inl const)) fun path => ?_)
    rw [head]
    exact fun function => ended.typed const path (Option.some.inj function)
  next same =>
    cases same
    split
    · exact node (by decide) inferInstance
        ((inferInstance : Within (Ended next) coming faultDefinition).run _ _ _ (started _) ended)
    · split
      next directs =>
        rw [ahead] at directs
        have word : l.kind = .ctIdent := beq_iff_eq.1 (Bool.and_eq_true_iff.1 directs).1
        exact ⟨⟨_, before_directive ahead ended word⟩, .inr rfl⟩
      next =>
        split
        next typed =>
          have inside : Lookahead.atTypedName (l :: front) = true :=
            atTypedName_append ended.loose (by rw [← ahead]; exact typed)
          exact node (by decide) inferInstance
            (before_globals (started _) (ended.assigned (.inr inside)) typed)
        next => exact node (by decide) inferInstance (before_recover (started _) ended)
  next same => cases same

/-- Loose tokens in front of a declaration begin an item that ends in front of it, unless they are
modifiers that belong to it. -/
theorem item_front {r : Reader} {front : List Lexeme} (ahead : r.ahead = front ++ coming)
    (ended : Ended next front) (head : Lookahead.headKind? coming = some next) :
    (∀ l ∈ front, isModifier l.kind = true) ∨
      ∃ ts, r.Adds (item.after r) ts ∧ NoModules ts ∧ Before (Ended next) coming (item.after r).ahead := by
  obtain ⟨d, ds, starting, starts⟩ := (inferInstance : Resumes coming).head
  let words := modifiers.after r.flush
  have run : item.after r = (unmodified r.flush.checkpoint).after words := rfl
  have left : words.ahead = (front ++ coming).dropWhile fun l => isModifier l.kind := by
    rw [← ahead, ← r.flush_ahead]
    exact ahead_modifiers r.flush
  cases rest : front.dropWhile fun l => isModifier l.kind with
  | nil => exact .inl (List.dropWhile_eq_nil_iff.1 rest)
  | cons l front' =>
    right
    have there : words.ahead = l :: front' ++ coming := by
      rw [left, List.dropWhile_append, rest]
      rfl
    have suffix : (l :: front') <:+ front := rest ▸ List.dropWhile_suffix _
    have ended' : Ended next (l :: front') := by
      obtain ⟨taken, whole⟩ := suffix
      exact front_suffix (whole.symm ▸ ended : Ended next (taken ++ l :: front'))
    have sidesteps := sidesteps_unmodified r.flush.checkpoint there ended' head
    obtain ⟨P, stops⟩ := sidesteps.stops
    have before : Before (Ended next) coming (item.after r).ahead :=
      ended.before ahead ((inferInstance : Reads item).run r) (run ▸ stops)
    obtain ⟨ms, modified⟩ := (inferInstance : Leafy modifiers).leaves r.flush
    have blanks := (Reader.Builds.flush r).adds
    obtain ⟨kind, body, other, reads, makes⟩ | directs := sidesteps.makes
    · obtain ⟨us, built⟩ := (reads.run (words.startAt r.flush.checkpoint kind)).built
      have added := (modified.startAt kind built.adds).finish
      refine ⟨_, blanks.trans (by rw [run, makes]; exact added), .append (noModules_leaves _) ?_, before⟩
      exact fun t ht => List.mem_singleton.1 ht ▸ fun same => other (Option.some.inj same)
    · obtain ⟨ts, added⟩ := (inferInstance : Leafy directive).leaves words
      refine ⟨_, blanks.trans (by rw [run, directs]; exact modified.trans added), ?_, before⟩
      exact .append (noModules_leaves _) (.append (noModules_leaves _) (noModules_leaves _))

end

end Grammar

end C3Lens
