import C3Lens.Proofs.Blueprint.Lexing
import C3Lens.Proofs.Syntax.Takes

/-!
# The syntax tree of a blueprint

In front of the tokens of a blueprint the grammar gathers the trees of the blueprint and notes no error:
each part is taken by the action for its construct (`Grammar.Takes`), and from the parts a declaration
(`Blueprint.Item.IsProper.takes`) and all of them (`Blueprint.takes_declarations`).

What stands behind a part is known by its first token: `Begins` lists what it can be, `Avoids` what it
must not be for an optional part to be left out.
-/

namespace C3Lens

open C3Lens.Tree (tokensOfList)

namespace Blueprint

open Grammar (Takes Sees)
open Token (bareLexeme)

/-- The next token is of one of the kinds. -/
def Begins (kinds : List TokenKind) (rest : List Token) : Prop :=
  ∃ t ts, rest = t :: ts ∧ t.kind ∈ kinds

/-- The next token, if there is one, is of none of the kinds. -/
def Avoids (kinds : List TokenKind) (rest : List Token) : Prop :=
  ∀ kind ∈ kinds, (rest.head?.map Token.kind == some kind) = false

theorem Avoids.fewer {kinds others : List TokenKind} {rest : List Token} (h : Avoids kinds rest)
    (fewer : ∀ other ∈ others, other ∈ kinds) : Avoids others rest :=
  fun other mem => h other (fewer other mem)

theorem Avoids.ne {kinds : List TokenKind} {kind : TokenKind} {rest : List Token} (h : Avoids kinds rest)
    (mem : kind ∈ kinds) : rest.head?.map Token.kind ≠ some kind := by
  simpa using h kind mem

theorem Begins.avoids {kinds others : List TokenKind} {rest : List Token} (h : Begins kinds rest)
    (apart : ∀ kind ∈ kinds, ∀ other ∈ others, kind ≠ other) : Avoids others rest := by
  obtain ⟨t, ts, rfl, mem⟩ := h
  intro other hother
  simpa using apart _ mem other hother

/-! ## Types -/

/-- What stands behind the name of a type: a mark or another name. -/
theorem begins_marks (t : WrittenType) {rest : List Token} (h : Begins [.ident] rest) :
    Begins [.star, .leftBracket, .ident]
      (tokensOfList (List.replicate t.stars (.leaf ⟨.star, "*"⟩) ++ (t.mark?.map markTree).toList) ++ rest) := by
  obtain ⟨u, us, rfl, mem⟩ := h
  have ident : u.kind = .ident := List.mem_singleton.1 mem
  cases t.stars with
  | succ n => exact ⟨_, _, rfl, by decide⟩
  | zero =>
    cases t.mark? with
    | none => exact ⟨_, _, rfl, by simp [ident]⟩
    | some size? => exact ⟨_, _, rfl, by decide⟩

theorem takes_groupStep {t : Token} (plain : t.kind.isTrivia = false) (depth : Nat) :
    Takes (Grammar.groupStep depth)
      (if Lookahead.deeper depth t.kind = 0 then none else some (Lookahead.deeper depth t.kind)) [.leaf t]
      fun _ => True :=
  .look (a := some t.kind) Grammar.sees_current (.cons (.bump plain) (.pure _) fun _ _ => trivial) fun _ _ => rfl

/-- Brackets with a numeral between them, or with nothing. -/
theorem takes_arraySuffix (numeral? : Option String) :
    Takes (Grammar.node .arraySuffix Grammar.bumpGroup) () [.node .arraySuffix
      (bracketed ⟨.leftBracket, "["⟩ ⟨.rightBracket, "]"⟩
        (numeral?.map fun numeral => Tree.leaf ⟨.intNumber, numeral⟩).toList)] fun _ => True := by
  refine .node _ (.loopFrom fun n enough => ?_)
  have opener := takes_groupStep (t := ⟨.leftBracket, "["⟩) rfl 0
  have closer := takes_groupStep (t := ⟨.rightBracket, "]"⟩) rfl 1
  cases numeral? with
  | none =>
    obtain _ | _ | n := n
    · simp at enough
    · simp [bracketed, tokensOfList, Tree.tokens] at enough
    · exact .cons opener (.cons closer (.pure ()) fun _ _ => trivial) fun _ _ => trivial
  | some numeral =>
    have number := takes_groupStep (t := ⟨.intNumber, numeral⟩) rfl 1
    obtain _ | _ | _ | n := n
    · simp at enough
    · simp [bracketed, tokensOfList, Tree.tokens] at enough
    · simp [bracketed, tokensOfList, Tree.tokens] at enough
    · exact .cons opener (.cons number (.cons closer (.pure ()) fun _ _ => trivial) fun _ _ => trivial)
        fun _ _ => trivial

theorem takes_mark (size? : Option Nat) :
    Takes (Grammar.node .arraySuffix Grammar.bumpGroup) () [markTree size?] fun _ => True := by
  cases size? with
  | none => exact takes_arraySuffix none
  | some size => exact takes_arraySuffix (some (toString size))

theorem takes_suffixes (t : WrittenType) :
    Takes Grammar.suffixes () (List.replicate t.stars (.leaf ⟨.star, "*"⟩) ++ (t.mark?.map markTree).toList)
      (Begins [.ident]) := by
  have cases_mark {p : Tree → Prop} (star : p (.leaf ⟨.star, "*"⟩)) (mark : ∀ size?, p (markTree size?)) :
      ∀ u ∈ List.replicate t.stars (.leaf ⟨.star, "*"⟩) ++ (t.mark?.map markTree).toList, p u := by
    intro u mem
    rcases List.mem_append.1 mem with mem | mem
    · rwa [List.eq_of_mem_replicate mem]
    · obtain ⟨size?, -, rfl⟩ := Option.map_eq_some_iff.1 (Option.mem_toList.1 mem)
      exact mark size?
  refine .loopEach (P := fun _ => True) (cases_mark ?_ fun size? => ?_) (cases_mark nofun nofun)
    (fun _ _ _ => trivial) ?_ fun _ _ => trivial
  · exact .look (a := some .star) Grammar.sees_current (.cons (.bump rfl) (.pure true) fun _ _ => trivial)
      fun _ _ => rfl
  · exact .look (a := some .leftBracket) Grammar.sees_current
      (.cons (takes_mark size?) (.pure true) fun _ _ => trivial) fun _ _ => rfl
  · refine .look (a := some TokenKind.ident) Grammar.sees_current (.pure false) fun rest h => ?_
    obtain ⟨u, us, rfl, mem⟩ := h
    exact congrArg some (List.mem_singleton.1 mem)

/-- A name that no path stands before. -/
def BareName (rest : List Token) : Prop :=
  ∃ t ts, rest = t :: ts ∧ t.kind = .ident ∧ Begins [.star, .leftBracket, .ident] ts

theorem takes_noQualifier : Takes Grammar.qualifier () [] BareName := by
  refine .loop_none (.present (.look (a := false) (Grammar.sees_looksAtNth _ _) (.pure false) ?_) ?_)
  · rintro _ ⟨t, _, rfl, -, u, us, rfl, mem⟩
    simp only [List.mem_cons, List.not_mem_nil, or_false] at mem
    rcases mem with mark | mark | mark <;> simp [tokensOfList, mark]
  · rintro _ ⟨t, _, rfl, ident, -⟩
    simp [tokensOfList, ident]

theorem WrittenType.tokens_tree (t : WrittenType) : t.tree.tokens = ⟨.ident, t.name⟩ ::
    tokensOfList (List.replicate t.stars (.leaf ⟨.star, "*"⟩) ++ (t.mark?.map markTree).toList) :=
  rfl

theorem takes_noArguments {nested : Bool → Grammar Unit} (braces : Bool) :
    Takes (Grammar.typeArgumentsWith nested braces) () [] (Begins [.star, .leftBracket, .ident]) := by
  refine .lookEach Grammar.sees_current fun rest h => ?_
  obtain ⟨u, us, rfl, mem⟩ := h
  have nothing : Takes (pure () : Grammar Unit) () [] (Begins [.star, .leftBracket, .ident]) := .pure ()
  simp only [List.mem_cons, List.not_mem_nil, or_false] at mem
  rcases mem with mark | mark | mark <;>
    simpa only [tokensOfList, List.nil_append, List.head?_cons, Option.map_some, mark] using nothing

/-- In front of a name the grammar takes a type. -/
theorem WrittenType.takes (t : WrittenType) (braces : Bool) :
    Takes (Grammar.type braces) () [t.tree] (Begins [.ident]) := by
  refine .nest fun nested => .node .type ?_
  have head : Takes (Grammar.typeNameWith nested) () [word t.name] fun _ => True :=
    .look (a := some TokenKind.ident) Grammar.sees_current (.bump rfl) fun _ _ => rfl
  refine .nothing takes_noQualifier (.lookAhead fun ls _ _ _ => ?_) fun rest h => ?_
  · refine head.cons ?_ fun _ _ => trivial
    exact .nothing (takes_noArguments _) (takes_suffixes t) fun rest h => begins_marks t h
  · exact ⟨_, _, rfl, rfl, begins_marks t h⟩

theorem WrittenType.bareName (t : WrittenType) {rest : List Token} (h : Begins [.ident] rest) :
    BareName (t.tree.tokens ++ rest) :=
  ⟨_, _, rfl, rfl, begins_marks t h⟩

theorem afterSuffixes?_marks (n : Nat) (mark? : Option (Option Nat)) {rest : List Token}
    (h : Begins [.ident] rest) :
    Lookahead.afterSuffixes? 0
        ((tokensOfList (List.replicate n (.leaf ⟨.star, "*"⟩) ++ (mark?.map markTree).toList) ++ rest).map bareLexeme) =
      some (rest.map bareLexeme) := by
  induction n with
  | succ n ih => exact ih
  | zero =>
    obtain ⟨t, ts, rfl, mem⟩ := h
    have stops : Lookahead.afterSuffixes? 0 ((t :: ts).map bareLexeme) = some ((t :: ts).map bareLexeme) := by
      have ident : (bareLexeme t).kind = .ident := List.mem_singleton.1 mem
      rw [List.map_cons, Lookahead.afterSuffixes?, if_pos rfl, ident]
    rcases mark? with _ | _ | size <;> exact stops

/-- Looking ahead finds what stands behind the type. -/
theorem WrittenType.IsProper.afterType? {t : WrittenType} (h : t.IsProper) {rest : List Token}
    (behind : Begins [.ident] rest) :
    Lookahead.afterType? ((t.tree.tokens ++ rest).map bareLexeme) = some (rest.map bareLexeme) := by
  obtain ⟨u, us, marks, mem⟩ := begins_marks t behind
  have suffixes := afterSuffixes?_marks t.stars t.mark? behind
  rw [marks, List.map_cons] at suffixes
  rw [t.tokens_tree, List.cons_append, marks, List.map_cons, List.map_cons]
  have path : Lookahead.afterPath (bareLexeme ⟨.ident, t.name⟩ :: bareLexeme u :: us.map bareLexeme) =
      bareLexeme ⟨.ident, t.name⟩ :: bareLexeme u :: us.map bareLexeme := by
    rw [Lookahead.afterPath, if_neg]
    rintro ⟨-, colons⟩
    have colons : u.kind = .colonColon := colons
    rw [colons] at mem
    exact absurd mem (by decide)
  have head : Lookahead.isTypeHead (bareLexeme ⟨.ident, t.name⟩) = true := by
    rcases h with ⟨builtin, -⟩ | ⟨-, user⟩
    · exact Bool.or_eq_true_iff.2 (.inr builtin)
    · exact Bool.or_eq_true_iff.2 (.inl user)
  have arguments : Lookahead.afterArguments? (bareLexeme ⟨.ident, t.name⟩) (bareLexeme u :: us.map bareLexeme) =
      some (bareLexeme u :: us.map bareLexeme) := by
    have kind : (bareLexeme u).kind = u.kind := rfl
    simp only [List.mem_cons, List.not_mem_nil, or_false] at mem
    rcases mem with mark | mark | mark <;>
      simp only [Lookahead.afterArguments?, List.head?_cons, Option.map_some, kind, mark]
  rw [Lookahead.afterType?, path]
  dsimp only
  rw [if_pos head, arguments, Option.bind_some, suffixes]

/-! ## Names -/

theorem takes_name (name : String) : Takes Grammar.name () [nameTree name] fun _ => True :=
  .look (a := true) (Grammar.sees_looksAtAny _) (.node .name (.bump rfl)) fun _ _ => rfl

theorem takes_noAttributes : Takes Grammar.attributes () [] (Avoids [.atIdent]) :=
  .loop_none (.absent (.pure false) fun rest h => h _ (by decide))

theorem takes_noInitializer : Takes Grammar.initializer () [] (Avoids [.equal]) :=
  .absent (.pure ()) fun rest h => h _ (by decide)

theorem takes_noFurtherVariables : Takes Grammar.furtherVariables () [] (Avoids [.comma]) := by
  refine .loop_none (.absent (.lookEach (Grammar.sees_looksAtNthAny _ _) fun rest _ => ?_) fun rest h => ?_)
  · exact .pure false
  · exact h _ (by decide)

theorem takes_noFurtherMembers : Takes Grammar.furtherMembers () [] (Avoids [.comma]) := by
  refine .loop_none (.absent (.lookEach (Grammar.sees_looksAtNthAny _ _) fun rest _ => ?_) fun rest h => ?_)
  · exact .pure false
  · exact h _ (by decide)

theorem takes_semicolon (cause : SyntaxError.Cause) :
    Takes (Grammar.expect .semicolon cause) () [semicolon] fun _ => True :=
  .expect (t := ⟨.semicolon, ";"⟩) rfl cause

/-- What begins with a token of another kind avoids the kinds. -/
theorem avoids_cons {kinds : List TokenKind} {t : Token} (other : t.kind ∉ kinds) (ts : List Token) :
    Avoids kinds (t :: ts) := by
  intro kind mem
  simpa using fun same : t.kind = kind => other (same ▸ mem)

theorem begins_cons {kinds : List TokenKind} {t : Token} (mem : t.kind ∈ kinds) (ts : List Token) :
    Begins kinds (t :: ts) :=
  ⟨t, ts, rfl, mem⟩

/-! ## Slots -/

theorem Slot.tokens_trees (s : Slot) (rest : List Token) :
    tokensOfList s.trees ++ rest = s.type.tree.tokens ++ ⟨.ident, s.name⟩ :: rest := by
  simp [trees, nameTree, word, tokensOfList, Tree.tokens]

/-- Looking ahead finds the name behind the type. -/
theorem Slot.IsProper.afterType? {s : Slot} (h : s.IsProper) (rest : List Token) :
    Lookahead.afterType? ((tokensOfList s.trees ++ rest).map bareLexeme) =
      some ((⟨.ident, s.name⟩ :: rest).map bareLexeme) := by
  rw [s.tokens_trees]
  exact h.1.afterType? (begins_cons (List.mem_singleton_self _) rest)

theorem takes_global (s : Slot) : Takes Grammar.globalVariables () (s.trees ++ [semicolon]) fun _ => True := by
  refine .cons (s.type.takes true) ?_ fun rest _ => begins_cons (List.mem_singleton_self _) _
  refine .cons (takes_name s.name) ?_ fun _ _ => trivial
  refine .nothing takes_noAttributes ?_ fun rest _ => avoids_cons (by decide) rest
  refine .nothing takes_noInitializer ?_ fun rest _ => avoids_cons (by decide) rest
  refine .nothing takes_noFurtherVariables ?_ fun rest _ => avoids_cons (by decide) rest
  exact takes_semicolon _

theorem takes_noMemberDeclaration (body : Grammar Unit) :
    Takes (Grammar.memberStep body) false [] (Begins [.rightBrace]) := by
  refine .present (.lookEach Grammar.sees_atEnd fun rest _ => .pure false) fun rest h => ?_
  obtain ⟨u, us, rfl, mem⟩ := h
  simp [tokensOfList, List.mem_singleton.1 mem]

theorem takes_memberEnd : Takes Grammar.memberEnd () [semicolon] fun _ => True :=
  .nothing takes_noAttributes (takes_semicolon _) fun rest _ => avoids_cons (by decide) rest

theorem Slot.IsProper.takes_memberParts {s : Slot} (h : s.IsProper) (body : Grammar Unit) :
    Takes (Grammar.memberPartsWith body) () (s.trees ++ [semicolon]) fun _ => True := by
  refine .look (a := some TokenKind.ident) Grammar.sees_current ?_ fun _ _ => rfl
  refine .lookAhead fun ls rest tokens _ => ?_
  have typed : (Lookahead.afterType? ls).isSome = true := by
    rw [Tree.tokensOfList_append, List.append_assoc] at tokens
    rw [Lexeme.eq_of_tokens (g := fun ls => (Lookahead.afterType? ls).isSome)
      (fun ls => Lookahead.isSome_afterType?_bare ls) tokens, h.afterType?]
    rfl
  rw [if_pos typed]
  refine .cons (s.type.takes true) ?_ fun rest _ => begins_cons (List.mem_singleton_self _) _
  refine .look (a := true) (Grammar.sees_looksAtAny _) ?_ fun _ _ => rfl
  refine .cons (takes_name s.name) ?_ fun _ _ => trivial
  refine .absent ?_ fun _ _ => rfl
  exact .nothing takes_noFurtherMembers takes_memberEnd fun rest _ => avoids_cons (by decide) rest

theorem Slot.IsProper.takes_member {s : Slot} (h : s.IsProper) (body : Grammar Unit) :
    Takes (Grammar.memberStep body) true [s.memberTree] fun _ => True := by
  have member : Takes (Grammar.memberWith body) () [s.memberTree] fun _ => True :=
    .absent (.node .memberDecl (h.takes_memberParts body)) fun _ _ => rfl
  refine .absent ?_ fun _ _ => rfl
  refine .look (a := false) Grammar.sees_atEnd ?_ fun _ _ => rfl
  exact .unlessMoved member nofun

/-- What stands between brackets is read step by step. -/
theorem takes_bracketed (kind : NodeKind) (opener closer : Token) (plain : opener.kind.isTrivia = false)
    (plain' : closer.kind.isTrivia = false) (cause : SyntaxError.Cause) {step : Grammar Bool} {ts : List Tree}
    {P : List Token → Prop}
    (hstep : ∀ t ∈ ts, Takes step true [t] P ∧ t.tokens ≠ [] ∧ ∀ rest, P (t.tokens ++ rest))
    (stop : Takes step false [] (Begins [closer.kind])) (last : ∀ rest, Begins [closer.kind] rest → P rest) :
    Takes (Grammar.node kind do
      Grammar.bump
      Grammar.loop step
      Grammar.expect closer.kind cause) () [.node kind (bracketed opener closer ts)] fun _ => True := by
  have inside : Takes (Grammar.loop step) () ts (Begins [closer.kind]) :=
    .loopEach (fun t ht => (hstep t ht).1) (fun t ht => (hstep t ht).2.1) (fun t ht => (hstep t ht).2.2) stop last
  exact .node kind (.cons (.bump plain) (inside.bind (.expect plain' cause)
    fun rest _ => begins_cons (List.mem_singleton_self _) _) fun _ _ => trivial)

theorem takes_structBody {members : List Slot} (h : ∀ s ∈ members, s.IsProper) :
    Takes Grammar.structBody () [.node .structBody (braced (members.map Slot.memberTree))] fun _ => True :=
  .nest fun _ => takes_bracketed .structBody ⟨.leftBrace, "\x7b"⟩ ⟨.rightBrace, "\x7d"⟩ rfl rfl .noBrace
    (List.forall_mem_map.2 fun s hs => ⟨(h s hs).takes_member _, nofun, fun _ => trivial⟩)
    (takes_noMemberDeclaration _) fun _ _ => trivial

theorem takes_struct (name : String) {members : List Slot} (h : ∀ s ∈ members, s.IsProper) :
    Takes Grammar.structDefinition () [.leaf ⟨.structKw, "struct"⟩, nameTree name,
      .node .structBody (braced (members.map Slot.memberTree))] fun _ => True := by
  refine .cons (.bump rfl) ?_ fun _ _ => trivial
  refine .cons (takes_name name) ?_ fun _ _ => trivial
  refine .absent ?_ fun _ _ => rfl
  refine .nothing takes_noAttributes ?_ fun rest _ => avoids_cons (by decide) _
  exact .present (takes_structBody h) fun _ _ => rfl

/-! ## Enums -/

/-- What holds of each part and of the separator holds of the parts with the separator between them. -/
theorem forall_mem_intersperse {p : Tree → Prop} {sep : Tree} {ts : List Tree} (hsep : p sep)
    (h : ∀ t ∈ ts, p t) : ∀ t ∈ ts.intersperse sep, p t := by
  induction ts with
  | nil => nofun
  | cons t ts ih =>
    obtain ⟨head, tail⟩ := List.forall_mem_cons.1 h
    cases ts with
    | nil => exact h
    | cons u us => exact List.forall_mem_cons.2 ⟨head, List.forall_mem_cons.2 ⟨hsep, ih tail⟩⟩

theorem takes_noEnumValue : Takes Grammar.enumValue () [] (Avoids [.leftParen, .leftBrace, .equal]) := by
  refine .lookEach Grammar.sees_current fun rest h => ?_
  split
  · exact absurd ‹_› (h.ne (by decide))
  · exact absurd ‹_› (h.ne (by decide))
  · exact absurd ‹_› (h.ne (by decide))
  · exact .pure ()

theorem takes_enumerator (name : String) : Takes Grammar.enumeratorStep true [enumeratorTree name]
    (Avoids [.leftParen, .leftBrace, .equal, .atIdent]) := by
  have parts : Takes (do
      Grammar.name
      Grammar.enumValue
      Grammar.attributes) () [nameTree name] (Avoids [.leftParen, .leftBrace, .equal, .atIdent]) := by
    refine .cons (takes_name name) ?_ fun _ _ => trivial
    refine .nothing takes_noEnumValue ?_ fun _ h => h.fewer (by decide)
    exact takes_noAttributes.weaken fun _ h => h.fewer (by decide)
  refine .look (a := some TokenKind.ident) Grammar.sees_current ?_ fun _ _ => rfl
  exact .cons (.node .enumerator parts) (.pure true) fun _ h => h

theorem takes_enumBody (enumerators : List String) :
    Takes Grammar.enumBody () [.node .enumBody (braced (List.intersperse comma (enumerators.map enumeratorTree)))]
      fun _ => True := by
  refine takes_bracketed .enumBody ⟨.leftBrace, "\x7b"⟩ ⟨.rightBrace, "\x7d"⟩ rfl rfl .noBrace
    (forall_mem_intersperse ⟨?_, nofun, fun _ => avoids_cons (by decide) _⟩
      (List.forall_mem_map.2 fun name _ => ⟨takes_enumerator name, nofun, fun _ => avoids_cons (by simp) _⟩)) ?_ ?_
  · refine .look (a := some TokenKind.comma) Grammar.sees_current ?_ fun _ _ => rfl
    exact .cons (.bump rfl) (.pure true) fun _ _ => trivial
  · refine .look (a := some TokenKind.rightBrace) Grammar.sees_current (.pure false) ?_
    rintro _ ⟨u, us, rfl, mem⟩
    exact congrArg some (List.mem_singleton.1 mem)
  · exact fun rest h => h.avoids (by decide)

theorem takes_noEnumBacking : Takes Grammar.enumBacking () [] (Avoids [.colon]) :=
  .nothing .eat_none (.pure ()) fun rest h => h _ (by decide)

theorem takes_enum (name : String) (enumerators : List String) :
    Takes Grammar.enumDefinition () [.leaf ⟨.enumKw, "enum"⟩, nameTree name,
      .node .enumBody (braced (List.intersperse comma (enumerators.map enumeratorTree)))] fun _ => True := by
  refine .cons (.bump rfl) ?_ fun _ _ => trivial
  refine .cons (takes_name name) ?_ fun _ _ => trivial
  refine .absent ?_ fun _ _ => rfl
  refine .nothing takes_noEnumBacking ?_ fun rest _ => avoids_cons (by decide) _
  refine .nothing takes_noAttributes ?_ fun rest _ => avoids_cons (by decide) _
  exact .present (takes_enumBody enumerators) fun _ _ => rfl

/-! ## Functions -/

theorem takes_noUntypedParameter : Takes Grammar.atUntypedParameter false [] BareName := by
  refine .lookEach (Grammar.sees_kindAt 1) fun rest h => ?_
  obtain ⟨t, _, rfl, -, u, us, rfl, mem⟩ := h
  have nothing : Takes (pure false : Grammar Bool) false [] BareName := .pure false
  simp only [List.mem_cons, List.not_mem_nil, or_false] at mem
  rcases mem with mark | mark | mark <;>
    simpa only [tokensOfList, List.nil_append, List.getElem?_cons_succ, List.getElem?_cons_zero, Option.map_some, mark]
      using nothing

theorem Slot.bareName (s : Slot) (rest : List Token) : BareName (tokensOfList s.trees ++ rest) := by
  rw [s.tokens_trees]
  exact s.type.bareName (begins_cons (List.mem_singleton_self _) rest)

/-- Behind a parameter there is neither an attribute nor a default. -/
theorem takes_parameterEnd : Takes (do
      Grammar.attributes
      if ← Grammar.looksAt .equal then
        Grammar.node .defaultValue do
          Grammar.bump
          Grammar.bumpUntil [.comma, .semicolon]) () [] (Avoids [.atIdent, .equal]) := by
  refine .nothing takes_noAttributes ?_ fun _ h => h.fewer (by decide)
  exact .absent (.pure ()) fun _ h => h _ (by decide)

theorem takes_parameter (s : Slot) : Takes (Grammar.parameterStep Grammar.type) true [s.parameterTree]
    (Avoids [.atIdent, .equal]) := by
  have parameter : Takes (Grammar.parameterWith Grammar.type) () [s.parameterTree] (Avoids [.atIdent, .equal]) := by
    refine .node .param ?_
    refine .absent ?_ fun _ _ => rfl
    refine .absent ?_ fun _ _ => rfl
    refine .absent (.lookEach (Grammar.sees_looksAtNth _ _) fun rest _ => ?_) fun _ _ => rfl
    refine .look (a := true) (Grammar.sees_looksAtAny _) ?_ fun _ _ => rfl
    refine .nothing takes_noUntypedParameter ?_ fun rest _ => s.bareName rest
    refine .cons (s.type.takes true) ?_ fun rest _ => begins_cons (List.mem_singleton_self _) _
    refine .nothing .skip_none ?_ fun _ _ => rfl
    refine .look (a := true) (Grammar.sees_looksAtAny _) ?_ fun _ _ => rfl
    exact .cons (takes_name s.name) takes_parameterEnd fun _ _ => trivial
  refine .look (a := some TokenKind.ident) Grammar.sees_current ?_ fun _ _ => rfl
  exact .unlessMoved parameter nofun

theorem takes_parameters (parameters : List Slot) :
    Takes Grammar.parameterList () [parametersTree parameters] fun _ => True := by
  refine takes_bracketed .paramList ⟨.leftParen, "("⟩ ⟨.rightParen, ")"⟩ rfl rfl .noParenthesis
    (forall_mem_intersperse ⟨?_, nofun, fun _ => avoids_cons (by decide) _⟩
      (List.forall_mem_map.2 fun s _ => ⟨takes_parameter s, nofun, fun _ => avoids_cons (by simp) _⟩)) ?_ ?_
  · refine .look (a := some TokenKind.comma) Grammar.sees_current ?_ fun _ _ => rfl
    exact .cons (.bump rfl) (.pure true) fun _ _ => trivial
  · refine .look (a := some TokenKind.rightParen) Grammar.sees_current (.pure false) ?_
    rintro _ ⟨u, us, rfl, mem⟩
    exact congrArg some (List.mem_singleton.1 mem)
  · exact fun rest h => h.avoids (by decide)

/-- A name in front of a parenthesis is no receiver. -/
theorem takes_noReceiver (name : String) :
    Takes Grammar.receiver () [] fun rest => ∃ ts, rest = ⟨.ident, name⟩ :: ⟨.leftParen, "("⟩ :: ts := by
  refine .lookAhead fun ls rest tokens h => ?_
  obtain ⟨ts, rfl⟩ := h
  have none : Lookahead.atReceiver ls = false := by
    rw [Lexeme.eq_of_tokens Lookahead.atReceiver_bare tokens]
    rfl
  rw [none]
  exact .pure ()

theorem sees_omitsReturnType : ∃ f, Sees Grammar.omitsReturnType f :=
  ⟨_, .bind (Grammar.sees_looksAtNth .leftParen 1) fun parenthesis =>
    .bind (Grammar.sees_looksAtNth .dot 1) fun dot =>
    .bind (Grammar.sees_looksAtNth .leftParen 3) fun call => .pure (parenthesis || (dot && call))⟩

theorem takes_signature (head : Slot) (parameters : List Slot) :
    Takes (Grammar.signature false) () (head.trees ++ [parametersTree parameters]) fun _ => True := by
  obtain ⟨f, sees⟩ := sees_omitsReturnType
  refine .lookEach sees fun rest _ => ?_
  refine .cons (head.type.takes true) ?_ fun rest _ => begins_cons (List.mem_singleton_self _) _
  refine .nothing (takes_noReceiver head.name) ?_ fun rest _ => ⟨_, rfl⟩
  refine .cons (takes_name head.name) ?_ fun _ _ => trivial
  exact .present (takes_parameters parameters) fun _ _ => rfl

theorem takes_function (head : Slot) (parameters : List Slot) :
    Takes (Grammar.functionDefinition false) () (.leaf ⟨.fnKw, "fn"⟩ :: (head.trees ++
      [parametersTree parameters, semicolon])) fun _ => True := by
  refine .cons (.bump rfl) ?_ fun _ _ => trivial
  refine (takes_signature head parameters).bind ?_ fun _ _ => trivial
  refine .nothing takes_noAttributes ?_ fun rest _ => avoids_cons (by decide) rest
  refine .absent ?_ fun _ _ => rfl
  refine .absent ?_ fun _ _ => rfl
  refine .look (a := ";") Grammar.sees_currentText ?_ fun _ _ => rfl
  exact takes_semicolon _

/-! ## Paths -/

theorem takes_path {path : List String} (h : path ≠ []) :
    Takes Grammar.modulePath () [pathTree path] (Avoids [.colonColon]) := by
  obtain ⟨name, names, rfl⟩ := List.exists_cons_of_ne_nil h
  rw [pathTree, intersperse_path, pathTail, List.flatMap_def]
  refine .node .modulePath (.present ?_ fun _ _ => rfl)
  refine .cons (.bump rfl) ?_ fun _ _ => trivial
  refine .loop (P := fun _ => True) (List.forall_mem_map.2 fun next _ => ?_) (List.forall_mem_map.2 fun _ _ => List.cons_ne_nil _ _)
    (fun _ _ _ => trivial) ?_ fun _ _ => trivial
  · refine .present ?_ fun _ _ => rfl
    refine .look (a := true) (Grammar.sees_looksAtNth _ _) ?_ fun _ _ => rfl
    refine .cons (.bump rfl) ?_ fun _ _ => trivial
    exact .cons (.bump rfl) (.pure true) fun _ _ => trivial
  · refine .absent (.lookEach (Grammar.sees_looksAtNth _ _) fun rest _ => ?_) fun rest h => h _ (by decide)
    exact .pure false

theorem takes_module {path : List String} (h : path ≠ []) :
    Takes Grammar.moduleDeclaration () [.leaf ⟨.moduleKw, "module"⟩, pathTree path, semicolon] fun _ => True := by
  refine .cons (.bump rfl) ?_ fun _ _ => trivial
  refine .cons (takes_path h) ?_ fun rest _ => avoids_cons (by decide) rest
  refine .absent ?_ fun _ _ => rfl
  refine .absent ?_ fun _ _ => rfl
  exact .nothing takes_noAttributes (takes_semicolon _) fun rest _ => avoids_cons (by decide) rest

theorem takes_import {path : List String} (h : path ≠ []) :
    Takes Grammar.importDeclaration () [.leaf ⟨.importKw, "import"⟩, pathTree path, semicolon] fun _ => True := by
  have noFurther : Takes (Grammar.loop Grammar.importStep) () [] (Avoids [.comma]) :=
    .loop_none (.nothing .eat_none (.pure false) fun rest h => h _ (by decide))
  refine .cons (.bump rfl) ?_ fun _ _ => trivial
  refine .cons (takes_path h) ?_ fun rest _ => avoids_cons (by decide) rest
  refine .nothing noFurther ?_ fun rest _ => avoids_cons (by decide) rest
  exact .nothing takes_noAttributes (takes_semicolon _) fun rest _ => avoids_cons (by decide) rest

/-! ## Items -/

/-- A name behind a type at top level begins a declaration of variables. -/
theorem Slot.IsProper.run_unmodified {s : Slot} (h : s.IsProper) (c : Checkpoint) {r : Reader} {rest : List Token}
    (tokens : r.tokens = tokensOfList s.trees ++ rest) :
    (Grammar.unmodified c).run r = (Grammar.nodeFrom c .globalVarDecl Grammar.globalVariables).run r := by
  have directive : Lookahead.atDirective r.ahead = false := by
    rw [Lexeme.eq_of_tokens Lookahead.atDirective_bare tokens]
    rfl
  have typed : Lookahead.atTypedName r.ahead = true := by
    rw [Lexeme.eq_of_tokens (fun ls => Lookahead.atTypedName_bare ls) tokens, Lookahead.atTypedName, h.afterType?]
    rfl
  have head : r.tokens = ⟨.ident, s.type.name⟩ :: _ := tokens
  rw [Grammar.unmodified, Takes.run_ahead_bind, Takes.run_current_bind head]
  dsimp only
  rw [if_neg (by simp), if_neg (Bool.eq_false_iff.1 directive), if_pos typed]

theorem Item.IsProper.takes {item : Item} (h : item.IsProper) : Takes Grammar.item () [item.tree] fun _ => True := by
  cases item with
  | global s =>
    refine (takes_global s).item (fun c r rest tokens _ => ?_) fun _ _ => rfl
    rw [Tree.tokensOfList_append, List.append_assoc] at tokens
    exact Slot.IsProper.run_unmodified h c tokens
  | struct name members =>
    refine (takes_struct name h.2.1).item (fun c r rest tokens _ => ?_) fun _ _ => rfl
    rw [Grammar.unmodified, Takes.run_ahead_bind, Takes.run_current_bind tokens]
  | enum name enumerators =>
    refine (takes_enum name enumerators).item (fun c r rest tokens _ => ?_) fun _ _ => rfl
    rw [Grammar.unmodified, Takes.run_ahead_bind, Takes.run_current_bind tokens]
  | function head parameters =>
    refine (takes_function head parameters).item (fun c r rest tokens _ => ?_) fun _ _ => rfl
    rw [Grammar.unmodified, Takes.run_ahead_bind, Takes.run_current_bind tokens]

theorem takes_moduleItem {path : List String} (h : path ≠ []) :
    Takes Grammar.item () [moduleTree path] fun _ => True := by
  refine (takes_module h).item (fun c r rest tokens _ => ?_) fun _ _ => rfl
  rw [Grammar.unmodified, Takes.run_ahead_bind, Takes.run_current_bind tokens]

theorem takes_importItem {path : List String} (h : path ≠ []) :
    Takes Grammar.item () [importTree path] fun _ => True := by
  refine (takes_import h).item (fun c r rest tokens _ => ?_) fun _ _ => rfl
  rw [Grammar.unmodified, Takes.run_ahead_bind, Takes.run_current_bind tokens]

/-- The declarations at top level. -/
def declarations (b : Blueprint) : List Tree :=
  moduleTree b.path :: (b.imports.map importTree ++ b.items.map Item.tree)

theorem takes_declarations {b : Blueprint} (proper : b.IsProper) :
    Takes (Grammar.loop Grammar.itemStep) () b.declarations fun rest => rest = [] := by
  have step {t : Tree} (h : Takes Grammar.item () [t] fun _ => True) (more : t.tokens ≠ []) :
      Takes Grammar.itemStep true [t] (fun _ => True) ∧ t.tokens ≠ [] := by
    refine ⟨.look (a := false) Grammar.sees_atEnd (h.cons (.pure true) fun _ _ => trivial) fun rest _ => ?_, more⟩
    simpa [tokensOfList] using fun none => absurd none more
  have steps : ∀ t ∈ b.declarations, Takes Grammar.itemStep true [t] (fun _ => True) ∧ t.tokens ≠ [] := by
    refine List.forall_mem_cons.2 ⟨step (takes_moduleItem proper.path.1) nofun, List.forall_mem_append.2
      ⟨List.forall_mem_map.2 fun path h => ?_, List.forall_mem_map.2 fun item h => ?_⟩⟩
    · exact step (takes_importItem (proper.imports.1 path h).1) nofun
    · exact step (proper.items item h).takes (by cases item <;> nofun)
  refine .loopEach (P := fun _ => True) (fun t ht => (steps t ht).1) (fun t ht => (steps t ht).2) (fun _ _ _ => trivial)
    (.look (a := true) Grammar.sees_atEnd (.pure false) ?_) fun _ _ => trivial
  rintro _ rfl
  rfl

end Blueprint

end C3Lens
