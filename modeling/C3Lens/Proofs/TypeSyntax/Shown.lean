import C3Lens.Proofs.Blueprint.FrontEnd
import C3Lens.Proofs.Blueprint.Symbols
import C3Lens.Proofs.TypeSyntax.Forms
import C3Lens.Proofs.TypeSyntax.Parsing

/-!
# How written types are shown

What the builders make of the tree of a proper type, wherever it stands and whatever its name refers to, is
a type that is shown in the form with the kept suffixes (`TypeSyntax.IsProper.gives_text`): the marks are
counted one after the other (`TypeSyntax.typePartsOf_marks`), and arguments are types on their own. So wherever
a proper type is written, with whatever blanks and comments, it is read without an error and shown in that form
(`TypeSyntax.IsProper.reads`). It is the form with all suffixes just if the type and its arguments keep theirs,
and types are shown alike just if their kept forms are the same (`TypeSyntax.IsProper.shown`).

**Suffixes.** A `TypeRef` has room for a number of pointers and for one array. So `int*[3]` and `int[3]*` both
are shown as the first, and of `int[2][3]` only the second array is (`TypeSyntax.shown_reordered`).
-/

namespace C3Lens

namespace Tree

theorem bareList_eq_map (ts : List Tree) : bareList ts = (ts.filter fun t => !t.isBlank).map bare := by
  induction ts with
  | nil => rfl
  | cons t ts ih =>
    rw [bareList, List.filter_cons]
    cases t.isBlank with
    | true => exact ih
    | false => exact congrArg (bare t :: ·) ih

end Tree

namespace TypeSyntax

open Blueprint (Avoids simple_bracketed forall_mem_intersperse)
open Outline (Gives TypeParts typePartsOf argumentTypesOf)
open C3Lens.Tree (leaf node Simple simple_leaf simple_node)
open TypeMark (suffixes)

/-! ## Names -/

theorem typePartsOf_leaf (done : TypeParts) (t : Token) (rest : List Tree) :
    typePartsOf done (leaf t :: rest) = typePartsOf (done.addToken t) rest := by
  rw [typePartsOf]

theorem addToken_ident (done : TypeParts) (plain : done.compileTime = "") (name : String) :
    done.addToken ⟨.ident, name⟩ = { done with names := done.names ++ [name] } :=
  if_pos ⟨rfl, plain⟩

theorem addToken_wordToken (done : TypeParts) (plain : done.compileTime = "") (name : String) :
    done.addToken (wordToken name) = { done with names := done.names ++ [name] } := by
  have token : wordToken name = ⟨(wordToken name).kind, name⟩ := rfl
  rcases kind_wordToken name with ⟨kind, -⟩ | ⟨kind, -⟩
  · rw [token, kind]
    exact if_neg fun both => nomatch both.1
  · rw [token, kind]
    exact addToken_ident done plain name

/-- The names of the path and the name itself are collected. -/
theorem typePartsOf_path (path : List String) (name : String) (rest : List Tree) (names : List String) :
    typePartsOf { names := names } (pathTrees path ++ leaf (wordToken name) :: rest) =
      typePartsOf { names := names ++ (path ++ [name]) } rest := by
  induction path generalizing names with
  | nil =>
    have none : pathTrees [] = [] := rfl
    rw [none, List.nil_append, typePartsOf_leaf, addToken_wordToken _ rfl, List.nil_append]
  | cons part path ih =>
    have first : pathTrees (part :: path) ++ leaf (wordToken name) :: rest =
        Blueprint.word part :: leaf ⟨.colonColon, "::"⟩ :: (pathTrees path ++ leaf (wordToken name) :: rest) := rfl
    rw [first, Blueprint.word, typePartsOf_leaf, typePartsOf_leaf, addToken_ident _ rfl]
    refine (ih (names ++ [part])).trans ?_
    rw [List.append_assoc]
    rfl

/-! ## Marks -/

theorem filter_isDecimal {numeral : String} (h : IsDecimal numeral) :
    numeral.toList.filter (· != '_') ≠ [] ∧ ∀ d ∈ numeral.toList.filter (· != '_'), d.isDigit = true := by
  obtain ⟨first, all⟩ := h
  constructor
  · obtain ⟨c, cs, chars⟩ : ∃ c cs, numeral.toList = c :: cs := by
      cases chars : numeral.toList with
      | nil =>
        rw [chars] at first
        cases first
      | cons c cs => exact ⟨c, cs, rfl⟩
    have digit : c.isDigit = true := by simpa [chars] using first
    have other : (c != '_') = true := bne_iff_ne.2 fun underscore => by
      rw [underscore] at digit
      cases digit
    rw [chars, List.filter_cons_of_pos (p := (· != '_')) other]
    exact List.cons_ne_nil _ _
  · intro d mem
    obtain ⟨mem, other⟩ := List.mem_filter.1 mem
    have decimal : d.isDigit = true ∨ d = '_' := by
      simpa [Token.isDecimal] using List.all_eq_true.1 all d mem
    exact decimal.resolve_right (bne_iff_ne.1 other)

theorem arraySize?_numeral {numeral? : Option String} (h : (TypeMark.array numeral?).IsProper) :
    TypeParts.arraySize? (Blueprint.bracketed ⟨.leftBracket, "["⟩ ⟨.rightBracket, "]"⟩
        (numeral?.map fun numeral => leaf ⟨.intNumber, numeral⟩).toList) =
      (numeral?.map decimalValue).filter (· < 4294967296) := by
  cases numeral? with
  | none => rfl
  | some numeral =>
    obtain ⟨more, digits⟩ := filter_isDecimal (h numeral rfl)
    have read : TypeParts.arraySize? (Blueprint.bracketed ⟨.leftBracket, "["⟩ ⟨.rightBracket, "]"⟩
        ((some numeral).map fun numeral => leaf ⟨.intNumber, numeral⟩).toList) = integerValue? numeral := rfl
    rw [read, integerValue?_digits rfl more digits, Option.map_some, Option.filter_some]
    simp only [decide_eq_true_eq]
    rfl

theorem keptArray?_cons_array (size? : Option Nat) (ss : List TypeSuffix) : TypeSuffix.keptArray? (.array size? :: ss) =
    (TypeSuffix.keptArray? ss).or (some (size?.filter (· < 4294967296))) := by
  have first : (TypeSuffix.array size? :: ss).filterMap TypeSuffix.array? =
      size? :: ss.filterMap TypeSuffix.array? :=
    rfl
  rw [TypeSuffix.keptArray?, TypeSuffix.keptArray?, first]
  cases ss.filterMap TypeSuffix.array? with
  | nil => rfl
  | cons size?' sizes =>
    rw [List.getLast?_cons_cons]
    cases last : (size?' :: sizes).getLast? with
    | none => simp at last
    | some size => rfl

/-- What is known of a type after one more mark. -/
def addMark (done : TypeParts) : TypeMark → TypeParts
  | .star => { done with pointers := min (done.pointers + 1) TypeRef.mostPointers }
  | .question | .bang => { done with isOptional := true }
  | .array numeral? => { done with collection? := some ((numeral?.map decimalValue).filter (· < 4294967296)) }

/-- What is known of a type after marks. -/
def addMarks (done : TypeParts) (marks : List TypeMark) : TypeParts :=
  { done with
    pointers := min (done.pointers + (suffixes marks).count .pointer) TypeRef.mostPointers
    isOptional := done.isOptional || marks.any TypeMark.isOptional
    collection? := (TypeSuffix.keptArray? (suffixes marks)).or done.collection? }

theorem typePartsOf_mark {mark : TypeMark} (h : mark.IsProper) (done : TypeParts) (rest : List Tree) :
    typePartsOf done (mark.tree :: rest) = typePartsOf (addMark done mark) rest := by
  cases mark with
  | star => exact typePartsOf_leaf done _ rest
  | question => exact typePartsOf_leaf done _ rest
  | bang => exact typePartsOf_leaf done _ rest
  | array numeral? => rw [TypeMark.tree, typePartsOf, arraySize?_numeral h, addMark]

theorem addMarks_nil {done : TypeParts} (few : done.pointers ≤ TypeRef.mostPointers) : addMarks done [] = done := by
  have pointers : min (done.pointers + 0) TypeRef.mostPointers = done.pointers := Nat.min_eq_left few
  have optional : (done.isOptional || false) = done.isOptional := Bool.or_false _
  exact congrArg₂ (fun pointers isOptional => { done with pointers := pointers, isOptional := isOptional }) pointers
    optional

theorem addMarks_cons (done : TypeParts) (mark : TypeMark) (marks : List TypeMark) :
    addMarks done (mark :: marks) = addMarks (addMark done mark) marks := by
  have optional : (done.isOptional || (true || marks.any TypeMark.isOptional)) =
      (true || marks.any TypeMark.isOptional) :=
    Bool.or_true _
  cases mark with
  | star =>
    have count : (suffixes (.star :: marks)).count .pointer = (suffixes marks).count .pointer + 1 :=
      List.count_cons_self
    have sum : min (done.pointers + ((suffixes marks).count .pointer + 1)) TypeRef.mostPointers =
        min (min (done.pointers + 1) TypeRef.mostPointers + (suffixes marks).count .pointer) TypeRef.mostPointers := by
      omega
    rw [addMarks, addMarks, count, sum]
    rfl
  | question => exact congrArg (fun isOptional => { addMarks done marks with isOptional := isOptional }) optional
  | bang => exact congrArg (fun isOptional => { addMarks done marks with isOptional := isOptional }) optional
  | array numeral? =>
    have arrays : suffixes (.array numeral? :: marks) = .array (numeral?.map decimalValue) :: suffixes marks := rfl
    have count : (TypeSuffix.array (numeral?.map decimalValue) :: suffixes marks).count .pointer =
        (suffixes marks).count .pointer := List.count_cons_of_ne (by nofun)
    rw [addMarks, addMarks, arrays, count, keptArray?_cons_array, Option.or_assoc]
    rfl

/-- Marks are counted one after the other. -/
theorem typePartsOf_marks {marks : List TypeMark} (h : ∀ mark ∈ marks, mark.IsProper) {done : TypeParts}
    (few : done.pointers ≤ TypeRef.mostPointers) :
    typePartsOf done (marks.map TypeMark.tree) = pure (addMarks done marks) := by
  induction marks generalizing done with
  | nil => rw [List.map_nil, typePartsOf, addMarks_nil few]
  | cons mark marks ih =>
    obtain ⟨first, others⟩ := List.forall_mem_cons.1 h
    have few' : (addMark done mark).pointers ≤ TypeRef.mostPointers := by
      cases mark with
      | star => exact Nat.min_le_right _ _
      | question => exact few
      | bang => exact few
      | array => exact few
    rw [List.map_cons, typePartsOf_mark first, addMarks_cons, ih others few']

/-! ## Arguments -/

section

variable {scope : Scope}

theorem gives_namedType (scope : Scope) {name : String} (some : name ≠ "") (qualifier : String) :
    Gives scope (Outline.namedType name qualifier) fun type => type.name = name := by
  refine .read ?_
  rw [if_neg (beq_iff_eq.not.2 some)]
  dsimp only
  split
  · exact .pure rfl
  split
  · exact .pure rfl
  · exact .skip fun _ => .pure rfl

theorem argumentTypesOf_type (parts rest : List Tree) : argumentTypesOf (node .type parts :: rest) = (do
    let type ← Outline.typeOf (node .type parts)
    return type :: (← argumentTypesOf rest)) := by
  rw [argumentTypesOf, Outline.typeOf]
  rfl

/-- Only types count among arguments. -/
theorem argumentTypesOf_filter (ts : List Tree) :
    argumentTypesOf (ts.filter fun t => t.nodeKind? == some .type) = argumentTypesOf ts := by
  have other {t : Tree} (differs : ∀ parts, t ≠ node .type parts) (ts : List Tree) :
      argumentTypesOf (t :: ts) = argumentTypesOf ts := by
    rw [argumentTypesOf]
    exact differs
  induction ts with
  | nil => rfl
  | cons t ts ih =>
    by_cases type : t.nodeKind? = some .type
    · obtain ⟨parts, rfl⟩ : ∃ parts, t = node .type parts := by
        cases t with
        | leaf => cases type
        | node kind parts => exact ⟨parts, congrArg (node · parts) (Option.some.inj type)⟩
      rw [List.filter_cons, if_pos (beq_iff_eq.2 type), argumentTypesOf_type, argumentTypesOf_type, ih]
    · rw [List.filter_cons, if_neg (mt beq_iff_eq.1 type), ih, other fun parts same => type (by rw [same]; rfl)]

/-- The types among arguments are those of the arguments. -/
theorem gives_arguments {arguments : List TypeSyntax}
    (h : ∀ a ∈ arguments, Gives scope (Outline.typeOf a.tree) fun type => type.text = a.kept.text) :
    Gives scope (argumentTypesOf (arguments.map tree)) fun types =>
      types.map TypeRef.text = arguments.map fun a => a.kept.text := by
  induction arguments with
  | nil =>
    rw [List.map_nil, argumentTypesOf]
    exact .pure rfl
  | cons a as ih =>
    obtain ⟨first, others⟩ := List.forall_mem_cons.1 h
    obtain ⟨path, name, inBraces, arguments, marks⟩ := a
    rw [tree_named] at first
    rw [List.map_cons, tree_named, argumentTypesOf_type]
    refine .bind first fun type same => .bind (ih others) fun types sames => .pure ?_
    rw [List.map_cons, List.map_cons, same, sames]

/-- The arguments and the marks of a type are taken into account. -/
theorem gives_parts {arguments : List TypeSyntax} {marks : List TypeMark} (proper : ∀ mark ∈ marks, mark.IsProper)
    (h : ∀ a ∈ arguments, Gives scope (Outline.typeOf a.tree) fun type => type.text = a.kept.text) (inBraces : Bool)
    (names : List String) :
    Gives scope (typePartsOf { names := names } (treesBehindName inBraces arguments marks)) fun parts =>
      ∃ types, types.map TypeRef.text = arguments.map (fun a => a.kept.text) ∧
        parts = addMarks { names := names, arguments := types } marks := by
  have list := gives_arguments h
  have marked (types : List TypeRef) : typePartsOf { names := names, arguments := types } (marks.map TypeMark.tree) =
      pure (addMarks { names := names, arguments := types } marks) :=
    typePartsOf_marks proper (Nat.zero_le _)
  rw [treesBehindName]
  cases arguments with
  | nil =>
    refine Eq.mpr (congrArg (Gives scope · _) (marked [])) ?_
    exact .pure ⟨[], rfl, rfl⟩
  | cons a as =>
    have isType (a : TypeSyntax) : a.tree.nodeKind? = some .type := by
      cases a
      rfl
    have types := Blueprint.filter_bracketed isType (opener inBraces) (closer inBraces) (a :: as)
    rw [List.map_cons, argumentTrees_cons, List.singleton_append, typePartsOf, ← List.map_cons,
      ← argumentTypesOf_filter, types]
    refine .bind list fun types same => ?_
    dsimp only
    rw [List.nil_append, marked]
    exact .pure ⟨types, same, rfl⟩

end

/-! ## Texts -/

/-- Lists of the same texts have the same text, with commas between them. -/
theorem textOfList_eq {types : List TypeRef} {forms : List TypeForm}
    (same : types.map TypeRef.text = forms.map TypeForm.text) :
    types.isEmpty = forms.isEmpty ∧ TypeRef.textOfList types = TypeForm.textOfList forms := by
  induction types generalizing forms with
  | nil =>
    obtain rfl := List.map_eq_nil_iff.1 same.symm
    exact ⟨rfl, rfl⟩
  | cons type types ih =>
    obtain ⟨form, forms, rfl, first, others⟩ := List.map_eq_cons_iff.1 same.symm
    obtain ⟨empty, rest⟩ := ih others.symm
    refine ⟨rfl, ?_⟩
    cases types with
    | nil =>
      obtain rfl := List.isEmpty_iff.1 empty.symm
      exact first.symm
    | cons type' types =>
      obtain ⟨form', forms, rfl⟩ : ∃ form' forms', forms = form' :: forms' := by
        cases forms with
        | nil => cases empty
        | cons form' forms => exact ⟨form', forms, rfl⟩
      rw [TypeRef.textOfList, TypeForm.textOfList, first, rest]
      · exact List.cons_ne_nil _ _
      · exact List.cons_ne_nil _ _

theorem join_suffixes (n : Nat) (array? : Option (Option Nat)) :
    String.join ((List.replicate n TypeSuffix.pointer ++ (array?.map TypeSuffix.array).toList).map TypeSuffix.text) =
      String.ofList (List.replicate n '*') ++ Blueprint.markText array? := by
  have stars : ((List.replicate n TypeSuffix.pointer).flatMap fun s => s.text.toList) = List.replicate n '*' := by
    rw [List.flatMap_replicate]
    exact List.flatten_replicate_singleton
  apply String.toList_inj.1
  rw [String.toList_join, List.flatMap_map, List.flatMap_append, stars, String.toList_append, String.toList_ofList]
  cases array? with
  | none => rfl
  | some size? => exact congrArg _ (List.append_nil _)

/-- A type with the name, the arguments and the marks is shown in the kept form. -/
theorem text_eq {path : List String} {name : String} {inBraces : Bool} {arguments : List TypeSyntax}
    {marks : List TypeMark} {type : TypeRef} (named : type.name = name)
    (types : type.arguments.map TypeRef.text = arguments.map fun a => a.kept.text)
    (pointers : type.pointers = min ((suffixes marks).count .pointer) TypeRef.mostPointers)
    (collection : type.isCollection = (TypeSuffix.keptArray? (suffixes marks)).isSome ∧
      type.size? = (TypeSuffix.keptArray? (suffixes marks)).join)
    (optional : type.isOptional = marks.any TypeMark.isOptional) :
    type.text = (TypeSyntax.named path name inBraces arguments marks).kept.text := by
  obtain ⟨collection, size⟩ := collection
  obtain ⟨shown, _, _, _, _, _, _, _, _⟩ := type
  dsimp only at named types pointers collection size optional
  subst named pointers collection size optional
  have forms : (arguments.map kept).map TypeForm.text = arguments.map fun a => a.kept.text := List.map_map
  obtain ⟨empty, list⟩ := textOfList_eq (types.trans forms.symm)
  have form : (TypeSyntax.named path shown inBraces arguments marks).kept =
      .named shown (arguments.map kept) (TypeSuffix.kept (suffixes marks)) (marks.any TypeMark.isOptional) := by
    rw [kept, TypeSyntax.form, formsOfList_eq_map]
    rfl
  rw [form, TypeRef.text, TypeForm.text, TypeRef.marks, TypeForm.suffixText, TypeSuffix.kept, join_suffixes, empty,
    list]
  dsimp only
  rcases TypeSuffix.keptArray? (suffixes marks) with _ | _ | size <;> simp [Blueprint.markText, String.append_assoc]

/-! ## Types -/

theorem ne_empty_of_isTypeWord {name : String} (h : IsTypeWord name) : name ≠ "" := by
  rintro rfl
  rcases h with builtin | ⟨-, user⟩
  · exact absurd builtin (by decide)
  · exact absurd user (by decide)

/-- The type built from the tree of a proper type is shown in the kept form. -/
theorem IsProper.gives_text {t : TypeSyntax} (h : t.IsProper) (scope : Scope) :
    Gives scope (Outline.typeOf t.tree) fun type => type.text = t.kept.text := by
  induction h with
  | @named path name inBraces arguments marks _ word _ _ sizes ih =>
    have parts := gives_parts sizes ih inBraces ([] ++ (path ++ [name]))
    rw [tree_named, Outline.typeOf, typePartsOf_path]
    refine .bind parts fun parts counted => ?_
    obtain ⟨types, same, rfl⟩ := counted
    have last : (path ++ [name]).getLast?.getD "" = name := by
      rw [List.getLast?_concat, Option.getD_some]
    refine .bind (P := fun type => type.name = name) ?_ fun type named => .pure ?_
    · have names : (addMarks { names := [] ++ (path ++ [name]), arguments := types } marks).names.getLast?.getD "" =
          name := last
      rw [names]
      exact gives_namedType scope (ne_empty_of_isTypeWord word) _
    · have array : (TypeSuffix.keptArray? (suffixes marks)).or none = TypeSuffix.keptArray? (suffixes marks) :=
        Option.or_none
      refine text_eq named same ?_ ⟨congrArg Option.isSome array, congrArg Option.join array⟩ ?_
      · exact congrArg (min · TypeRef.mostPointers) (Nat.zero_add _)
      · exact Bool.false_or _

/-! ## Blanks -/

theorem simple_numeral (numeral? : Option String) :
    ∀ t ∈ (numeral?.map fun numeral => Tree.leaf ⟨.intNumber, numeral⟩).toList, t.Simple .arraySuffix := by
  intro t mem
  obtain ⟨numeral, -, rfl⟩ := Option.map_eq_some_iff.1 (Option.mem_toList.1 mem)
  exact simple_leaf _ rfl

theorem simple_mark (mark : TypeMark) : mark.tree.Simple .type := by
  cases mark with
  | star => exact simple_leaf _ rfl
  | question => exact simple_leaf _ rfl
  | bang => exact simple_leaf _ rfl
  | array numeral? => exact simple_node rfl (simple_bracketed rfl rfl (simple_numeral numeral?))

/-- No text is kept of the parts of a type. -/
theorem IsProper.simple {t : TypeSyntax} (h : t.IsProper) : ∀ u ∈ t.tree.children, u.Simple .type := by
  induction h with
  | @named path name inBraces arguments marks _ _ _ _ _ ih =>
    rw [tree_named]
    have inside : ∀ u ∈ arguments.map tree, u.Simple .genericArgs := by
      refine List.forall_mem_map.2 fun a mem => ?_
      have below := ih a mem
      obtain ⟨path, name, inBraces, arguments, marks⟩ := a
      rw [tree_named] at below ⊢
      exact simple_node rfl below
    refine List.forall_mem_append.2 ⟨?_, List.forall_mem_cons.2 ⟨?_, List.forall_mem_append.2
      ⟨?_, List.forall_mem_map.2 fun mark _ => simple_mark mark⟩⟩⟩
    · refine List.forall_mem_flatMap.2 fun part _ => ?_
      exact List.forall_mem_cons.2 ⟨simple_leaf _ rfl, List.forall_mem_singleton.2 (simple_leaf _ rfl)⟩
    · rcases kind_wordToken name with ⟨kind, -⟩ | ⟨kind, -⟩ <;> exact simple_leaf _ (by rw [kind]; rfl)
    · generalize arguments.map tree = ts at inside
      cases ts with
      | nil => nofun
      | cons t ts =>
        obtain ⟨⟨-, plain⟩, -, plain'⟩ := opener_closer inBraces
        exact List.forall_mem_singleton.2 (simple_node rfl (simple_bracketed plain plain'
          (forall_mem_intersperse (simple_leaf _ rfl) inside)))

/-- Blanks and comments in a type do not matter. -/
theorem IsProper.typeOf_eq {t : TypeSyntax} (h : t.IsProper) {node : Tree} (bare : node.bare = t.tree) :
    Outline.typeOf node = Outline.typeOf t.tree := by
  have simple := (Tree.simpleList h.simple).1
  obtain ⟨path, name, inBraces, arguments, marks⟩ := t
  rw [tree_named] at bare simple ⊢
  cases node with
  | leaf => cases bare
  | node kind cs =>
    obtain ⟨rfl, below⟩ := Tree.node.inj bare
    rw [Tree.children, ← below] at simple
    have dropped : Tree.keptGapsBelow .type cs = [] := by
      rw [← List.length_eq_zero_iff, Tree.length_keptGapsBelow, simple, List.length_nil]
    rw [Outline.typeOf_bareList dropped, below]

/-! ## Reading -/

/-- From `r` to `s` one node was read without an error, besides blanks, and the type built from it is shown
as the text, in whatever scope it is built. -/
structure ReadsAs (r s : Reader) (text : String) : Prop where
  errors : s.errors = r.errors
  added : ∃ ts node, r.Adds s ts ∧ (ts.filter fun t => !t.isBlank) = [node] ∧
    ∀ scope pending, ((Outline.typeOf node).result scope pending).1.text = text

/-- A proper type is read up to where it does not go on, and shown in its kept form. -/
theorem IsProper.reads {t : TypeSyntax} (h : t.IsProper) {braces : Bool} (uses : t.UsesBraces → braces = true)
    {r : Reader} (orderly : r.Orderly) {rest : List Token} (tokens : r.tokens = t.tokens ++ rest)
    (behind : Avoids (continuing braces) rest) :
    ReadsAs r ((Grammar.type braces).after r) t.kept.text ∧ ((Grammar.type braces).after r).tokens = rest := by
  have coming : r.tokens = Tree.tokensOfList [t.tree] ++ rest := by
    rw [tokens, Tree.tokensOfList, Tree.tokensOfList, List.append_nil]
    rfl
  obtain ⟨-, gathered, there⟩ := (h.takes uses).run r orderly rest coming behind
  obtain ⟨ts, added, bare⟩ := gathered.added
  rw [Tree.bareList_eq_map] at bare
  obtain ⟨node, only, same⟩ := List.map_eq_singleton_iff.1 bare
  refine ⟨⟨gathered.errors, ts, node, added, only, fun scope pending => ?_⟩, there⟩
  rw [h.typeOf_eq same]
  exact h.gives_text scope pending

/-- A proper type is shown in its kept form wherever it is written; all suffixes are shown as they are written
just if the type and its arguments keep them; and types are shown alike just if their kept forms are the
same. -/
theorem IsProper.shown {t : TypeSyntax} (h : t.IsProper) :
    (∀ (braces : Bool) (r : Reader) (rest : List Token), (t.UsesBraces → braces = true) → r.Orderly →
      r.tokens = t.tokens ++ rest → Avoids (continuing braces) rest →
      ReadsAs r ((Grammar.type braces).after r) t.kept.text ∧ ((Grammar.type braces).after r).tokens = rest) ∧
    (t.kept.text = t.declared.text ↔ t.KeepsSuffixes) ∧
    ∀ u : TypeSyntax, u.IsProper → (t.kept.text = u.kept.text ↔ t.kept = u.kept) :=
  ⟨fun _ _ _ uses orderly tokens behind => h.reads uses orderly tokens behind,
    (h.text_form_inj h).trans h.kept_eq_declared_iff, fun _ hu => h.text_form_inj hu⟩

/-- The type `std::List{int*, char[4]?}[2]!`. -/
def sample : TypeSyntax :=
  .named ["std"] "List" true
    [.named [] "int" false [] [.star], .named [] "char" false [] [.array (some "4"), .question]]
    [.array (some "2"), .bang]

theorem isProper_sample : sample.IsProper := by
  have int : (named [] "int" false [] [.star]).IsProper :=
    .named nofun (by decide) nofun nofun (by decide)
  have char : (named [] "char" false [] [.array (some "4"), .question]).IsProper :=
    .named nofun (by decide) nofun nofun (by decide)
  have arguments := List.forall_mem_cons.2 ⟨int, List.forall_mem_singleton.2 char⟩
  exact .named (by decide +kernel) (by decide +kernel) (fun _ => by decide) arguments (by decide)

/-- What is read from the sample on, with blanks in it and a name behind it. -/
def writtenSample : Reader :=
  .ofTokens (Token.ofString "std::List \x7bint *, char[4]?\x7d [2]! /* two */ x;")

theorem shown_sample : sample.IsProper ∧ sample.KeepsSuffixes ∧
    ReadsAs writtenSample ((Grammar.type true).after writtenSample) "List\x7bint*, char[4]?\x7d[2]?" := by
  obtain ⟨reads, keeps, -⟩ := IsProper.shown isProper_sample
  have tokens : writtenSample.tokens = sample.tokens ++ [⟨.ident, "x"⟩, ⟨.semicolon, ";"⟩] := by decide +kernel
  have ends : Avoids (continuing true) [⟨.ident, "x"⟩, ⟨.semicolon, ";"⟩] := Blueprint.avoids_cons (by decide) _
  have text : sample.kept.text = "List\x7bint*, char[4]?\x7d[2]?" := by decide +kernel
  have same : sample.kept.text = sample.declared.text := by decide +kernel
  rw [← text]
  exact ⟨isProper_sample, keeps.1 same,
    (reads true writtenSample _ (fun _ => rfl) (Reader.orderly_ofTokens _) tokens ends).1⟩

/-- The types `int*[3]`, `int[3]*` and `int[2][3]`. -/
def reordered : List TypeSyntax :=
  [.named [] "int" false [] [.star, .array (some "3")],
    .named [] "int" false [] [.array (some "3"), .star],
    .named [] "int" false [] [.array (some "2"), .array (some "3")]]

theorem isProper_reordered : ∀ t ∈ reordered, t.IsProper := by
  have int {marks : List TypeMark} (sizes : ∀ mark ∈ marks, mark.IsProper) : (named [] "int" false [] marks).IsProper :=
    .named nofun (by decide) nofun nofun sizes
  exact List.forall_mem_cons.2 ⟨int (by decide), List.forall_mem_cons.2
    ⟨int (by decide), List.forall_mem_singleton.2 (int (by decide))⟩⟩

/-- The star behind an array is shown in front of it, and of two arrays only the last is shown. -/
theorem shown_reordered : (∀ t ∈ reordered, t.IsProper) ∧
    reordered.map (fun t => t.declared.text) = ["int*[3]", "int[3]*", "int[2][3]"] ∧
    (outlineOfText ⟨"a.c3"⟩ "int*[3] x;\nint[3]* y;\nint[2][3] z;").1.modules.values.map
      (fun m => m.globals.values.map fun v => v.type.text) = [["int*[3]", "int*[3]", "int[3]"]] := by
  refine ⟨isProper_reordered, ?_, ?_⟩ <;> decide +kernel

end TypeSyntax

end C3Lens
