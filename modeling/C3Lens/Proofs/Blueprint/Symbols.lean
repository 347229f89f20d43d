import C3Lens.Proofs.Blueprint.Basic
import C3Lens.Proofs.Outline.Names
import C3Lens.Proofs.Outline.Respaced

/-!
# The symbols of a blueprint

What the builders of symbols make of the parts of a blueprint's tree, wherever these stand: of each slot
a variable, a member or a parameter of its name, with the text of the type as it is kept, and so on up to
the declarations.
-/

namespace C3Lens

/-! ## Sizes -/

theorem digitsValue?_digits {ds : List Char} (some : ds ≠ []) (digits : ∀ d ∈ ds, d.isDigit = true) :
    digitsValue? 10 ds = .some (Nat.ofDigitChars 10 ds 0) := by
  rw [digitsValue?, if_neg (by simpa using some)]
  generalize 0 = n
  clear some
  induction ds generalizing n with
  | nil => rfl
  | cons d ds ih =>
    obtain ⟨digit, digits⟩ := List.forall_mem_cons.1 digits
    have small : d.toNat - 48 < 10 := by
      have bounds := Char.isDigit_iff_toNat.1 digit
      have nine : '9'.toNat = 57 := rfl
      omega
    have value : n * 10 + (d.toNat - 48) = 10 * n + (d.toNat - '0'.toNat) := by rw [Nat.mul_comm]; rfl
    rw [List.foldl_cons, Nat.ofDigitChars_cons, ← ih digits, ← value]
    congr 1
    simp [digit, small]

theorem toLower_digit {d : Char} (digit : d.isDigit = true) : d.toLower = d := by
  have bounds := Char.isDigit_iff_toNat.1 digit
  have nine : '9'.toNat = 57 := rfl
  delta Char.toLower
  rw [dif_neg]
  rintro ⟨upper, -⟩
  have upper : 65 ≤ d.toNat := upper
  omega

/-- A numeral of digits, which may have underscores between them, has the value of the digits. -/
theorem integerValue?_digits {text : String} {ds : List Char} (chars : text.toList.filter (· != '_') = ds)
    (some : ds ≠ []) (digits : ∀ d ∈ ds, d.isDigit = true) : integerValue? text =
      if Nat.ofDigitChars 10 ds 0 < 4294967296 then .some (Nat.ofDigitChars 10 ds 0) else none := by
  have plain : (text.toList.filter (· != '_')).map Char.toLower = ds := by
    have lower : ds.map Char.toLower = ds.map id := List.map_congr_left fun d mem => toLower_digit (digits d mem)
    rw [chars, lower, List.map_id]
  have value : digitsValue? 10 ds = .some (Nat.ofDigitChars 10 ds 0) := digitsValue?_digits some digits
  have second {c d : Char} {cs : List Char} : d ∈ c :: d :: cs := List.mem_cons_of_mem _ List.mem_cons_self
  rw [integerValue?, plain]
  dsimp only
  -- No letter is among the digits, so they have no mark of another base.
  split
  next => cases digits 'x' second
  next => cases digits 'b' second
  next => cases digits 'o' second
  next => rw [value, Option.bind_eq_bind, Option.bind_some]

theorem integerValue?_toString (n : Nat) :
    integerValue? (toString n) = if n < 4294967296 then some n else none := by
  have chars : (toString n).toList = Nat.toDigits 10 n := String.toList_ofList
  have digits : ∀ d ∈ Nat.toDigits 10 n, d.isDigit = true :=
    fun d mem => Nat.isDigit_of_mem_toDigits (by decide) (by decide) mem
  have kept : (Nat.toDigits 10 n).filter (· != '_') = Nat.toDigits 10 n := by
    rw [List.filter_eq_self]
    intro d mem
    rw [bne_iff_ne]
    rintro rfl
    cases digits _ mem
  rw [integerValue?_digits (by rw [chars, kept]) Nat.toDigits_ne_nil digits, Nat.ofDigitChars_ten_toDigits]

namespace Blueprint

open Outline (Gives gives_mapM)
open C3Lens.Tree (leaf node)

/-! ## Types -/

theorem arraySize?_mark (size? : Option Nat) :
    Outline.TypeParts.arraySize?
        (leaf ⟨.leftBracket, "["⟩ :: (sizeTrees size? ++ [leaf ⟨.rightBracket, "]"⟩])) =
      size?.filter (· < 4294967296) := by
  cases size? with
  | none => rfl
  | some size =>
    have read : Outline.TypeParts.arraySize? (leaf ⟨.leftBracket, "["⟩ :: (sizeTrees (some size) ++
        [leaf ⟨.rightBracket, "]"⟩])) = integerValue? (toString size) := rfl
    rw [read, integerValue?_toString, Option.filter_some]
    simp only [decide_eq_true_eq]

theorem typePartsOf_stars (n : Nat) (rest : List Tree) (done : Outline.TypeParts)
    (le : done.pointers ≤ TypeRef.mostPointers) :
    Outline.typePartsOf done (List.replicate n (leaf ⟨.star, "*"⟩) ++ rest) =
      Outline.typePartsOf { done with pointers := min (done.pointers + n) TypeRef.mostPointers } rest := by
  induction n generalizing done with
  | zero => rw [Nat.add_zero, Nat.min_eq_left le]; rfl
  | succ n ih =>
    have first : Outline.typePartsOf done (List.replicate (n + 1) (leaf ⟨.star, "*"⟩) ++ rest) =
        Outline.typePartsOf { done with pointers := min (done.pointers + 1) TypeRef.mostPointers }
          (List.replicate n (leaf ⟨.star, "*"⟩) ++ rest) := by
      rw [List.replicate_succ, List.cons_append, Outline.typePartsOf]
      simp [Outline.TypeParts.addToken]
    have sum : min (min (done.pointers + 1) TypeRef.mostPointers + n) TypeRef.mostPointers =
        min (done.pointers + (n + 1)) TypeRef.mostPointers := by omega
    rw [first, ih _ (Nat.min_le_right _ _)]
    dsimp only
    rw [sum]

/-- What is counted of a type. -/
def WrittenType.parts (t : WrittenType) : Outline.TypeParts where
  names := [t.name]
  pointers := t.kept.stars
  collection? := t.kept.mark?

theorem typePartsOf_tree (t : WrittenType) : Outline.typePartsOf {} t.tree.children = pure t.parts := by
  have name : Outline.typePartsOf {} t.tree.children = Outline.typePartsOf { names := [t.name] }
      (List.replicate t.stars (leaf ⟨.star, "*"⟩) ++ (t.mark?.map markTree).toList) := by
    rw [WrittenType.tree, Tree.children, word, Outline.typePartsOf]
    rfl
  rw [name, typePartsOf_stars _ _ _ (Nat.zero_le _), Nat.zero_add, WrittenType.parts, WrittenType.kept]
  cases t.mark? with
  | none => rw [Option.map_none, Option.toList_none, Outline.typePartsOf]; rfl
  | some size? =>
    rw [Option.map_some, Option.toList_some, markTree, Outline.typePartsOf, Outline.typePartsOf, arraySize?_mark]
    rfl

/-- The type is known by its name, has the marks that are kept, and nothing else. -/
structure WrittenType.ReadAs (t : WrittenType) (type : TypeRef) : Prop where
  name : type.name = t.name
  pointers : type.pointers = t.kept.stars
  collection : type.isCollection = t.kept.mark?.isSome ∧ type.size? = t.kept.mark?.join
  plain : type.arguments = [] ∧ type.isOptional = false

theorem WrittenType.ReadAs.text {t : WrittenType} {type : TypeRef} (h : t.ReadAs type) : type.text = t.kept.text := by
  obtain ⟨name, pointers, ⟨collection, size⟩, arguments, optional⟩ := h
  obtain ⟨_, _, _, _, _, _, _, _, _⟩ := type
  dsimp only at name pointers collection size arguments optional
  subst name pointers collection size arguments optional
  rw [TypeRef.text, TypeRef.marks, WrittenType.text]
  dsimp only
  rcases t.kept.mark? with _ | _ | size <;> simp [markText, WrittenType.kept, String.append_assoc]

variable {scope : Scope}

theorem gives_namedType {name : String} (some : name ≠ "") (free : scope.genericParameters = []) :
    Gives scope (Outline.namedType name "") fun type => type.name = name ∧ type.arguments = [] := by
  refine .read ?_
  rw [if_neg (beq_iff_eq.not.2 some)]
  split
  · exact .pure ⟨rfl, rfl⟩
  · rw [free]
    exact .skip fun _ => .pure ⟨rfl, rfl⟩

theorem IsName.isPlain {name : String} (h : IsName name) : Token.IsPlain ⟨.ident, name⟩ := by
  have mem : ⟨.ident, name⟩ ∈ Token.ofString name := by
    rw [h]
    exact List.mem_singleton_self _
  exact Token.isPlain_of_mem mem

theorem WrittenType.IsProper.ne_empty {t : WrittenType} (h : t.IsProper) : t.name ≠ "" := by
  rcases h with ⟨builtin, -⟩ | ⟨name, -⟩
  · intro empty
    rw [empty] at builtin
    exact absurd builtin (by decide)
  · exact name.isPlain.some

theorem gives_typeOf {t : WrittenType} (h : t.IsProper) (free : scope.genericParameters = []) :
    Gives scope (Outline.typeOf t.tree) t.ReadAs := by
  have reads : Outline.typeOf t.tree = t.parts.build := by
    have parts : Outline.typeOf t.tree = Outline.typePartsOf {} t.tree.children >>= Outline.TypeParts.build := by
      rw [WrittenType.tree, Outline.typeOf]
      rfl
    rw [parts, typePartsOf_tree, pure_bind]
  have named : t.parts.build = (Outline.namedType t.name "" >>= fun type => pure { type with
      arguments := []
      pointers := t.kept.stars
      isOptional := false
      isCollection := t.kept.mark?.isSome
      size? := t.kept.mark?.join }) := rfl
  rw [reads, named]
  refine .bind (gives_namedType h.ne_empty free) fun type known => .pure ?_
  exact ⟨known.1, rfl, ⟨rfl, rfl⟩, rfl, rfl⟩

/-! ## Variables -/

theorem gives_typeBelow? {p place : Place} {t : WrittenType} (below : p.child? .type = some place)
    (tree : place.tree = t.tree) (h : t.IsProper) (free : scope.genericParameters = []) :
    Gives scope (Outline.typeBelow? p) fun type? => ∃ type, type? = some type ∧ t.ReadAs type := by
  rw [Outline.typeBelow?, below]
  dsimp only
  rw [tree]
  exact .bind (gives_typeOf h free) fun type read => .pure ⟨type, rfl, read⟩

theorem gives_typeBelow {p place : Place} {t : WrittenType} (below : p.child? .type = some place)
    (tree : place.tree = t.tree) (h : t.IsProper) (free : scope.genericParameters = []) :
    Gives scope (Outline.typeBelow p) t.ReadAs :=
  .bind (gives_typeBelow? below tree h free) fun _ found => by
    obtain ⟨type, rfl, read⟩ := found
    exact .pure read

/-- The variables of a global declaration. -/
theorem gives_global {s : Slot} (h : s.IsProper) (free : scope.genericParameters = []) (start : Nat)
    (comment? : Option DocComment) :
    Gives scope (Outline.variablesOf ⟨start, (Item.global s).tree⟩ comment?) fun vs =>
      ∃ v, vs = [v] ∧ globalEntry v = (s.entry, false) :=
  .read (.bind (gives_typeBelow rfl rfl h.1 free) fun _ read =>
    .pure ⟨_, rfl, congrArg (fun text => ((s.name, text), false)) read.text⟩)

/-- A parameter. -/
theorem gives_parameter {s : Slot} (h : s.IsProper) (free : scope.genericParameters = []) (start index : Nat) :
    Gives scope (Outline.parameterOf ⟨start, s.parameterTree⟩ index none) fun v =>
      parameterEntry v = (s.entry, some ⟨false, none⟩) := by
  refine .read (.bind (gives_typeBelow? rfl rfl h.1 free) fun type? found => ?_)
  obtain ⟨type, rfl, read⟩ := found
  refine .bind (P := fun t => t.text = s.type.kept.text) (.pure read.text) fun t same => .pure ?_
  exact congrArg (fun text => ((s.name, text), some (ParameterInfo.mk false none))) same

theorem gives_parameters {slots : List Slot} (h : ∀ s ∈ slots, s.IsProper) (free : scope.genericParameters = [])
    (index : Nat) {places : List Place} (trees : places.map Place.tree = slots.map Slot.parameterTree) :
    Gives scope (Outline.parametersOf none index places) fun vs =>
      vs.map parameterEntry = slots.map fun s => (s.entry, some ⟨false, none⟩) := by
  induction slots generalizing index places with
  | nil =>
    rw [List.map_eq_nil_iff.1 trees]
    exact .pure rfl
  | cons s slots ih =>
    obtain ⟨first, others⟩ := List.forall_mem_cons.1 h
    obtain ⟨⟨start, _⟩, places, rfl, rfl, rest⟩ := List.map_eq_cons_iff.1 trees
    refine .bind (gives_parameter first free start index) fun v read =>
      .bind (ih others (index + 1) rest) fun vs reads =>
      .pure ?_
    rw [List.map_cons, List.map_cons, reads, read]

/-- The trees of the places of one kind below a place. -/
theorem trees_childrenOf (p : Place) (kind : NodeKind) :
    (p.childrenOf kind).map Place.tree = p.tree.children.filter fun t => t.nodeKind? == some kind := by
  have side (ts : List Tree) (start : Nat) : ((Place.line start ts).filter (·.isNode kind)).map Place.tree =
      ts.filter fun t => t.nodeKind? == some kind := by
    induction ts generalizing start with
    | nil => rfl
    | cons t ts ih =>
      have here : (Place.mk start t).isNode kind = (t.nodeKind? == some kind) := rfl
      rw [Place.line, List.filter_cons, List.filter_cons, here]
      split
      · rw [List.map_cons, ih]
      · exact ih _
  exact side _ _

/-- Among trees in brackets with commas between them, those of the kind are found. -/
theorem filter_bracketed {α : Type} {tree : α → Tree} {kind : NodeKind} (h : ∀ a, (tree a).nodeKind? = some kind)
    (opener closer : Token) (as : List α) :
    (bracketed opener closer (List.intersperse comma (as.map tree))).filter (fun t => t.nodeKind? == some kind) =
      as.map tree := by
  have other (t : Token) : ¬ ((leaf t).nodeKind? == some kind) = true := by simp [Tree.nodeKind?]
  have separated : (List.intersperse comma (as.map tree)).filter (fun t => t.nodeKind? == some kind) = as.map tree := by
    induction as with
    | nil => rfl
    | cons a as ih =>
      have first : ((tree a).nodeKind? == some kind) = true := beq_iff_eq.2 (h a)
      cases as with
      | nil => exact List.filter_cons_of_pos first
      | cons b bs =>
        rw [List.map_cons, List.map_cons, List.intersperse_cons_cons, ← List.map_cons, List.filter_cons,
          if_pos first, List.filter_cons, comma, if_neg (other _)]
        exact congrArg _ ih
  rw [bracketed, List.filter_cons, if_neg (other _), List.filter_append, separated, List.filter_cons, if_neg (other _),
    List.filter_nil, List.append_nil]

theorem gives_declaration {n : String} {p leaf : Place} (named : p.nameLeaf? = some leaf) (text : leaf.text = n)
    (comment? : Option DocComment) : Gives scope (Outline.declarationOf p comment?) fun d => d.name = n := by
  refine .read (.bind (P := fun name => name.1 = n) (.read ?_) fun name same => .pure same)
  rw [named]
  exact .pure text

theorem gives_function {head : Slot} {parameters : List Slot} (h : (Item.function head parameters).IsProper)
    (free : scope.genericParameters = []) (start : Nat) (comment? : Option DocComment) :
    Gives scope (Outline.functionOf ⟨start, (Item.function head parameters).tree⟩ comment?) fun f =>
      functionEntry f = (.free, head.entry, parameters.map fun s => (s.entry, some ⟨false, none⟩)) := by
  refine .bind (gives_typeBelow rfl rfl h.1.1 free) fun returns read => ?_
  refine .bind (gives_declaration (n := head.name) rfl rfl comment?) fun d named => ?_
  refine .bind
    (gives_parameters h.2.1 free 0 ((trees_childrenOf _ .param).trans (filter_bracketed (fun _ => rfl) _ _ _)))
    fun vs reads => .skip fun locals => .pure ?_
  have names : (vs.map fun v => (v.name, v)).map Prod.fst = parameters.map Slot.name := by
    have first := congrArg (List.map fun entry => entry.1.1) reads
    rw [List.map_map, List.map_map] at first
    rw [List.map_map]
    exact first
  have values : (Table.ofList (vs.map fun v => (v.name, v))).values = vs := by
    rw [Table.values, Table.entries_ofList (names ▸ h.2.2), List.map_map]
    exact List.map_id vs
  rw [functionEntry, values, reads, named, read.text]
  rfl

/-! ## Structs -/

theorem gives_field {s : Slot} (h : s.IsProper) (free : scope.genericParameters = []) (start : Nat) :
    Gives scope (Outline.fieldsOf ⟨start, s.memberTree⟩) fun ms => ms.map memberEntry = [s.entry] := by
  refine .read (.bind (gives_typeBelow? rfl rfl h.1 free) fun type? found => ?_)
  obtain ⟨type, rfl, read⟩ := found
  exact .pure (congrArg (fun text => [(s.name, text)]) read.text)

theorem gives_members {slots : List Slot} (h : ∀ s ∈ slots, s.IsProper) (free : scope.genericParameters = [])
    (host? : Option String) (start : Nat) :
    Gives scope (Outline.membersOf host? start (braced (slots.map Slot.memberTree))) fun ms =>
      ms.map memberEntry = slots.map Slot.entry := by
  have inside (start : Nat) : Gives scope (Outline.membersOf host? start (slots.map Slot.memberTree ++
      [leaf ⟨.rightBrace, "\x7d"⟩])) fun ms => ms.map memberEntry = slots.map Slot.entry := by
    induction slots generalizing start with
    | nil =>
      rw [List.map_nil, List.nil_append, Outline.membersOf, Outline.membersOfPart, Outline.membersOf]
      exact .pure rfl
      nofun
    | cons s slots ih =>
      obtain ⟨first, others⟩ := List.forall_mem_cons.1 h
      rw [List.map_cons, List.cons_append, Outline.membersOf]
      refine .bind (P := fun ms => ms.map memberEntry = [s.entry]) ?_ fun ms read =>
        .bind (ih others _) fun rest reads => .pure ?_
      · rw [Slot.memberTree, Outline.membersOfPart]
        exact gives_field first free start
      · rw [List.map_append, read, reads]
        rfl
  rw [braced, bracketed, Outline.membersOf, Outline.membersOfPart]
  · exact .bind (P := fun ms => ms = []) (.pure rfl) fun _ none =>
      .bind (inside _) fun ms reads => .pure (none ▸ reads)
  · nofun

theorem gives_struct {name : String} {members : List Slot} (h : (Item.struct name members).IsProper)
    (free : scope.genericParameters = []) (start : Nat) (comment? : Option DocComment) :
    Gives scope (Outline.structOf ⟨start, (Item.struct name members).tree⟩ comment?) fun a =>
      structEntry a = (name, false, members.map Slot.entry) := by
  refine .bind (gives_declaration (n := name) rfl rfl comment?) fun d named => ?_
  refine .bind (P := fun ms => ms.map memberEntry = members.map Slot.entry) ?_ fun ms reads => .pure ?_
  · refine .bind (gives_members h.2.1 free (some d.name) _) fun ms reads => .pure ?_
    rw [List.map_map]
    exact reads
  · rw [structEntry, reads, named]
    rfl

/-! ## Enums -/

theorem gives_enumerators {owner : String} (names : List String) {places : List Place}
    (trees : places.map Place.tree = names.map enumeratorTree) :
    Gives scope (places.mapM fun (q : Place) => do
      let (name, nameRange) ← Outline.nameOf q
      return ({ scope.declaration name nameRange nameRange none with
        value := Outline.enumeratorValue q, enumName := owner } : Enumerator)) fun es =>
      es.map (fun e => (e.name, e.value)) = names.map fun name => (name, "") := by
  induction names generalizing places with
  | nil =>
    rw [List.map_eq_nil_iff.1 trees]
    exact .pure rfl
  | cons name names ih =>
    obtain ⟨⟨start, _⟩, places, rfl, rfl, rest⟩ := List.map_eq_cons_iff.1 trees
    rw [List.mapM_cons]
    refine .bind (P := fun e => (e.name, e.value) = (name, "")) ?_ fun e read =>
      .bind (ih rest) fun es reads => .pure ?_
    · exact .bind (P := fun n => n.1 = name) (.read (.pure rfl)) fun n same => .pure (congrArg (·, "") same)
    · rw [List.map_cons, List.map_cons, read, reads]

theorem gives_enum (name : String) (enumerators : List String) (start : Nat) (comment? : Option DocComment) :
    Gives scope (Outline.enumOf ⟨start, (Item.enum name enumerators).tree⟩ comment?) fun e =>
      enumEntry e = (name, "", enumerators.map fun name => (name, "")) := by
  refine .read (.bind (gives_declaration (n := name) rfl rfl comment?) fun d named => ?_)
  refine .bind (P := fun vs => vs = []) (.pure rfl) fun values none => ?_
  refine .bind (gives_enumerators enumerators ?_) fun es reads => .pure ?_
  · exact (trees_childrenOf _ .enumerator).trans (filter_bracketed (fun _ => rfl) _ _ _)
  · rw [enumEntry, reads, named]
    rfl

end Blueprint

end C3Lens
