import C3Lens.Proofs.Blueprint.Basic
import C3Lens.Proofs.Syntax.Lexes
import C3Lens.Proofs.Syntax.Reading

/-!
# The tokens of a blueprint

The text of a proper blueprint is cut into the tokens of its tree and blanks (`Blueprint.solid_text`). Each
piece of the text is cut by itself, since what follows it cannot go on with its last token: a name is
followed by a blank, a star, a bracket or other punctuation, a number by a bracket.
-/

namespace C3Lens

open Token (Lexes Breaks IsSpelled isNamePart)

namespace Tree

theorem tokensOfList_eq_flatMap (ts : List Tree) : tokensOfList ts = ts.flatMap tokens := by
  induction ts with
  | nil => rfl
  | cons t ts ih => rw [tokensOfList, ih, List.flatMap_cons]

theorem tokensOfList_map {α : Type} (f : α → Tree) (as : List α) :
    tokensOfList (as.map f) = as.flatMap fun a => (f a).tokens := by
  rw [tokensOfList_eq_flatMap, List.flatMap_map]

theorem tokensOfList_intersperse (sep : Tree) (ts : List Tree) :
    tokensOfList (ts.intersperse sep) = sep.tokens.intercalate (ts.map tokens) := by
  induction ts with
  | nil => rfl
  | cons t ts ih =>
    cases ts with
    | nil => simp [tokensOfList, List.intercalate_singleton]
    | cons u us =>
      rw [List.intersperse_cons_cons, tokensOfList, tokensOfList, ih, List.map_cons, List.map_cons, List.map_cons,
        List.intercalate_cons_cons, List.append_assoc]

end Tree

namespace Blueprint

/-- A blank, a separator or a bracket ends a name. -/
theorem breaks_cons {c : Char} (other : isNamePart c = false) (rest : List Char) : Breaks isNamePart (c :: rest) := by
  rintro _ ⟨⟩
  exact other

theorem IsName.isSpelled {name : String} (h : IsName name) :
    IsSpelled name ∧ (TokenKind.ofReservedWord? name).getD .ident = .ident := by
  have mem : ⟨.ident, name⟩ ∈ Token.ofString name := by
    rw [h]
    exact List.mem_singleton_self _
  exact Token.isSpelled_of_ident mem

theorem IsName.lexes {name : String} (h : IsName name) : Lexes name.toList [⟨.ident, name⟩] (Breaks isNamePart) :=
  .word h.isSpelled.1 h.isSpelled.2 nofun

/-- The built-in types are spelled like names. -/
theorem WrittenType.IsProper.isSpelled {t : WrittenType} (h : t.IsProper) :
    IsSpelled t.name ∧ (TokenKind.ofReservedWord? t.name).getD .ident = .ident := by
  have all : ∀ name ∈ builtinTypes, name ≠ "fault" → name.toList.head?.any Token.isNameStart = true ∧
      name.toList.tail.all isNamePart = true ∧ (TokenKind.ofReservedWord? name).getD .ident = .ident := by
    decide
  rcases h with ⟨builtin, plain⟩ | ⟨name, -⟩
  · obtain ⟨start, parts, kind⟩ := all t.name (List.contains_iff_mem.1 builtin) plain
    exact ⟨.of_chars start parts, kind⟩
  · exact name.isSpelled

theorem lexes_star (n : Nat) : Lexes (List.replicate n '*') (List.replicate n ⟨.star, "*"⟩)
    fun rest => rest.head? ≠ some '=' := by
  induction n with
  | zero => exact Lexes.nil.weaken fun _ _ => trivial
  | succ n ih =>
    rw [List.replicate_succ, List.replicate_succ]
    apply Lexes.star.append ih
    intro rest other
    cases n with
    | zero => exact other
    | succ n => nofun

theorem lexes_mark (mark? : Option (Option Nat)) :
    Lexes (markText mark?).toList (Tree.tokensOfList (mark?.map markTree).toList) fun _ => True := by
  have opener := Lexes.lone ("[", .leftBracket) (by decide)
  have closer := Lexes.lone ("]", .rightBracket) (by decide)
  match mark? with
  | none => exact .nil
  | some none => exact opener.append closer fun _ _ => trivial
  | some (some size) =>
    rw [markText, String.toList_append, String.toList_append, List.append_assoc]
    exact opener.append ((Lexes.number size).append closer fun _ _ => rfl) fun _ _ => trivial

/-- In front of a blank a type is cut into the name, the stars and the array mark. -/
theorem WrittenType.IsProper.lexes {t : WrittenType} (h : t.IsProper) :
    Lexes t.text.toList t.tree.tokens fun rest => rest.head? = some ' ' := by
  have name : Lexes t.name.toList [⟨.ident, t.name⟩] (Breaks isNamePart) := .word h.isSpelled.1 h.isSpelled.2 nofun
  have mark (rest : List Char) (blank : rest.head? = some ' ') :
      ∃ c cs, (markText t.mark?).toList ++ rest = c :: cs ∧ (c = ' ' ∨ c = '[') := by
    obtain ⟨rest, rfl⟩ := List.head?_eq_some_iff.1 blank
    rcases t.mark? with _ | _ | size
    · exact ⟨' ', rest, rfl, .inl rfl⟩
    · exact ⟨'[', _, rfl, .inr rfl⟩
    · rw [markText, String.toList_append, String.toList_append]
      exact ⟨'[', _, rfl, .inr rfl⟩
  have stars := (lexes_star t.stars).append ((lexes_mark t.mark?).weaken (Q := fun rest => rest.head? = some ' ')
    fun _ _ => trivial) fun rest blank => by
      obtain ⟨c, cs, chars, rfl | rfl⟩ := mark rest blank <;> rw [chars] <;> nofun
  have whole := name.append stars fun rest blank => by
    obtain ⟨c, cs, chars, mark⟩ := mark rest blank
    rw [List.append_assoc, chars]
    cases t.stars with
    | zero => exact breaks_cons (by rcases mark with rfl | rfl <;> decide) cs
    | succ n => exact breaks_cons (by decide) _
  have tokens : t.tree.tokens = [⟨.ident, t.name⟩] ++ (List.replicate t.stars ⟨.star, "*"⟩ ++
      Tree.tokensOfList (t.mark?.map markTree).toList) := by
    rw [WrittenType.tree, Tree.tokens, Tree.tokensOfList, Tree.tokensOfList_append,
      ← List.map_replicate (f := Tree.leaf), Tree.tokensOfList_leaves]
    rfl
  rw [WrittenType.text, String.toList_append, String.toList_append, List.append_assoc, String.toList_ofList, tokens]
  exact whole

theorem Slot.IsProper.lexes {s : Slot} (h : s.IsProper) :
    Lexes s.text.toList (Tree.tokensOfList s.trees) (Breaks isNamePart) := by
  have blank : Lexes [' '] [] fun _ => True := .blank (by decide)
  have whole := h.1.lexes.append (blank.append h.2.lexes fun _ _ => trivial) fun _ _ => rfl
  rw [Slot.text, String.toList_append, String.toList_append, List.append_assoc]
  exact whole

/-- What is written begins with a letter or an underscore. -/
theorem Slot.IsProper.head {s : Slot} (h : s.IsProper) :
    ∃ c cs, s.text.toList = c :: cs ∧ Token.isNameStart c = true := by
  obtain ⟨⟨c, cs, chars, start, -⟩, -⟩ := h.1.isSpelled
  refine ⟨c, cs ++ (String.ofList (List.replicate s.type.stars '*') ++ markText s.type.mark? ++ " " ++ s.name).toList,
    ?_, start⟩
  simp [Slot.text, WrittenType.text, chars]

/-! ## Declarations -/

theorem lexes_keyword (word : String) (kind : TokenKind) (spelled : IsSpelled word)
    (reserved : (TokenKind.ofReservedWord? word).getD .ident = kind) (plain : kind ≠ .whitespace) :
    Lexes (word ++ " ").toList [⟨kind, word⟩] fun _ => True := by
  rw [String.toList_append]
  have blank : Lexes [' '] [] fun _ => True := .blank (by decide)
  exact (Lexes.word spelled reserved plain).append blank fun rest _ => breaks_cons (by decide) rest

theorem lexes_members {members : List Slot} (h : ∀ s ∈ members, s.IsProper) :
    Lexes (String.join (members.map fun s => "\t" ++ s.text ++ ";\n")).toList
      (Tree.tokensOfList (members.map Slot.memberTree)) fun _ => True := by
  rw [String.toList_join, List.flatMap_map, Tree.tokensOfList_map]
  refine Lexes.flatMap fun s hs => ?_
  have tab : Lexes ['\t'] [] fun _ => True := .blank (by decide)
  have newline : Lexes ['\n'] [] fun _ => True := .blank (by decide)
  have semicolon := (Lexes.lone (";", .semicolon) (by decide)).append newline fun _ _ => trivial
  have whole := tab.append ((h s hs).lexes.append semicolon fun rest _ => breaks_cons (by decide) _) fun _ _ => trivial
  have tokens : s.memberTree.tokens = Tree.tokensOfList s.trees ++ [⟨.semicolon, ";"⟩] := by
    rw [Slot.memberTree, Tree.tokens, Tree.tokensOfList_append]
    rfl
  rw [String.toList_append, String.toList_append, List.append_assoc, tokens]
  exact whole

/-- Pieces with commas between them. -/
theorem lexes_separated {α : Type} {as : List α} (f : α → String) (tree : α → Tree)
    (h : ∀ a ∈ as, Lexes (f a).toList (tree a).tokens (Breaks isNamePart)) :
    Lexes (", ".intercalate (as.map f)).toList (Tree.tokensOfList (List.intersperse comma (as.map tree)))
      (Breaks isNamePart) := by
  have blank : Lexes [' '] [] fun _ => True := .blank (by decide)
  have separator := (Lexes.lone (",", .comma) (by decide)).append blank fun _ _ => trivial
  rw [String.toList_intercalate, List.map_map, Tree.tokensOfList_intersperse, List.map_map]
  exact .intercalate h separator fun rest => breaks_cons (by decide) _

theorem lexes_global {slot : Slot} (h : slot.IsProper) :
    Lexes (Item.global slot).text.toList (Item.global slot).tree.tokens fun _ => True := by
  have semicolon := Lexes.lone (";", .semicolon) (by decide)
  have tokens : (Item.global slot).tree.tokens = Tree.tokensOfList slot.trees ++ [⟨.semicolon, ";"⟩] := by
    rw [Item.tree, Tree.tokens, Tree.tokensOfList_append]
    rfl
  rw [Item.text, String.toList_append, tokens]
  exact h.lexes.append semicolon fun rest _ => breaks_cons (by decide) rest

theorem lexes_struct {name : String} {members : List Slot} (hname : IsName name)
    (hmembers : ∀ s ∈ members, s.IsProper) :
    Lexes (Item.struct name members).text.toList (Item.struct name members).tree.tokens fun _ => True := by
  have blank : Lexes [' '] [] fun _ => True := .blank (by decide)
  have newline : Lexes ['\n'] [] fun _ => True := .blank (by decide)
  have opener := Lexes.lone ("\x7b", .leftBrace) (by decide)
  have closer := Lexes.lone ("\x7d", .rightBrace) (by decide)
  have keyword := lexes_keyword "struct" .structKw (.of_chars (by decide) (by decide)) rfl nofun
  have body := (lexes_members hmembers).append closer fun _ _ => trivial
  have head := blank.append (opener.append newline fun _ _ => trivial) fun _ _ => trivial
  have whole := keyword.append (hname.lexes.append (head.append body fun _ _ => trivial)
    fun rest _ => breaks_cons (by decide) _) fun _ _ => trivial
  refine whole.congr (by simp [Item.text]) ?_
  simp [Item.tree, nameTree, word, braced, bracketed, Tree.tokens, Tree.tokensOfList, Tree.tokensOfList_append]

theorem lexes_enum {name : String} {enumerators : List String} (hname : IsName name)
    (henumerators : ∀ e ∈ enumerators, IsName e) :
    Lexes (Item.enum name enumerators).text.toList (Item.enum name enumerators).tree.tokens fun _ => True := by
  have blank : Lexes [' '] [] fun _ => True := .blank (by decide)
  have opener := Lexes.lone ("\x7b", .leftBrace) (by decide)
  have closer := Lexes.lone ("\x7d", .rightBrace) (by decide)
  have keyword := lexes_keyword "enum" .enumKw (.of_chars (by decide) (by decide)) rfl nofun
  have list := lexes_separated id enumeratorTree fun e he => (henumerators e he).lexes
  have body := list.append (blank.append closer fun _ _ => trivial) fun rest _ => breaks_cons (by decide) _
  have head := blank.append (opener.append blank fun _ _ => trivial) fun _ _ => trivial
  have whole := keyword.append (hname.lexes.append (head.append body fun _ _ => trivial)
    fun rest _ => breaks_cons (by decide) _) fun _ _ => trivial
  refine whole.congr (by simp [Item.text]) ?_
  simp [Item.tree, nameTree, word, braced, bracketed, Tree.tokens, Tree.tokensOfList, Tree.tokensOfList_append]

/-- Neither the first parameter nor the closing parenthesis makes another mark of the opening one. -/
theorem head?_parameters {parameters : List Slot} (h : ∀ s ∈ parameters, s.IsProper) (rest : List Char) :
    ((", ".intercalate (parameters.map Slot.text)).toList ++ ')' :: rest).head? ≠ some '<' := by
  cases parameters with
  | nil => nofun
  | cons s parameters =>
    obtain ⟨c, cs, chars, start⟩ := (h s List.mem_cons_self).head
    have differs : c ≠ '<' := by
      rintro rfl
      cases start
    rw [String.toList_intercalate, List.map_cons, List.map_cons]
    cases parameters with
    | nil => simpa [List.intercalate_singleton, chars] using differs
    | cons => simpa [List.intercalate_cons_cons, chars] using differs

theorem lexes_function {head : Slot} {parameters : List Slot} (hhead : head.IsProper)
    (hparameters : ∀ s ∈ parameters, s.IsProper) :
    Lexes (Item.function head parameters).text.toList (Item.function head parameters).tree.tokens
      fun _ => True := by
  have semicolon := Lexes.lone (";", .semicolon) (by decide)
  have keyword := lexes_keyword "fn" .fnKw (.of_chars (by decide) (by decide)) rfl nofun
  have list := lexes_separated Slot.text Slot.parameterTree fun s hs => (hparameters s hs).lexes
  have closer := (Lexes.lone (")", .rightParen) (by decide)).append semicolon fun _ _ => trivial
  have body := list.append closer fun rest _ => breaks_cons (by decide) _
  have opened := Lexes.leftParen.append body fun rest _ => by
    rw [List.append_assoc]
    exact head?_parameters hparameters _
  have whole := keyword.append (hhead.lexes.append opened fun rest _ => breaks_cons (by decide) _)
    fun _ _ => trivial
  refine whole.congr (by simp [Item.text]) ?_
  simp [Item.tree, parametersTree, bracketed, Blueprint.semicolon, Tree.tokens, Tree.tokensOfList,
    Tree.tokensOfList_append]

theorem Item.IsProper.lexes {item : Item} (h : item.IsProper) :
    Lexes item.text.toList item.tree.tokens fun _ => True := by
  cases item with
  | global slot => exact lexes_global h
  | struct name members => exact lexes_struct h.1 h.2.1
  | enum name enumerators => exact lexes_enum h.1 h.2.1
  | function head parameters => exact lexes_function h.1 h.2.1

theorem IsPath.lexes {path : List String} (h : IsPath path) (word : String) (kind : TokenKind)
    (spelled : IsSpelled word) (reserved : (TokenKind.ofReservedWord? word).getD .ident = kind)
    (plain : kind ≠ .whitespace) :
    Lexes (pathLine word path).toList (⟨kind, word⟩ :: ((pathTree path).tokens ++ semicolon.tokens))
      fun _ => True := by
  have newline : Lexes ['\n'] [] fun _ => True := .blank (by decide)
  have ending := (Lexes.lone (";", .semicolon) (by decide)).append newline fun _ _ => trivial
  have names : Lexes (":".toList ++ ":".toList |>.intercalate (path.map String.toList))
      ([⟨.colonColon, "::"⟩].intercalate (path.map fun name => [⟨.ident, name⟩])) (Breaks isNamePart) :=
    .intercalate (fun name hname => (h.2 name hname).lexes) .colonColon fun rest => breaks_cons (by decide) _
  have whole := (lexes_keyword word kind spelled reserved plain).append
    (names.append ending fun rest _ => breaks_cons (by decide) _) fun _ _ => trivial
  refine whole.congr (by simp [pathLine, String.toList_intercalate]) ?_
  rw [pathTree, Tree.tokens, Tree.tokensOfList_intersperse, List.map_map]
  simp [Blueprint.semicolon, Tree.tokens, Function.comp_def, Blueprint.word]

/-- The text is cut into the tokens of the tree and blanks. -/
theorem solid_text {b : Blueprint} (proper : b.IsProper) : Token.solid (Token.ofString b.text) = b.tree.tokens := by
  have header := proper.path.lexes "module" .moduleKw (.of_chars (by decide) (by decide)) rfl nofun
  have imports : Lexes (b.imports.flatMap fun path => (pathLine "import" path).toList)
      (b.imports.flatMap fun path => (importTree path).tokens) fun _ => True :=
    .flatMap fun path hpath => ((proper.imports.1 path hpath).lexes "import" .importKw
      (.of_chars (by decide) (by decide)) rfl nofun).congr rfl (by
        simp [importTree, Tree.tokens, Tree.tokensOfList])
  have newline : Lexes ['\n'] [] fun _ => True := .blank (by decide)
  have items : Lexes (b.items.flatMap fun item => (item.text ++ "\n").toList)
      (b.items.flatMap fun item => item.tree.tokens) fun _ => True :=
    .flatMap fun item hitem => ((proper.items item hitem).lexes.append newline fun _ _ => trivial).congr
      String.toList_append (List.append_nil _).symm
  have whole : Lexes b.text.toList b.tree.tokens fun _ => True := by
    refine ((header.append imports fun _ _ => trivial).append items fun _ _ => trivial).congr ?_ ?_
    · rw [text, String.toList_append, String.toList_append, String.toList_join, String.toList_join, List.flatMap_map,
        List.flatMap_map]
    · rw [tree, Tree.tokens, Tree.tokensOfList, Tree.tokensOfList_append, Tree.tokensOfList_map, Tree.tokensOfList_map]
      simp [moduleTree, Tree.tokens, Tree.tokensOfList]
  have read := whole [] trivial
  rw [List.append_nil, Token.ofChars] at read
  exact read.trans (List.append_nil _)

end Blueprint

end C3Lens
