import C3Lens.Outline.Scope
import C3Lens.Proofs.Syntax.Blind
import C3Lens.Proofs.Syntax.Identifier
import C3Lens.Proofs.Syntax.ModulePath

/-!
# Texts without comments

The text that symbols keep of a part of the source is that of its tokens, with one blank where blanks
or comments stood between two of them. So it is determined by the significant tokens and by where blanks
stand (`Tree.compactText_congr`). From the text of a module's path the names are read, and there the
blanks do not matter (`ModulePath.parse_compactText`).
-/

namespace C3Lens

/-! ## Texts with blanks -/

namespace Token

/-- For each significant token, whether a blank or a comment stands between it and the one before;
`blank` tells whether one stands in front of all. -/
def gaps (blank : Bool) : List Token → List Bool
  | [] => []
  | t :: ts => if t.kind.isTrivia then gaps true ts else blank :: gaps false ts

end Token

namespace Tree

/-- Where blanks and comments stand in the text of a tree, from its first significant token on. -/
def gaps (t : Tree) : List Bool :=
  Token.gaps false (t.tokens.dropWhile fun t => t.kind.isTrivia)

theorem joinCompact_eq_empty {ts : List Token} (nothing : Token.significant ts = []) (blank : Bool) :
    joinCompact blank ts = "" := by
  induction ts generalizing blank with
  | nil => rfl
  | cons t ts ih =>
    by_cases trivia : t.kind.isTrivia = true
    · rw [Token.significant_cons_of_trivia trivia] at nothing
      rw [joinCompact, if_pos trivia, ih nothing]
    · rw [Token.significant_cons (Bool.eq_false_iff.2 trivia)] at nothing
      cases nothing

/-- The text of tokens begins with a blank, if one stands there, and the first significant token. -/
theorem joinCompact_eq_cons {t : Token} {ts us : List Token} (significant : Token.significant ts = t :: us)
    (blank : Bool) : ∃ here rest, Token.significant rest = us ∧
      Token.gaps blank ts = here :: Token.gaps false rest ∧
      joinCompact blank ts = (if here then " " else "") ++ t.text ++ joinCompact false rest ∧
      (here = false → ts = t :: rest) := by
  induction ts generalizing blank with
  | nil => cases significant
  | cons u ts ih =>
    by_cases trivia : u.kind.isTrivia = true
    · rw [Token.significant_cons_of_trivia trivia] at significant
      rw [Token.gaps, joinCompact, if_pos trivia, if_pos trivia]
      obtain ⟨here, rest, behind, first, text, direct⟩ := ih significant true
      refine ⟨here, rest, behind, first, text, fun none => ?_⟩
      -- The blank in front is seen, so the token does not come first.
      subst none
      rw [direct rfl, Token.gaps] at first
      split at first
      next blank =>
        have kept : t ∈ Token.significant ts := significant ▸ List.mem_cons_self
        rw [Token.significant, List.mem_filter, blank] at kept
        cases kept.2
      next => cases first
    · rw [Token.significant_cons (Bool.eq_false_iff.2 trivia)] at significant
      cases significant
      exact ⟨blank, ts, rfl, if_neg trivia, if_neg trivia, fun _ => rfl⟩

theorem joinCompact_congr {ts us : List Token} {blank blank' : Bool}
    (significant : Token.significant ts = Token.significant us)
    (gaps : Token.gaps blank ts = Token.gaps blank' us) : joinCompact blank ts = joinCompact blank' us := by
  generalize tokens : Token.significant ts = list at significant
  induction list generalizing ts us blank blank' with
  | nil => rw [joinCompact_eq_empty tokens, joinCompact_eq_empty significant.symm]
  | cons t list ih =>
    obtain ⟨here, rest, behind, first, text, -⟩ := joinCompact_eq_cons tokens blank
    obtain ⟨here', rest', behind', first', text', -⟩ := joinCompact_eq_cons significant.symm blank'
    rw [first, first', List.cons.injEq] at gaps
    rw [text, text', gaps.1, ih gaps.2 behind behind'.symm]

theorem significant_dropWhile (ts : List Token) :
    Token.significant (ts.dropWhile fun t => t.kind.isTrivia) = Token.significant ts := by
  induction ts with
  | nil => rfl
  | cons t ts ih =>
    rw [List.dropWhile_cons]
    split
    next trivia => rw [ih, Token.significant_cons_of_trivia trivia]
    next => rfl

/-- The text of a tree is determined by its significant tokens and the places of blanks. -/
theorem compactText_congr {t u : Tree}
    (significant : Token.significant t.tokens = Token.significant u.tokens) (gaps : t.gaps = u.gaps) :
    t.compactText = u.compactText :=
  joinCompact_congr (by rw [significant_dropWhile, significant, significant_dropWhile]) gaps

end Tree

/-! ## Tokens of a text -/

/-- A token is not empty, names have no colons and no blanks, and colons stand in pairs. -/
structure Token.IsPlain (t : Token) : Prop where
  some : t.text ≠ ""
  name : t.kind = .ident → t.text ≠ "" ∧ ∀ c ∈ t.text.toList, c ≠ ':' ∧ Text.isSpace c = false
  colons : t.kind = .colonColon → t.text = "::"
  equal : t.kind = .equal → t.text = "="

theorem Token.isPlain_of_mem {t : Token} {cs : List Char} (h : t ∈ ofChars cs) : t.IsPlain where
  some empty := by
    obtain ⟨s, more, rfl⟩ := exists_first_of_mem_ofChars h
    have none := congrArg String.toList empty
    rw [String.toList_ofList] at none
    rcases List.take_eq_nil_iff.1 none with zero | nothing
    · omega
    · exact more nothing
  name ident := by
    obtain ⟨c, rest, chars, first, others⟩ := isIdentifier_of_isName h (by rw [ident]; rfl)
    refine ⟨fun empty => ?_, ?_⟩
    · rw [empty] at chars
      cases chars
    · rw [chars]
      refine List.forall_mem_cons.2 ⟨?_, fun d hd => ?_⟩
      · rcases first with word | rfl | rfl
        · exact ⟨(plain_of_isWordPart word).2.1, (plain_of_isWordPart word).2.2.2⟩
        · exact ⟨by decide, rfl⟩
        · exact ⟨by decide, rfl⟩
      · exact ⟨(plain_of_isWordPart (others d hd)).2.1, (plain_of_isWordPart (others d hd)).2.2.2⟩
  colons kind := text_of_colonColon h kind
  equal kind := @text_of_punctuation _ _ h ("=", .equal) (by decide) kind

/-- Tokens stand side by side in a text. -/
def Token.InText (ts : List Token) : Prop :=
  ∃ cs, ts <:+: ofChars cs

namespace Token.InText

variable {ts us : List Token}

theorem mono (h : InText us) (part : ts <:+: us) : InText ts := by
  obtain ⟨cs, whole⟩ := h
  exact ⟨cs, part.trans whole⟩

theorem left (h : InText (ts ++ us)) : InText ts :=
  h.mono (List.prefix_append ts us).isInfix

theorem right (h : InText (ts ++ us)) : InText us :=
  h.mono (List.suffix_append ts us).isInfix

theorem isPlain (h : InText ts) {t : Token} (mem : t ∈ ts) : t.IsPlain := by
  obtain ⟨cs, whole⟩ := h
  exact isPlain_of_mem (whole.subset mem)

theorem isChain (h : InText ts) : ts.IsChain fun t u => t.kind = .equal → u.text.toList.head? ≠ some '=' := by
  obtain ⟨cs, whole⟩ := h
  exact List.IsChain.infix (isChain_ofChars cs) whole

/-- No equal sign begins what follows one directly. -/
theorem head?_append {first next : Token} (h : InText (first :: next :: ts)) (equal : first.kind = .equal)
    (s : String) : (next.text ++ s).toList.head? ≠ some '=' := by
  have other := (List.isChain_cons_cons.1 h.isChain).1 equal
  have some := (h.isPlain (List.mem_cons_of_mem _ List.mem_cons_self)).some
  rw [String.toList_append]
  cases chars : next.text.toList with
  | nil => exact absurd (String.toList_eq_nil_iff.1 chars) some
  | cons c cs =>
    rw [chars] at other
    exact other

end Token.InText

/-! ## Values -/

namespace Tree

/-- Where blanks and comments stand in the text of a value, as far as they are kept: a blank behind the
equal sign in front of it is not. -/
def valueGaps (t : Tree) : List Bool :=
  if (Token.significant t.tokens).head?.map Token.kind = some .equal then t.gaps.drop 2 else t.gaps

end Tree

/-- The texts are the same, or they are of the same value behind an equal sign, with or without a blank
between them. -/
def SameValue (s s' : String) : Prop :=
  s = s' ∨ ∃ (value : String) (here here' : Bool),
    (s = "=" ++ ((if here then " " else "") ++ value) ∧ (here = false → value.toList.head? ≠ some '=')) ∧
      s' = "=" ++ ((if here' then " " else "") ++ value) ∧ (here' = false → value.toList.head? ≠ some '=')

namespace SameValue

variable {s s' : String}

theorem trim_blank (here : Bool) (value : String) :
    Text.trim ((if here then " " else "") ++ value) = Text.trim value := by
  have chars : value = String.ofList value.toList := String.ofList_toList.symm
  cases here with
  | false => exact congrArg Text.trim (String.empty_append)
  | true =>
    rw [chars]
    exact (congrArg Text.trim String.ofList_append.symm).trans (Text.trim_cons rfl value.toList)

theorem trimLeft_equal {here : Bool} {value : String} (apart : here = false → value.toList.head? ≠ some '=') :
    Text.trimLeft (· == '=') ("=" ++ ((if here then " " else "") ++ value)) =
      (if here then " " else "") ++ value := by
  have other : ∀ {cs : List Char}, cs.head? ≠ some '=' → ('=' :: cs).dropWhile (· == '=') = cs := by
    intro cs first
    rw [List.dropWhile_cons_of_pos rfl]
    cases cs with
    | nil => rfl
    | cons c cs => exact List.dropWhile_cons_of_neg fun is => first (congrArg some (beq_iff_eq.1 is))
  rw [← String.toList_inj, Text.trimLeft, String.toList_ofList, String.toList_append]
  refine other ?_
  cases here with
  | true =>
    rw [String.toList_append]
    intro is
    cases is
  | false =>
    rw [if_neg Bool.false_ne_true, String.empty_append]
    exact apart rfl

theorem afterStart?_equal (rest : String) : Text.afterStart? "=" ("=" ++ rest) = some rest := by
  have chars : ("=" ++ rest).toList = '=' :: rest.toList := String.toList_append
  rw [Text.afterStart?, chars, if_pos (by rfl)]
  exact congrArg some String.ofList_toList

/-- The text of a default value. -/
theorem default (h : SameValue s s') :
    Text.trim (Text.trimLeft (· == '=') s) = Text.trim (Text.trimLeft (· == '=') s') := by
  obtain rfl | ⟨value, here, here', ⟨rfl, apart⟩, rfl, apart'⟩ := h
  · rfl
  · rw [trimLeft_equal apart, trimLeft_equal apart', trim_blank, trim_blank]

/-- The text of the value of an enumerator. -/
theorem afterStart? (h : SameValue s s') :
    s = s' ∨ ∃ rest rest', Text.afterStart? "=" s = some rest ∧ Text.afterStart? "=" s' = some rest' ∧
      Text.trim rest = Text.trim rest' := by
  obtain rfl | ⟨value, here, here', ⟨rfl, -⟩, rfl, -⟩ := h
  · exact .inl rfl
  · exact .inr ⟨_, _, afterStart?_equal _, afterStart?_equal _, by rw [trim_blank, trim_blank]⟩

end SameValue

namespace Tree

/-- A text begins with its first significant token. -/
theorem compactText_eq {t : Tree} {first : Token} {us : List Token}
    (significant : Token.significant t.tokens = first :: us) :
    ∃ rest, Token.significant rest = us ∧ (first :: rest) <:+: t.tokens ∧
      t.gaps = false :: Token.gaps false rest ∧ t.compactText = first.text ++ joinCompact false rest := by
  rw [← significant_dropWhile] at significant
  have part := (List.dropWhile_suffix (l := t.tokens) fun t => t.kind.isTrivia).isInfix
  rw [gaps, compactText]
  cases dropped : t.tokens.dropWhile (fun t => t.kind.isTrivia) with
  | nil =>
    rw [dropped] at significant
    cases significant
  | cons s rest =>
    have kept : ¬ s.kind.isTrivia = true := by
      have found := List.head?_dropWhile_not (fun t : Token => t.kind.isTrivia) t.tokens
      rw [dropped] at found
      exact Bool.eq_false_iff.1 found
    rw [dropped] at significant part
    rw [Token.significant_cons (Bool.eq_false_iff.2 kept)] at significant
    cases significant
    refine ⟨rest, rfl, part, ?_, ?_⟩
    · rw [Token.gaps, if_neg kept]
    · rw [joinCompact, if_neg kept, if_neg Bool.false_ne_true, String.empty_append]

theorem sameValue_compactText {t u : Tree}
    (significant : Token.significant t.tokens = Token.significant u.tokens) (gaps : t.valueGaps = u.valueGaps)
    (inText : Token.InText t.tokens) (inText' : Token.InText u.tokens) :
    SameValue t.compactText u.compactText := by
  by_cases equal : (Token.significant t.tokens).head?.map Token.kind = some .equal
  · have equal' := significant ▸ equal
    rw [valueGaps, valueGaps, if_pos equal, if_pos equal'] at gaps
    generalize tokens : Token.significant t.tokens = list at significant
    cases list with
    | nil =>
      rw [tokens] at equal
      cases equal
    | cons first us =>
      obtain ⟨rest, behind, part, gapsLeft, text⟩ := compactText_eq tokens
      obtain ⟨rest', behind', part', gapsRight, text'⟩ := compactText_eq significant.symm
      rw [tokens] at equal
      have kind : first.kind = .equal := Option.some.inj equal
      have sign : first.text = "=" := (inText.isPlain (part.subset List.mem_cons_self)).equal kind
      rw [gapsLeft, gapsRight, List.drop_succ_cons, List.drop_succ_cons] at gaps
      rw [text, text', sign]
      cases us with
      | nil => 
        rw [joinCompact_eq_empty behind, joinCompact_eq_empty behind']
        exact .inl rfl
      | cons next us =>
        obtain ⟨here, last, behind, firstGap, text, direct⟩ := joinCompact_eq_cons behind false
        obtain ⟨here', last', behind', firstGap', text', direct'⟩ := joinCompact_eq_cons behind' false
        rw [firstGap, firstGap', List.drop_succ_cons, List.drop_succ_cons, List.drop_zero, List.drop_zero] at gaps
        rw [text, text', joinCompact_congr (behind.trans behind'.symm) gaps, String.append_assoc, String.append_assoc]
        refine .inr ⟨_, here, here', ⟨rfl, fun none => ?_⟩, rfl, fun none => ?_⟩
        · rw [direct none] at part
          exact (inText.mono part).head?_append kind _
        · rw [direct' none] at part'
          exact (inText'.mono part').head?_append kind _
  · have equal' := significant ▸ equal
    rw [valueGaps, valueGaps, if_neg equal, if_neg equal'] at gaps
    exact .inl (compactText_congr significant gaps)

end Tree

/-! ## Paths of modules -/

namespace ModulePath

theorem notMem_blank (here : Bool) : ':' ∉ (if here then " " else "").toList := by
  cases here <;> decide

theorem trim_text_blank (here : Bool) (cs : List Char) :
    Text.trim (String.ofList (cs ++ (if here then " " else "").toList)) = Text.trim (String.ofList cs) := by
  cases here with
  | false => exact congrArg (fun cs => Text.trim (String.ofList cs)) (List.append_nil cs)
  | true => exact Text.trim_concat rfl cs

theorem trim_blank_text (here : Bool) {name : String}
    (plain : name ≠ "" ∧ ∀ c ∈ name.toList, c ≠ ':' ∧ Text.isSpace c = false) :
    Text.trim (String.ofList ((if here then " " else "").toList ++ name.toList)) = name := by
  have bare : Text.trim (String.ofList name.toList) = name := by
    rw [String.ofList_toList]
    exact Text.trim_of_forall fun c hc => (plain.2 c hc).2
  cases here with
  | false => exact bare
  | true => exact (Text.trim_cons rfl name.toList).trans bare

/-- The names among tokens. -/
def namesOf (ts : List Token) : List String :=
  (ts.filter (·.kind == .ident)).map Token.text

/-- A text that begins with a name is cut behind it. -/
theorem splitColons_nameFirst {ts us : List Token} {a : Token} {blank : Bool}
    (tokens : Token.significant ts = a :: us) (name : a.kind = .ident) (plain : a.IsPlain)
    (read : ∀ rest, Token.significant rest = us → ∀ current,
      (splitColons current (Tree.joinCompact false rest).toList).map Text.trim =
        Text.trim (String.ofList current.reverse) :: namesOf us) :
    (splitColons [] (Tree.joinCompact blank ts).toList).map Text.trim = namesOf (a :: us) := by
  obtain ⟨here, rest, behind, -, text, -⟩ := Tree.joinCompact_eq_cons tokens blank
  have clean : ':' ∉ a.text.toList := fun mem => ((plain.name name).2 ':' mem).1 rfl
  rw [text, String.toList_append, String.toList_append, List.append_assoc,
    splitColons_name (notMem_blank here), splitColons_name clean, read rest behind, List.append_nil,
    List.reverse_append, List.reverse_reverse, List.reverse_reverse, trim_blank_text here (plain.name name),
    namesOf, namesOf, List.filter_cons_of_pos (by rw [name]; rfl), List.map_cons]

/-- What follows a name is cut at all colons, whatever blanks stand between the tokens. -/
theorem splitColons_pathTail {us : List Token} (tail : Token.PathTail us) (plain : ∀ t ∈ us, t.IsPlain)
    (ts : List Token) (tokens : Token.significant ts = us) (current : List Char) :
    (splitColons current (Tree.joinCompact false ts).toList).map Text.trim =
      Text.trim (String.ofList current.reverse) :: namesOf us := by
  induction tail generalizing ts current with
  | nil =>
    rw [Tree.joinCompact_eq_empty tokens]
    rfl
  | @cons a b us colons name _ ih =>
    obtain ⟨colonsPlain, namePlain, plain⟩ := List.forall_mem_cons.1 plain |>.imp_right List.forall_mem_cons.1
    obtain ⟨here, rest, behind, -, text, -⟩ := Tree.joinCompact_eq_cons tokens false
    have next := @splitColons_nameFirst _ _ _ false behind name namePlain (ih plain)
    have cut (front cs : List Char) : splitColons front ("::".toList ++ cs) =
        String.ofList front.reverse :: splitColons [] cs := splitColons_pair front cs
    have skipped : namesOf (a :: b :: us) = namesOf (b :: us) := by
      rw [namesOf, List.filter_cons_of_neg (by rw [colons]; decide), namesOf]
    rw [text, colonsPlain.colons colons, String.toList_append, String.toList_append, List.append_assoc,
      splitColons_name (notMem_blank here), cut, List.map_cons, next, List.reverse_append,
      List.reverse_reverse, trim_text_blank, skipped]

/-- The path that tokens spell, if there are any. -/
theorem parse_joinCompact {ts : List Token} (path : Token.PathTokens (Token.significant ts))
    (plain : ∀ t ∈ ts, t.IsPlain) (blank : Bool) :
    parse (Tree.joinCompact blank ts) = ⟨namesOf (Token.significant ts)⟩ := by
  replace plain : ∀ t ∈ Token.significant ts, t.IsPlain := fun t ht => plain t (List.mem_of_mem_filter ht)
  generalize tokens : Token.significant ts = us at path plain
  cases path with
  | nil =>
    rw [Tree.joinCompact_eq_empty tokens]
    rfl
  | @name a us name tail =>
    obtain ⟨first, plain⟩ := List.forall_mem_cons.1 plain
    have read := @splitColons_nameFirst _ _ _ blank tokens name first (splitColons_pathTail tail plain)
    have some : Tree.joinCompact blank ts ≠ "" := by
      obtain ⟨here, rest, -, -, text, -⟩ := Tree.joinCompact_eq_cons tokens blank
      intro empty
      rw [text, String.append_eq_empty_iff, String.append_eq_empty_iff] at empty
      exact (first.name name).1 empty.1.2
    rw [parse, if_neg (beq_iff_eq.not.2 some), read]

theorem parse_compactText {t u : Tree} (same : Token.significant t.tokens = Token.significant u.tokens)
    (path : Token.PathTokens (Token.significant t.tokens)) (left : ∀ s ∈ t.tokens, s.IsPlain)
    (right : ∀ s ∈ u.tokens, s.IsPlain) : parse t.compactText = parse u.compactText := by
  have kept {t : Tree} {s : Token} (h : s ∈ t.tokens.dropWhile fun t => t.kind.isTrivia) : s ∈ t.tokens :=
    (List.dropWhile_suffix _).subset h
  rw [Tree.compactText, Tree.compactText, parse_joinCompact, parse_joinCompact, Tree.significant_dropWhile,
    Tree.significant_dropWhile, same]
  · rwa [Tree.significant_dropWhile, ← same]
  · exact fun s hs => right s (kept hs)
  · rwa [Tree.significant_dropWhile]
  · exact fun s hs => left s (kept hs)

end ModulePath

end C3Lens
