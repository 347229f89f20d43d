import Mathlib.Data.List.Chain
import Mathlib.Data.List.TakeWhile
import C3Lens.Cursor.Word
import C3Lens.Syntax.Token

/-!
# Identifiers

An identifier is a run of word characters behind at most one mark, `@` or `#`, which are none
(`Token.isIdentifier_of_isName`).
-/

namespace C3Lens.Token

/-- The characters are those of an identifier. -/
def IsIdentifier (cs : List Char) : Prop :=
  ∃ c rest, cs = c :: rest ∧ (isWordPart c = true ∨ c = '@' ∨ c = '#') ∧ ∀ d ∈ rest, isWordPart d = true

theorem IsIdentifier.dot_notMem {cs : List Char} (h : IsIdentifier cs) : '.' ∉ cs := by
  obtain ⟨c, rest, rfl, first, parts⟩ := h
  rw [List.mem_cons, not_or]
  constructor
  · rintro rfl
    rcases first with part | mark | mark
    · cases part
    · cases mark
    · cases mark
  · intro dot
    cases parts '.' dot

theorem isWordPart_of_isNamePart {c : Char} (h : isNamePart c = true) : isWordPart c = true := by
  rw [isNamePart] at h
  rw [isWordPart, h, Bool.true_or]

theorem isWordPart_of_isNameStart {c : Char} (h : isNameStart c = true) : isWordPart c = true := by
  rw [isNameStart, Bool.or_eq_true] at h
  refine isWordPart_of_isNamePart ?_
  rw [isNamePart, Char.isAlphanum]
  rcases h with letter | underscore
  · rw [letter, Bool.true_or, Bool.true_or]
  · rw [underscore, Bool.or_true]

/-! ## Patterns -/

theorem take_run (p : Char → Bool) (s : List Char) : s.take (run p s) = s.takeWhile p :=
  (List.prefix_iff_eq_take.1 (List.takeWhile_prefix p)).symm

/-- A name consists of word characters. -/
theorem wordParts_take_nameLength (s : List Char) : ∀ c ∈ s.take (nameLength s), isWordPart c = true := by
  cases s with
  | nil => exact fun c hc => nomatch hc
  | cons d s =>
    rw [nameLength]
    split
    next start =>
      rw [List.take_succ_cons, take_run]
      refine List.forall_mem_cons.2 ⟨isWordPart_of_isNameStart start, fun c hc => ?_⟩
      exact isWordPart_of_isNamePart (List.mem_takeWhile_imp hc)
    next => exact fun c hc => nomatch hc

theorem wordParts_take_markedNameLength {mark : Char} (known : isWordPart mark = true) (s : List Char) :
    ∀ c ∈ s.take (markedNameLength mark s), isWordPart c = true := by
  cases s with
  | nil => exact fun c hc => nomatch hc
  | cons d s =>
    rw [markedNameLength]
    split
    next marked =>
      rw [Bool.and_eq_true, decide_eq_true_eq] at marked
      rw [List.take_succ_cons]
      exact List.forall_mem_cons.2 ⟨marked.1 ▸ known, wordParts_take_nameLength s⟩
    next => exact fun c hc => nomatch hc

theorem wordParts_take_compileTimeNameLength (s : List Char) :
    ∀ c ∈ s.take (compileTimeNameLength s), isWordPart c = true := by
  have dollar : isWordPart '$' = true := by decide
  unfold compileTimeNameLength
  split
  next t =>
    split
    next =>
      rw [List.take_succ_cons, List.take_succ_cons]
      refine List.forall_mem_cons.2 ⟨dollar, List.forall_mem_cons.2 ⟨dollar, ?_⟩⟩
      exact wordParts_take_nameLength t
    next => exact fun c hc => nomatch hc
  next => exact wordParts_take_markedNameLength dollar s

/-- A run of word characters is an identifier. -/
theorem isIdentifier_of_wordParts {s : List Char} {n : Nat} (pos : 0 < n) (more : s ≠ [])
    (parts : ∀ c ∈ s.take n, isWordPart c = true) : IsIdentifier (s.take n) := by
  obtain ⟨c, rest, rfl⟩ := List.exists_cons_of_ne_nil more
  obtain ⟨n, rfl⟩ := Nat.exists_eq_add_of_lt pos
  rw [Nat.zero_add, List.take_succ_cons] at parts ⊢
  exact ⟨c, _, rfl, .inl (parts c List.mem_cons_self), fun d hd => parts d (List.mem_cons_of_mem _ hd)⟩

theorem isIdentifier_of_mark {mark : Char} (known : mark = '@' ∨ mark = '#') {s : List Char}
    (pos : 0 < markedNameLength mark s) : IsIdentifier (s.take (markedNameLength mark s)) := by
  cases s with
  | nil => cases pos
  | cons c s =>
    rw [markedNameLength] at pos ⊢
    split at pos
    next marked =>
      rw [if_pos marked, List.take_succ_cons]
      rw [Bool.and_eq_true, decide_eq_true_eq] at marked
      exact ⟨c, _, rfl, .inr (marked.1 ▸ known), wordParts_take_nameLength s⟩
    next => cases pos

/-! ## Rules -/

/-- The longest of several finds is one of them. -/
theorem foldl_longest_cases {α : Type} (find : α → TokenKind × Nat) (as : List α) (best : TokenKind × Nat) :
    as.foldl (fun best a => if (find a).2 > best.2 then find a else best) best = best ∨
      ∃ a ∈ as, as.foldl (fun best a => if (find a).2 > best.2 then find a else best) best = find a := by
  induction as generalizing best with
  | nil => exact .inl rfl
  | cons a as ih =>
    rw [List.foldl_cons]
    rcases ih (if (find a).2 > best.2 then find a else best) with kept | ⟨b, mem, found⟩
    · rw [kept]
      split
      · exact .inr ⟨a, List.mem_cons_self, rfl⟩
      · exact .inl rfl
    · exact .inr ⟨b, List.mem_cons_of_mem _ mem, found⟩

/-- What is found is nothing, or the find of one of the rules. -/
theorem longest_cases (s : List Char) : longest s = (.stray, 0) ∨ ∃ rule ∈ rules, longest s = rule s :=
  foldl_longest_cases (fun rule : Rule => rule s) rules (.stray, 0)

theorem punctuationRule_cases (s : List Char) : punctuationRule s = (.stray, 0) ∨
    ∃ word ∈ TokenKind.punctuation, punctuationRule s = (word.2, wordLength word.1 s) :=
  foldl_longest_cases (fun word : String × TokenKind => (word.2, wordLength word.1 s))
    TokenKind.punctuation (.stray, 0)

/-- Punctuation is no name. -/
theorem isName_punctuationRule (s : List Char) : (punctuationRule s).1.isName = false := by
  have words : ∀ word ∈ TokenKind.punctuation, word.2.isName = false := by decide
  rcases punctuationRule_cases s with nothing | ⟨word, mem, found⟩
  · rw [nothing]
    rfl
  · rw [found]
    exact words word mem

/-- Where a rule finds a name, it is an identifier. -/
theorem isIdentifier_of_rule {s : List Char} (more : s ≠ []) {rule : Rule} (mem : rule ∈ rules)
    (name : (rule s).1.isName = true) (pos : 0 < (rule s).2) : IsIdentifier (s.take (rule s).2) := by
  simp only [rules, List.mem_cons, List.not_mem_nil, or_false] at mem
  rcases mem with rfl | rfl | rfl | rfl | rfl | rfl | rfl | rfl | rfl | rfl | rfl | rfl | rfl | rfl | rfl
  · cases name
  · cases name
  · cases name
  · cases name
  · exact isIdentifier_of_wordParts pos more (wordParts_take_nameLength s)
  · exact isIdentifier_of_wordParts pos more (wordParts_take_compileTimeNameLength s)
  · exact isIdentifier_of_mark (.inl rfl) pos
  · exact isIdentifier_of_mark (.inr rfl) pos
  · cases name
  · cases name
  · cases name
  · cases name
  · cases name
  · rw [isName_punctuationRule] at name
    cases name
  · cases name

/-! ## Tokens -/

/-- Every token of a text is what is found first somewhere in it. -/
theorem exists_first_of_mem_ofChars {t : Token} {cs : List Char} (h : t ∈ ofChars cs) :
    ∃ s, s ≠ [] ∧ t = ⟨(first s).1, String.ofList (s.take (max 1 (first s).2))⟩ := by
  match cs with
  | [] =>
    rw [ofChars] at h
    cases h
  | c :: s =>
    rw [ofChars] at h
    rcases List.mem_cons.1 h with rfl | later
    · exact ⟨c :: s, List.cons_ne_nil c s, rfl⟩
    · exact exists_first_of_mem_ofChars later
termination_by cs.length
decreasing_by
  simp only [List.length_drop, List.length_cons]
  omega

/-- A token of a kind that is not stray is found by a rule, and is as long as the rule says. -/
theorem exists_rule_of_mem_ofChars {t : Token} {cs : List Char} (h : t ∈ ofChars cs)
    (known : t.kind ≠ .stray) :
    ∃ s, s ≠ [] ∧ ∃ rule ∈ rules, 0 < (rule s).2 ∧ t = ⟨(rule s).1, String.ofList (s.take (rule s).2)⟩ := by
  obtain ⟨s, more, rfl⟩ := exists_first_of_mem_ofChars h
  have pos : (longest s).2 > 0 := by
    by_contra none
    rw [first, if_neg none] at known
    exact known rfl
  rw [first, if_pos pos, max_eq_right pos]
  rcases longest_cases s with nothing | ⟨rule, mem, result⟩
  · rw [nothing] at pos
    cases pos
  · rw [result] at pos ⊢
    exact ⟨s, more, rule, mem, pos, rfl⟩

/-- The names among the tokens of a text are identifiers. -/
theorem isIdentifier_of_isName {t : Token} {cs : List Char} (h : t ∈ ofChars cs)
    (name : t.kind.isName = true) : IsIdentifier t.text.toList := by
  have known : t.kind ≠ .stray := by
    intro stray
    rw [stray] at name
    cases name
  obtain ⟨s, more, rule, mem, pos, rfl⟩ := exists_rule_of_mem_ofChars h known
  rw [String.toList_ofList]
  exact isIdentifier_of_rule more mem name pos

/-- No name is punctuation. -/
theorem nameRule_ne_punctuation {word : String × TokenKind} (known : word ∈ TokenKind.punctuation)
    (s : List Char) : (nameRule s).1 ≠ word.2 := by
  have words : ∀ word ∈ TokenKind.punctuation, TokenKind.ident ≠ word.2 ∧
      ∀ reserved ∈ TokenKind.reservedWords, reserved.2 ≠ word.2 := by decide
  have kind : (nameRule s).1 =
      (TokenKind.reservedWords.lookup (String.ofList (s.take (nameLength s)))).getD .ident := rfl
  rw [kind]
  cases found : TokenKind.reservedWords.lookup (String.ofList (s.take (nameLength s))) with
  | none => exact (words word known).1
  | some kind =>
    obtain ⟨front, _, split, -⟩ := List.lookup_eq_some_iff.1 found
    exact (words word known).2 _ (split ▸ List.mem_append_right front List.mem_cons_self)

theorem take_wordLength {word : String} {s : List Char} (pos : 0 < wordLength word s) :
    s.take (wordLength word s) = word.toList := by
  rw [wordLength] at pos ⊢
  split at pos
  next begins =>
    rw [if_pos begins, ← String.length_toList]
    exact (List.prefix_iff_eq_take.1 (List.isPrefixOf_iff_prefix.1 begins)).symm
  next => cases pos

/-- The tokens of a kind of punctuation read as the kind says. -/
theorem text_of_punctuation {t : Token} {cs : List Char} (h : t ∈ ofChars cs) {word : String × TokenKind}
    (known : word ∈ TokenKind.punctuation) (kind : t.kind = word.2) : t.text = word.1 := by
  have words : ∀ word ∈ TokenKind.punctuation, ∀ other ∈ TokenKind.punctuation, other.2 = word.2 →
      other.1 = word.1 := by decide
  have others : ∀ word ∈ TokenKind.punctuation, word.2 ∉ [TokenKind.whitespace, .lineComment, .blockComment,
      .docComment, .ctIdent, .atIdent, .hashIdent, .intNumber, .floatNumber, .stringLit, .charLit, .operator,
      .stray] := by decide
  have other := kind ▸ others word known
  have plain : t.kind ≠ .stray := fun stray => other (by rw [stray]; exact List.mem_of_elem_eq_true rfl)
  obtain ⟨s, -, rule, mem, pos, rfl⟩ := exists_rule_of_mem_ofChars h plain
  simp only [rules, List.mem_cons, List.not_mem_nil, or_false] at mem
  rcases mem with rfl | rfl | rfl | rfl | rfl | rfl | rfl | rfl | rfl | rfl | rfl | rfl | rfl | rfl | rfl
  case inr.inr.inr.inr.inl => exact absurd kind (nameRule_ne_punctuation known s)
  case inr.inr.inr.inr.inr.inr.inr.inr.inr.inr.inr.inr.inr.inl =>
    rcases punctuationRule_cases s with nothing | ⟨word', known', found⟩
    · rw [nothing] at pos
      cases pos
    · rw [found] at kind pos ⊢
      rw [take_wordLength pos, String.ofList_toList]
      exact words word known word' known' kind
  all_goals exact (other (List.mem_of_elem_eq_true rfl)).elim

/-- The pairs of colons among the tokens of a text are two colons. -/
theorem text_of_colonColon {t : Token} {cs : List Char} (h : t ∈ ofChars cs)
    (colons : t.kind = .colonColon) : t.text = "::" :=
  @text_of_punctuation _ _ h ("::", .colonColon) (by decide) colons

/-!
## Where tokens end

The longest find wins, so a token ends where no rule goes on.
-/

/-! ## The longest find -/

theorem le_foldl_longest {α : Type} (find : α → TokenKind × Nat) (as : List α) (best : TokenKind × Nat) :
    best.2 ≤ (as.foldl (fun best a => if (find a).2 > best.2 then find a else best) best).2 ∧
      ∀ a ∈ as, (find a).2 ≤ (as.foldl (fun best a => if (find a).2 > best.2 then find a else best) best).2 := by
  induction as generalizing best with
  | nil => exact ⟨le_rfl, nofun⟩
  | cons a as ih =>
    obtain ⟨kept, found⟩ := ih (if (find a).2 > best.2 then find a else best)
    have here : best.2 ≤ (if (find a).2 > best.2 then find a else best).2 ∧
        (find a).2 ≤ (if (find a).2 > best.2 then find a else best).2 := by
      split <;> omega
    exact ⟨here.1.trans kept, List.forall_mem_cons.2 ⟨here.2.trans kept, found⟩⟩

theorem le_longest {rule : Rule} (mem : rule ∈ rules) (s : List Char) : (rule s).2 ≤ (longest s).2 :=
  (le_foldl_longest (fun rule : Rule => rule s) rules (.stray, 0)).2 rule mem

theorem le_longestWordLength {words : List String} {word : String} (mem : word ∈ words) (s : List Char) :
    wordLength word s ≤ longestWordLength words s := by
  have folded : ∀ (ns : List Nat) (best : Nat), best ≤ ns.foldl max best ∧ ∀ n ∈ ns, n ≤ ns.foldl max best := by
    intro ns
    induction ns with
    | nil => exact fun best => ⟨le_rfl, nofun⟩
    | cons n ns ih =>
      intro best
      obtain ⟨kept, found⟩ := ih (max best n)
      exact ⟨(le_max_left _ _).trans kept, List.forall_mem_cons.2 ⟨(le_max_right _ _).trans kept, found⟩⟩
  exact (folded _ 0).2 _ (List.mem_map_of_mem mem)

/-- Two equal signs are an operator. -/
theorem two_le_longest (s : List Char) : 2 ≤ (longest ('=' :: '=' :: s)).2 := by
  have operator : (fun s => (TokenKind.operator, longestWordLength TokenKind.operators s)) ∈ rules := by
    simp [rules]
  have word : wordLength "==" ('=' :: '=' :: s) = 2 := rfl
  rw [← word]
  exact (le_longestWordLength (by decide) _).trans (le_longest operator _)

/-- The first token begins with the first character. -/
theorem head?_text_of_ofChars {c : Char} {s : List Char} {t : Token} (h : (ofChars (c :: s)).head? = some t) :
    t.text.toList.head? = some c := by
  rw [ofChars, List.head?_cons] at h
  rw [← Option.some.inj h, String.toList_ofList, List.head?_take, if_neg (by omega)]
  rfl

/-- Behind an equal sign that is a token of its own no other equal sign follows. -/
theorem isChain_ofChars (cs : List Char) :
    (ofChars cs).IsChain fun t u => t.kind = .equal → u.text.toList.head? ≠ some '=' := by
  cases cs with
  | nil =>
    rw [ofChars]
    exact .nil
  | cons c s =>
    have mem : ⟨(first (c :: s)).1, String.ofList ((c :: s).take (max 1 (first (c :: s)).2))⟩ ∈ ofChars (c :: s) := by
      rw [ofChars]
      exact List.mem_cons_self
    rw [ofChars]
    refine List.isChain_cons.2 ⟨fun u next equal again => ?_, isChain_ofChars _⟩
    have text := @text_of_punctuation _ _ mem ("=", .equal) (by decide) equal
    have chars : (c :: s).take (max 1 (first (c :: s)).2) = ['='] :=
      String.toList_ofList.symm.trans (congrArg String.toList text)
    have length := congrArg List.length chars
    rw [List.length_take, List.length_singleton, List.length_cons] at length
    cases behind : s with
    | nil =>
      rw [behind, List.drop_of_length_le (by rw [List.length_singleton]; omega), ofChars] at next
      cases next
    | cons d rest =>
      have single : max 1 (first (c :: s)).2 = 1 := by
        rw [behind, List.length_cons, ← behind] at length
        omega
      rw [single, List.take_succ_cons, List.take_zero] at chars
      rw [single, List.drop_one, List.tail_cons, behind] at next
      have same : d = '=' := Option.some.inj ((head?_text_of_ofChars next).symm.trans again)
      have both := two_le_longest rest
      rw [first, if_pos (by rw [behind, same, List.singleton_inj.1 chars]; omega), behind, same,
        List.singleton_inj.1 chars] at single
      omega
termination_by cs.length
decreasing_by
  simp only [List.length_drop, List.length_cons]
  omega

end C3Lens.Token
