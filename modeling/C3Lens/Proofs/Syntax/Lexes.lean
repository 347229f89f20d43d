import C3Lens.Proofs.Syntax.Identifier

/-!
# Texts that are cut as expected

`Token.Lexes s ts behind` says that a text, in front of something that satisfies `behind`, is cut into the
tokens `ts` and blanks. Such statements can be put side by side (`Token.Lexes.append`), so the tokens of a
text are found piece by piece: names and reserved words, numbers, blanks and punctuation.

At each piece the first character rules out all rules but one (`Token.others_of_isWordy`).
-/

namespace C3Lens.Token

/-! ## The only find -/

/-- If all that find something find the same, it is the longest find. -/
theorem foldl_longest_eq {α : Type} (find : α → TokenKind × Nat) (as : List α) {best x : TokenKind × Nat}
    (pos : 0 < x.2) (others : ∀ a ∈ as, find a = x ∨ (find a).2 = 0)
    (found : best = x ∨ best.2 = 0 ∧ ∃ a ∈ as, find a = x) :
    as.foldl (fun best a => if (find a).2 > best.2 then find a else best) best = x := by
  induction as generalizing best with
  | nil => exact found.elim id fun h => nomatch h.2
  | cons a as ih =>
    obtain ⟨first, others⟩ := List.forall_mem_cons.1 others
    rw [List.foldl_cons]
    apply ih others
    split
    next better =>
      rcases first with same | none
      · exact .inl same
      · omega
    next worse =>
      rcases found with rfl | ⟨none, b, mem, same⟩
      · exact .inl rfl
      · rcases List.mem_cons.1 mem with rfl | later
        · rw [same] at worse
          omega
        · exact .inr ⟨none, b, later, same⟩

theorem longest_eq {s : List Char} {x : TokenKind × Nat} (pos : 0 < x.2)
    (others : ∀ rule ∈ rules, rule s = x ∨ (rule s).2 = 0) (found : ∃ rule ∈ rules, rule s = x) :
    longest s = x :=
  foldl_longest_eq (fun rule : Rule => rule s) rules pos others (.inr ⟨rfl, found⟩)

theorem run_eq_zero {p : Char → Bool} {c : Char} (h : p c = false) (s : List Char) : run p (c :: s) = 0 := by
  simp [run, h]

theorem nameLength_eq_zero {c : Char} (h : isNameStart c = false) (s : List Char) : nameLength (c :: s) = 0 := by
  simp [nameLength, h]

theorem markedNameLength_eq_zero {mark c : Char} (h : c ≠ mark) (s : List Char) :
    markedNameLength mark (c :: s) = 0 := by
  simp [markedNameLength, h]

theorem literalLength_eq_zero {quote c : Char} (h : c ≠ quote) (inside : List Char → Nat) (s : List Char) :
    literalLength quote inside (c :: s) = 0 := by
  simp [literalLength, h]

theorem integerLength_eq_zero {c : Char} (h : c.isDigit = false) (s : List Char) : integerLength (c :: s) = 0 := by
  have zero : c ≠ '0' := by
    rintro rfl
    cases h
  have based (lower upper : Char) (digit : Char → Bool) : basedIntegerLength lower upper digit (c :: s) = 0 := by
    cases s <;> simp [basedIntegerLength, zero]
  have decimal : digitsLength (c :: s) = 0 := by simp [digitsLength, h]
  rw [integerLength, decimal, based, based, based]
  rfl

theorem floatLength_eq_zero {c : Char} (h : c.isDigit = false) (s : List Char) : floatLength (c :: s) = 0 := by
  have decimal : digitsLength (c :: s) = 0 := by simp [digitsLength, h]
  rw [floatLength, decimal]
  rfl

/-- A word that begins with another character is not found. -/
theorem wordLength_eq_zero {word : String} {p : Char → Bool} (other : word.toList.head?.any (fun d => !p d) = true)
    {c : Char} (hc : p c = true) (s : List Char) : wordLength word (c :: s) = 0 := by
  rw [wordLength]
  cases chars : word.toList with
  | nil =>
    rw [chars] at other
    cases other
  | cons d ds =>
    rw [chars] at other
    have differs : ¬ d = c := by
      rintro rfl
      simp [hc] at other
    simp [differs]

theorem longestWordLength_eq_zero {words : List String} {s : List Char}
    (none : ∀ word ∈ words, wordLength word s = 0) : longestWordLength words s = 0 := by
  unfold longestWordLength
  induction words with
  | nil => rfl
  | cons word words ih =>
    obtain ⟨first, others⟩ := List.forall_mem_cons.1 none
    rw [List.map_cons, List.foldl_cons, first]
    exact ih others

theorem punctuationRule_eq_zero {s : List Char} (none : ∀ word ∈ TokenKind.punctuation, wordLength word.1 s = 0) :
    (punctuationRule s).2 = 0 := by
  rcases punctuationRule_cases s with nothing | ⟨word, mem, found⟩
  · rw [nothing]
  · rw [found]
    exact none word mem

/-- Characters that begin a comment, a marked name or a literal in quotes. -/
def marks : List Char :=
  ['/', '<', '$', '@', '#', '\x22', '\x60', '\x27']

/-- Where another character stands, only six rules can find something. -/
theorem others_of_notMem_marks {c : Char} (other : c ∉ marks) {s : List Char} {x : TokenKind × Nat}
    (blank : (.whitespace, run isBlank (c :: s)) = x ∨ run isBlank (c :: s) = 0)
    (name : nameRule (c :: s) = x ∨ (nameRule (c :: s)).2 = 0)
    (integer : (.intNumber, integerLength (c :: s)) = x ∨ integerLength (c :: s) = 0)
    (float : floatLength (c :: s) = 0)
    (punctuation : punctuationRule (c :: s) = x ∨ (punctuationRule (c :: s)).2 = 0)
    (operators : longestWordLength TokenKind.operators (c :: s) = 0) :
    ∀ rule ∈ rules, rule (c :: s) = x ∨ (rule (c :: s)).2 = 0 := by
  simp only [marks, List.mem_cons, List.not_mem_nil, or_false, not_or] at other
  obtain ⟨slash, less, dollar, at', hash, quote, back, apostrophe⟩ := other
  simp only [rules, List.forall_mem_cons, List.not_mem_nil, false_imp_iff, implies_true, and_true]
  refine ⟨blank, .inr ?_, .inr ?_, .inr ?_, name, .inr ?_, .inr (markedNameLength_eq_zero at' s),
    .inr (markedNameLength_eq_zero hash s), integer, .inr float, .inr (literalLength_eq_zero quote _ s),
    .inr (literalLength_eq_zero back _ s), .inr (literalLength_eq_zero apostrophe _ s), punctuation, .inr operators⟩
  · simp [lineCommentLength, slash]
  · cases s <;> simp [commentLength, slash]
  · cases s <;> simp [commentLength, less]
  · rw [compileTimeNameLength]
    · exact markedNameLength_eq_zero dollar s
    · exact fun _ same => dollar (List.cons.inj same).1

/-- Characters that begin a blank, a name or a number. -/
def isWordy (c : Char) : Bool :=
  isBlank c || isNameStart c || c.isDigit

/-- Where such a character stands, there is no punctuation. -/
theorem others_of_isWordy {c : Char} (wordy : isWordy c = true) {s : List Char} {x : TokenKind × Nat}
    (blank : (.whitespace, run isBlank (c :: s)) = x ∨ run isBlank (c :: s) = 0)
    (name : nameRule (c :: s) = x ∨ (nameRule (c :: s)).2 = 0)
    (integer : (.intNumber, integerLength (c :: s)) = x ∨ integerLength (c :: s) = 0)
    (float : floatLength (c :: s) = 0) : ∀ rule ∈ rules, rule (c :: s) = x ∨ (rule (c :: s)).2 = 0 := by
  have words : ∀ word ∈ TokenKind.punctuation, word.1.toList.head?.any (fun d => !isWordy d) = true := by decide
  have operators : ∀ word ∈ TokenKind.operators, word.toList.head?.any (fun d => !isWordy d) = true := by decide
  have other : c ∉ marks := by
    intro mem
    have none : marks.all (fun d => !isWordy d) = true := by decide
    simpa [wordy] using List.all_eq_true.1 none c mem
  apply others_of_notMem_marks other blank name integer float
  · exact .inr (punctuationRule_eq_zero fun word mem => wordLength_eq_zero (words word mem) wordy s)
  · exact longestWordLength_eq_zero fun word mem => wordLength_eq_zero (operators word mem) wordy s

/-! ## Texts in front of others -/

/-- The tokens but for the blanks. -/
def solid (ts : List Token) : List Token :=
  ts.filter fun t => t.kind != .whitespace

/-- In front of something that satisfies `behind`, the characters are cut into the tokens and blanks. -/
def Lexes (cs : List Char) (ts : List Token) (behind : List Char → Prop) : Prop :=
  ∀ rest, behind rest → solid (ofChars (cs ++ rest)) = ts ++ solid (ofChars rest)

/-- What is found at the start of a text is cut off. -/
theorem ofChars_append {s : String} {rest : List Char} {kind : TokenKind} (some : s ≠ "")
    (found : longest (s.toList ++ rest) = (kind, s.length)) :
    ofChars (s.toList ++ rest) = ⟨kind, s⟩ :: ofChars rest := by
  have pos : 0 < s.toList.length := by
    rw [List.length_pos_iff, ne_eq, String.toList_eq_nil_iff]
    exact some
  have first : first (s.toList ++ rest) = (kind, s.toList.length) := by
    rw [first, found, String.length_toList, if_pos (by rwa [← String.length_toList])]
  cases chars : s.toList with
  | nil =>
    rw [chars] at pos
    cases pos
  | cons c cs =>
    rw [chars] at pos first
    rw [List.cons_append] at first ⊢
    rw [ofChars, first, max_eq_right pos, ← List.cons_append, List.take_left' rfl, List.drop_left' rfl, ← chars,
      String.ofList_toList]

namespace Lexes

variable {cs cs' : List Char} {ts ts' : List Token} {P Q : List Char → Prop}

theorem nil : Lexes [] [] fun _ => True :=
  fun _ _ => rfl

theorem weaken (h : Lexes cs ts P) (weaker : ∀ rest, Q rest → P rest) : Lexes cs ts Q :=
  fun rest behind => h rest (weaker rest behind)

theorem congr (h : Lexes cs ts P) (chars : cs' = cs) (tokens : ts' = ts) : Lexes cs' ts' P := by
  rwa [chars, tokens]

/-- Texts side by side are cut one after the other. -/
theorem append (h : Lexes cs ts P) (k : Lexes cs' ts' Q) (onward : ∀ rest, Q rest → P (cs' ++ rest)) :
    Lexes (cs ++ cs') (ts ++ ts') Q := by
  intro rest behind
  rw [List.append_assoc, h _ (onward rest behind), k rest behind, List.append_assoc]

theorem flatMap {α : Type} {as : List α} {f : α → List Char} {g : α → List Token}
    (h : ∀ a ∈ as, Lexes (f a) (g a) fun _ => True) : Lexes (as.flatMap f) (as.flatMap g) fun _ => True := by
  induction as with
  | nil => exact nil
  | cons a as ih =>
    obtain ⟨first, others⟩ := List.forall_mem_cons.1 h
    rw [List.flatMap_cons, List.flatMap_cons]
    exact first.append (ih others) fun _ _ => trivial

/-- Texts with a separator between them; behind each of them stands the separator or what stands behind all. -/
theorem intercalate {α : Type} {as : List α} {f : α → List Char} {g : α → List Token} {sep : List Char}
    (h : ∀ a ∈ as, Lexes (f a) (g a) P) (hsep : Lexes sep ts fun _ => True) (breaks : ∀ rest, P (sep ++ rest)) :
    Lexes (sep.intercalate (as.map f)) (ts.intercalate (as.map g)) P := by
  induction as with
  | nil => exact nil.weaken fun _ _ => trivial
  | cons a as ih =>
    obtain ⟨first, others⟩ := List.forall_mem_cons.1 h
    cases as with
    | nil =>
      rw [List.map_singleton, List.map_singleton, List.intercalate_singleton, List.intercalate_singleton]
      exact first
    | cons b as =>
      rw [List.map_cons, List.map_cons, List.map_cons, List.map_cons, List.intercalate_cons_cons,
        List.intercalate_cons_cons]
      apply (first.append hsep fun rest _ => breaks rest).append (ih others)
      exact fun _ _ => trivial

/-- A text that is found as a whole is one token. -/
theorem of_longest {s : String} {kind : TokenKind} (some : s ≠ "") (plain : kind ≠ .whitespace)
    (found : ∀ rest, P rest → longest (s.toList ++ rest) = (kind, s.length)) :
    Lexes s.toList [⟨kind, s⟩] P := by
  intro rest behind
  rw [ofChars_append some (found rest behind), solid, List.filter_cons_of_pos (by simpa using plain)]
  rfl

end Lexes

/-! ## Blanks -/

/-- What holds of no blank does not hold of a character that is one. -/
theorem eq_false_of_isBlank {p : Char → Bool}
    (none : [' ', '\t', '\r', '\n', '\x0c'].all (fun d => !p d) = true) {c : Char} (blank : isBlank c = true) :
    p c = false := by
  have mem : c ∈ [' ', '\t', '\r', '\n', '\x0c'] := by simpa [isBlank, or_assoc] using blank
  simpa using List.all_eq_true.1 none c mem

theorem longest_blank {c : Char} (blank : isBlank c = true) (s : List Char) :
    longest (c :: s) = (.whitespace, run isBlank (c :: s)) := by
  have wordy : isWordy c = true := by
    rw [isWordy, blank, Bool.true_or, Bool.true_or]
  have digit : c.isDigit = false := eq_false_of_isBlank (p := Char.isDigit) (by decide) blank
  have start : isNameStart c = false := eq_false_of_isBlank (by decide) blank
  refine longest_eq ?_ (others_of_isWordy wordy (.inl rfl) (.inr ?_) (.inr ?_) ?_)
    ⟨_, List.mem_cons_self, rfl⟩
  · simp [run, blank]
  · exact nameLength_eq_zero start s
  · exact integerLength_eq_zero digit s
  · exact floatLength_eq_zero digit s

theorem drop_run (p : Char → Bool) (s : List Char) : s.drop (run p s) = s.dropWhile p := by
  have parts := List.takeWhile_append_dropWhile (p := p) (l := s)
  calc s.drop (run p s)
    _ = (s.takeWhile p ++ s.dropWhile p).drop (s.takeWhile p).length := by rw [parts, run]
    _ = s.dropWhile p := List.drop_left

/-- Blanks in front of a text make no difference but for blanks. -/
theorem solid_dropWhile_isBlank (cs : List Char) :
    solid (ofChars cs) = solid (ofChars (cs.dropWhile isBlank)) := by
  cases cs with
  | nil => rfl
  | cons c s =>
    by_cases blank : isBlank c = true
    · have found : first (c :: s) = (.whitespace, run isBlank (c :: s)) := by
        rw [first, longest_blank blank, if_pos (by simp [run, blank])]
      rw [ofChars, found, max_eq_right (by simp [run, blank]), drop_run, solid, List.filter_cons_of_neg (by simp)]
      rfl
    · rw [List.dropWhile_cons_of_neg blank]

theorem Lexes.blank {cs : List Char} (blank : cs.all isBlank = true) : Lexes cs [] fun _ => True := by
  intro rest _
  rw [solid_dropWhile_isBlank, solid_dropWhile_isBlank rest,
    List.dropWhile_append_of_pos (List.all_eq_true.1 blank)]
  rfl

/-! ## Names and reserved words -/

/-- The first character, if there is one, is none of the class. -/
def Breaks (p : Char → Bool) (rest : List Char) : Prop :=
  ∀ c ∈ rest.head?, p c = false

theorem run_append {p : Char → Bool} {s rest : List Char} (parts : ∀ c ∈ s, p c = true) (breaks : Breaks p rest) :
    run p (s ++ rest) = s.length := by
  have none : rest.takeWhile p = [] := by
    cases rest with
    | nil => rfl
    | cons c rest => rw [List.takeWhile_cons_of_neg (by rw [breaks c rfl]; exact Bool.false_ne_true)]
  rw [run, List.takeWhile_append_of_pos parts, none, List.append_nil]

theorem isDigit_of_isNameStart {c : Char} (start : isNameStart c = true) : c.isDigit = false := by
  have ranges : isNameStart c = ((decide (c.val ≥ 'A'.val ∧ c.val ≤ 'Z'.val) ||
      (decide (c.val ≥ 'a'.val) && decide (c.val ≤ 'z'.val))) || c == '_') := rfl
  simp only [ranges, Bool.or_eq_true, Bool.and_eq_true, decide_eq_true_eq, beq_iff_eq] at start
  rw [Bool.eq_false_iff]
  intro digit
  have most : c.toNat ≤ 57 := (Char.isDigit_iff_toNat.1 digit).2
  rcases start with (⟨upper, -⟩ | ⟨lower, -⟩) | rfl
  · have least : 65 ≤ c.toNat := upper
    omega
  · have least : 97 ≤ c.toNat := lower
    omega
  · cases digit

theorem isBlank_of_isNameStart {c : Char} (start : isNameStart c = true) : isBlank c = false := by
  rw [Bool.eq_false_iff]
  intro blank
  rw [eq_false_of_isBlank (p := isNameStart) (by decide) blank] at start
  cases start

theorem longest_name {c : Char} (start : isNameStart c = true) (s : List Char) :
    longest (c :: s) = nameRule (c :: s) := by
  have digit := isDigit_of_isNameStart start
  have blank := isBlank_of_isNameStart start
  have wordy : isWordy c = true := by
    rw [isWordy, start, Bool.or_true, Bool.true_or]
  refine longest_eq ?_ (others_of_isWordy wordy (.inr (run_eq_zero blank s)) (.inl rfl)
    (.inr (integerLength_eq_zero digit s)) (floatLength_eq_zero digit s)) ⟨nameRule, by simp [rules], rfl⟩
  simp [nameRule, nameLength, start]

/-- The text is spelled like a name, reserved or not. -/
def IsSpelled (s : String) : Prop :=
  ∃ c cs, s.toList = c :: cs ∧ isNameStart c = true ∧ ∀ d ∈ cs, isNamePart d = true

theorem IsSpelled.of_chars {s : String} (start : s.toList.head?.any isNameStart = true)
    (parts : s.toList.tail.all isNamePart = true) : IsSpelled s := by
  cases chars : s.toList with
  | nil =>
    rw [chars] at start
    cases start
  | cons c cs =>
    rw [chars] at start parts
    exact ⟨c, cs, chars, start, List.all_eq_true.1 parts⟩

theorem Lexes.word {s : String} {kind : TokenKind} (spelled : IsSpelled s)
    (is : (TokenKind.ofReservedWord? s).getD .ident = kind) (plain : kind ≠ .whitespace) :
    Lexes s.toList [⟨kind, s⟩] (Breaks isNamePart) := by
  obtain ⟨c, cs, chars, start, parts⟩ := spelled
  have length : s.length = cs.length + 1 := by
    rw [← String.length_toList, chars, List.length_cons]
  have some : s ≠ "" := by
    rintro rfl
    cases chars
  refine .of_longest some plain fun rest breaks => ?_
  have whole : nameLength (s.toList ++ rest) = s.length := by
    rw [chars, List.cons_append, nameLength, if_pos start, run_append parts breaks, length]
  rw [chars, List.cons_append, longest_name start, ← List.cons_append, ← chars, nameRule, whole,
    ← String.length_toList, List.take_left' rfl, String.ofList_toList, is]

/-- The names among the tokens of a text are spelled like names and are not reserved. -/
theorem isSpelled_of_ident {s : String} {cs : List Char} (h : ⟨.ident, s⟩ ∈ ofChars cs) :
    IsSpelled s ∧ (TokenKind.ofReservedWord? s).getD .ident = .ident := by
  obtain ⟨cs, more, rule, mem, pos, token⟩ := exists_rule_of_mem_ofChars h nofun
  obtain ⟨kind, text⟩ := Token.mk.inj token
  have found : rule = nameRule := by
    simp only [rules, List.mem_cons, List.not_mem_nil, or_false] at mem
    rcases mem with rfl | rfl | rfl | rfl | rfl | rfl | rfl | rfl | rfl | rfl | rfl | rfl | rfl | rfl | rfl
    case inr.inr.inr.inr.inl => rfl
    case inr.inr.inr.inr.inr.inr.inr.inr.inr.inr.inr.inr.inr.inl =>
      have none := isName_punctuationRule cs
      rw [← kind] at none
      cases none
    all_goals cases kind
  obtain ⟨c, rest, rfl⟩ := List.exists_cons_of_ne_nil more
  have start : isNameStart c = true := by
    by_contra other
    rw [found, nameRule, nameLength_eq_zero (Bool.not_eq_true _ ▸ other)] at pos
    cases pos
  have chars : s.toList = c :: rest.takeWhile isNamePart := by
    rw [text, String.toList_ofList, found, nameRule, nameLength, if_pos start, List.take_succ_cons, take_run]
  rw [found] at kind text
  rw [text] at chars ⊢
  exact ⟨⟨c, _, chars, start, fun d hd => List.mem_takeWhile_imp hd⟩, kind.symm⟩

/-! ## Numbers -/

theorem isBlank_of_isDigit {c : Char} (digit : c.isDigit = true) : isBlank c = false := by
  rw [Bool.eq_false_iff]
  intro blank
  rw [eq_false_of_isBlank (p := Char.isDigit) (by decide) blank] at digit
  cases digit

theorem isNameStart_of_isDigit {c : Char} (digit : c.isDigit = true) : isNameStart c = false := by
  rw [Bool.eq_false_iff]
  intro start
  rw [isDigit_of_isNameStart start] at digit
  cases digit

section

variable {c : Char} {ds : List Char} (digits : ∀ d ∈ c :: ds, d.isDigit = true) (rest : List Char)

include digits

theorem digitsLength_digits : digitsLength (c :: (ds ++ ']' :: rest)) = ds.length + 1 := by
  obtain ⟨first, others⟩ := List.forall_mem_cons.1 digits
  rw [digitsLength, if_pos first, run_append (fun d hd => by rw [isDecimal, others d hd, Bool.true_or])]
  rintro _ ⟨⟩
  decide

/-- Behind the first digit stands a digit or the bracket, and so no mark of another base. -/
theorem basedIntegerLength_digits {lower upper : Char} (lower' : lower.isDigit = false ∧ lower ≠ ']')
    (upper' : upper.isDigit = false ∧ upper ≠ ']') (digit : Char → Bool) :
    basedIntegerLength lower upper digit (c :: (ds ++ ']' :: rest)) = 0 := by
  have others := (List.forall_mem_cons.1 digits).2
  obtain ⟨d, s, next, hd⟩ : ∃ d s, ds ++ ']' :: rest = d :: s ∧ (d.isDigit = true ∨ d = ']') := by
    cases ds with
    | nil => exact ⟨']', rest, rfl, .inr rfl⟩
    | cons d ds => exact ⟨d, ds ++ ']' :: rest, rfl, .inl (others d List.mem_cons_self)⟩
  have notLower : d ≠ lower := by
    rintro rfl
    simp [lower'] at hd
  have notUpper : d ≠ upper := by
    rintro rfl
    simp [upper'] at hd
  rw [next]
  by_cases zero : c = '0'
  · simp [basedIntegerLength, zero, notLower, notUpper]
  · simp [basedIntegerLength, zero]

theorem integerLength_digits : integerLength (c :: (ds ++ ']' :: rest)) = ds.length + 1 := by
  rw [integerLength, digitsLength_digits digits]
  dsimp only
  rw [List.drop_succ_cons, List.drop_left, basedIntegerLength_digits digits rest (by decide) (by decide),
    basedIntegerLength_digits digits rest (by decide) (by decide),
    basedIntegerLength_digits digits rest (by decide) (by decide)]
  rfl

theorem floatLength_digits : floatLength (c :: (ds ++ ']' :: rest)) = 0 := by
  rw [floatLength, digitsLength_digits digits]
  dsimp only
  rw [List.drop_succ_cons, List.drop_left]
  rfl

/-- Digits in front of a bracket are an integer, of no other base and without a fraction. -/
theorem longest_digits : longest (c :: (ds ++ ']' :: rest)) = (.intNumber, ds.length + 1) := by
  have first : c.isDigit = true := digits c List.mem_cons_self
  have integer := integerLength_digits digits rest
  have wordy : isWordy c = true := by
    rw [isWordy, first, Bool.or_true]
  have others : ∀ rule ∈ rules, rule (c :: (ds ++ ']' :: rest)) = (.intNumber, ds.length + 1) ∨
      (rule (c :: (ds ++ ']' :: rest))).2 = 0 :=
    others_of_isWordy wordy (.inr (run_eq_zero (isBlank_of_isDigit first) _))
      (.inr (nameLength_eq_zero (isNameStart_of_isDigit first) _)) (.inl (by rw [integer]))
      (floatLength_digits digits rest)
  exact longest_eq (Nat.succ_pos _) others
    ⟨fun s => (.intNumber, integerLength s), by simp [rules], congrArg (Prod.mk _) integer⟩

end

theorem Lexes.number (n : Nat) :
    Lexes (toString n).toList [⟨.intNumber, toString n⟩] fun rest => rest.head? = some ']' := by
  have chars : (toString n).toList = Nat.toDigits 10 n := String.toList_ofList
  obtain ⟨c, ds, digits⟩ := List.exists_cons_of_ne_nil (Nat.toDigits_ne_nil (n := n) (b := 10))
  rw [digits] at chars
  refine .of_longest ?_ nofun fun rest bracket => ?_
  · intro empty
    rw [empty] at chars
    cases chars
  · obtain ⟨rest, rfl⟩ := List.head?_eq_some_iff.1 bracket
    rw [← String.length_toList, chars, List.cons_append]
    apply longest_digits
    rw [← digits]
    exact fun d hd => Nat.isDigit_of_mem_toDigits (by decide) (by decide) hd

/-! ## Punctuation -/

/-- Where punctuation stands that begins no operator, it is found. -/
theorem longest_punctuation {c : Char} {kind : TokenKind} {s : List Char} {n : Nat} (pos : 0 < n)
    (other : c ∉ marks) (plain : isWordy c = false) (punctuation : punctuationRule (c :: s) = (kind, n))
    (operators : longestWordLength TokenKind.operators (c :: s) = 0) : longest (c :: s) = (kind, n) := by
  simp only [isWordy, Bool.or_eq_false_iff] at plain
  obtain ⟨⟨blank, start⟩, digit⟩ := plain
  exact longest_eq pos (others_of_notMem_marks other (.inr (run_eq_zero blank s)) (.inr (nameLength_eq_zero start s))
    (.inr (integerLength_eq_zero digit s)) (floatLength_eq_zero digit s) (.inl punctuation) operators)
    ⟨punctuationRule, by simp [rules], punctuation⟩

/-- Punctuation of one character that begins no operator, in front of something with which it is no longer
punctuation. -/
theorem Lexes.single {s : String} {c : Char} (chars : s.toList = [c]) {kind : TokenKind} {P : List Char → Prop}
    (plain : kind ≠ .whitespace ∧ c ∉ marks ∧ isWordy c = false)
    (punctuation : ∀ rest, P rest → punctuationRule (c :: rest) = (kind, 1))
    (operators : ∀ rest, P rest → longestWordLength TokenKind.operators (c :: rest) = 0) :
    Lexes s.toList [⟨kind, s⟩] P := by
  have length : s.length = 1 := by
    rw [← String.length_toList, chars, List.length_singleton]
  have some : s ≠ "" := by
    rintro rfl
    cases chars
  refine .of_longest some plain.1 fun rest behind => ?_
  rw [chars, length, List.singleton_append]
  exact longest_punctuation Nat.one_pos plain.2.1 plain.2.2 (punctuation rest behind) (operators rest behind)

/-- No operator begins with the character. -/
theorem operators_eq_zero {c : Char}
    (other : ∀ word ∈ TokenKind.operators, word.toList.head?.any (fun d => !(d == c)) = true) (rest : List Char) :
    longestWordLength TokenKind.operators (c :: rest) = 0 :=
  longestWordLength_eq_zero fun word mem =>
    wordLength_eq_zero (p := (· == c)) (other word mem) (beq_self_eq_true c) rest

/-- Punctuation of one character that begins no other punctuation and no operator. -/
def lonePunctuation : List (String × TokenKind) := [
  ("\x7b", .leftBrace), ("\x7d", .rightBrace), ("[", .leftBracket), ("]", .rightBracket), (")", .rightParen),
  (";", .semicolon), (",", .comma)]

theorem Lexes.lone (mark : String × TokenKind) (mem : mark ∈ lonePunctuation) :
    Lexes mark.1.toList [⟨mark.2, mark.1⟩] fun _ => True := by
  simp only [Token.lonePunctuation, List.mem_cons, List.not_mem_nil, or_false] at mem
  rcases mem with rfl | rfl | rfl | rfl | rfl | rfl | rfl
  all_goals exact .single rfl (by decide) (fun _ _ => rfl) fun rest _ => operators_eq_zero (by decide) rest

theorem Lexes.leftParen : Lexes ['('] [⟨.leftParen, "("⟩] fun rest => rest.head? ≠ some '<' := by
  refine .single (s := "(") (c := '(') rfl (by decide) (fun rest other => ?_)
    fun rest _ => operators_eq_zero (by decide) rest
  cases rest with
  | nil => rfl
  | cons c rest =>
    have differs : '<' ≠ c := fun same => other (congrArg some same.symm)
    simp [punctuationRule, TokenKind.punctuation, wordLength, differs]
    rfl

theorem Lexes.star : Lexes ['*'] [⟨.star, "*"⟩] fun rest => rest.head? ≠ some '=' := by
  refine .single (s := "*") (c := '*') rfl (by decide) (fun rest _ => rfl) fun rest other => ?_
  cases rest with
  | nil => simp [longestWordLength, TokenKind.operators, wordLength]
  | cons c rest =>
    have differs : '=' ≠ c := fun same => other (congrArg some same.symm)
    simp [longestWordLength, TokenKind.operators, wordLength, differs]

theorem Lexes.colonColon : Lexes [':', ':'] [⟨.colonColon, "::"⟩] fun _ => True :=
  .of_longest (s := "::") (by decide) nofun fun rest _ =>
    longest_punctuation (c := ':') Nat.two_pos (by decide) (by decide) rfl (operators_eq_zero (by decide) (':' :: rest))

end C3Lens.Token
