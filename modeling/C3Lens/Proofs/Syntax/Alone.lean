import C3Lens.Proofs.Syntax.Lexes
import C3Lens.Proofs.Syntax.Parse

/-!
# Tokens read alone

What a pattern finds at the start of a text is found again in the text cut off behind the find, or anywhere
later: the patterns are `Local`, and so are the rules that use them. Hence the longest find, and the stray
token where there is none, depend on no character behind the token (`Token.first_take`), and the text of a
token, read alone, is that token (`Token.ofString_text`).

Two patterns look at what is behind what they have matched. A literal needs its closing quote: without it
nothing is found, also in a shorter text (`literalLength_append`). A comment that is not closed takes all
characters, so that only the whole text holds the find.
-/

namespace C3Lens.Token

/-- Of a text cut off at the find or behind it the same is found. -/
def Local (f : List Char → Nat) : Prop :=
  ∀ s n, f s ≤ n → f (s.take n) = f s

/-! ## Runs and names -/

theorem run_cons (p : Char → Bool) (c : Char) (s : List Char) :
    run p (c :: s) = if p c then run p s + 1 else 0 := by
  rw [run, List.takeWhile_cons]
  split <;> rfl

theorem run_take (p : Char → Bool) (s : List Char) (n : Nat) : run p (s.take n) = min n (run p s) := by
  induction s generalizing n with
  | nil => simp [run]
  | cons c s ih =>
    cases n with
    | zero => simp [run]
    | succ n =>
      rw [List.take_succ_cons, run_cons, run_cons, ih]
      split <;> omega

theorem local_run (p : Char → Bool) : Local (run p) := by
  intro s n enough
  rw [run_take, Nat.min_eq_right enough]

section

variable {f g h : List Char → Nat} {p q : Char → Bool}

/-- A first character of one class, then the run of another one. -/
theorem take_head (nil : f [] = 0) (cons : ∀ c s, f (c :: s) = if p c then run q s + 1 else 0) (s : List Char)
    (n : Nat) : f (s.take n) = min n (f s) := by
  cases s with
  | nil => rw [List.take_nil, nil, Nat.min_zero]
  | cons c s =>
    cases n with
    | zero => rw [List.take_zero, nil, Nat.zero_min]
    | succ n =>
      rw [List.take_succ_cons, cons, cons, run_take]
      split <;> omega

theorem Local.of_take (take : ∀ s n, f (s.take n) = min n (f s)) : Local f := by
  intro s n enough
  rw [take, Nat.min_eq_right enough]

/-- A first character of a class, then something. -/
theorem Local.behind (hg : Local g) (nil : f [] = 0)
    (cons : ∀ c s, f (c :: s) = if p c && decide (g s > 0) then g s + 1 else 0) : Local f := by
  intro s n enough
  cases s with
  | nil => rw [List.take_nil]
  | cons c s =>
    cases n with
    | zero => rw [List.take_zero, nil, Nat.le_zero.1 enough]
    | succ n =>
      rw [cons] at enough
      rw [List.take_succ_cons, cons, cons]
      by_cases first : p c = true
      · have same : g (s.take n) = g s := by
          apply hg
          simp only [first, Bool.true_and, decide_eq_true_eq] at enough
          split at enough <;> omega
        rw [same]
      · simp only [first, Bool.false_and, Bool.false_eq_true, if_false]

/-- Two characters, then something. -/
theorem Local.behindTwo {b : Char → Char → Prop} [∀ c d, Decidable (b c d)] (hg : Local g)
    (short : ∀ s, s.length < 2 → f s = 0) (cons : ∀ c d s, f (c :: d :: s) = if b c d then g s + 2 else 0) :
    Local f := by
  intro s n enough
  have cut : ∀ c : Char, ∀ t : List Char, f ((c :: t).take 1) = 0 := fun c t => short _ (by simp)
  obtain _ | ⟨c, _ | ⟨d, s⟩⟩ := s
  · rw [List.take_nil]
  · have one : ([c].take n).length ≤ 1 := List.length_take_le' n [c]
    rw [short [c] Nat.one_lt_two, short _ (Nat.lt_succ_of_le one)]
  · rw [cons] at enough
    obtain _ | _ | n := n
    · rw [List.take_zero, short [] (by simp), cons, Nat.le_zero.1 enough]
    · have none : ¬ b c d := fun begins => by rw [if_pos begins] at enough; omega
      rw [cut, cons, if_neg none]
    · rw [List.take_succ_cons, List.take_succ_cons, cons, cons]
      split
      next begins =>
        rw [if_pos begins] at enough
        rw [hg s n (by omega)]
      next => rfl

/-- Something, then what may stand behind it. -/
theorem Local.andThen (hf : Local f) (hg : Local g)
    (eq : ∀ s, h s = if f s > 0 then f s + g (s.drop (f s)) else 0) : Local h := by
  intro s n enough
  rw [eq] at enough
  have first : f (s.take n) = f s := hf s n (by split at enough <;> omega)
  rw [eq, eq, first]
  split
  next found =>
    rw [if_pos found] at enough
    rw [List.drop_take, hg _ _ (by omega)]
  next => rfl

end

theorem local_nameLength : Local nameLength :=
  .of_take (take_head rfl fun _ _ => rfl)

theorem local_integerMarkLength : Local integerMarkLength :=
  .of_take (take_head (p := fun c => c == 'i' || c == 'u') rfl fun _ _ => rfl)

theorem local_floatMarkLength : Local floatMarkLength :=
  .of_take (take_head (p := (· == 'f')) rfl fun _ _ => rfl)

theorem local_markedNameLength (mark : Char) : Local (markedNameLength mark) :=
  local_nameLength.behind (p := (· = mark)) rfl fun _ _ => rfl

theorem Local.max {f g : List Char → Nat} (hf : Local f) (hg : Local g) : Local fun s => max (f s) (g s) := by
  intro s n enough
  dsimp only at enough ⊢
  rw [hf s n (by omega), hg s n (by omega)]

/-- A name behind two marks. -/
def twiceMarkedNameLength (mark : Char) : List Char → Nat
  | c :: s => if c = mark && markedNameLength mark s > 0 then markedNameLength mark s + 1 else 0
  | [] => 0

/-- Behind the first of two dollar signs there is no name. -/
theorem compileTimeNameLength_eq (s : List Char) :
    compileTimeNameLength s = max (markedNameLength '$' s) (twiceMarkedNameLength '$' s) := by
  unfold compileTimeNameLength
  split
  next t =>
    have once : markedNameLength '$' ('$' :: '$' :: t) = 0 := rfl
    rw [once, Nat.zero_max, twiceMarkedNameLength, markedNameLength]
    by_cases name : nameLength t > 0
    · simp [name]
    · simp [name]
  next other =>
    have twice : twiceMarkedNameLength '$' s = 0 := by
      obtain _ | ⟨c, _ | ⟨d, t⟩⟩ := s
      · rfl
      · simp [twiceMarkedNameLength, markedNameLength]
      · have differs : ¬ (c = '$' ∧ d = '$') := fun both => other t (by rw [both.1, both.2])
        by_cases first : c = '$'
        · have second : d ≠ '$' := fun same => differs ⟨first, same⟩
          simp [twiceMarkedNameLength, markedNameLength, second]
        · simp [twiceMarkedNameLength, first]
    rw [twice, Nat.max_zero]

theorem local_compileTimeNameLength : Local compileTimeNameLength := by
  have twice : Local (twiceMarkedNameLength '$') :=
    (local_markedNameLength '$').behind (p := (· = '$')) rfl fun _ _ => rfl
  intro s n enough
  rw [compileTimeNameLength_eq] at enough
  rw [compileTimeNameLength_eq, compileTimeNameLength_eq]
  exact (local_markedNameLength '$').max twice s n enough

/-! ## Numbers -/

theorem digitsLength_take (s : List Char) (n : Nat) : digitsLength (s.take n) = min n (digitsLength s) :=
  take_head rfl (fun _ _ => rfl) s n

/-- Digits and the width mark behind them. -/
def markedDigitsLength (digit : Char → Bool) (s : List Char) : Nat :=
  if run digit s > 0 then run digit s + integerMarkLength (s.drop (run digit s)) else 0

/-- Digits with their mark, behind the letter of their base. -/
def letteredDigitsLength (lower upper : Char) (digit : Char → Bool) : List Char → Nat
  | x :: s => if (x == lower || x == upper) && markedDigitsLength digit s > 0 then markedDigitsLength digit s + 1 else 0
  | [] => 0

theorem local_basedIntegerLength (lower upper : Char) (digit : Char → Bool) :
    Local (basedIntegerLength lower upper digit) := by
  have digits : Local (markedDigitsLength digit) := (local_run digit).andThen local_integerMarkLength fun _ => rfl
  have lettered : Local (letteredDigitsLength lower upper digit) :=
    digits.behind (p := fun x => x == lower || x == upper) rfl fun _ _ => rfl
  refine lettered.behind (p := (· = '0')) rfl fun c s => ?_
  by_cases zero : c = '0'
  · subst zero
    cases s with
    | nil => rfl
    | cons x s =>
      have marked : markedDigitsLength digit s > 0 ↔ run digit s > 0 := by
        rw [markedDigitsLength]
        split <;> omega
      rw [basedIntegerLength, letteredDigitsLength]
      by_cases some : run digit s > 0
      · have sum : markedDigitsLength digit s = run digit s + integerMarkLength (s.drop (run digit s)) := if_pos some
        by_cases letter : (x == lower || x == upper) = true
        · simp only [letter, some, marked.2 some, decide_true, Bool.and_true, if_true, Nat.succ_pos]
          omega
        · simp [letter]
      · have none : ¬ markedDigitsLength digit s > 0 := fun found => some (marked.1 found)
        simp [some, none]
  · simp [basedIntegerLength, zero]

theorem local_integerLength : Local integerLength := by
  have decimal : Local fun s => if digitsLength s > 0 then
      digitsLength s + integerMarkLength (s.drop (digitsLength s)) else 0 :=
    (Local.of_take digitsLength_take).andThen local_integerMarkLength fun _ => rfl
  exact decimal.max ((local_basedIntegerLength _ _ _).max
    ((local_basedIntegerLength _ _ _).max (local_basedIntegerLength _ _ _)))

/-- A point and digits. -/
def fractionLength : List Char → Nat
  | '.' :: t => if digitsLength t > 0 then digitsLength t + 1 else 0
  | _ => 0

theorem local_fractionLength : Local fractionLength := by
  refine (Local.of_take digitsLength_take).behind (p := (· = '.')) rfl fun c s => ?_
  by_cases point : c = '.'
  · subst point
    rw [fractionLength]
    simp
  · rw [fractionLength]
    · simp [point]
    · exact fun _ same => point (List.cons.inj same).1

/-- An optional sign and digits. -/
def signedDigitsLength : List Char → Nat
  | c :: s =>
    if c == '+' || c == '-' then if run Char.isDigit s > 0 then run Char.isDigit s + 1 else 0
    else run Char.isDigit (c :: s)
  | [] => 0

theorem local_signedDigitsLength : Local signedDigitsLength := by
  intro s n enough
  cases s with
  | nil => rw [List.take_nil]
  | cons c s =>
    cases n with
    | zero => exact (Nat.le_zero.1 enough).symm
    | succ n =>
      rw [signedDigitsLength] at enough
      rw [List.take_succ_cons, signedDigitsLength, signedDigitsLength]
      by_cases sign : (c == '+' || c == '-') = true
      · rw [if_pos sign] at enough
        rw [if_pos sign, if_pos sign, local_run _ s n (by split at enough <;> omega)]
      · rw [if_neg sign] at enough
        rw [if_neg sign, if_neg sign, ← List.take_succ_cons, local_run _ _ _ enough]

theorem local_exponentLength : Local exponentLength := by
  refine local_signedDigitsLength.behind (p := fun e => e == 'e' || e == 'E') rfl fun e s => ?_
  unfold exponentLength
  dsimp only
  by_cases letter : (e == 'e' || e == 'E') = true
  · rw [if_pos letter, letter, Bool.true_and]
    cases s with
    | nil => rfl
    | cons c s =>
      rw [signedDigitsLength]
      by_cases sign : (c == '+' || c == '-') = true
      · by_cases some : run Char.isDigit s > 0
        · simp [sign, some]
          omega
        · simp [sign, some]
      · by_cases some : run Char.isDigit (c :: s) > 0
        · simp [sign, some]
          omega
        · simp [sign, some]
  · simp [letter]

/-- A fraction, an exponent or both, and the width mark behind them. -/
def scaleLength (s : List Char) : Nat :=
  let fraction := fractionLength s
  let exponent := exponentLength (s.drop fraction)
  if fraction = 0 && exponent = 0 then 0
  else fraction + exponent + floatMarkLength (s.drop (fraction + exponent))

theorem local_scaleLength : Local scaleLength := by
  intro s n enough
  unfold scaleLength at enough ⊢
  dsimp only at enough ⊢
  have fraction : fractionLength (s.take n) = fractionLength s := by
    apply local_fractionLength
    split at enough
    next none => simp at none; omega
    next => omega
  have exponent : exponentLength ((s.take n).drop (fractionLength s)) = exponentLength (s.drop (fractionLength s)) := by
    rw [List.drop_take]
    apply local_exponentLength
    split at enough
    next none => simp at none; omega
    next => omega
  rw [fraction, exponent]
  split
  next => rfl
  next some =>
    rw [if_neg some] at enough
    rw [List.drop_take, local_floatMarkLength _ _ (by omega)]

theorem floatLength_eq (s : List Char) : floatLength s =
    if digitsLength s = 0 then 0
    else if scaleLength (s.drop (digitsLength s)) = 0 then 0
    else digitsLength s + scaleLength (s.drop (digitsLength s)) := by
  have parts : floatLength s =
      if digitsLength s = 0 then 0
      else
        let rest := s.drop (digitsLength s)
        let fraction := fractionLength rest
        let exponent := exponentLength (rest.drop fraction)
        if fraction = 0 && exponent = 0 then 0
        else digitsLength s + fraction + exponent + floatMarkLength (rest.drop (fraction + exponent)) := rfl
  rw [parts, scaleLength]
  dsimp only
  split
  next => rfl
  next =>
    split
    next => rfl
    next some =>
      simp only [Bool.and_eq_true, decide_eq_true_eq] at some
      rw [if_neg (by omega)]
      omega

theorem local_floatLength : Local floatLength := by
  intro s n enough
  rw [floatLength_eq] at enough
  rw [floatLength_eq, floatLength_eq, digitsLength_take]
  by_cases digits : digitsLength s = 0
  · rw [digits, Nat.min_zero, if_pos rfl, if_pos rfl]
  rw [if_neg digits] at enough ⊢
  by_cases within : digitsLength s ≤ n
  · have scale : scaleLength ((s.take n).drop (digitsLength s)) = scaleLength (s.drop (digitsLength s)) := by
      rw [List.drop_take]
      apply local_scaleLength
      split at enough <;> omega
    rw [Nat.min_eq_right within, scale, if_neg digits]
  · -- Digits that are cut off have nothing behind them.
    have none : scaleLength ((s.take n).drop n) = 0 := by
      rw [List.drop_eq_nil_of_le (List.length_take_le n s)]
      rfl
    have whole : scaleLength (s.drop (digitsLength s)) = 0 := by
      split at enough <;> omega
    rw [Nat.min_eq_left (by omega), none, whole, if_pos rfl, if_pos rfl, ite_self]

/-! ## Literals -/

theorem quotedLength_cons {quote c : Char} (other : c ≠ '\\') (s : List Char) :
    quotedLength quote (c :: s) = if c = quote || c = '\n' then 0 else quotedLength quote s + 1 := by
  cases s with
  | nil => simp [quotedLength, other]
  | cons d s => rw [quotedLength, if_neg other]

theorem local_quotedLength (quote : Char) : Local (quotedLength quote) := by
  intro s n enough
  fun_induction quotedLength quote s generalizing n with
  | case1 => rw [List.take_nil, quotedLength]
  | case2 c special =>
    cases n with
    | zero => rfl
    | succ n => rw [List.take_succ_cons, List.take_nil, quotedLength, if_pos special]
  | case3 c plain =>
    obtain _ | n := n
    · omega
    · rw [List.take_succ_cons, List.take_nil, quotedLength, if_neg plain]
  | case4 s =>
    obtain _ | _ | n := n <;> simp [quotedLength]
  | case5 d s other ih =>
    obtain _ | _ | n := n
    · omega
    · omega
    · rw [List.take_succ_cons, List.take_succ_cons, quotedLength, if_pos rfl, if_neg other, ih n (by omega)]
  | case6 c d s other special =>
    obtain _ | n := n
    · rfl
    · rw [List.take_succ_cons, quotedLength_cons other, if_pos special]
  | case7 c d s other plain ih =>
    obtain _ | n := n
    · omega
    · rw [List.take_succ_cons, quotedLength_cons other, if_neg plain, ih n (by omega)]

/-- The inside of a literal that is closed ends there, whatever is behind. -/
def Closes (quote : Char) (inside : List Char → Nat) : Prop :=
  ∀ w t, (w.drop (inside w)).head? = some quote → inside (w ++ t) = inside w

theorem closes_quotedLength {quote : Char} (mark : quote ≠ '\\') : Closes quote (quotedLength quote) := by
  intro w t closed
  fun_induction quotedLength quote w with
  | case1 => cases closed
  | case2 c special =>
    have same : c = quote := Option.some.inj closed
    rw [List.singleton_append, same, quotedLength_cons mark, if_pos (by simp)]
  | case3 c plain => cases closed
  | case4 s => exact absurd (Option.some.inj closed).symm mark
  | case5 d s other ih =>
    rw [List.cons_append, List.cons_append, quotedLength, if_pos rfl, if_neg other, ih closed]
  | case6 c d s other special => rw [List.cons_append, quotedLength_cons other, if_pos special]
  | case7 c d s other plain ih => rw [List.cons_append, quotedLength_cons other, if_neg plain, ih closed]

theorem closes_rawLength : Closes '\x60' rawLength := by
  intro w t closed
  have within : rawLength w < w.length := by
    by_contra beyond
    rw [List.drop_eq_nil_of_le (by omega)] at closed
    cases closed
  have shorter := run_take (· != '\x60') (w ++ t) w.length
  rw [List.take_left] at shorter
  rw [rawLength] at within ⊢
  rw [rawLength]
  omega

theorem local_literalLength {quote : Char} {inside : List Char → Nat} (h : Local inside) (closes : Closes quote inside) :
    Local (literalLength quote inside) := by
  intro s n enough
  cases s with
  | nil => rw [List.take_nil]
  | cons c s =>
    cases n with
    | zero => exact (Nat.le_zero.1 enough).symm
    | succ n =>
      rw [literalLength] at enough
      rw [List.take_succ_cons, literalLength, literalLength]
      by_cases opens : c = quote
      · by_cases closed : (s.drop (inside s)).head? = some quote
        · rw [if_pos (by simp only [opens, closed, decide_true, Bool.true_and, beq_self_eq_true])] at enough
          have same : inside (s.take n) = inside s := h s n (by omega)
          have ends : ((s.take n).drop (inside s)).head? = (s.drop (inside s)).head? := by
            rw [List.drop_take, List.head?_take, if_neg (by omega)]
          rw [same, ends]
        · -- If the shorter text were closed, so would be the whole one.
          have unclosed : ((s.take n).drop (inside (s.take n))).head? ≠ some quote := by
            intro early
            have same := closes (s.take n) (s.drop n) early
            rw [List.take_append_drop] at same
            obtain ⟨rest, ends⟩ := List.head?_eq_some_iff.1 early
            have within : inside (s.take n) ≤ (s.take n).length := by
              by_contra beyond
              rw [List.drop_eq_nil_of_le (by omega)] at ends
              cases ends
            have whole : s.drop (inside s) = quote :: (rest ++ s.drop n) := by
              rw [← List.cons_append, ← ends, ← List.drop_append_of_le_length within, List.take_append_drop, same]
            exact closed (by rw [whole, List.head?_cons])
          rw [beq_false_of_ne closed, beq_false_of_ne unclosed, Bool.and_false]
          rfl
      · rw [decide_eq_false opens, Bool.false_and, Bool.false_and]
        rfl

/-! ## Comments -/

theorem local_lineCommentLength : Local lineCommentLength := by
  refine (local_run (· != '\n')).behindTwo (b := fun c d => c = '/' ∧ d = '/') (fun s less => ?_) fun c d s => ?_
  · rw [lineCommentLength]
    rintro t rfl
    simp only [List.length_cons] at less
    omega
  · by_cases slashes : c = '/' ∧ d = '/'
    · obtain ⟨rfl, rfl⟩ := slashes
      rfl
    · rw [if_neg slashes, lineCommentLength]
      rintro t same
      obtain ⟨rfl, rest⟩ := List.cons.inj same
      exact slashes ⟨rfl, (List.cons.inj rest).1⟩

theorem local_lengthThrough (a b : Char) : Local (lengthThrough a b) := by
  intro s n enough
  fun_induction lengthThrough a b s generalizing n with
  | case1 => rw [List.take_nil, lengthThrough]
  | case2 c =>
    obtain _ | n := n
    · omega
    · rw [List.take_succ_cons, List.take_nil, lengthThrough]
  | case3 c d s ends =>
    obtain _ | _ | n := n
    · omega
    · omega
    · rw [List.take_succ_cons, List.take_succ_cons, lengthThrough, if_pos ends]
  | case4 c d s other ih =>
    obtain _ | n := n
    · omega
    have same := ih n (by omega)
    obtain _ | n := n
    · rw [List.take_succ_cons, List.take_zero, lengthThrough, ← same]
      rfl
    · rw [List.take_succ_cons] at same ⊢
      rw [List.take_succ_cons, lengthThrough, if_neg other, same]

theorem local_commentLength (a b c : Char) : Local (commentLength a b c) := by
  refine (local_lengthThrough b c).behindTwo (b := fun x y => (decide (x = a) && decide (y = b)) = true)
    (fun s less => ?_) fun _ _ _ => rfl
  obtain _ | ⟨x, _ | ⟨y, s⟩⟩ := s
  · rfl
  · rfl
  · simp only [List.length_cons] at less
    omega

/-! ## Words -/

theorem local_wordLength (word : String) : Local (wordLength word) := by
  intro s n enough
  have begins : word.toList.isPrefixOf (s.take n) = true ↔ word.toList.isPrefixOf s = true ∧ word.length ≤ n := by
    rw [List.isPrefixOf_iff_prefix, List.isPrefixOf_iff_prefix, List.prefix_take_iff, String.length_toList]
  rw [wordLength] at enough
  rw [wordLength, wordLength]
  by_cases whole : word.toList.isPrefixOf s = true
  · rw [if_pos whole] at enough
    rw [if_pos (begins.2 ⟨whole, enough⟩), if_pos whole]
  · rw [if_neg fun cut => whole (begins.1 cut).1, if_neg whole]

theorem local_longestWordLength (words : List String) : Local (longestWordLength words) := by
  intro s n enough
  have each : words.map (wordLength · (s.take n)) = words.map (wordLength · s) :=
    List.map_congr_left fun word mem => local_wordLength word s n ((le_longestWordLength mem s).trans enough)
  rw [longestWordLength, each, longestWordLength]

/-! ## Rules -/

/-- Of a text cut off at the find of the rule or behind it the rule finds the same. -/
def LocalRule (rule : Rule) : Prop :=
  ∀ s n, (rule s).2 ≤ n → rule (s.take n) = rule s

theorem Local.rule {f : List Char → Nat} (h : Local f) (kind : TokenKind) : LocalRule fun s => (kind, f s) :=
  fun s n enough => congrArg (Prod.mk kind) (h s n enough)

theorem localRule_nameRule : LocalRule nameRule := by
  intro s n enough
  have name : nameLength (s.take n) = nameLength s := local_nameLength s n enough
  have text : (s.take n).take (nameLength s) = s.take (nameLength s) := by
    have within : nameLength s ≤ n := enough
    rw [List.take_take, Nat.min_eq_left within]
  rw [nameRule, nameRule, name, text]

theorem foldl_longest_congr {α : Type} {find find' : α → TokenKind × Nat} {as : List α}
    (same : ∀ a ∈ as, find' a = find a) (best : TokenKind × Nat) :
    as.foldl (fun best a => if (find' a).2 > best.2 then find' a else best) best =
      as.foldl (fun best a => if (find a).2 > best.2 then find a else best) best :=
  List.foldl_ext _ _ _ fun best a mem => by rw [same a mem]

theorem wordLength_le_punctuationRule {word : String × TokenKind} (mem : word ∈ TokenKind.punctuation) (s : List Char) :
    wordLength word.1 s ≤ (punctuationRule s).2 :=
  (le_foldl_longest (fun word : String × TokenKind => (word.2, wordLength word.1 s))
    TokenKind.punctuation (.stray, 0)).2 word mem

theorem localRule_punctuationRule : LocalRule punctuationRule := by
  intro s n enough
  have words : ∀ word ∈ TokenKind.punctuation, wordLength word.1 (s.take n) = wordLength word.1 s := fun word mem =>
    local_wordLength word.1 s n ((wordLength_le_punctuationRule mem s).trans enough)
  unfold punctuationRule
  refine List.foldl_ext _ _ _ fun best word mem => ?_
  obtain ⟨word, kind⟩ := word
  have same : wordLength word (s.take n) = wordLength word s := words (word, kind) mem
  simp only [same]

theorem localRule_of_mem {rule : Rule} (mem : rule ∈ rules) : LocalRule rule := by
  simp only [rules, List.mem_cons, List.not_mem_nil, or_false] at mem
  rcases mem with rfl | rfl | rfl | rfl | rfl | rfl | rfl | rfl | rfl | rfl | rfl | rfl | rfl | rfl | rfl
  · exact (local_run isBlank).rule .whitespace
  · exact local_lineCommentLength.rule .lineComment
  · exact (local_commentLength '/' '*' '/').rule .blockComment
  · exact (local_commentLength '<' '*' '>').rule .docComment
  · exact localRule_nameRule
  · exact local_compileTimeNameLength.rule .ctIdent
  · exact (local_markedNameLength '@').rule .atIdent
  · exact (local_markedNameLength '#').rule .hashIdent
  · exact local_integerLength.rule .intNumber
  · exact local_floatLength.rule .floatNumber
  · exact (local_literalLength (local_quotedLength _) (closes_quotedLength (by decide))).rule .stringLit
  · exact (local_literalLength (local_run _) closes_rawLength).rule .stringLit
  · exact (local_literalLength (local_quotedLength _) (closes_quotedLength (by decide))).rule .charLit
  · exact localRule_punctuationRule
  · exact (local_longestWordLength TokenKind.operators).rule .operator

theorem longest_take {s : List Char} {n : Nat} (enough : (longest s).2 ≤ n) : longest (s.take n) = longest s := by
  rw [longest, longest]
  exact foldl_longest_congr (fun _ mem => localRule_of_mem mem s n ((le_longest mem s).trans enough)) (.stray, 0)

theorem strayLength_pos {s : List Char} (more : s ≠ []) : 0 < strayLength s := by
  obtain ⟨c, s, rfl⟩ := List.exists_cons_of_ne_nil more
  rw [strayLength]
  repeat' split
  all_goals omega

theorem local_strayLength : Local strayLength := by
  intro s n enough
  cases s with
  | nil => rw [List.take_nil]
  | cons c s =>
    obtain _ | n := n
    · exact absurd enough (by have := strayLength_pos (List.cons_ne_nil c s); omega)
    rw [strayLength] at enough
    rw [List.take_succ_cons, strayLength, strayLength]
    by_cases quoted : (c = '\x22' || c = '\x27') = true
    · rw [if_pos quoted] at enough
      rw [if_pos quoted, if_pos quoted, local_quotedLength c s n (by omega)]
    by_cases raw : c = '\x60'
    · rw [if_neg quoted, if_pos raw] at enough
      have inside : rawLength (s.take n) = rawLength s := local_run _ s n (Nat.le_of_succ_le_succ enough)
      rw [if_neg quoted, if_neg quoted, inside]
    · rw [if_neg quoted, if_neg quoted, if_neg raw, if_neg raw]

/-- Of a text cut off at its first token or behind it the same token is the first one. -/
theorem first_take {s : List Char} {n : Nat} (enough : (first s).2 ≤ n) : first (s.take n) = first s := by
  rw [first] at enough
  rw [first, first]
  by_cases found : (longest s).2 > 0
  · rw [if_pos found] at enough
    rw [longest_take enough, if_pos found, if_pos found]
  · rw [if_neg found] at enough
    rw [longest_take (by omega), if_neg found, if_neg found, local_strayLength s n enough]

/-! ## Tokens -/

/-- The tokens of a text spell it, none of them is empty, and the text of each of them alone is that token. -/
theorem ofString_text (s : String) : Tree.spell (ofString s) = s ∧
    ∀ t ∈ ofString s, t.text ≠ "" ∧ ofString t.text = [t] := by
  refine ⟨Tree.spell_ofString s, fun t mem => ?_⟩
  obtain ⟨cs, more, rfl⟩ := exists_first_of_mem_ofChars mem
  obtain ⟨c, cs, rfl⟩ := List.exists_cons_of_ne_nil more
  obtain ⟨n, length⟩ : ∃ n, max 1 (first (c :: cs)).2 = n + 1 := ⟨max 1 (first (c :: cs)).2 - 1, by omega⟩
  have same : first (c :: cs.take n) = first (c :: cs) := by
    rw [← List.take_succ_cons]
    exact first_take (by omega)
  have whole : (c :: cs.take n).length ≤ n + 1 := Nat.succ_le_succ (List.length_take_le n cs)
  rw [length, List.take_succ_cons]
  refine ⟨fun none => ?_, ?_⟩
  · rw [← String.toList_inj, String.toList_ofList] at none
    cases none
  · rw [ofString, String.toList_ofList, ofChars]
    simp only [same, length, List.take_of_length_le whole, List.drop_eq_nil_of_le whole]
    rw [ofChars]

end C3Lens.Token
