import C3Lens.Proofs.TypeSyntax.Parsing

/-!
# Looking ahead foretells how a type is read

Looking ahead counts brackets whatever their kinds, while reading goes down into generic arguments and stops
at the bracket that closes them. Both come to the same end where closing brackets are of the kind of their
opening ones (`Grammar.type_of_typeLength?`).

* `Lookahead.nested_iff`: brackets are nested if each is closed by one of its kind and counting comes back to
  where it began.
* `Lookahead.exists_of_afterType?`: what looking ahead passes over as a type comes back to the depth at which
  it begins and closes no bracket in front of it. So inside of a bracket group it does not leave the group.
* `Grammar.Passes`: in front of some tokens an action notes no error and goes on to others. Arguments are
  passed by induction on the tokens in the group, types by induction on their length.
-/

namespace C3Lens

/-- The kind of the bracket that closes a group. -/
def TokenKind.closing? : TokenKind → Option TokenKind
  | .leftParen => some .rightParen
  | .leftBracket => some .rightBracket
  | .leftBrace => some .rightBrace
  | .leftGeneric => some .rightGeneric
  | _ => none

theorem TokenKind.brackets_of_closing? {opener closer : TokenKind} (pair : opener.closing? = some closer) :
    opener.isOpener = true ∧ closer.isCloser = true := by
  cases opener <;> cases pair <;> exact ⟨rfl, rfl⟩

theorem TokenKind.isCloser_of_isOpener {kind : TokenKind} (opens : kind.isOpener = true) : kind.isCloser = false := by
  cases kind <;> first | rfl | cases opens

theorem TokenKind.isOpener_of_isCloser {kind : TokenKind} (closes : kind.isCloser = true) : kind.isOpener = false := by
  cases kind <;> first | rfl | cases closes

namespace Lookahead

/-! ## Nested brackets -/

/-- Whether every closing bracket is of the kind of its opening bracket, where brackets of the kinds `opened`
are open in front of the tokens, the innermost one first. Nothing is asked of a closing bracket without an
opening one. -/
def closesInKind : List TokenKind → List Lexeme → Bool
  | _, [] => true
  | opened, l :: ls =>
    if l.kind.isOpener then closesInKind (l.kind :: opened) ls
    else if l.kind.isCloser then
      opened.head?.all (·.closing? == some l.kind) && closesInKind opened.tail ls
    else closesInKind opened ls

/-- The depth behind tokens that begin at `depth`; none if they close a bracket that is open in front of the
outermost level. -/
def depthBehind? : Nat → List Lexeme → Option Nat
  | depth, [] => some depth
  | depth, l :: ls =>
    if l.kind.isOpener then depthBehind? (depth + 1) ls
    else if l.kind.isCloser then
      if depth = 0 then none else depthBehind? (depth - 1) ls
    else depthBehind? depth ls

/-- Every bracket is closed by one of its kind, and nothing else is closed. -/
inductive Nested : List Lexeme → Prop
  | nil : Nested []
  | plain {l : Lexeme} {ls : List Lexeme} (noOpener : l.kind.isOpener = false)
    (noCloser : l.kind.isCloser = false) : Nested ls → Nested (l :: ls)
  | group {opener closer : Lexeme} {inner ls : List Lexeme} (pair : opener.kind.closing? = some closer.kind) :
    Nested inner → Nested ls → Nested (opener :: (inner ++ closer :: ls))

section

variable {l : Lexeme} (opened : List TokenKind) (depth : Nat) (ls : List Lexeme)

theorem closesInKind_opener (opens : l.kind.isOpener = true) :
    closesInKind opened (l :: ls) = closesInKind (l.kind :: opened) ls := by
  rw [closesInKind, if_pos opens]

theorem closesInKind_closer (closes : l.kind.isCloser = true) :
    closesInKind opened (l :: ls) =
      (opened.head?.all (·.closing? == some l.kind) && closesInKind opened.tail ls) := by
  rw [closesInKind, TokenKind.isOpener_of_isCloser closes, if_neg Bool.false_ne_true, if_pos closes]

theorem closesInKind_plain (noOpener : l.kind.isOpener = false) (noCloser : l.kind.isCloser = false) :
    closesInKind opened (l :: ls) = closesInKind opened ls := by
  rw [closesInKind, noOpener, noCloser, if_neg Bool.false_ne_true, if_neg Bool.false_ne_true]

theorem depthBehind?_opener (opens : l.kind.isOpener = true) :
    depthBehind? depth (l :: ls) = depthBehind? (depth + 1) ls := by
  rw [depthBehind?, if_pos opens]

theorem depthBehind?_closer (closes : l.kind.isCloser = true) :
    depthBehind? (depth + 1) (l :: ls) = depthBehind? depth ls := by
  rw [depthBehind?, TokenKind.isOpener_of_isCloser closes, if_neg Bool.false_ne_true, if_pos closes,
    if_neg (Nat.succ_ne_zero depth), Nat.add_sub_cancel]

theorem depthBehind?_plain (noOpener : l.kind.isOpener = false) (noCloser : l.kind.isCloser = false) :
    depthBehind? depth (l :: ls) = depthBehind? depth ls := by
  rw [depthBehind?, noOpener, noCloser, if_neg Bool.false_ne_true, if_neg Bool.false_ne_true]

/-- At the outermost level no bracket is closed. -/
theorem depthBehind?_zero (closes : l.kind.isCloser = true) :
    depthBehind? 0 (l :: ls) = none := by
  rw [depthBehind?, TokenKind.isOpener_of_isCloser closes, if_neg Bool.false_ne_true, if_pos closes, if_pos rfl]

end

/-- A token opens a group, closes one, or does neither. -/
theorem bracket_cases (l : Lexeme) : l.kind.isOpener = true ∨ l.kind.isCloser = true ∨
    l.kind.isOpener = false ∧ l.kind.isCloser = false := by
  cases l.kind.isOpener <;> cases l.kind.isCloser <;> simp

theorem depthBehind?_append (depth : Nat) (ls more : List Lexeme) :
    depthBehind? depth (ls ++ more) = (depthBehind? depth ls).bind (depthBehind? · more) := by
  induction ls generalizing depth with
  | nil => rfl
  | cons l ls ih =>
    rw [List.cons_append]
    obtain opens | closes | ⟨noOpener, noCloser⟩ := bracket_cases l
    · rw [depthBehind?_opener _ _ opens, depthBehind?_opener _ _ opens, ih]
    · cases depth with
      | zero => rw [depthBehind?_zero _ closes, depthBehind?_zero _ closes, Option.bind_none]
      | succ depth =>
        rw [depthBehind?_closer _ _ closes, depthBehind?_closer _ _ closes, ih]
    · rw [depthBehind?_plain _ _ noOpener noCloser, depthBehind?_plain _ _ noOpener noCloser, ih]

theorem closesInKind_of_append {opened : List TokenKind} {ls more : List Lexeme}
    (h : closesInKind opened (ls ++ more) = true) : closesInKind opened ls = true := by
  induction ls generalizing opened with
  | nil => rfl
  | cons l ls ih =>
    rw [List.cons_append] at h
    obtain opens | closes | ⟨noOpener, noCloser⟩ := bracket_cases l
    · rw [closesInKind_opener _ _ opens] at h ⊢
      exact ih h
    · rw [closesInKind_closer _ _ closes, Bool.and_eq_true] at h ⊢
      exact ⟨h.1, ih h.2⟩
    · rw [closesInKind_plain _ _ noOpener noCloser] at h ⊢
      exact ih h

namespace Nested

variable {ls : List Lexeme}

theorem depthBehind? (h : Nested ls) (depth : Nat) (more : List Lexeme) :
    Lookahead.depthBehind? depth (ls ++ more) = Lookahead.depthBehind? depth more := by
  induction h generalizing depth more with
  | nil => rfl
  | plain noOpener noCloser _ ih => rw [List.cons_append, depthBehind?_plain _ _ noOpener noCloser, ih]
  | group pair _ _ ih ih' =>
    obtain ⟨opens, closes⟩ := TokenKind.brackets_of_closing? pair
    rw [List.cons_append, List.append_assoc, List.cons_append, depthBehind?_opener _ _ opens, ih,
      depthBehind?_closer _ _ closes, ih']

theorem closesInKind (h : Nested ls) (opened : List TokenKind) (more : List Lexeme) :
    Lookahead.closesInKind opened (ls ++ more) = Lookahead.closesInKind opened more := by
  induction h generalizing opened more with
  | nil => rfl
  | plain noOpener noCloser _ ih => rw [List.cons_append, closesInKind_plain _ _ noOpener noCloser, ih]
  | group pair _ _ ih ih' =>
    obtain ⟨opens, closes⟩ := TokenKind.brackets_of_closing? pair
    rw [List.cons_append, List.append_assoc, List.cons_append, closesInKind_opener _ _ opens, ih,
      closesInKind_closer _ _ closes, List.head?_cons, Option.all_some, pair, beq_self_eq_true, Bool.true_and,
      List.tail_cons, ih']

/-- Looking for the end of a bracket group passes over nested brackets. -/
theorem afterGroup? (h : Nested ls) (depth : Nat) (more : List Lexeme) :
    Lookahead.afterGroup? (depth + 1) (ls ++ more) = Lookahead.afterGroup? (depth + 1) more := by
  induction h generalizing depth more with
  | nil => rfl
  | plain noOpener noCloser _ ih =>
    rw [List.cons_append, Lookahead.afterGroup?, deeper, noOpener, noCloser, if_neg Bool.false_ne_true,
      if_neg Bool.false_ne_true, if_neg (Nat.succ_ne_zero depth), ih]
  | group pair _ _ ih ih' =>
    obtain ⟨opens, closes⟩ := TokenKind.brackets_of_closing? pair
    rw [List.cons_append, List.append_assoc, List.cons_append, Lookahead.afterGroup?, TypeSyntax.deeper_opener opens,
      if_neg (Nat.succ_ne_zero _), ih, Lookahead.afterGroup?, TypeSyntax.deeper_closer closes, Nat.add_sub_cancel,
      if_neg (Nat.succ_ne_zero depth), ih']

theorem noCloser {l : Lexeme} (h : Nested (l :: ls)) : l.kind.isCloser = false := by
  cases h with
  | plain _ noCloser => exact noCloser
  | group pair => exact TokenKind.isCloser_of_isOpener (TokenKind.brackets_of_closing? pair).1

theorem tail {l : Lexeme} (h : Nested (l :: ls)) (noOpener : l.kind.isOpener = false) : Nested ls := by
  cases h with
  | plain _ _ nested => exact nested
  | group pair =>
    rw [(TokenKind.brackets_of_closing? pair).1] at noOpener
    cases noOpener

/-- An opening bracket begins a group. -/
theorem exists_of_opener {l : Lexeme} (h : Nested (l :: ls)) (opens : l.kind.isOpener = true) :
    ∃ inner closer behind, ls = inner ++ closer :: behind ∧ l.kind.closing? = some closer.kind ∧ Nested inner := by
  cases h with
  | plain noOpener =>
    rw [opens] at noOpener
    cases noOpener
  | group pair nested => exact ⟨_, _, _, rfl, pair, nested⟩

/-- What is behind nested brackets is nested if the whole is. -/
theorem of_append {more : List Lexeme} (h : Nested ls) (whole : Lookahead.closesInKind [] (ls ++ more) = true)
    (depth : Lookahead.depthBehind? 0 (ls ++ more) = some 0) :
    Lookahead.closesInKind [] more = true ∧ Lookahead.depthBehind? 0 more = some 0 := by
  rw [h.closesInKind] at whole
  rw [h.depthBehind?] at depth
  exact ⟨whole, depth⟩

end Nested

/-- Inside of a bracket group, which is closed by one of its kind, the brackets are nested. -/
theorem exists_group {kind : TokenKind} {opened : List TokenKind} {ls : List Lexeme}
    (kinds : closesInKind (kind :: opened) ls = true) (depth : depthBehind? (opened.length + 1) ls = some 0) :
    ∃ inner closer rest, ls = inner ++ closer :: rest ∧ kind.closing? = some closer.kind ∧ Nested inner ∧
      closesInKind opened rest = true ∧ depthBehind? opened.length rest = some 0 := by
  match ls with
  | [] => cases depth
  | l :: ls =>
    obtain opens | closes | ⟨noOpener, noCloser⟩ := bracket_cases l
    · rw [closesInKind_opener _ _ opens] at kinds
      rw [depthBehind?_opener _ _ opens] at depth
      obtain ⟨inner, closer, ls', split, pair, nested, kinds, depth⟩ := exists_group kinds depth
      have shorter : ls'.length < (l :: ls).length := by
        rw [split, List.length_cons, List.length_append, List.length_cons]
        omega
      obtain ⟨inner', closer', rest, rfl, pair', nested', more⟩ := exists_group kinds depth
      refine ⟨l :: (inner ++ closer :: inner'), closer', rest, ?_, pair', .group pair nested nested', more⟩
      rw [split, List.cons_append, List.append_assoc, List.cons_append]
    · rw [closesInKind_closer _ _ closes, Bool.and_eq_true] at kinds
      rw [depthBehind?_closer _ _ closes] at depth
      exact ⟨[], l, ls, rfl, beq_iff_eq.1 kinds.1, .nil, kinds.2, depth⟩
    · rw [closesInKind_plain _ _ noOpener noCloser] at kinds
      rw [depthBehind?_plain _ _ noOpener noCloser] at depth
      obtain ⟨inner, closer, rest, rfl, pair, nested, more⟩ := exists_group kinds depth
      exact ⟨l :: inner, closer, rest, rfl, pair, .plain noOpener noCloser nested, more⟩
termination_by ls.length
decreasing_by
  · exact Nat.lt_succ_self _
  · exact shorter
  · exact Nat.lt_succ_self _

/-- Brackets are nested if each is closed by one of its kind and they come back to the outermost level. -/
theorem nested_iff {ls : List Lexeme} :
    Nested ls ↔ closesInKind [] ls = true ∧ depthBehind? 0 ls = some 0 := by
  constructor
  · intro h
    have kinds := h.closesInKind [] []
    have depth := h.depthBehind? 0 []
    rw [List.append_nil] at kinds depth
    exact ⟨kinds, depth⟩
  · rintro ⟨kinds, depth⟩
    match ls with
    | [] => exact .nil
    | l :: ls =>
      obtain opens | closes | ⟨noOpener, noCloser⟩ := bracket_cases l
      · rw [closesInKind_opener _ _ opens] at kinds
        rw [depthBehind?_opener _ _ opens] at depth
        obtain ⟨inner, closer, rest, split, pair, nested, more⟩ := exists_group kinds depth
        have shorter : rest.length < (l :: ls).length := by
          rw [split, List.length_cons, List.length_append, List.length_cons]
          omega
        rw [split]
        exact .group pair nested (nested_iff.2 more)
      · rw [depthBehind?_zero _ closes] at depth
        cases depth
      · rw [closesInKind_plain _ _ noOpener noCloser] at kinds
        rw [depthBehind?_plain _ _ noOpener noCloser] at depth
        exact .plain noOpener noCloser (nested_iff.2 ⟨kinds, depth⟩)
termination_by ls.length
decreasing_by
  · exact shorter
  · exact Nat.lt_succ_self _

/-! ## What looking ahead passes over -/

theorem isBracket_of_isTypeHead {l : Lexeme} (h : isTypeHead l = true) :
    l.kind.isOpener = false ∧ l.kind.isCloser = false := by
  rw [isTypeHead] at h
  cases kind : l.kind <;> rw [kind] at h <;> first | exact ⟨rfl, rfl⟩ | cases h

theorem afterGroup?_opener {l : Lexeme} (opens : l.kind.isOpener = true) (ls : List Lexeme) :
    afterGroup? 0 (l :: ls) = afterGroup? 1 ls := by
  rw [afterGroup?, TypeSyntax.deeper_opener opens, if_neg (Nat.succ_ne_zero _)]

/-- A group is passed over up to the bracket that closes it. -/
theorem afterGroup?_group {opener closer : Lexeme} (pair : opener.kind.closing? = some closer.kind)
    {inner : List Lexeme} (nested : Nested inner) (ls : List Lexeme) :
    afterGroup? 0 (opener :: (inner ++ closer :: ls)) = some ls := by
  obtain ⟨opens, closes⟩ := TokenKind.brackets_of_closing? pair
  rw [afterGroup?_opener opens, nested.afterGroup?, afterGroup?, TypeSyntax.deeper_closer closes, if_pos rfl]

/-- A bracket group ends at the outermost level. -/
theorem exists_of_afterGroup? {depth : Nat} {ls rest : List Lexeme} (h : afterGroup? (depth + 1) ls = some rest) :
    ∃ front, ls = front ++ rest ∧ depthBehind? (depth + 1) front = some 0 := by
  induction ls generalizing depth with
  | nil => cases h
  | cons l ls ih =>
    rw [afterGroup?] at h
    obtain opens | closes | ⟨noOpener, noCloser⟩ := bracket_cases l
    · rw [TypeSyntax.deeper_opener opens, if_neg (Nat.succ_ne_zero _)] at h
      obtain ⟨front, rfl, behind⟩ := ih h
      exact ⟨l :: front, rfl, by rw [depthBehind?_opener _ _ opens, behind]⟩
    · rw [TypeSyntax.deeper_closer closes, Nat.add_sub_cancel] at h
      cases depth with
      | zero =>
        cases h
        exact ⟨[l], rfl, by rw [depthBehind?_closer _ _ closes, depthBehind?]⟩
      | succ depth =>
        rw [if_neg (Nat.succ_ne_zero _)] at h
        obtain ⟨front, rfl, behind⟩ := ih h
        exact ⟨l :: front, rfl, by rw [depthBehind?_closer _ _ closes, behind]⟩
    · rw [deeper, noOpener, noCloser, if_neg Bool.false_ne_true, if_neg Bool.false_ne_true,
        if_neg (Nat.succ_ne_zero _)] at h
      obtain ⟨front, rfl, behind⟩ := ih h
      exact ⟨l :: front, rfl, by rw [depthBehind?_plain _ _ noOpener noCloser, behind]⟩

theorem exists_of_afterPath (ls : List Lexeme) :
    ∃ front, ls = front ++ afterPath ls ∧ depthBehind? 0 front = some 0 := by
  fun_induction afterPath ls with
  | case1 a b ls path ih =>
    obtain ⟨front, split, behind⟩ := ih
    refine ⟨a :: b :: front, congrArg (a :: b :: ·) split, ?_⟩
    rw [depthBehind?_plain _ _ (by rw [path.1]; rfl) (by rw [path.1]; rfl),
      depthBehind?_plain _ _ (by rw [path.2]; rfl) (by rw [path.2]; rfl), behind]
  | case2 a b ls _ => exact ⟨[], rfl, rfl⟩
  | case3 ls _ => exact ⟨[], rfl, rfl⟩

/-- Of the generic arguments of a type there are none, or they are the bracket group that begins here. -/
theorem afterArguments?_cases {head : Lexeme} {ls rest : List Lexeme} (h : afterArguments? head ls = some rest) :
    (rest = ls ∧ headKind? ls ≠ some .leftGeneric ∧ (isUserType head = true → headKind? ls ≠ some .leftBrace)) ∨
    ∃ opener ls', ls = opener :: ls' ∧ afterGroup? 0 ls = some rest ∧ opener.kind.isOpener = true ∧
      (opener.kind = .leftGeneric ∨ opener.kind = .leftBrace ∧ isUserType head = true) := by
  rw [afterArguments?] at h
  cases ls with
  | nil => exact .inl ⟨(Option.some.inj h).symm, by decide, fun _ => by decide⟩
  | cons l ls =>
    have kind : headKind? (l :: ls) = some l.kind := rfl
    rw [List.head?_cons, Option.map_some] at h
    rw [kind]
    split at h
    next generic =>
      have same := Option.some.inj generic
      exact .inr ⟨l, ls, rfl, h, by rw [same]; rfl, .inl same⟩
    next brace =>
      split at h
      next user =>
        have same := Option.some.inj brace
        exact .inr ⟨l, ls, rfl, h, by rw [same]; rfl, .inr ⟨same, user⟩⟩
      next other => exact .inl ⟨(Option.some.inj h).symm, by rw [brace]; decide, fun user => absurd user other⟩
    next noGeneric noBrace => exact .inl ⟨(Option.some.inj h).symm, noGeneric, fun _ => noBrace⟩

theorem exists_of_afterArguments? {head : Lexeme} {ls rest : List Lexeme} (h : afterArguments? head ls = some rest) :
    ∃ front, ls = front ++ rest ∧ depthBehind? 0 front = some 0 := by
  obtain ⟨rfl, -, -⟩ | ⟨opener, ls, rfl, group, opens, -⟩ := afterArguments?_cases h
  · exact ⟨[], rfl, rfl⟩
  · rw [afterGroup?_opener opens] at group
    obtain ⟨front, rfl, behind⟩ := exists_of_afterGroup? group
    exact ⟨opener :: front, rfl, by rw [depthBehind?_opener _ _ opens, behind]⟩

/-- The marks behind a type go on behind a bracket group. -/
theorem afterSuffixes?_succ (depth : Nat) (ls : List Lexeme) :
    afterSuffixes? (depth + 1) ls = (afterGroup? (depth + 1) ls).bind (afterSuffixes? 0) := by
  induction ls generalizing depth with
  | nil => rfl
  | cons l ls ih =>
    rw [afterSuffixes?, if_neg (Nat.succ_ne_zero depth), afterGroup?]
    cases deeper (depth + 1) l.kind with
    | zero => rfl
    | succ inner => rw [ih, if_neg (Nat.succ_ne_zero inner)]

theorem exists_of_afterSuffixes? {ls rest : List Lexeme} (h : afterSuffixes? 0 ls = some rest) :
    ∃ front, ls = front ++ rest ∧ depthBehind? 0 front = some 0 := by
  match ls with
  | [] =>
    cases h
    exact ⟨[], rfl, rfl⟩
  | l :: ls =>
    have marked (noOpener : l.kind.isOpener = false) (noCloser : l.kind.isCloser = false)
        (h : afterSuffixes? 0 ls = some rest) :
        ∃ front, l :: ls = front ++ rest ∧ depthBehind? 0 front = some 0 := by
      obtain ⟨front, split, behind⟩ := exists_of_afterSuffixes? h
      exact ⟨l :: front, congrArg (l :: ·) split, by rw [depthBehind?_plain _ _ noOpener noCloser, behind]⟩
    rw [afterSuffixes?, if_pos rfl] at h
    split at h
    · next kind => exact marked (by rw [kind]; rfl) (by rw [kind]; rfl) h
    · next kind => exact marked (by rw [kind]; rfl) (by rw [kind]; rfl) h
    · next kind => exact marked (by rw [kind]; rfl) (by rw [kind]; rfl) h
    · next kind =>
      rw [afterSuffixes?_succ] at h
      obtain ⟨ls', group, marks⟩ := Option.bind_eq_some_iff.1 h
      obtain ⟨inner, split, behind⟩ := exists_of_afterGroup? group
      have shorter : ls'.length < (l :: ls).length := by
        rw [split, List.length_cons, List.length_append]
        omega
      obtain ⟨front, split', behind'⟩ := exists_of_afterSuffixes? marks
      refine ⟨l :: (inner ++ front), by rw [split, split', List.cons_append, List.append_assoc], ?_⟩
      rw [depthBehind?_opener _ _ (by rw [kind]; rfl), depthBehind?_append, behind, Option.bind_some, behind']
    · cases h
      exact ⟨[], rfl, rfl⟩
termination_by ls.length
decreasing_by
  · exact Nat.lt_succ_self _
  · exact shorter

/-- A type is a path, a name, generic arguments and marks. -/
theorem exists_parts_of_afterType? {ls rest : List Lexeme} (h : afterType? ls = some rest) :
    ∃ head ls' mid, afterPath ls = head :: ls' ∧ isTypeHead head = true ∧ afterArguments? head ls' = some mid ∧
      afterSuffixes? 0 mid = some rest := by
  rw [afterType?] at h
  cases name : afterPath ls with
  | nil =>
    rw [name] at h
    cases h
  | cons head ls' =>
    rw [name] at h
    dsimp only at h
    split at h
    next isHead =>
      obtain ⟨mid, arguments, marks⟩ := Option.bind_eq_some_iff.1 h
      exact ⟨head, ls', mid, rfl, isHead, arguments, marks⟩
    next => cases h

/-- A type ends at the depth at which it begins, and so does what stands behind its name. -/
theorem exists_of_afterType? {ls rest : List Lexeme} (h : afterType? ls = some rest) :
    ∃ path head behind mid, ls = (path ++ [head] ++ behind) ++ rest ∧ afterPath ls = head :: (behind ++ rest) ∧
      isTypeHead head = true ∧ afterArguments? head (behind ++ rest) = some mid ∧ rest.length ≤ mid.length ∧
      afterSuffixes? 0 mid = some rest ∧ depthBehind? 0 (path ++ [head]) = some 0 ∧ depthBehind? 0 behind = some 0 := by
  obtain ⟨head, ls', mid, name, isHead, arguments, marks⟩ := exists_parts_of_afterType? h
  obtain ⟨path, whole, depth⟩ := exists_of_afterPath ls
  obtain ⟨inner, rfl, depth'⟩ := exists_of_afterArguments? arguments
  obtain ⟨suffix, rfl, depth''⟩ := exists_of_afterSuffixes? marks
  obtain ⟨noOpener, noCloser⟩ := isBracket_of_isTypeHead isHead
  rw [name] at whole
  refine ⟨path, head, inner ++ suffix, suffix ++ rest, by rw [whole]; simp, by rw [name, List.append_assoc], isHead,
    by rwa [List.append_assoc], by simp, marks, ?_, ?_⟩
  · rw [depthBehind?_append, depth, Option.bind_some, depthBehind?_plain _ _ noOpener noCloser, depthBehind?]
  · rw [depthBehind?_append, depth', Option.bind_some, depth'']

theorem exists_front_of_afterType? {ls rest : List Lexeme} (h : afterType? ls = some rest) :
    ∃ front, ls = front ++ rest ∧ depthBehind? 0 front = some 0 ∧ front ≠ [] := by
  obtain ⟨path, head, behind, -, split, -, -, -, -, -, depth, depth'⟩ := exists_of_afterType? h
  exact ⟨_, split, by rw [depthBehind?_append, depth, Option.bind_some, depth'], by simp⟩

/-- Inside of a bracket group a type ends in front of the bracket that closes the group, and its brackets are
nested. -/
theorem exists_of_afterType?_inside {inner ls rest : List Lexeme} {closer : Lexeme} (nested : Nested inner)
    (closes : closer.kind.isCloser = true) (h : afterType? (inner ++ closer :: ls) = some rest) :
    ∃ front inner', inner = front ++ inner' ∧ rest = inner' ++ closer :: ls ∧ Nested front ∧ Nested inner' ∧
      front ≠ [] := by
  obtain ⟨front, split, depth, more⟩ := exists_front_of_afterType? h
  obtain ⟨kinds, whole⟩ := nested_iff.1 nested
  obtain ⟨beyond, rfl, behind⟩ | ⟨inner', rfl, rfl⟩ := List.append_eq_append_iff.1 split
  · cases beyond with
    | nil =>
      rw [List.append_nil] at more
      rw [List.nil_append] at behind
      exact ⟨inner, [], (List.append_nil inner).symm, behind.symm, nested, .nil, more⟩
    | cons l beyond =>
      -- A type that went on behind the bracket would have closed it at the outermost level.
      rw [← (List.cons.inj behind).1, nested.depthBehind?, depthBehind?_zero _ closes] at depth
      cases depth
  · have first := nested_iff.2 ⟨closesInKind_of_append kinds, depth⟩
    exact ⟨front, inner', rfl, rfl, first, nested_iff.2 (first.of_append kinds whole), more⟩

theorem headKind?_ne_of_headIs {p : TokenKind → Bool} {ls : List Lexeme} (h : headIs p ls = true) {kind : TokenKind}
    (other : p kind = false) : headKind? ls ≠ some kind := by
  intro here
  rw [headIs, here] at h
  exact Bool.false_ne_true (other.symm.trans h)

/-- Number of tokens of the type that the tokens begin with, if they look like a type at all. -/
def typeLength? (ls : List Lexeme) : Option Nat :=
  (afterType? ls).map fun rest => ls.length - rest.length

theorem exists_of_typeLength? {ls : List Lexeme} {n : Nat} (h : typeLength? ls = some n) :
    afterType? ls = some (ls.drop n) ∧ depthBehind? 0 (ls.take n) = some 0 ∧ n ≤ ls.length := by
  obtain ⟨rest, found, rfl⟩ := Option.map_eq_some_iff.1 h
  obtain ⟨front, rfl, depth, -⟩ := exists_front_of_afterType? found
  have length : (front ++ rest).length - rest.length = front.length := by
    rw [List.length_append, Nat.add_sub_cancel]
  rw [length, List.drop_left, List.take_left]
  exact ⟨found, depth, by simp⟩

/-- The kinds of tokens behind a type that is declared or is a generic argument: the names of variables, the
comma, and the brackets that close generic arguments. -/
def endsType (kind : TokenKind) : Bool :=
  kind.isVariableName || kind == .comma || kind == .rightGeneric || kind == .rightBrace

end Lookahead

/-! ## What an action passes -/

namespace Grammar

/-- In front of the tokens `ls` the action answers `a` and notes no error, and `rest` are to come behind it. -/
structure Passes {α : Type} (m : Grammar α) (a : α) (ls rest : List Lexeme) : Prop where
  run : ∀ r : Reader, r.ahead = ls → m.answer r = a ∧ (m.after r).ahead = rest ∧ (m.after r).errors = r.errors

namespace Passes

variable {α β : Type} {m : Grammar α} {k : α → Grammar β} {a : α} {b : β} {l : Lexeme}
  {ls mid rest : List Lexeme}

protected theorem pure (a : α) (ls : List Lexeme) : Passes (pure a : Grammar α) a ls ls :=
  ⟨fun _ ahead => ⟨rfl, ahead, rfl⟩⟩

protected theorem bind (h : Passes m a ls mid) (hk : Passes (k a) b mid rest) : Passes (m >>= k) b ls rest where
  run r ahead := by
    obtain ⟨answer, there, errors⟩ := h.run r ahead
    obtain ⟨answer', there', errors'⟩ := hk.run _ there
    have runs : (m >>= k).run r = (k (m.answer r)).run (m.after r) := rfl
    rw [answer] at runs
    rw [Grammar.answer, Grammar.after, runs]
    exact ⟨answer', there', errors'.trans errors⟩

/-- What is seen ahead decides how to go on. -/
theorem look {f : List Token → α} (hm : Sees m f) (seen : f (ls.map Lexeme.token) = a)
    (hk : Passes (k a) b ls rest) : Passes (m >>= k) b ls rest where
  run r ahead := by
    have tokens : r.tokens = ls.map Lexeme.token := congrArg (List.map Lexeme.token) ahead
    have runs : (m >>= k).run r = (k a).run r := calc
      (m >>= k).run r
      _ = (k (m.run r).1).run (m.run r).2 := rfl
      _ = _ := by rw [hm r, tokens, seen]
    rw [Grammar.answer, Grammar.after, runs]
    exact hk.run r ahead

/-- The kind of the next token decides how to go on. -/
theorem current {kind : TokenKind} {k : Option TokenKind → Grammar β} (same : l.kind = kind)
    (hk : Passes (k (some kind)) b (l :: ls) rest) : Passes (current >>= k) b (l :: ls) rest :=
  look sees_current (congrArg some same) hk

theorem lookAhead {k : List Lexeme → Grammar β} (hk : Passes (k ls) b ls rest) : Passes (ahead >>= k) b ls rest :=
  ⟨fun r there => by
    subst there
    exact hk.run r rfl⟩

theorem bump (l : Lexeme) (ls : List Lexeme) : Passes bump () (l :: ls) ls where
  run r ahead := by
    have runs : Grammar.bump.after r = _ := Reader.bump_of_cons ahead
    rw [runs, Reader.flush_eq]
    exact ⟨rfl, rfl, rfl⟩

theorem expect {kind : TokenKind} (here : l.kind = kind) (cause : SyntaxError.Cause) (ls : List Lexeme) :
    Passes (expect kind cause) () (l :: ls) ls :=
  .look (a := true) (sees_looksAt kind) (beq_iff_eq.2 (congrArg some here)) (bump l ls)

theorem node (kind : NodeKind) {body : Grammar Unit} (h : Passes body () ls rest) :
    Passes (node kind body) () ls rest where
  run r ahead := by
    obtain ⟨-, there, errors⟩ := h.run (r.flush.start kind) (r.flush_ahead.trans ahead)
    have flushed : (r.flush.start kind).errors = r.errors := by
      rw [Reader.flush_eq]
      rfl
    exact ⟨rfl, there, errors.trans flushed⟩

/-- An action that goes on to fewer tokens has moved. -/
theorem moved {body : Grammar Unit} [reads : Reads body] (h : Passes body () ls rest)
    (fewer : rest.length < ls.length) : Passes (do
      let before ← cursor
      body
      return (← cursor) != before) true ls rest where
  run r ahead := by
    obtain ⟨-, there, errors⟩ := h.run r ahead
    have sum := (reads.run r).cursor_add_length
    rw [there, ahead] at sum
    have moved : (body.after r).cursor ≠ r.cursor := by omega
    exact ⟨bne_iff_ne.2 moved, there, errors⟩

/-! ### Repetition -/

section

variable {step : α → Grammar (Option α)} [∀ a, Reads (step a)] (productive : Productive step) {next : α}
include productive

theorem loopFrom_next (h : Passes (step a) (some next) ls mid) (hk : Passes (loopFrom step next) () mid rest) :
    Passes (loopFrom step a) () ls rest where
  run r ahead := by
    obtain ⟨answer, there, errors⟩ := h.run r ahead
    obtain ⟨-, there', errors'⟩ := hk.run _ there
    have runs := productive.run_loopFrom a r
    rw [answer] at runs
    rw [Grammar.after, runs]
    exact ⟨rfl, there', errors'.trans errors⟩

theorem loopFrom_stop (h : Passes (step a) none ls rest) : Passes (loopFrom step a) () ls rest where
  run r ahead := by
    obtain ⟨answer, there, errors⟩ := h.run r ahead
    have runs := productive.run_loopFrom a r
    rw [answer] at runs
    rw [Grammar.after, runs]
    exact ⟨rfl, there, errors⟩

end

section

variable {step : Grammar Bool} [Reads step] [steps : Steps step]

omit [Reads step] steps in
theorem plain {go : Bool} (h : Passes step go ls rest) :
    Passes (plain step ()) (if go then some () else none) ls rest := by
  show Passes (step >>= fun go => pure (if go then some () else none)) _ ls rest
  exact h.bind (.pure _ rest)

theorem loop_next (h : Passes step true ls mid) (hk : Passes (loop step) () mid rest) :
    Passes (loop step) () ls rest :=
  loopFrom_next steps.productive h.plain hk

theorem loop_stop (h : Passes step false ls rest) : Passes (loop step) () ls rest :=
  loopFrom_stop steps.productive h.plain

end

end Passes

/-! ## Groups, paths and marks -/

/-- A bracket group is passed as looking ahead passes it. -/
theorem passes_group {depth : Nat} {ls rest : List Lexeme} (h : Lookahead.afterGroup? depth ls = some rest) :
    Passes (loopFrom groupStep depth) () ls rest := by
  induction ls generalizing depth with
  | nil => cases h
  | cons l ls ih =>
    have step : Passes (groupStep depth)
        (if Lookahead.deeper depth l.kind = 0 then none else some (Lookahead.deeper depth l.kind)) (l :: ls) ls :=
      .look sees_current rfl (.bind (.bump l ls) (.pure _ ls))
    rw [Lookahead.afterGroup?] at h
    by_cases outermost : Lookahead.deeper depth l.kind = 0
    · rw [if_pos outermost] at h step
      cases h
      exact .loopFrom_stop productive_groupStep step
    · rw [if_neg outermost] at h step
      exact .loopFrom_next productive_groupStep step (ih h)

theorem passes_bumpGroup {opener closer : Lexeme} (pair : opener.kind.closing? = some closer.kind)
    {inner : List Lexeme} (nested : Lookahead.Nested inner) (ls : List Lexeme) :
    Passes bumpGroup () (opener :: (inner ++ closer :: ls)) ls :=
  passes_group (Lookahead.afterGroup?_group pair nested ls)

/-- A path is passed as looking ahead passes it. -/
theorem passes_qualifier (ls : List Lexeme) : Passes qualifier () ls (Lookahead.afterPath ls) := by
  have stops {ls : List Lexeme}
      (noPath : ((ls.map Lexeme.token).head?.map Token.kind == some TokenKind.ident &&
        (ls.map Lexeme.token)[1]?.map Token.kind == some TokenKind.colonColon) = false) :
      Passes qualifier () ls ls := by
    refine .loop_stop (.look (sees_looksAt _) rfl (.look (sees_looksAtNth _ _) rfl ?_))
    rw [noPath]
    exact .pure false ls
  fun_induction Lookahead.afterPath ls with
  | case1 a b ls path ih =>
    have ident : a.token.kind = .ident := path.1
    have colons : b.token.kind = .colonColon := path.2
    have step : Passes qualifierStep true (a :: b :: ls) ls := by
      refine .look (sees_looksAt _) rfl (.look (sees_looksAtNth _ _) rfl ?_)
      rw [if_pos (by simp [ident, colons])]
      exact .bind (.bump a (b :: ls)) (.bind (.bump b ls) (.pure true ls))
    exact .loop_next step ih
  | case2 a b ls noPath =>
    refine stops ?_
    have apart : a.token.kind = .ident → b.token.kind ≠ .colonColon := fun ident colons => noPath ⟨ident, colons⟩
    simpa using apart
  | case3 ls short =>
    refine stops ?_
    cases ls with
    | nil => rfl
    | cons a ls =>
      cases ls with
      | nil => exact Bool.and_false _
      | cons b ls => exact absurd rfl (short a b ls)

/-- The marks behind a type are passed as looking ahead passes them. -/
theorem passes_suffixes {ls rest : List Lexeme} (h : Lookahead.afterSuffixes? 0 ls = some rest) :
    Passes suffixes () ls rest := by
  match ls with
  | [] =>
    cases h
    exact .loop_stop (.look sees_current rfl (.pure false []))
  | l :: ls =>
    rw [Lookahead.afterSuffixes?, if_pos rfl] at h
    split at h
    · next kind =>
      exact .loop_next (.current kind (.bind (.bump l ls) (.pure true ls)))
        (passes_suffixes h)
    · next kind =>
      exact .loop_next (.current kind (.bind (.bump l ls) (.pure true ls)))
        (passes_suffixes h)
    · next kind =>
      exact .loop_next (.current kind (.bind (.bump l ls) (.pure true ls)))
        (passes_suffixes h)
    · next kind =>
      rw [Lookahead.afterSuffixes?_succ] at h
      obtain ⟨ls', group, marks⟩ := Option.bind_eq_some_iff.1 h
      have opens : l.kind.isOpener = true := by rw [kind]; rfl
      obtain ⟨inner, split, -⟩ := Lookahead.exists_of_afterGroup? group
      have shorter : ls'.length < (l :: ls).length := by
        rw [split, List.length_cons, List.length_append]
        omega
      have array : Passes (node .arraySuffix bumpGroup) () (l :: ls) ls' :=
        .node _ (passes_group ((Lookahead.afterGroup?_opener opens ls).trans group))
      exact .loop_next (.current kind (array.bind (.pure true ls')))
        (passes_suffixes marks)
    · next star question bang bracket =>
      cases h
      refine .loop_stop (.current rfl ?_)
      split
      · next same => exact absurd (Option.some.inj same) star
      · next same => exact absurd (Option.some.inj same) question
      · next same => exact absurd (Option.some.inj same) bang
      · next same => exact absurd (Option.some.inj same) bracket
      · exact .pure false _
termination_by ls.length
decreasing_by
  · exact Nat.lt_succ_self _
  · exact Nat.lt_succ_self _
  · exact Nat.lt_succ_self _
  · exact shorter

/-! ## Generic arguments -/

section

variable {closer : Lexeme} (closes : closer.kind.isCloser = true)
include closes

/-- One step of reading up to a comma or the closing bracket goes on behind anything else. -/
theorem passes_untilStep {l : Lexeme} {ls rest : List Lexeme} (noComma : l.kind ≠ .comma)
    (other : l.kind.isCloser = false) (whole : Passes (bumpWhole l.kind) () (l :: ls) rest) :
    Passes (untilStep [.comma, closer.kind]) true (l :: ls) rest := by
  have apart : l.kind ≠ closer.kind := fun same => by
    rw [same, closes] at other
    cases other
  refine .current rfl ?_
  dsimp only
  rw [if_neg (by simp [noComma, apart, other])]
  exact whole.bind (.pure true rest)

/-- Inside of a bracket group, reading up to a comma or a closing bracket does not leave the group. -/
theorem exists_bumpUntil {inner : List Lexeme} (nested : Lookahead.Nested inner) (ls : List Lexeme) :
    ∃ inner', Lookahead.Nested inner' ∧ inner'.length ≤ inner.length ∧
      (∀ l tail, inner = l :: tail → l.kind ≠ .comma → inner'.length ≤ tail.length) ∧
      Passes (bumpUntil [.comma, closer.kind]) () (inner ++ closer :: ls) (inner' ++ closer :: ls) := by
  induction nested with
  | nil =>
    refine ⟨[], .nil, Nat.le_refl _, nofun, .loop_stop (.current rfl ?_)⟩
    dsimp only
    rw [if_pos (by simp [closes])]
    exact .pure false _
  | @plain l tail noOpener noCloser nested ih =>
    by_cases comma : l.kind = .comma
    · refine ⟨l :: tail, .plain noOpener noCloser nested, Nat.le_refl _, ?_,
        .loop_stop (.current comma (.pure false _))⟩
      rintro _ _ ⟨rfl, rfl⟩ other
      exact absurd comma other
    · obtain ⟨inner', nested', le, -, passes⟩ := ih
      have whole : Passes (bumpWhole l.kind) () (l :: (tail ++ closer :: ls)) (tail ++ closer :: ls) := by
        rw [bumpWhole, noOpener]
        exact .bump l _
      refine ⟨inner', nested', Nat.le_succ_of_le le, ?_,
        .loop_next (passes_untilStep closes comma noCloser whole) passes⟩
      rintro _ _ ⟨rfl, rfl⟩ -
      exact le
  | @group opener closer' inside tail pair nested nestedTail _ ih =>
    obtain ⟨opens, -⟩ := TokenKind.brackets_of_closing? pair
    obtain ⟨inner', nested', le, -, passes⟩ := ih
    have noComma : opener.kind ≠ .comma := fun same => by
      rw [same] at opens
      cases opens
    have noCloser := TokenKind.isCloser_of_isOpener opens
    have whole : Passes (bumpWhole opener.kind) () (opener :: ((inside ++ closer' :: tail) ++ closer :: ls))
        (tail ++ closer :: ls) := by
      rw [bumpWhole, if_pos opens, List.append_assoc, List.cons_append]
      exact passes_bumpGroup pair nested _
    have fewer : inner'.length ≤ (inside ++ closer' :: tail).length := by
      rw [List.length_append, List.length_cons]
      omega
    refine ⟨inner', nested', Nat.le_succ_of_le fewer, ?_,
      .loop_next (passes_untilStep closes noComma noCloser whole) passes⟩
    rintro _ _ ⟨rfl, rfl⟩ -
    exact fewer

/-- Types of at most `n` tokens are read where they are found by looking ahead. -/
def PassesTypes (n : Nat) : Prop :=
  ∀ front rest, front.length ≤ n → Lookahead.Nested front → Lookahead.afterType? (front ++ rest) = some rest →
    Lookahead.headKind? rest ≠ some .leftParen → Passes (type true) () (front ++ rest) rest

/-- A type that is found inside of a bracket group is read, and does not leave the group. -/
theorem exists_typeArgument {inner ls rest : List Lexeme} (types : PassesTypes inner.length)
    (nested : Lookahead.Nested inner) (found : Lookahead.afterType? (inner ++ closer :: ls) = some rest)
    (ends : Lookahead.headIs (fun kind => kind == .comma || kind == closer.kind) rest = true) :
    ∃ inner', Lookahead.Nested inner' ∧ inner'.length < inner.length ∧
      Passes (type true) () (inner ++ closer :: ls) (inner' ++ closer :: ls) := by
  obtain ⟨front, inner', rfl, rfl, nestedFront, nested', more⟩ :=
    Lookahead.exists_of_afterType?_inside nested closes found
  have noParen : Lookahead.headKind? (inner' ++ closer :: ls) ≠ some .leftParen := by
    refine Lookahead.headKind?_ne_of_headIs ends (Bool.or_eq_false_iff.2 ⟨rfl, beq_eq_false_iff_ne.2 fun same => ?_⟩)
    rw [← same] at closes
    cases closes
  have positive := List.length_pos_iff.2 more
  rw [List.length_append] at types ⊢
  rw [List.append_assoc] at found ⊢
  exact ⟨inner', nested', by omega, types front _ (Nat.le_add_right _ _) nestedFront found noParen⟩

/-- An argument does not leave the bracket group, whatever it is. -/
theorem exists_argument {l : Lexeme} {tail : List Lexeme} (types : PassesTypes (l :: tail).length)
    (nested : Lookahead.Nested (l :: tail)) (ls : List Lexeme) :
    ∃ inner', Lookahead.Nested inner' ∧ inner'.length ≤ tail.length ∧
      Passes (argumentWith type closer.kind) () (l :: tail ++ closer :: ls) (inner' ++ closer :: ls) := by
  by_cases comma : l.kind = .comma
  · have nestedTail := nested.tail (by rw [comma]; rfl)
    exact ⟨tail, nestedTail, Nat.le_refl _,
      .look (a := true) (sees_looksAt _) (beq_iff_eq.2 (congrArg some comma)) (.bump l _)⟩
  · have noComma : ((l.token.kind == TokenKind.comma) : Bool) = false := beq_eq_false_iff_ne.2 comma
    by_cases isType : ((Lookahead.afterType? (l :: tail ++ closer :: ls)).map (Lookahead.headIs fun kind =>
        kind == .comma || kind == closer.kind)).getD false = true
    · obtain ⟨rest, found, ends⟩ : ∃ rest, Lookahead.afterType? (l :: tail ++ closer :: ls) = some rest ∧
          Lookahead.headIs (fun kind => kind == .comma || kind == closer.kind) rest = true := by
        cases found : Lookahead.afterType? (l :: tail ++ closer :: ls) with
        | none =>
          rw [found] at isType
          cases isType
        | some rest =>
          rw [found] at isType
          exact ⟨rest, rfl, isType⟩
      obtain ⟨inner', nested', fewer, passes⟩ := exists_typeArgument closes types nested found ends
      refine ⟨inner', nested', Nat.le_of_lt_succ fewer, .look (a := false) (sees_looksAt _) noComma (.lookAhead ?_)⟩
      dsimp only
      rw [if_pos isType]
      exact passes
    · obtain ⟨inner', nested', -, fewer, passes⟩ := exists_bumpUntil closes nested ls
      refine ⟨inner', nested', fewer l tail rfl comma, .look (a := false) (sees_looksAt _) noComma (.lookAhead ?_)⟩
      dsimp only
      rw [if_neg isType]
      exact passes

theorem exists_argumentStep {l : Lexeme} {tail : List Lexeme} (types : PassesTypes (l :: tail).length)
    (nested : Lookahead.Nested (l :: tail)) (ls : List Lexeme) :
    ∃ inner', Lookahead.Nested inner' ∧ inner'.length ≤ tail.length ∧
      Passes (argumentStep type closer.kind) true (l :: tail ++ closer :: ls) (inner' ++ closer :: ls) := by
  obtain ⟨inner', nested', fewer, passes⟩ := exists_argument closes types nested ls
  have other : ((l.token.kind == closer.kind) : Bool) = false := by
    refine beq_eq_false_iff_ne.2 fun same => ?_
    rw [← same] at closes
    exact Bool.false_ne_true (nested.noCloser.symm.trans closes)
  refine ⟨inner', nested', fewer, .look (a := false) sees_atEnd rfl (.look (a := false) (sees_looksAt _) other
    (.moved passes ?_))⟩
  simp only [List.length_append, List.length_cons]
  omega

/-- The arguments in a bracket group are read up to the bracket that closes it. -/
theorem passes_arguments {inner : List Lexeme} (types : PassesTypes inner.length)
    (nested : Lookahead.Nested inner) (ls : List Lexeme) :
    Passes (loop (argumentStep type closer.kind)) () (inner ++ closer :: ls) (closer :: ls) := by
  match inner with
  | [] =>
    exact .loop_stop (.look (a := false) sees_atEnd rfl (.look (a := true) (sees_looksAt _)
      (beq_self_eq_true _) (.pure false _)))
  | l :: tail =>
    obtain ⟨inner', nested', fewer, passes⟩ := exists_argumentStep closes types nested ls
    refine .loop_next passes (passes_arguments (fun front rest few => types front rest (few.trans ?_)) nested' ls)
    exact Nat.le_succ_of_le fewer
termination_by inner.length
decreasing_by exact Nat.lt_succ_of_le fewer

end

theorem passes_genericArguments {opener closer : Lexeme} (pair : opener.kind.closing? = some closer.kind)
    {inner : List Lexeme} (types : PassesTypes inner.length) (nested : Lookahead.Nested inner) (ls : List Lexeme) :
    Passes (genericArgumentsWith type closer.kind) () (opener :: (inner ++ closer :: ls)) ls := by
  obtain ⟨-, closes⟩ := TokenKind.brackets_of_closing? pair
  exact .node _ (.bind (.bump opener _) (.bind (passes_arguments closes types nested ls) (.expect rfl _ ls)))

section

variable {head : Lexeme}

theorem passes_noArguments {ls : List Lexeme} (noGeneric : Lookahead.headKind? ls ≠ some .leftGeneric)
    (noBrace : Lookahead.isUserType head = true → Lookahead.headKind? ls ≠ some .leftBrace) :
    Passes (typeArgumentsWith type (Lookahead.isUserType head)) () ls ls := by
  cases ls with
  | nil => exact .look sees_current rfl (.pure () [])
  | cons l ls =>
    refine .current rfl ?_
    split
    next generic => exact absurd generic noGeneric
    next brace =>
      rw [if_neg fun user => noBrace user brace]
      exact .pure () _
    next => exact .pure () _

theorem passes_someArguments {opener closer : Lexeme}
    (kind : opener.kind = .leftGeneric ∨ opener.kind = .leftBrace ∧ Lookahead.isUserType head = true)
    (pair : opener.kind.closing? = some closer.kind) {inner : List Lexeme} (types : PassesTypes inner.length)
    (nested : Lookahead.Nested inner) (ls : List Lexeme) :
    Passes (typeArgumentsWith type (Lookahead.isUserType head)) () (opener :: (inner ++ closer :: ls)) ls := by
  have passes := passes_genericArguments pair types nested ls
  rcases kind with generic | ⟨brace, user⟩
  · rw [generic] at pair
    rw [← Option.some.inj pair] at passes
    exact .current generic passes
  · rw [brace] at pair
    rw [← Option.some.inj pair] at passes
    refine .current brace ?_
    dsimp only
    rw [if_pos user]
    exact passes

/-- Behind the name of a type the generic arguments are passed as looking ahead passes them. -/
theorem passes_typeArguments {front rest mid : List Lexeme} (types : PassesTypes front.length)
    (nested : Lookahead.Nested front) (h : Lookahead.afterArguments? head (front ++ rest) = some mid)
    (more : rest.length ≤ mid.length) :
    Passes (typeArgumentsWith type (Lookahead.isUserType head)) () (front ++ rest) mid := by
  obtain ⟨rfl, noGeneric, noBrace⟩ | ⟨opener, ls, whole, group, opens, kind⟩ := Lookahead.afterArguments?_cases h
  · exact passes_noArguments noGeneric noBrace
  · cases front with
    | nil =>
      -- The group would be behind the type.
      rw [List.nil_append] at whole group
      rw [whole, Lookahead.afterGroup?_opener opens] at group
      obtain ⟨inner, split, -⟩ := Lookahead.exists_of_afterGroup? group
      rw [whole, split, List.length_cons, List.length_append] at more
      omega
    | cons first front =>
      obtain ⟨rfl, -⟩ := List.cons.inj whole
      obtain ⟨inner, closer, behind, rfl, pair, nestedInner⟩ := nested.exists_of_opener opens
      have few : inner.length ≤ (first :: (inner ++ closer :: behind)).length := by
        rw [List.length_cons, List.length_append]
        omega
      rw [List.cons_append, List.append_assoc, List.cons_append] at group ⊢
      rw [Lookahead.afterGroup?_group pair nestedInner] at group
      obtain rfl := Option.some.inj group
      exact passes_someArguments kind pair (fun front rest short => types front rest (short.trans few)) nestedInner _

end

/-! ## Types -/

/-- What can be the name of a type is placed where no parenthesis follows. -/
theorem passes_typeName {head : Lexeme} {ls : List Lexeme} (isHead : Lookahead.isTypeHead head = true)
    (noParen : Lookahead.headKind? ls ≠ some .leftParen) : Passes (typeNameWith type) () (head :: ls) ls := by
  refine .current rfl ?_
  rw [Lookahead.isTypeHead] at isHead
  split at isHead
  next kind =>
    rw [kind]
    exact .bump head ls
  next kind =>
    rw [kind]
    exact .bump head ls
  next kind =>
    have other : ((ls.map Lexeme.token).head?.map Token.kind == some TokenKind.leftParen) = false := by
      rw [List.head?_map, Option.map_map]
      exact beq_eq_false_iff_ne.2 noParen
    rw [kind]
    exact .bind (.bump head ls) (.look (a := false) (sees_looksAt _) other (.pure () ls))
  next => cases isHead

/-- Behind the name of a type stands no parenthesis if none stands behind the type. -/
theorem headKind?_behindName {head : Lexeme} {ls mid rest : List Lexeme}
    (arguments : Lookahead.afterArguments? head ls = some mid) (marks : Lookahead.afterSuffixes? 0 mid = some rest)
    (noParen : Lookahead.headKind? rest ≠ some .leftParen) : Lookahead.headKind? ls ≠ some .leftParen := by
  obtain ⟨rfl, -, -⟩ | ⟨opener, ls, rfl, -, -, kind⟩ := Lookahead.afterArguments?_cases arguments
  · cases mid with
    | nil => nofun
    | cons l ls =>
      intro paren
      have kind : l.kind = .leftParen := Option.some.inj paren
      rw [Lookahead.afterSuffixes?, if_pos rfl, kind] at marks
      cases marks
      exact noParen paren
  · intro paren
    have paren : opener.kind = .leftParen := Option.some.inj paren
    rw [paren] at kind
    rcases kind with kind | ⟨kind, -⟩ <;> cases kind

/-- Types are read where they are found by looking ahead, whatever their length. -/
theorem passesTypes (n : Nat) : PassesTypes n := by
  induction n using Nat.strong_induction_on with
  | h n ih =>
    intro front rest few nested found noParen
    obtain ⟨path, head, behind, mid, split, name, isHead, arguments, more, marks, depth, -⟩ :=
      Lookahead.exists_of_afterType? found
    obtain rfl := List.append_cancel_right split
    have ⟨kinds, whole⟩ := Lookahead.nested_iff.1 nested
    have nestedName := Lookahead.nested_iff.2 ⟨Lookahead.closesInKind_of_append kinds, depth⟩
    have nestedBehind := Lookahead.nested_iff.2 (nestedName.of_append kinds whole)
    have shorter : behind.length < n := by
      simp only [List.length_append, List.length_cons] at few
      omega
    rw [type_eq]
    refine .node .type (.bind (passes_qualifier _) ?_)
    rw [name]
    exact .lookAhead (.bind (passes_typeName isHead (headKind?_behindName arguments marks noParen))
      (.bind (passes_typeArguments (ih _ shorter) nestedBehind arguments more) (passes_suffixes marks)))

/-- Where looking ahead finds a type of `n` tokens, behind which stands what ends a type, and each closing
bracket among these tokens is of the kind of its opening bracket, exactly these tokens are read as a type, and
no error is noted. -/
theorem type_of_typeLength? {r : Reader} {n : Nat} (found : Lookahead.typeLength? r.ahead = some n)
    (ends : Lookahead.headIs Lookahead.endsType (r.ahead.drop n) = true)
    (kinds : Lookahead.closesInKind [] (r.ahead.take n) = true) :
    ((type true).after r).ahead = r.ahead.drop n ∧ ((type true).after r).cursor = r.cursor + n ∧
      ((type true).after r).errors = r.errors := by
  obtain ⟨found, depth, few⟩ := Lookahead.exists_of_typeLength? found
  have nested := Lookahead.nested_iff.2 ⟨kinds, depth⟩
  have noParen : Lookahead.headKind? (r.ahead.drop n) ≠ some .leftParen := Lookahead.headKind?_ne_of_headIs ends rfl
  have whole : r.ahead = r.ahead.take n ++ r.ahead.drop n := (List.take_append_drop n _).symm
  obtain ⟨-, ahead, errors⟩ :=
    (passesTypes n _ _ (List.length_take_le n _) nested (whole ▸ found) noParen).run r whole
  have sum := ((inferInstance : Reads (type true)).run r).cursor_add_length
  rw [ahead, List.length_drop] at sum
  exact ⟨ahead, by omega, errors⟩

/-- Arrays, an argument that is no type, and marks behind the arguments. -/
theorem type_of_typeLength?_list :
    let r := Reader.ofTokens (Token.ofString "List{int[2], a(1)}[4]* x")
    Lookahead.typeLength? r.ahead = some 16 ∧ ((type true).after r).cursor = 16 ∧
      (((type true).after r).ahead.map fun l => l.token.text) = ["x"] := by
  intro r
  have facts : Lookahead.typeLength? r.ahead = some 16 ∧
      Lookahead.headIs Lookahead.endsType (r.ahead.drop 16) = true ∧
      Lookahead.closesInKind [] (r.ahead.take 16) = true ∧
      ((r.ahead.drop 16).map fun l => l.token.text) = ["x"] := by decide +kernel
  obtain ⟨found, ends, kinds, rest⟩ := facts
  obtain ⟨ahead, cursor, -⟩ := type_of_typeLength? found ends kinds
  exact ⟨found, cursor, by rw [ahead, rest]⟩

end Grammar

end C3Lens
