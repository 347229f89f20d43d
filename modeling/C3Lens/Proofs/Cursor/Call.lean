import Mathlib.Algebra.GroupWithZero.Nat
import C3Lens.Cursor.Word

/-!
# Calls and their arguments

Going left from the cursor with a single counter stands in for a stack of brackets. The stack is
`openBrackets`: the brackets that are still open at the end of a text, each with the commas directly inside
it. Where the brackets are properly nested, the search comes to the innermost round bracket of the stack
(`beforeBracket_of_openBrackets`).

Result: the number of the argument is the number of commas directly inside that bracket and directly inside
the square brackets that are open behind it (`argument_eq_iff_of_openBrackets`). So it counts the arguments of
the call exactly if no comma stands directly inside one of these square brackets; in `f(a[1,` it does not
(`argument_in_open_index`).
-/

namespace C3Lens

/-- A bracket that is not closed. -/
structure OpenBracket where
  isSquare : Bool
  /-- What stands in front of it, last character first. -/
  front : List Char
  /-- Number of the commas that stand inside it and inside no further bracket. -/
  commas : Nat
deriving DecidableEq

/-- The brackets that are open behind the text `before` and one more character, when `opened` are open at the
end of the text. There are none where the character closes no bracket of its kind. -/
def openBracketsBehind (c : Char) (before : List Char) (opened : List OpenBracket) :
    Option (List OpenBracket) :=
  if c = '(' ∨ c = '[' then some (⟨c == '[', before, 0⟩ :: opened)
  else
    match opened with
    | [] => if c = ')' ∨ c = ']' then none else some []
    | b :: outer =>
      if c = ')' ∨ c = ']' then if b.isSquare = (c == ']') then some outer else none
      else if c = ',' then some ({ b with commas := b.commas + 1 } :: outer)
      else some (b :: outer)

/-- The brackets that are open at the end of a text, the innermost one first. The text is given last character
first, and what stands in front of the last end of a statement or block does not count. The brackets are not
properly nested where there is no answer. -/
def openBrackets : List Char → Option (List OpenBracket)
  | [] => some []
  | c :: before =>
    if c = ';' ∨ c = '\x7b' ∨ c = '\x7d' then some []
    else (openBrackets before).bind (openBracketsBehind c before)

/-- The innermost round bracket: what stands in front of it, and the number of commas directly inside it and
inside the square brackets behind it, when `commas` are counted already. -/
def innermostRound (commas : Nat) : List OpenBracket → Option (List Char × Nat)
  | [] => none
  | b :: outer =>
    if b.isSquare then innermostRound (commas + b.commas) outer else some (b.front, commas + b.commas)

/-- One more comma directly inside the innermost bracket counts for the innermost round one. -/
theorem innermostRound_comma (commas : Nat) (b : OpenBracket) (outer : List OpenBracket) :
    innermostRound commas ({ b with commas := b.commas + 1 } :: outer) =
      innermostRound (commas + 1) (b :: outer) := by
  have sum : commas + (b.commas + 1) = commas + 1 + b.commas := by omega
  rw [innermostRound, innermostRound, sum]

theorem innermostRound_eq_some {commas total : Nat} {opened : List OpenBracket} {front : List Char}
    (h : innermostRound commas opened = some (front, total)) :
    ∃ squares round outer, opened = squares ++ round :: outer ∧ (∀ b ∈ squares, b.isSquare = true) ∧
      round.isSquare = false ∧ round.front = front ∧
      total = commas + (round.commas + (squares.map OpenBracket.commas).sum) := by
  induction opened generalizing commas with
  | nil => cases h
  | cons b opened ih =>
    rw [innermostRound] at h
    by_cases square : b.isSquare = true
    · rw [if_pos square] at h
      obtain ⟨squares, round, outer, rfl, all, isRound, here, sum⟩ := ih h
      refine ⟨b :: squares, round, outer, rfl, List.forall_mem_cons.2 ⟨square, all⟩, isRound, here, ?_⟩
      rw [sum, List.map_cons, List.sum_cons]
      omega
    · rw [if_neg square] at h
      cases h
      exact ⟨[], b, opened, rfl, List.forall_mem_nil _, Bool.eq_false_iff.2 square, rfl, by simp⟩

namespace CallSite

/-- One step of the search: if the text `before` is searched as its open brackets tell, so is the text with one
more character. -/
theorem beforeBracket_cons {c : Char} {before : List Char} {within opened : List OpenBracket}
    (ends : ¬(c = ';' ∨ c = '\x7b' ∨ c = '\x7d')) (behind : openBracketsBehind c before within = some opened)
    (searched : ∀ {depth : Nat} (commas : Nat), depth ≤ within.length →
      beforeBracket depth commas before = innermostRound commas (within.drop depth))
    {depth : Nat} (commas : Nat) (le : depth ≤ opened.length) :
    beforeBracket depth commas (c :: before) = innermostRound commas (opened.drop depth) := by
  unfold openBracketsBehind at behind
  rw [beforeBracket]
  by_cases opening : c = '(' ∨ c = '['
  · have closing : ¬(c = ')' ∨ c = ']') := by
      rcases opening with rfl | rfl <;> decide
    rw [if_pos opening] at behind
    cases behind
    rw [if_neg closing]
    cases depth with
    | zero =>
      -- The bracket is not closed behind the text: a round one is found, a square one is left.
      rcases opening with rfl | rfl
      · rfl
      · exact searched commas (Nat.zero_le _)
    | succ depth =>
      rw [List.drop_succ_cons, ← searched commas (Nat.le_of_succ_le_succ le)]
      rcases opening with rfl | rfl <;> rfl
  rw [if_neg opening] at behind
  rw [not_or] at opening
  by_cases closing : c = ')' ∨ c = ']'
  · rw [if_pos closing]
    cases within with
    | nil =>
      rw [if_pos closing] at behind
      cases behind
    | cons b outer =>
      dsimp only at behind
      rw [if_pos closing, Option.ite_none_right_eq_some] at behind
      cases behind.2
      exact searched commas (Nat.succ_le_succ le)
  rw [if_neg closing, if_neg opening.2, if_neg opening.1, if_neg ends]
  cases within with
  | nil =>
    rw [if_neg closing] at behind
    cases behind
    rw [searched _ le, searched _ le, List.drop_nil]
    exact ite_self _
  | cons b outer =>
    dsimp only at behind
    rw [if_neg closing] at behind
    by_cases comma : c = ','
    · rw [if_pos comma] at behind
      cases behind
      rw [if_pos comma, searched _ le]
      cases depth with
      | zero => exact (innermostRound_comma commas b outer).symm
      | succ depth => rfl
    · rw [if_neg comma] at behind
      cases behind
      rw [if_neg comma, searched _ le]

/-- The counter in place of the stack: what is closed behind the text are the `depth` innermost brackets that
are open at its end, and of the others the innermost round one is found. -/
theorem beforeBracket_of_openBrackets {before : List Char} {opened : List OpenBracket}
    (nested : openBrackets before = some opened) {depth : Nat} (commas : Nat) (le : depth ≤ opened.length) :
    beforeBracket depth commas before = innermostRound commas (opened.drop depth) := by
  induction before generalizing opened depth commas with
  | nil =>
    cases nested
    rw [List.drop_nil]
    rfl
  | cons c before ih =>
    rw [openBrackets] at nested
    by_cases ends : c = ';' ∨ c = '\x7b' ∨ c = '\x7d'
    · rw [if_pos ends] at nested
      cases nested
      rw [List.drop_nil]
      rcases ends with rfl | rfl | rfl <;> rfl
    · rw [if_neg ends, Option.bind_eq_some_iff] at nested
      obtain ⟨within, inner, behind⟩ := nested
      exact beforeBracket_cons ends behind (fun commas le => ih inner commas le) commas le

/-- The text of a document in front of a position, last character first. -/
def textBefore (d : Document) (p : Position) : List Char :=
  (takeWithin Char.utf8Size (d.offset p) d.text.toList).reverse

variable {d : Document} {p : Position} {site : CallSite}

/-- A call is found in front of a bracket, and the commas that were counted on the way are its argument. -/
theorem exists_beforeBracket (found : ofPosition? d p = some site) :
    ∃ front, beforeBracket 0 0 (textBefore d p) = some (front, site.argument) ∧
      site.callee = d.position (utf8Length (front.dropWhile isGap)) := by
  simp only [ofPosition?, Option.bind_eq_bind, Option.bind_eq_some_iff] at found
  obtain ⟨⟨front, commas⟩, bracket, found⟩ := found
  refine ⟨front, ?_⟩
  rw [textBefore, bracket]
  split at found
  · cases found
  · cases found
    exact ⟨rfl, rfl⟩

/-- In a text with properly nested brackets, some of which may still be open, the call is the one of the
innermost open round bracket. Its argument is the number of commas directly inside this bracket and directly
inside the square brackets that are open behind it, so it is that of the bracket's own commas exactly if no
comma stands directly inside such a square bracket. -/
theorem argument_eq_iff_of_openBrackets {opened : List OpenBracket}
    (nested : openBrackets (textBefore d p) = some opened) (found : ofPosition? d p = some site) :
    ∃ squares round outer, opened = squares ++ round :: outer ∧ (∀ b ∈ squares, b.isSquare = true) ∧
      round.isSquare = false ∧ site.callee = d.position (utf8Length (round.front.dropWhile isGap)) ∧
      site.argument = round.commas + (squares.map OpenBracket.commas).sum ∧
      (site.argument = round.commas ↔ ∀ b ∈ squares, b.commas = 0) := by
  obtain ⟨front, bracket, callee⟩ := exists_beforeBracket found
  rw [beforeBracket_of_openBrackets nested 0 (Nat.zero_le _), List.drop_zero] at bracket
  obtain ⟨squares, round, outer, stack, all, isRound, rfl, argument⟩ := innermostRound_eq_some bracket
  rw [Nat.zero_add] at argument
  refine ⟨squares, round, outer, stack, all, isRound, callee, argument, ?_⟩
  rw [argument, Nat.add_eq_left, List.sum_eq_zero_iff_forall_eq_nat, List.forall_mem_map]

/-- A call with groups inside, at the end of an index. -/
def indexedCall : Document :=
  .ofText ⟨"a.c3"⟩ "f(a[1,2],g(3,4),h[5" 0

theorem argument_of_indexedCall :
    openBrackets (textBefore indexedCall ⟨0, 19⟩) =
        some [⟨true, "f(a[1,2],g(3,4),h".toList.reverse, 0⟩, ⟨false, ['f'], 2⟩] ∧
      ofPosition? indexedCall ⟨0, 19⟩ = some ⟨⟨0, 1⟩, 2, false⟩ ∧
      ∃ squares round outer,
        [⟨true, "f(a[1,2],g(3,4),h".toList.reverse, 0⟩, ⟨false, ['f'], 2⟩] = squares ++ round :: outer ∧
        (∀ b ∈ squares, b.isSquare = true) ∧ round.isSquare = false ∧
        ⟨0, 1⟩ = indexedCall.position (utf8Length (round.front.dropWhile isGap)) ∧
        2 = round.commas + (squares.map OpenBracket.commas).sum ∧
        (2 = round.commas ↔ ∀ b ∈ squares, b.commas = 0) := by
  have nested : openBrackets (textBefore indexedCall ⟨0, 19⟩) =
      some [⟨true, "f(a[1,2],g(3,4),h".toList.reverse, 0⟩, ⟨false, ['f'], 2⟩] := by decide
  have found : ofPosition? indexedCall ⟨0, 19⟩ = some ⟨⟨0, 1⟩, 2, false⟩ := by decide
  exact ⟨nested, found, argument_eq_iff_of_openBrackets nested found⟩

/-- Behind `f(a[1,` the round bracket has no comma directly inside it, and yet the argument is the second
one. -/
theorem argument_in_open_index :
    openBrackets (textBefore (.ofText ⟨"a.c3"⟩ "f(a[1," 0) ⟨0, 6⟩) =
        some [⟨true, ['a', '(', 'f'], 1⟩, ⟨false, ['f'], 0⟩] ∧
      ofPosition? (.ofText ⟨"a.c3"⟩ "f(a[1," 0) ⟨0, 6⟩ = some ⟨⟨0, 1⟩, 1, false⟩ := by
  decide

end CallSite

end C3Lens
