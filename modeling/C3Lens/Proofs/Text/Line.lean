import Mathlib.Data.List.Infix
import C3Lens.Text.Line

/-!
# Positions and the text in front of them

The byte offset of a position is the length of the text in front of it (`LineTable.offset_ofChars`),
which is a beginning of the whole text and grows with the position (`Position.before_prefix`,
`Position.before_mono`). The position of the end of a beginning has this beginning in front
(`LineTable.before_position`), so offsets between characters are kept on the way to positions and back.
No number of a position exceeds the number of bytes of the text (`LineTable.position_le`).
-/

namespace C3Lens

theorem utf8Length_cons (c : Char) (cs : List Char) : utf8Length (c :: cs) = c.utf8Size + utf8Length cs :=
  rfl

theorem utf8Length_append (cs ds : List Char) : utf8Length (cs ++ ds) = utf8Length cs + utf8Length ds := by
  induction cs with
  | nil => exact (Nat.zero_add _).symm
  | cons c cs ih => rw [List.cons_append, utf8Length_cons, utf8Length_cons, ih, Nat.add_assoc]

theorem utf8Length_mono {cs ds : List Char} (h : cs <+: ds) : utf8Length cs ≤ utf8Length ds := by
  obtain ⟨rest, rfl⟩ := h
  rw [utf8Length_append]
  exact Nat.le_add_right _ _

theorem utf16Size_pos (c : Char) : 0 < utf16Size c := by
  rw [utf16Size]
  split <;> decide

/-- Two units of UTF-16 take four bytes, one takes one to three. -/
theorem utf16Size_le_utf8Size (c : Char) : utf16Size c ≤ c.utf8Size := by
  rw [utf16Size]
  split
  · exact c.utf8Size_pos
  next large =>
    rw [Char.utf8Size]
    split
    next ascii =>
      have small : c.toNat ≤ 127 := UInt32.le_iff_toNat_le.1 ascii
      omega
    next =>
      split
      · exact Nat.le_refl 2
      · split <;> decide

theorem length_le_utf16Length (cs : List Char) : cs.length ≤ utf16Length cs := by
  induction cs with
  | nil => exact Nat.le_refl 0
  | cons c cs ih =>
    have size : utf16Length (c :: cs) = utf16Size c + utf16Length cs := rfl
    have pos := utf16Size_pos c
    rw [List.length_cons, size]
    omega

theorem utf16Length_le_utf8Length (cs : List Char) : utf16Length cs ≤ utf8Length cs := by
  induction cs with
  | nil => exact Nat.le_refl 0
  | cons c cs ih => exact Nat.add_le_add (utf16Size_le_utf8Size c) ih

section Within

variable {size : Char → Nat}

theorem takeWithin_zero (pos : ∀ c, 0 < size c) (cs : List Char) : takeWithin size 0 cs = [] := by
  cases cs with
  | nil => rfl
  | cons c cs => rw [takeWithin, if_neg (Nat.not_le_of_gt (pos c))]

theorem dropWithin_zero (pos : ∀ c, 0 < size c) (cs : List Char) : dropWithin size 0 cs = cs := by
  cases cs with
  | nil => rfl
  | cons c cs => rw [dropWithin, if_neg (Nat.not_le_of_gt (pos c))]

/-- The bytes of a beginning leave room for nothing more. -/
theorem takeWithin_utf8Length (front behind : List Char) :
    takeWithin Char.utf8Size (utf8Length front) (front ++ behind) = front := by
  induction front with
  | nil => exact takeWithin_zero Char.utf8Size_pos behind
  | cons c front ih =>
    rw [List.cons_append, takeWithin, utf8Length_cons, if_pos (Nat.le_add_right _ _),
      Nat.add_sub_cancel_left, ih]

theorem dropWithin_utf8Length (front behind : List Char) :
    dropWithin Char.utf8Size (utf8Length front) (front ++ behind) = behind := by
  induction front with
  | nil => exact dropWithin_zero Char.utf8Size_pos behind
  | cons c front ih =>
    rw [List.cons_append, dropWithin, utf8Length_cons, if_pos (Nat.le_add_right _ _),
      Nat.add_sub_cancel_left, ih]

end Within

/-! ## The text in front of a position -/

namespace Position

/-- The part of a text in front of a position. -/
def before : List Char → Position → List Char
  | [], _ => []
  | c :: cs, ⟨0, column⟩ =>
    if c ≠ '\n' ∧ utf16Size c ≤ column then c :: before cs ⟨0, column - utf16Size c⟩ else []
  | c :: cs, ⟨line + 1, column⟩ =>
    c :: before cs (if c = '\n' then ⟨line, column⟩ else ⟨line + 1, column⟩)

theorem before_prefix (cs : List Char) (p : Position) : before cs p <+: cs := by
  induction cs generalizing p with
  | nil => exact List.nil_prefix
  | cons c cs ih =>
    obtain ⟨line, column⟩ := p
    cases line with
    | zero =>
      rw [before]
      split
      · exact (List.prefix_cons_inj c).2 (ih _)
      · exact List.nil_prefix
    | succ line => exact (List.prefix_cons_inj c).2 (ih _)

theorem before_zero (cs : List Char) : before cs ⟨0, 0⟩ = [] := by
  cases cs with
  | nil => rfl
  | cons c cs => rw [before, if_neg fun fits => Nat.not_le_of_gt (utf16Size_pos c) fits.2]

/-- Where a position comes to be when a character is put in front of the text. -/
def behind (c : Char) (p : Position) : Position :=
  if c = '\n' then ⟨p.line + 1, p.character⟩
  else if p.line = 0 then ⟨0, utf16Size c + p.character⟩
  else p

/-- Such a character is in front of the moved position. -/
theorem before_behind (c : Char) (cs : List Char) (p : Position) :
    before (c :: cs) (p.behind c) = c :: before cs p := by
  obtain ⟨line, column⟩ := p
  rw [behind]
  split
  next newline => rw [before, if_pos newline]
  next other =>
    split
    next first =>
      obtain rfl : line = 0 := first
      rw [before, if_pos ⟨other, Nat.le_add_right _ _⟩, Nat.add_sub_cancel_left]
    next later =>
      obtain ⟨line, rfl⟩ := Nat.exists_eq_succ_of_ne_zero later
      rw [before, if_neg other]

theorem le_iff {p q : Position} :
    p ≤ q ↔ p.line < q.line ∨ p.line = q.line ∧ p.character ≤ q.character := by
  change ¬ (q.line < p.line ∨ q.line = p.line ∧ q.character < p.character) ↔ _
  omega

/-- In front of a later position stands as much or more. -/
theorem before_mono (cs : List Char) {p q : Position} (h : p ≤ q) : before cs p <+: before cs q := by
  induction cs generalizing p q with
  | nil => exact List.nil_prefix
  | cons c cs ih =>
    obtain ⟨line, column⟩ := p
    obtain ⟨line', column'⟩ := q
    rw [le_iff] at h
    dsimp only at h
    cases line with
    | zero =>
      rw [before]
      split
      next fits =>
        cases line' with
        | zero =>
          rw [before, if_pos ⟨fits.1, by omega⟩]
          refine (List.prefix_cons_inj c).2 (ih (le_iff.2 (.inr ⟨rfl, ?_⟩)))
          dsimp only
          omega
        | succ line' =>
          rw [before, if_neg fits.1]
          exact (List.prefix_cons_inj c).2 (ih (le_iff.2 (.inl (Nat.succ_pos _))))
      next => exact List.nil_prefix
    | succ line =>
      cases line' with
      | zero => omega
      | succ line' =>
        rw [before, before]
        refine (List.prefix_cons_inj c).2 (ih (le_iff.2 ?_))
        split
        · dsimp only
          omega
        · dsimp only
          omega

end Position

namespace LineTable

open Position (before)

/-! ## The lines of a text -/

/-- What was passed of the current line stands in front of its rest. -/
theorem cut_eq (start here : Nat) (chars cs : List Char) :
    ∃ line lines, cut here here [] cs = line :: lines ∧
      cut start here chars cs = ⟨start, chars.reverse ++ line.chars⟩ :: lines := by
  induction cs generalizing start here chars with
  | nil => exact ⟨_, _, rfl, by rw [cut, List.reverse_nil, List.append_nil]⟩
  | cons c cs ih =>
    rw [cut, cut]
    split
    · exact ⟨_, _, rfl, by rw [List.reverse_nil, List.append_nil]⟩
    · obtain ⟨line, lines, rest, whole⟩ := ih start (here + c.utf8Size) (c :: chars)
      obtain ⟨line', lines', rest', part⟩ := ih here (here + c.utf8Size) [c]
      rw [rest] at rest'
      cases rest'
      exact ⟨_, _, part, by rw [whole]; simp⟩

theorem start_cut {here : Nat} {cs : List Char} {line : Line} {lines : List Line}
    (h : cut here here [] cs = line :: lines) : line.start = here := by
  obtain ⟨first, others, cuts, whole⟩ := cut_eq here here [] cs
  rw [h] at whole
  exact congrArg Line.start (List.cons.inj whole).1

/-- A character that ends no line stands in front of the first line of the rest. -/
theorem cut_cons (here : Nat) {c : Char} (other : c ≠ '\n') (cs : List Char) :
    ∃ chars lines, cut (here + c.utf8Size) (here + c.utf8Size) [] cs = ⟨here + c.utf8Size, chars⟩ :: lines ∧
      cut here here [] (c :: cs) = ⟨here, c :: chars⟩ :: lines := by
  obtain ⟨line, lines, rest, whole⟩ := cut_eq here (here + c.utf8Size) [c] cs
  obtain ⟨line', lines', rest', part⟩ := cut_eq (here + c.utf8Size) (here + c.utf8Size) [] cs
  rw [rest] at part rest'
  cases rest'
  refine ⟨line.chars, lines, rest.trans part, ?_⟩
  rw [cut, if_neg other]
  exact whole

/-! ## From positions to offsets -/

theorem byteSize_cons (line next : Line) (lines : List Line) :
    byteSize ⟨line :: next :: lines⟩ = byteSize ⟨next :: lines⟩ :=
  rfl

theorem utf8LengthOfUnits_cons (c : Char) (cs : List Char) (units : Nat) :
    utf8LengthOfUnits (c :: cs) units =
      if utf16Size c ≤ units then c.utf8Size + utf8LengthOfUnits cs (units - utf16Size c) else 0 := by
  rw [utf8LengthOfUnits, takeWithin]
  split
  · rfl
  · rfl

/-- The offset of a position behind a text of `here` bytes. -/
theorem offset_cut (here : Nat) (cs : List Char) (p : Position) :
    offset ⟨cut here here [] cs⟩ p = here + utf8Length (before cs p) := by
  induction cs generalizing here p with
  | nil =>
    obtain ⟨line, column⟩ := p
    cases line <;> rfl
  | cons c cs ih =>
    obtain ⟨line, column⟩ := p
    by_cases newline : c = '\n'
    · subst newline
      cases line with
      | zero => rfl
      | succ line =>
        have rest := ih (here + 1) ⟨line, column⟩
        obtain ⟨next, lines, cuts, -⟩ := cut_eq (here + 1) (here + 1) [] cs
        rw [cut, if_pos rfl]
        rw [cuts] at rest ⊢
        rw [offset, List.getElem?_cons_succ, byteSize_cons]
        refine rest.trans ?_
        show here + 1 + _ = here + utf8Length ('\n' :: before cs ⟨line, column⟩)
        rw [utf8Length_cons, ← Nat.add_assoc]
        rfl
    · have rest := ih (here + c.utf8Size) ⟨line, column⟩
      obtain ⟨chars, lines, cuts, whole⟩ := cut_cons here newline cs
      rw [whole]
      cases line with
      | zero =>
        show here + utf8LengthOfUnits (c :: chars) column = _
        rw [utf8LengthOfUnits_cons, before]
        split
        next fits =>
          have further := ih (here + c.utf8Size) ⟨0, column - utf16Size c⟩
          rw [cuts] at further
          have line : here + c.utf8Size + utf8LengthOfUnits chars (column - utf16Size c) = _ := further
          rw [if_pos ⟨newline, fits⟩, utf8Length_cons]
          omega
        next => rw [if_neg fun fits => ‹¬ _› fits.2]; rfl
      | succ line =>
        rw [before, if_neg newline, utf8Length_cons, ← Nat.add_assoc, ← rest, cuts, offset, offset,
          List.getElem?_cons_succ, List.getElem?_cons_succ]
        cases lines with
        | nil =>
          show here + utf8Length (c :: chars) = here + c.utf8Size + utf8Length chars
          rw [utf8Length_cons, Nat.add_assoc]
        | cons => rfl

theorem offset_ofChars (cs : List Char) (p : Position) :
    (ofChars cs).offset p = utf8Length (before cs p) :=
  (offset_cut 0 cs p).trans (Nat.zero_add _)

/-! ## From offsets to positions -/

theorem positionFrom_succ (offset number : Nat) (line : Line) (lines : List Line) :
    positionFrom offset (number + 1) line lines =
      ⟨(positionFrom offset number line lines).line + 1, (positionFrom offset number line lines).character⟩ := by
  induction lines generalizing number line with
  | nil => rfl
  | cons next lines ih =>
    rw [positionFrom, positionFrom]
    split
    · exact ih _ _
    · rfl

theorem utf16LengthOfBytes_cons (c : Char) (cs : List Char) {bytes : Nat} (fits : c.utf8Size ≤ bytes) :
    utf16LengthOfBytes (c :: cs) bytes = utf16Size c + utf16LengthOfBytes cs (bytes - c.utf8Size) := by
  rw [utf16LengthOfBytes, takeWithin, if_pos fits]
  rfl

/-- Later lines begin later. -/
theorem lt_start_cut {here : Nat} {cs : List Char} {line next : Line} {lines : List Line}
    (h : cut here here [] cs = line :: next :: lines) : here < next.start := by
  induction cs generalizing here line with
  | nil => cases h
  | cons c cs ih =>
    by_cases newline : c = '\n'
    · subst newline
      obtain ⟨first, others, cuts, whole⟩ := cut_eq (here + 1) (here + 1) [] cs
      rw [cut, if_pos rfl] at h
      have rest := (List.cons.inj h).2
      rw [whole] at rest
      cases rest
      exact Nat.lt_succ_self here
    · obtain ⟨chars, others, cuts, whole⟩ := cut_cons here newline cs
      rw [whole] at h
      have rest := (List.cons.inj h).2
      rw [rest] at cuts
      have later := ih cuts
      omega

/-- The position of an offset behind the first character is that in the rest, moved by the character. -/
theorem position_cons {here offset : Nat} {c : Char} (cs : List Char) (fits : here + c.utf8Size ≤ offset) :
    position ⟨cut here here [] (c :: cs)⟩ offset =
      (position ⟨cut (here + c.utf8Size) (here + c.utf8Size) [] cs⟩ offset).behind c := by
  by_cases newline : c = '\n'
  · subst newline
    have behind : here + 1 ≤ offset := fits
    obtain ⟨line, lines, cuts, -⟩ := cut_eq (here + 1) (here + 1) [] cs
    have first := start_cut cuts
    show position ⟨cut here here [] ('\n' :: cs)⟩ offset =
      (position ⟨cut (here + 1) (here + 1) [] cs⟩ offset).behind '\n'
    rw [cut, if_pos rfl, cuts]
    show positionFrom offset 0 ⟨here, [].reverse⟩ (line :: lines) = _
    rw [positionFrom, if_pos (first ▸ behind), positionFrom_succ]
    rfl
  · obtain ⟨chars, lines, cuts, whole⟩ := cut_cons here newline cs
    rw [whole, cuts]
    have stays : utf16LengthOfBytes (c :: chars) (offset - here) =
        utf16Size c + utf16LengthOfBytes chars (offset - (here + c.utf8Size)) := by
      rw [utf16LengthOfBytes_cons c chars (Nat.le_sub_of_add_le' fits), Nat.sub_sub]
    show positionFrom offset 0 ⟨here, c :: chars⟩ lines =
      (positionFrom offset 0 ⟨here + c.utf8Size, chars⟩ lines).behind c
    cases lines with
    | nil => rw [positionFrom, positionFrom, stays, Position.behind, if_neg newline, if_pos rfl]
    | cons next lines =>
      rw [positionFrom, positionFrom]
      split
      · rw [positionFrom_succ, Position.behind, if_neg newline, if_neg (Nat.succ_ne_zero _)]
      · rw [stays, Position.behind, if_neg newline, if_pos rfl]

/-- Before the end of its first character all offsets of a text have its first position. -/
theorem position_of_lt {here offset : Nat} {c : Char} (cs : List Char) (short : offset < here + c.utf8Size) :
    position ⟨cut here here [] (c :: cs)⟩ offset = ⟨0, 0⟩ := by
  by_cases newline : c = '\n'
  · subst newline
    have before : offset < here + 1 := short
    obtain ⟨line, lines, cuts, -⟩ := cut_eq (here + 1) (here + 1) [] cs
    have first := start_cut cuts
    rw [cut, if_pos rfl, cuts]
    show positionFrom offset 0 ⟨here, [].reverse⟩ (line :: lines) = _
    rw [positionFrom, if_neg (Nat.not_le_of_gt (first ▸ before))]
    rfl
  · obtain ⟨chars, lines, cuts, whole⟩ := cut_cons here newline cs
    have column : utf16LengthOfBytes (c :: chars) (offset - here) = 0 := by
      rw [utf16LengthOfBytes, takeWithin, if_neg (by have size := c.utf8Size_pos; omega)]
      rfl
    rw [whole]
    show positionFrom offset 0 ⟨here, c :: chars⟩ lines = _
    cases lines with
    | nil => rw [positionFrom, column]
    | cons next lines =>
      have later := lt_start_cut cuts
      rw [positionFrom, if_neg (Nat.not_le_of_gt (short.trans later)), column]

theorem position_start (here : Nat) (cs : List Char) :
    position ⟨cut here here [] cs⟩ here = ⟨0, 0⟩ := by
  cases cs with
  | nil =>
    show (⟨0, utf16LengthOfBytes [] (here - here)⟩ : Position) = ⟨0, 0⟩
    rfl
  | cons c cs => exact position_of_lt cs (Nat.lt_add_of_pos_right c.utf8Size_pos)

/-- No number of a position is greater than the number of bytes of the text. -/
theorem position_le (here offset : Nat) (cs : List Char) :
    (position ⟨cut here here [] cs⟩ offset).line + (position ⟨cut here here [] cs⟩ offset).character ≤
      utf8Length cs := by
  induction cs generalizing here with
  | nil => exact Nat.le_refl 0
  | cons c cs ih =>
    rw [utf8Length_cons]
    by_cases fits : here + c.utf8Size ≤ offset
    · have rest := ih (here + c.utf8Size)
      have units := utf16Size_le_utf8Size c
      have bytes := c.utf8Size_pos
      rw [position_cons cs fits, Position.behind]
      split
      · dsimp only
        omega
      · split
        · dsimp only
          omega
        · omega
    · rw [position_of_lt cs (Nat.lt_of_not_le fits)]
      exact Nat.zero_le _

theorem before_position_cut (here : Nat) (front behind : List Char) :
    before (front ++ behind) (position ⟨cut here here [] (front ++ behind)⟩ (here + utf8Length front)) =
      front := by
  induction front generalizing here with
  | nil =>
    rw [List.nil_append, utf8Length, List.foldr_nil, Nat.add_zero, position_start, Position.before_zero]
  | cons c front ih =>
    rw [List.cons_append, utf8Length_cons, ← Nat.add_assoc,
      position_cons _ (Nat.le_add_right _ _), Position.before_behind, ih]

/-- In front of the position where a beginning of the text ends stands this beginning. -/
theorem before_position (front behind : List Char) :
    before (front ++ behind) ((ofChars (front ++ behind)).position (utf8Length front)) = front := by
  have whole := before_position_cut 0 front behind
  rwa [Nat.zero_add] at whole

end LineTable

/-!
## Edits keep two texts the same

An editor changes its own text by the places of characters and tells of each change by positions. The
edits that it sends make the same text of the text that both began with, whatever characters and line
ends there are (`Edit.applyAll_sent`). Edits with any other positions, behind the text, inside a
character or with their ends exchanged, still replace one run of whole characters each
(`Edit.Splices`): the offsets that are read from a range are those of the two ends of the run.
-/

/-! ## Edits as the editor makes them -/

/-- A change that an editor makes to its text; characters are counted from the beginning. -/
inductive ClientEdit where
  | replace (start stop : Nat) (text : String)
  | replaceAll (text : String)

namespace ClientEdit

/-- Both ends are in the text, in order. -/
def Fits (cs : List Char) : ClientEdit → Prop
  | replace start stop _ => start ≤ stop ∧ stop ≤ cs.length
  | replaceAll _ => True

instance (cs : List Char) : (e : ClientEdit) → Decidable (e.Fits cs)
  | replace start stop _ => inferInstanceAs (Decidable (start ≤ stop ∧ stop ≤ cs.length))
  | replaceAll _ => inferInstanceAs (Decidable True)

/-- The text of the editor after the change. -/
def applyChars (cs : List Char) : ClientEdit → List Char
  | replace start stop text => cs.take start ++ text.toList ++ cs.drop stop
  | replaceAll text => text.toList

/-- The change as the editor tells it, with positions in the text before the change. -/
def sent (cs : List Char) : ClientEdit → Edit
  | replace start stop text =>
    let place := fun n => (LineTable.ofChars cs).position (utf8Length (cs.take n))
    ⟨some ⟨place start, place stop⟩, text⟩
  | replaceAll text => ⟨none, text⟩

/-- Changes that fit, each in the text that the one before it left. -/
def AllFit : List ClientEdit → List Char → Prop
  | [], _ => True
  | e :: es, cs => e.Fits cs ∧ AllFit es (e.applyChars cs)

instance decidableAllFit : (es : List ClientEdit) → (cs : List Char) → Decidable (AllFit es cs)
  | [], _ => inferInstanceAs (Decidable True)
  | e :: es, cs =>
    have := decidableAllFit es (e.applyChars cs)
    inferInstanceAs (Decidable (e.Fits cs ∧ AllFit es (e.applyChars cs)))

/-- The text of the editor after changes in order. -/
def applyAll (es : List ClientEdit) (cs : List Char) : List Char :=
  es.foldl applyChars cs

/-- Changes as the editor tells them, each with positions in the text that the one before it left. -/
def sentAll : List ClientEdit → List Char → List Edit
  | [], _ => []
  | e :: es, cs => e.sent cs :: sentAll es (e.applyChars cs)

end ClientEdit

namespace Edit

open Position (before)

/-! ## The run of characters that an edit replaces -/

/-- The edit puts its text in the place of one run of characters. The range begins at the offset where
the run begins, and it ends where the run ends or, for a run of no characters, not behind. -/
def Splices (edit : Edit) (cs ds : List Char) : Prop :=
  ∃ front run behind, cs = front ++ run ++ behind ∧ ds = front ++ edit.text.toList ++ behind ∧
    match edit.range? with
    | none => front = [] ∧ behind = []
    | some range =>
      (LineTable.ofChars cs).offset range.start = utf8Length front ∧
        max ((LineTable.ofChars cs).offset range.start) ((LineTable.ofChars cs).offset range.stop) =
          utf8Length (front ++ run)

/-- Each edit replaces one run of the text that the one before it left. -/
inductive SplicesAll : List Edit → List Char → List Char → Prop where
  | nil (cs : List Char) : SplicesAll [] cs cs
  | cons {edit : Edit} {edits : List Edit} {cs ds es : List Char} :
    edit.Splices cs ds → SplicesAll edits ds es → SplicesAll (edit :: edits) cs es

/-- Of a text that is cut at the ends of its range an edit replaces the middle. -/
theorem applyChars_of_cut {range : Range} {cs front run behind : List Char} (text : String)
    (cut : cs = front ++ run ++ behind)
    (start : (LineTable.ofChars cs).offset range.start = utf8Length front)
    (stop : max ((LineTable.ofChars cs).offset range.start) ((LineTable.ofChars cs).offset range.stop) =
      utf8Length (front ++ run)) :
    applyChars ⟨some range, text⟩ cs = front ++ text.toList ++ behind := by
  rw [applyChars]
  dsimp only
  rw [stop, start, cut, dropWithin_utf8Length, List.append_assoc front run behind, takeWithin_utf8Length]

/-- The run of a range reaches from the text in front of its start to the later one of its ends. -/
theorem exists_run (cs : List Char) (range : Range) :
    ∃ run behind, cs = before cs range.start ++ run ++ behind ∧
      max ((LineTable.ofChars cs).offset range.start) ((LineTable.ofChars cs).offset range.stop) =
        utf8Length (before cs range.start ++ run) := by
  obtain ⟨afterStart, whole⟩ := Position.before_prefix cs range.start
  obtain ⟨afterStop, whole'⟩ := Position.before_prefix cs range.stop
  rw [LineTable.offset_ofChars, LineTable.offset_ofChars]
  -- Of two beginnings of one text one begins with the other.
  rcases List.prefix_or_prefix_of_prefix ⟨afterStop, whole'⟩ ⟨afterStart, whole⟩ with inverted | ⟨run, longer⟩
  · refine ⟨[], afterStart, ?_, ?_⟩
    · rw [List.append_nil, whole]
    · rw [List.append_nil]
      exact max_eq_left (utf8Length_mono inverted)
  · refine ⟨run, afterStop, ?_, ?_⟩
    · rw [longer, whole']
    · rw [longer]
      exact max_eq_right (utf8Length_mono ⟨run, longer⟩)

theorem splices_applyChars (edit : Edit) (cs : List Char) : edit.Splices cs (edit.applyChars cs) := by
  obtain ⟨range?, text⟩ := edit
  cases range? with
  | none => exact ⟨[], cs, [], by simp, by simp [applyChars], rfl, rfl⟩
  | some range =>
    have start := LineTable.offset_ofChars cs range.start
    obtain ⟨run, behind, cut, stop⟩ := exists_run cs range
    exact ⟨_, run, behind, cut, applyChars_of_cut text cut start stop, start, stop⟩

theorem toList_applyAll (edits : List Edit) (text : String) :
    (applyAll edits text).toList = edits.foldl (fun cs edit => edit.applyChars cs) text.toList := by
  induction edits generalizing text with
  | nil => rfl
  | cons edit edits ih =>
    refine (ih (edit.apply text)).trans ?_
    rw [apply, String.toList_ofList]
    rfl

theorem splicesAll_applyAll (edits : List Edit) (text : String) :
    SplicesAll edits text.toList (applyAll edits text).toList := by
  rw [toList_applyAll]
  generalize text.toList = cs
  induction edits generalizing cs with
  | nil => exact .nil cs
  | cons edit edits ih => exact .cons (splices_applyChars edit cs) (ih _)

/-! ## What the editor sends -/

/-- Positions lead back to the places of characters. -/
theorem offset_place (cs : List Char) (n : Nat) :
    (LineTable.ofChars cs).offset ((LineTable.ofChars cs).position (utf8Length (cs.take n))) =
      utf8Length (cs.take n) := by
  have front := LineTable.before_position (cs.take n) (cs.drop n)
  rw [List.take_append_drop] at front
  rw [LineTable.offset_ofChars, front]

theorem applyChars_sent {e : ClientEdit} {cs : List Char} (fits : e.Fits cs) :
    (e.sent cs).applyChars cs = e.applyChars cs := by
  cases e with
  | replaceAll text => rfl
  | replace start stop text =>
    have order : cs.take start <+: cs.take stop := List.take_prefix_take_left fits.1
    obtain ⟨run, longer⟩ := order
    have cut : cs = cs.take start ++ run ++ cs.drop stop := by rw [longer, List.take_append_drop]
    refine applyChars_of_cut text cut (offset_place cs start) ?_
    rw [offset_place, offset_place, longer]
    exact max_eq_right (utf8Length_mono ⟨run, longer⟩)

/-- The text that the edits sent make is that of the editor. -/
theorem foldl_applyChars_sentAll {es : List ClientEdit} {cs : List Char} (fit : ClientEdit.AllFit es cs) :
    (ClientEdit.sentAll es cs).foldl (fun cs edit => edit.applyChars cs) cs = ClientEdit.applyAll es cs := by
  induction es generalizing cs with
  | nil => rfl
  | cons e es ih =>
    rw [ClientEdit.sentAll, List.foldl_cons, applyChars_sent fit.1]
    exact ih fit.2

/-- If an editor sends each of its changes with positions in the text before the change, applying what
it sends leaves the text of the editor. All numbers sent for a text are at most its number of bytes. Any
edits at all replace one run of whole characters each. -/
theorem applyAll_sent (text : String) :
    (∀ es, ClientEdit.AllFit es text.toList →
      applyAll (ClientEdit.sentAll es text.toList) text =
        String.ofList (ClientEdit.applyAll es text.toList)) ∧
    (∀ offset, ((LineTable.ofString text).position offset).line ≤ utf8Length text.toList ∧
      ((LineTable.ofString text).position offset).character ≤ utf8Length text.toList) ∧
    ∀ edits, SplicesAll edits text.toList (applyAll edits text).toList := by
  refine ⟨fun es fit => ?_, fun offset => ?_, fun edits => splicesAll_applyAll edits text⟩
  · rw [← foldl_applyChars_sentAll fit, ← toList_applyAll, String.ofList_toList]
  · have sum := LineTable.position_le 0 offset text.toList
    exact ⟨(Nat.le_add_right _ _).trans sum, (Nat.le_add_left _ _).trans sum⟩

/-- A character of two units is replaced in front of a carriage return, then text behind the line end,
whose position counts the units of the new text. -/
theorem applyAll_sent_crlf :
    applyAll (ClientEdit.sentAll [.replace 1 2 "\uffff😀", .replace 5 7 "z", .replace 3 3 "é"]
      "a😀\r\nbc".toList) "a😀\r\nbc" = "a\uffff😀é\r\nz" := by
  have same := (applyAll_sent "a😀\r\nbc").1 [.replace 1 2 "\uffff😀", .replace 5 7 "z", .replace 3 3 "é"] (by decide)
  exact same.trans (by decide)

end Edit

end C3Lens
