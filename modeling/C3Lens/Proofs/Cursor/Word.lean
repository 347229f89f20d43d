import Mathlib.Data.List.TakeWhile
import C3Lens.Cursor.Word
import C3Lens.Proofs.NameQuery
import C3Lens.Proofs.Text.Line

/-!
# Words of documents

The head of a word is a run of word characters, a separator or nothing (`wordParts_of_headAt`). A
word character is neither a blank nor a mark that queries know, so a name at a cursor is whole
(`whole_of_isName`).

A name in a text is read as the word at a cursor in it or at its ends exactly if it is made of word
characters, none of them stands beside it, and the cursor is not between the name and a separator
(`headAt_eq_iff`, and `Word.reads_iff` for documents). So a name that begins with `@` or `#` is never
read as a whole.
-/

namespace C3Lens

/-- Letters, digits, the underscore and the dollar sign. -/
theorem toNat_of_isWordPart {c : Char} (h : isWordPart c = true) :
    48 ≤ c.toNat ∧ c.toNat ≤ 57 ∨ 65 ≤ c.toNat ∧ c.toNat ≤ 90 ∨ 97 ≤ c.toNat ∧ c.toNat ≤ 122 ∨
      c.toNat = 95 ∨ c.toNat = 36 := by
  rw [isWordPart, Bool.or_eq_true, Bool.or_eq_true, beq_iff_eq, beq_iff_eq] at h
  rcases h with (alphanumeric | rfl) | rfl
  · have ranges : ((decide ('A'.val ≤ c.val ∧ c.val ≤ 'Z'.val) ||
        decide ('a'.val ≤ c.val) && decide (c.val ≤ 'z'.val)) ||
        decide ('0'.val ≤ c.val) && decide (c.val ≤ '9'.val)) = true := alphanumeric
    simp only [Bool.or_eq_true, Bool.and_eq_true, decide_eq_true_eq, UInt32.le_iff_toNat_le] at ranges
    change ((65 ≤ c.toNat ∧ c.toNat ≤ 90) ∨ (97 ≤ c.toNat ∧ c.toNat ≤ 122)) ∨
      (48 ≤ c.toNat ∧ c.toNat ≤ 57) at ranges
    omega
  · decide
  · decide

/-- No word character is a blank or a mark of a query. -/
theorem plain_of_isWordPart {c : Char} (h : isWordPart c = true) :
    c ≠ '.' ∧ c ≠ ':' ∧ c ≠ '*' ∧ Text.isSpace c = false := by
  have code := toNat_of_isWordPart h
  refine ⟨?_, ?_, ?_, ?_⟩
  · rintro rfl
    exact absurd h (by decide)
  · rintro rfl
    exact absurd h (by decide)
  · rintro rfl
    exact absurd h (by decide)
  · rw [Bool.eq_false_iff]
    intro space
    simp only [Text.isSpace, Bool.or_eq_true, Bool.and_eq_true, decide_eq_true_eq] at space
    omega

theorem wordParts_of_headBefore {before rest : List Char} {head : Piece}
    (h : headBefore before = some (head, rest)) : ∀ c ∈ head.text.toList, isWordPart c = true := by
  unfold headBefore at h
  split at h
  · cases h
  split at h
  · cases h
    intro c hc
    rw [Piece.ofReversed, String.toList_ofList, List.mem_reverse] at hc
    exact List.mem_takeWhile_imp hc
  split at h
  · cases h
    intro c hc
    cases hc
  · cases h

/-- A head that begins with a word character has no other ones. -/
theorem wordParts_of_headAt {before behind rest : List Char} {head : Piece}
    (h : headAt before behind = some (head, rest)) (name : head.text.toList.head?.any isWordPart = true) :
    ∀ c ∈ head.text.toList, isWordPart c = true := by
  unfold headAt at h
  split at h
  · exact wordParts_of_headBefore h
  next c cs =>
    split at h
    · cases h
      intro d hd
      rw [Piece.ofReversed, String.toList_ofList, List.mem_reverse, List.mem_append, List.mem_reverse] at hd
      exact hd.elim List.mem_takeWhile_imp List.mem_takeWhile_imp
    next other =>
      have single : head = .ofReversed [c] before → isWordPart c = true := by
        rintro rfl
        rwa [Piece.ofReversed, String.toList_ofList] at name
      split at h
      · cases h
        exact absurd (single rfl) other
      split at h
      · cases h
        exact absurd (single rfl) other
      · exact wordParts_of_headBefore h

namespace Word

/-- A name at a cursor is one that no query cuts. -/
theorem whole_of_isName {d : Document} {p : Position} (h : (ofPosition d p).isName = true) :
    NameQuery.Whole (ofPosition d p).text := by
  have parts : ∀ c ∈ (ofPosition d p).text.toList, isWordPart c = true := by
    rw [ofPosition] at h ⊢
    split at h
    · cases h
    next head rest found => exact wordParts_of_headAt found h
  refine ⟨fun empty => ?_, fun c hc => plain_of_isWordPart (parts c hc)⟩
  rw [isName, empty] at h
  cases h

end Word

/-! ## Names that are read as words -/

theorem takeWhile_eq_nil_iff_head? {α : Type} {p : α → Bool} {as : List α} :
    as.takeWhile p = [] ↔ ∀ a ∈ as.head?, p a = false := by
  cases as with
  | nil => simp
  | cons a as =>
    rw [List.takeWhile_cons]
    cases h : p a <;> simp [h]

/-- Between the texts `front` and `behind` the name is a run of word characters of its own. -/
structure StandsAlone (front name behind : List Char) : Prop where
  parts : ∀ c ∈ name, isWordPart c = true
  front : ∀ c ∈ front.getLast?, isWordPart c = false
  behind : ∀ c ∈ behind.head?, isWordPart c = false

/-- The cursor is not between the name and a separator; `rest` is the part of the name behind the
cursor. -/
def OffSeparator (rest behind : List Char) : Prop :=
  rest = [] → ∀ c ∈ behind.head?, c ≠ '.' ∧ c ≠ ':'

section

variable {front first rest behind : List Char}

/-- In front of a word character the head is made of all word characters on both sides. -/
theorem headAt_of_wordPart (before : List Char) {c : Char} {cs : List Char} (part : isWordPart c = true) :
    headAt before (c :: cs) =
      some (.ofReversed (((c :: cs).takeWhile isWordPart).reverse ++ before.takeWhile isWordPart)
        (before.dropWhile isWordPart), before.dropWhile isWordPart) :=
  if_pos part

/-- Where neither a word character nor a separator follows, the head is read to the left. -/
theorem headAt_of_not {before : List Char} (other : ∀ c ∈ behind.head?, isWordPart c = false)
    (off : ∀ c ∈ behind.head?, c ≠ '.' ∧ c ≠ ':') : headAt before behind = headBefore before := by
  cases behind with
  | nil => rfl
  | cons c cs =>
    obtain ⟨dot, colon⟩ := off c rfl
    rw [headAt, if_neg (Bool.eq_false_iff.1 (other c rfl)), if_neg (mt beq_iff_eq.1 dot),
      if_neg (mt beq_iff_eq.1 colon)]

/-- At a cursor in a name of word characters the head is the name with the word characters around it. -/
theorem headAt_of_parts (name : first ++ rest ≠ []) (parts : ∀ c ∈ first ++ rest, isWordPart c = true)
    (off : OffSeparator rest behind) :
    headAt (front ++ first).reverse (rest ++ behind) =
      some (.ofReversed ((rest ++ behind.takeWhile isWordPart).reverse ++
          (first.reverse ++ front.reverse.takeWhile isWordPart)) (front.reverse.dropWhile isWordPart),
        front.reverse.dropWhile isWordPart) := by
  have firstParts : ∀ c ∈ first.reverse, isWordPart c = true :=
    fun c hc => parts c (List.mem_append_left _ (List.mem_reverse.1 hc))
  have left : (front ++ first).reverse.takeWhile isWordPart =
      first.reverse ++ front.reverse.takeWhile isWordPart := by
    rw [List.reverse_append, List.takeWhile_append_of_pos firstParts]
  have beyond : (front ++ first).reverse.dropWhile isWordPart = front.reverse.dropWhile isWordPart := by
    rw [List.reverse_append, List.dropWhile_append_of_pos firstParts]
  have right : (rest ++ behind).takeWhile isWordPart = rest ++ behind.takeWhile isWordPart :=
    List.takeWhile_append_of_pos fun c hc => parts c (List.mem_append_right _ hc)
  by_cases follows : ∀ c ∈ (rest ++ behind).head?, isWordPart c = false
  · -- The cursor is behind the name, and no word character follows.
    have last : rest = [] := by
      cases rest with
      | nil => rfl
      | cons c cs =>
        have word := parts c (List.mem_append_right _ List.mem_cons_self)
        rw [follows c rfl] at word
        cases word
    subst last
    rw [List.append_nil] at name parts
    obtain ⟨init, c, rfl⟩ := (List.eq_nil_or_concat first).resolve_left name
    have word : isWordPart c = true := parts c (by simp)
    have turned : (front ++ (init ++ [c])).reverse = c :: (front ++ init).reverse := by
      rw [← List.append_assoc, List.reverse_append]
      rfl
    rw [List.concat_eq_append] at left beyond ⊢
    rw [List.nil_append] at follows right ⊢
    rw [headAt_of_not follows (off rfl), turned, headBefore, if_pos word, ← turned, left, beyond,
      takeWhile_eq_nil_iff_head?.2 follows]
    rfl
  · push Not at follows
    obtain ⟨c, next, word⟩ := follows
    obtain ⟨cs, same⟩ := List.head?_eq_some_iff.1 next
    rw [same, headAt_of_wordPart _ (Bool.of_not_eq_false word), ← same, right, left, beyond]

/-- Between a name and a separator no name is read. -/
theorem not_name_of_separator {before : List Char} {head : Piece} {left : List Char}
    (found : headAt before behind = some (head, left))
    (part : head.text.toList.head?.any isWordPart = true) : ∀ c ∈ behind.head?, c ≠ '.' ∧ c ≠ ':' := by
  intro c hc
  obtain ⟨cs, rfl⟩ := List.head?_eq_some_iff.1 hc
  constructor
  · rintro rfl
    cases found
    rw [Piece.ofReversed, String.toList_ofList] at part
    cases part
  · rintro rfl
    cases found
    rw [Piece.ofReversed, String.toList_ofList] at part
    cases part

/-- A name of a text is the head at a cursor in it exactly if it stands alone and the cursor is not in
front of a separator. In front of the head stands what is in front of the name. -/
theorem headAt_eq_iff (name : first ++ rest ≠ []) :
    (∃ head left, headAt (front ++ first).reverse (rest ++ behind) = some (head, left) ∧
      head.text = String.ofList (first ++ rest) ∧ head.text.toList.head?.any isWordPart = true) ↔
    StandsAlone front (first ++ rest) behind ∧ OffSeparator rest behind := by
  constructor
  · rintro ⟨head, left, found, text, part⟩
    have off : OffSeparator rest behind := by
      rintro rfl
      exact not_name_of_separator found part
    have parts : ∀ c ∈ first ++ rest, isWordPart c = true := by
      have all := wordParts_of_headAt found part
      rwa [text, String.toList_ofList] at all
    rw [headAt_of_parts name parts off] at found
    cases found
    have same := congrArg List.length (String.ofList_injective text)
    simp only [List.length_append, List.length_reverse] at same
    refine ⟨⟨parts, ?_, ?_⟩, off⟩
    · rw [← List.head?_reverse]
      exact takeWhile_eq_nil_iff_head?.1 (List.length_eq_zero_iff.1 (by omega))
    · exact takeWhile_eq_nil_iff_head?.1 (List.length_eq_zero_iff.1 (by omega))
  · rintro ⟨alone, off⟩
    have frontEnd : front.reverse.takeWhile isWordPart = [] := by
      rw [takeWhile_eq_nil_iff_head?, List.head?_reverse]
      exact alone.front
    have text : (Piece.ofReversed ((rest ++ behind.takeWhile isWordPart).reverse ++
        (first.reverse ++ front.reverse.takeWhile isWordPart)) (front.reverse.dropWhile isWordPart)).text =
          String.ofList (first ++ rest) := by
      rw [frontEnd, takeWhile_eq_nil_iff_head?.2 alone.behind, Piece.ofReversed]
      simp
    refine ⟨_, _, headAt_of_parts name alone.parts off, text, ?_⟩
    rw [text, String.toList_ofList]
    obtain ⟨c, cs, same⟩ := List.exists_cons_of_ne_nil name
    rw [same]
    exact alone.parts c (same ▸ List.mem_cons_self)

end

/-! ### Words of documents -/

/-- The text of a document behind a position. -/
def Document.behind (d : Document) (p : Position) : List Char :=
  dropWithin Char.utf8Size (d.offset p) d.text.toList

section

variable {d : Document} {p : Position} {front name behind : List Char}

/-- A position in the range of a part of the text cuts this part in two. -/
theorem exists_cut (lines : d.lines = LineTable.ofString d.text) (text : d.text.toList = front ++ name ++ behind)
    (inside : Range.contains ⟨d.position (utf8Length front), d.position (utf8Length (front ++ name))⟩ p = true) :
    ∃ first rest, name = first ++ rest ∧
      takeWithin Char.utf8Size (d.offset p) d.text.toList = front ++ first ∧ d.behind p = rest ++ behind := by
  rw [Range.contains, Bool.and_eq_true, decide_eq_true_eq, decide_eq_true_eq, Document.position,
    Document.position, lines, LineTable.ofString, text] at inside
  -- In front of the three positions stand ever longer beginnings of the text.
  have left := Position.before_mono (front ++ name ++ behind) inside.1
  have right := Position.before_mono (front ++ name ++ behind) inside.2
  rw [LineTable.before_position (front ++ name) behind] at right
  rw [List.append_assoc front name behind, LineTable.before_position front (name ++ behind)] at left
  obtain ⟨first, here⟩ := left
  rw [← List.append_assoc] at here
  rw [← here, List.prefix_append_right_inj] at right
  obtain ⟨rest, rfl⟩ := right
  have offset : d.offset p = utf8Length (front ++ first) := by
    rw [Document.offset, lines, LineTable.ofString, LineTable.offset_ofChars, text, here]
  have cut : d.text.toList = (front ++ first) ++ (rest ++ behind) := by
    rw [text]
    simp only [List.append_assoc]
  refine ⟨first, rest, rfl, ?_, ?_⟩
  · rw [offset, cut, takeWithin_utf8Length]
  · rw [Document.behind, offset, cut, dropWithin_utf8Length]

/-- A name of a document is read as the word at a position of its range exactly if it stands alone and
no separator follows the position. -/
theorem Word.reads_iff (lines : d.lines = LineTable.ofString d.text)
    (text : d.text.toList = front ++ name ++ behind) (nonempty : name ≠ [])
    (inside : Range.contains ⟨d.position (utf8Length front), d.position (utf8Length (front ++ name))⟩ p = true) :
    (ofPosition d p).text = String.ofList name ∧ (ofPosition d p).isName = true ↔
      StandsAlone front name behind ∧ ∀ c ∈ (d.behind p).head?, c ≠ '.' ∧ c ≠ ':' := by
  obtain ⟨first, rest, rfl, before, beyond⟩ := exists_cut lines text inside
  have head : (ofPosition d p).text = String.ofList (first ++ rest) ∧ (ofPosition d p).isName = true ↔
      ∃ head left, headAt (front ++ first).reverse (rest ++ behind) = some (head, left) ∧
        head.text = String.ofList (first ++ rest) ∧ head.text.toList.head?.any isWordPart = true := by
    rw [ofPosition, ← Document.behind, before, beyond]
    cases found : headAt (front ++ first).reverse (rest ++ behind) with
    | none =>
      refine iff_of_false (fun named => ?_) (by simp)
      have empty : (Word.nothing.text.toList.head?.any isWordPart) = true := named.2
      cases empty
    | some piece =>
      obtain ⟨head, left⟩ := piece
      constructor
      · rintro ⟨reads, named⟩
        exact ⟨head, left, rfl, reads, named⟩
      · rintro ⟨_, _, same, reads, named⟩
        cases same
        exact ⟨reads, named⟩
  rw [head, headAt_eq_iff nonempty, beyond]
  refine and_congr_right fun alone => ?_
  cases rest with
  | nil => exact ⟨fun off => off rfl, fun off _ => off⟩
  | cons c cs =>
    -- A word character is no separator.
    have part := plain_of_isWordPart (alone.parts c (List.mem_append_right _ List.mem_cons_self))
    refine iff_of_true (fun empty => absurd empty (List.cons_ne_nil c cs)) fun d hd => ?_
    cases hd
    exact ⟨part.1, part.2.1⟩

end

end C3Lens
