import Mathlib.Order.Bounds.Basic
import C3Lens.Proofs.Text.Line

/-!
# Offsets and positions are adjoint

The offsets between the characters of a text are its boundaries (`Text.IsBoundary`). To ask for positions
moves an offset down to a boundary first, and to ask for offsets moves a position down to one that a boundary
has. `offset_adjoint_position` says so for every text, offset and position:

* a later boundary has a later position, and an offset that is no boundary has the position of the greatest
  boundary in front of it (`position_takeWithin`);
* the offset of a position is the greatest boundary whose position is not behind it (`offset_isGreatest`).

In front of a boundary stands a beginning of the text, so both come down to the beginnings that
`takeWithin` and `Position.before` cut off.
-/

namespace C3Lens

/-- A byte offset between two characters of a text, or at one of its ends. -/
def Text.IsBoundary (s : String) (b : Nat) : Prop :=
  ∃ front, front <+: s.toList ∧ utf8Length front = b

/-! ## The longest beginning that fits -/

theorem takeWithin_prefix (size : Char → Nat) (room : Nat) (cs : List Char) : takeWithin size room cs <+: cs := by
  induction cs generalizing room with
  | nil => exact List.nil_prefix
  | cons c cs ih =>
    rw [takeWithin]
    split
    · exact (List.prefix_cons_inj c).2 (ih _)
    · exact List.nil_prefix

theorem utf8Length_takeWithin_le (room : Nat) (cs : List Char) :
    utf8Length (takeWithin Char.utf8Size room cs) ≤ room := by
  induction cs generalizing room with
  | nil => exact Nat.zero_le _
  | cons c cs ih =>
    rw [takeWithin]
    split
    · have rest := ih (room - c.utf8Size)
      rw [utf8Length_cons]
      omega
    · exact Nat.zero_le _

/-- No longer beginning fits. -/
theorem utf8Length_le_takeWithin {front cs : List Char} (h : front <+: cs) {room : Nat}
    (fits : utf8Length front ≤ room) : utf8Length front ≤ utf8Length (takeWithin Char.utf8Size room cs) := by
  induction cs generalizing front room with
  | nil =>
    rw [List.prefix_nil.1 h]
    exact Nat.zero_le _
  | cons c cs ih =>
    cases front with
    | nil => exact Nat.zero_le _
    | cons d front =>
      obtain ⟨rfl, rest⟩ := List.cons_prefix_cons.1 h
      rw [utf8Length_cons] at fits
      have later := @ih front rest (room - d.utf8Size) (by omega)
      rw [takeWithin, if_pos (by omega), utf8Length_cons, utf8Length_cons]
      omega

namespace Position

theorem lt_or_le (p q : Position) : p < q ∨ q ≤ p := by
  by_cases h : p < q
  · exact .inl h
  · exact .inr h

theorem lt_iff {p q : Position} : p < q ↔ p.line < q.line ∨ p.line = q.line ∧ p.character < q.character :=
  Iff.rfl

theorem le_refl (p : Position) : p ≤ p :=
  le_iff.2 (.inr ⟨rfl, Nat.le_refl _⟩)

theorem zero_le (p : Position) : (⟨0, 0⟩ : Position) ≤ p := by
  rw [le_iff]
  dsimp only
  omega

section

variable {p q r : Position}

theorem le_of_lt (h : p < q) : p ≤ q := by
  rw [lt_iff] at h
  rw [le_iff]
  omega

theorem le_trans (h : p ≤ q) (h' : q ≤ r) : p ≤ r := by
  rw [le_iff] at *
  omega

theorem lt_of_lt_of_le (h : p < q) (h' : q ≤ r) : p < r := by
  rw [le_iff] at h'
  rw [lt_iff] at *
  omega

theorem lt_of_le_of_lt (h : p ≤ q) (h' : q < r) : p < r := by
  rw [le_iff] at h
  rw [lt_iff] at *
  omega

end

/-- To put a character in front keeps the order of positions. -/
theorem behind_le_behind (c : Char) {p q : Position} (h : p ≤ q) : p.behind c ≤ q.behind c := by
  rw [le_iff] at h ⊢
  by_cases newline : c = '\n'
  · simp only [behind, newline, if_true]
    omega
  · by_cases first : p.line = 0 <;> by_cases first' : q.line = 0 <;> simp [behind, newline, first, first'] <;>
      omega

end Position

namespace LineTable

open Position (before)

/-! ## Positions of offsets -/

/-- An offset has the position of the end of the longest beginning in front of it. -/
theorem position_takeWithin (here offset : Nat) (cs : List Char) :
    position ⟨cut here here [] cs⟩ (here + offset) =
      position ⟨cut here here [] cs⟩ (here + utf8Length (takeWithin Char.utf8Size offset cs)) := by
  induction cs generalizing here offset with
  | nil => rfl
  | cons c cs ih =>
    by_cases fits : c.utf8Size ≤ offset
    · have rest := ih (here + c.utf8Size) (offset - c.utf8Size)
      have whole : here + c.utf8Size + (offset - c.utf8Size) = here + offset := by omega
      rw [whole] at rest
      rw [takeWithin, if_pos fits, utf8Length_cons, position_cons cs (by omega), rest, ← Nat.add_assoc,
        position_cons cs (by omega)]
    · rw [takeWithin, if_neg fits, position_of_lt cs (by omega)]
      exact (position_start here (c :: cs)).symm

/-! ## Offsets of positions -/

/-- The text in front of a position ends at it or before it. -/
theorem position_before_le (here : Nat) (cs : List Char) (p : Position) :
    position ⟨cut here here [] cs⟩ (here + utf8Length (before cs p)) ≤ p := by
  induction cs generalizing here p with
  | nil =>
    rw [Position.le_iff]
    show 0 < p.line ∨ 0 = p.line ∧ 0 ≤ p.character
    omega
  | cons c cs ih =>
    obtain ⟨line, column⟩ := p
    cases line with
    | zero =>
      by_cases fits : c ≠ '\n' ∧ utf16Size c ≤ column
      · have rest := Position.behind_le_behind c (ih (here + c.utf8Size) ⟨0, column - utf16Size c⟩)
        have place : Position.behind c ⟨0, column - utf16Size c⟩ = ⟨0, column⟩ := by
          simp only [Position.behind, fits.1, if_false, if_true, Nat.add_sub_cancel' fits.2]
        rwa [before, if_pos fits, utf8Length_cons, ← Nat.add_assoc, position_cons cs (by omega), ← place]
      · rw [before, if_neg fits]
        show position ⟨cut here here [] (c :: cs)⟩ here ≤ _
        rw [position_start, Position.le_iff]
        simp
    | succ line =>
      rw [before, utf8Length_cons, ← Nat.add_assoc, position_cons cs (by omega)]
      by_cases newline : c = '\n'
      · have rest := Position.behind_le_behind c (ih (here + c.utf8Size) ⟨line, column⟩)
        rw [if_pos newline]
        simpa only [Position.behind, newline, if_true] using rest
      · have rest := Position.behind_le_behind c (ih (here + c.utf8Size) ⟨line + 1, column⟩)
        have place : Position.behind c ⟨line + 1, column⟩ = ⟨line + 1, column⟩ := by
          simp [Position.behind, newline]
        rw [if_neg newline]
        rwa [place] at rest

/-- The last line ends where the text does. -/
theorem byteSize_cut (here : Nat) (cs : List Char) : byteSize ⟨cut here here [] cs⟩ = here + utf8Length cs := by
  induction cs generalizing here with
  | nil => rfl
  | cons c cs ih =>
    rw [utf8Length_cons, ← Nat.add_assoc]
    by_cases newline : c = '\n'
    · subst newline
      obtain ⟨line, lines, cuts, -⟩ := cut_eq (here + 1) (here + 1) [] cs
      have rest := ih (here + 1)
      rw [cut, if_pos rfl]
      rw [cuts] at rest ⊢
      exact (byteSize_cons _ _ _).trans rest
    · obtain ⟨chars, lines, cuts, whole⟩ := cut_cons here newline cs
      have rest := ih (here + c.utf8Size)
      rw [cuts] at rest
      rw [whole, ← rest]
      cases lines with
      | nil => exact congrArg (here + ·) (utf8Length_cons c chars) |>.trans (Nat.add_assoc _ _ _).symm
      | cons => rfl

theorem byteSize_ofString (s : String) : (ofString s).byteSize = utf8Length s.toList :=
  (byteSize_cut 0 s.toList).trans (Nat.zero_add _)

section

variable {s : String} {b c : Nat}

/-- A boundary is where the text in front of its position ends. -/
theorem offset_position_of_isBoundary (h : Text.IsBoundary s b) :
    (ofString s).offset ((ofString s).position b) = b := by
  obtain ⟨front, ⟨rest, whole⟩, rfl⟩ := h
  rw [ofString, ← whole, offset_ofChars, before_position]

/-- Offsets of later positions are not smaller. -/
theorem offset_mono (s : String) {p q : Position} (h : p ≤ q) : (ofString s).offset p ≤ (ofString s).offset q := by
  rw [ofString, offset_ofChars, offset_ofChars]
  exact utf8Length_mono (Position.before_mono s.toList h)

theorem isBoundary_offset (s : String) (p : Position) : Text.IsBoundary s ((ofString s).offset p) :=
  ⟨before s.toList p, Position.before_prefix s.toList p, (offset_ofChars s.toList p).symm⟩

theorem position_offset_le (s : String) (p : Position) : (ofString s).position ((ofString s).offset p) ≤ p := by
  have le := position_before_le 0 s.toList p
  rw [Nat.zero_add] at le
  rwa [ofString, offset_ofChars]

/-- Later boundaries have later positions. -/
theorem position_lt_position (h : Text.IsBoundary s b) (h' : Text.IsBoundary s c) (lt : b < c) :
    (ofString s).position b < (ofString s).position c := by
  rcases Position.lt_or_le ((ofString s).position b) ((ofString s).position c) with later | notLater
  · exact later
  · have back := offset_mono s notLater
    rw [offset_position_of_isBoundary h, offset_position_of_isBoundary h'] at back
    omega

/-- Later offsets, boundaries or not, have no earlier positions. -/
theorem position_mono (s : String) {b c : Nat} (le : b ≤ c) : (ofString s).position b ≤ (ofString s).position c := by
  have down : ∀ offset, (ofString s).position offset =
      (ofString s).position (utf8Length (takeWithin Char.utf8Size offset s.toList)) := by
    intro offset
    have same := position_takeWithin 0 offset s.toList
    rwa [Nat.zero_add, Nat.zero_add] at same
  have boundary : ∀ offset, Text.IsBoundary s (utf8Length (takeWithin Char.utf8Size offset s.toList)) :=
    fun offset => ⟨_, takeWithin_prefix _ _ _, rfl⟩
  have fits := Nat.le_trans (utf8Length_takeWithin_le b s.toList) le
  rw [down b, down c]
  rcases Nat.lt_or_eq_of_le (utf8Length_le_takeWithin ( takeWithin_prefix _ _ _) fits) with lt | same
  · exact Position.le_of_lt (position_lt_position (boundary b) (boundary c) lt)
  · rw [same]
    exact Position.le_refl _

/-- The end of the longest beginning that fits is the greatest boundary that is not behind the offset. -/
theorem takeWithin_isGreatest (s : String) (offset : Nat) :
    IsGreatest {b | Text.IsBoundary s b ∧ b ≤ offset}
      (utf8Length (takeWithin Char.utf8Size offset s.toList)) := by
  constructor
  · exact ⟨⟨_, takeWithin_prefix _ _ _, rfl⟩, utf8Length_takeWithin_le offset s.toList⟩
  · rintro b ⟨⟨front, start, rfl⟩, le⟩
    exact utf8Length_le_takeWithin start le

/-- The offset of a position is the greatest boundary whose position is not behind it. -/
theorem offset_isGreatest (s : String) (p : Position) :
    IsGreatest {b | Text.IsBoundary s b ∧ (ofString s).position b ≤ p} ((ofString s).offset p) := by
  constructor
  · exact ⟨isBoundary_offset s p, position_offset_le s p⟩
  · rintro b ⟨boundary, le⟩
    have offsets := offset_mono s le
    rwa [offset_position_of_isBoundary boundary] at offsets

end

/-- Positions grow strictly with the boundaries of a text, and any other offset has the position of the
greatest boundary before it. The offset of any position whatsoever is the greatest boundary whose position is
not behind it, so to go from a boundary to its position and back gives the boundary. -/
theorem offset_adjoint_position (s : String) :
    (∀ b c, Text.IsBoundary s b → Text.IsBoundary s c → b < c →
      (ofString s).position b < (ofString s).position c) ∧
    (∀ offset, ∃ b, IsGreatest {b | Text.IsBoundary s b ∧ b ≤ offset} b ∧
      (ofString s).position offset = (ofString s).position b) ∧
    (∀ p, IsGreatest {b | Text.IsBoundary s b ∧ (ofString s).position b ≤ p} ((ofString s).offset p)) ∧
    ∀ b, Text.IsBoundary s b → (ofString s).offset ((ofString s).position b) = b := by
  refine ⟨fun b c => position_lt_position, fun offset => ?_, offset_isGreatest s, fun b =>
    offset_position_of_isBoundary⟩
  have position := position_takeWithin 0 offset s.toList
  rw [Nat.zero_add, Nat.zero_add] at position
  exact ⟨_, takeWithin_isGreatest s offset, position⟩

end LineTable

end C3Lens
