import Mathlib.Data.List.DropRight
import C3Lens.Text.Blank

/-!
# White space and lines

White space is removed at the ends of a text and nowhere else (`toList_trim`). If it makes no difference
to a reader of lines, the lines of a text may be told apart by newlines alone (`filterMap_lines`).
-/

namespace C3Lens.Text

/-- Letters and digits are of ASCII. -/
theorem toNat_lt_of_isAlphanum {c : Char} (h : c.isAlphanum = true) : c.toNat < 128 := by
  have ranges : c.isAlphanum = (decide (c.val ≥ 'A'.val ∧ c.val ≤ 'Z'.val) ||
      (decide (c.val ≥ 'a'.val) && decide (c.val ≤ 'z'.val)) ||
      (decide (c.val ≥ '0'.val) && decide (c.val ≤ '9'.val))) := rfl
  simp only [ranges, Bool.or_eq_true, Bool.and_eq_true, decide_eq_true_eq, ge_iff_le,
    UInt32.le_iff_toNat_le] at h
  have last : 'Z'.val.toNat = 90 ∧ 'z'.val.toNat = 122 ∧ '9'.val.toNat = 57 := ⟨rfl, rfl, rfl⟩
  have value : c.val.toNat = c.toNat := rfl
  omega

/-! ## Ends of a text -/

theorem toList_trim (s : String) :
    (trim s).toList = (s.toList.dropWhile isSpace).rdropWhile isSpace := by
  rw [trim, trimBoth, trimLeft, trimRight, String.toList_ofList, String.toList_ofList]
  rfl

theorem trim_trim (s : String) : trim (trim s) = trim s := by
  have front : ∀ cs : List Char, (cs.dropWhile isSpace).rdropWhile isSpace =
      ((cs.dropWhile isSpace).rdropWhile isSpace).dropWhile isSpace := by
    intro cs
    have before : (cs.dropWhile isSpace).rdropWhile isSpace <+: cs.dropWhile isSpace :=
      List.rdropWhile_prefix isSpace _
    refine (List.dropWhile_eq_self_iff.2 fun some => ?_).symm
    rw [before.getElem some]
    exact List.dropWhile_get_zero_not isSpace cs _
  rw [← String.toList_inj, toList_trim (trim s), toList_trim s, ← front, List.rdropWhile_idempotent]

theorem isSpace_of_trim {s : String} (h : trim s = "") : ∀ c ∈ s.toList, isSpace c = true := by
  have nothing : (s.toList.dropWhile isSpace).rdropWhile isSpace = [] := by
    rw [← toList_trim, h]
    rfl
  refine List.dropWhile_eq_nil_iff.1 ?_
  by_contra more
  have some : 0 < (s.toList.dropWhile isSpace).length := List.length_pos_iff.2 more
  exact List.dropWhile_get_zero_not isSpace s.toList some
    (List.rdropWhile_eq_nil_iff.1 nothing _ (List.getElem_mem _))

theorem trim_of_forall {s : String} (h : ∀ c ∈ s.toList, isSpace c = false) : trim s = s := by
  have same : ∀ cs : List Char, (∀ c ∈ cs, isSpace c = false) → cs.dropWhile isSpace = cs := by
    intro cs hcs
    cases cs with
    | nil => rfl
    | cons c cs => rw [List.dropWhile_cons, hcs c List.mem_cons_self, if_neg Bool.false_ne_true]
  have back : ∀ c ∈ s.toList.reverse, isSpace c = false := fun c hc => h c (List.mem_reverse.1 hc)
  rw [trim, trimBoth, trimLeft, trimRight, String.toList_ofList, same _ h, same _ back,
    List.reverse_reverse, String.ofList_toList]

theorem trim_concat {c : Char} (blank : isSpace c = true) (cs : List Char) :
    trim (String.ofList (cs ++ [c])) = trim (String.ofList cs) := by
  rw [← String.toList_inj, toList_trim, toList_trim, String.toList_ofList, String.toList_ofList,
    List.dropWhile_append]
  split
  next nothing =>
    rw [List.isEmpty_iff.1 nothing, List.dropWhile_cons_of_pos blank]
    rfl
  next => exact List.rdropWhile_concat_pos isSpace _ c blank

theorem trim_cons {c : Char} (blank : isSpace c = true) (cs : List Char) :
    trim (String.ofList (c :: cs)) = trim (String.ofList cs) := by
  rw [← String.toList_inj, toList_trim, toList_trim, String.toList_ofList, String.toList_ofList,
    List.dropWhile_cons_of_pos blank]

theorem toList_trimRight (p : Char → Bool) (s : String) :
    ∃ cs, s.toList = (trimRight p s).toList ++ cs := by
  refine ⟨(s.toList.reverse.takeWhile p).reverse, ?_⟩
  rw [trimRight, String.toList_ofList, ← List.reverse_append, List.takeWhile_append_dropWhile,
    List.reverse_reverse]

theorem afterStart?_eq_some_iff {start s rest : String} :
    afterStart? start s = some rest ↔ s.toList = start.toList ++ rest.toList := by
  rw [afterStart?]
  constructor
  · intro h
    split at h
    next inside =>
      obtain ⟨behind, whole⟩ := List.isPrefixOf_iff_prefix.1 inside
      cases h
      rw [String.toList_ofList, ← whole, String.length, List.drop_left]
    next => cases h
  · intro h
    rw [if_pos (List.isPrefixOf_iff_prefix.2 ⟨_, h.symm⟩), h, String.length, List.drop_left, String.ofList_toList]

theorem beforeEnd?_append (tail s : String) : beforeEnd? tail (s ++ tail) = some s := by
  have ends : tail.toList.isSuffixOf (s ++ tail).toList = true := by
    rw [String.toList_append]
    exact List.isSuffixOf_iff_suffix.2 (List.suffix_append _ _)
  have length : (s ++ tail).length - tail.length = s.toList.length := by
    rw [String.length_append, Nat.add_sub_cancel, String.length_toList]
  rw [beforeEnd?, if_pos ends, length, String.toList_append, List.take_left, String.ofList_toList]

/-- A text does not end with a tail whose last character is not in it. -/
theorem beforeEnd?_append_eq_none {tail pre s : String} {c : Char} (last : tail.toList.getLast? = some c)
    (nonempty : s ≠ "") (h : c ∉ s.toList) : beforeEnd? tail (pre ++ s) = none := by
  have chars : s.toList ≠ [] := fun empty => nonempty (String.toList_eq_nil_iff.1 empty)
  rw [beforeEnd?, if_neg]
  intro suffix
  obtain ⟨front, same⟩ := List.isSuffixOf_iff_suffix.1 suffix
  have ends := congrArg List.getLast? same
  rw [String.toList_append, List.getLast?_append, last, Option.some_or,
    List.getLast?_append_of_ne_nil _ chars] at ends
  exact h (List.mem_of_getLast? ends.symm)

/-! ## Lines of a text -/

/-- Up to the next newline characters are collected. -/
theorem lines_append {cs : List Char} (short : '\n' ∉ cs) (current rest : List Char) :
    lines current (cs ++ rest) = lines (cs.reverse ++ current) rest := by
  induction cs generalizing current with
  | nil => rfl
  | cons c cs ih =>
    rw [List.mem_cons, not_or] at short
    rw [List.cons_append, lines, if_neg (Ne.symm short.1), ih short.2, List.reverse_cons, List.append_assoc,
      List.singleton_append]

/-- A newline ends the line that was collected, of which it takes at most a carriage return. -/
theorem lines_newline (current rest : List Char) :
    ∃ line, lines current ('\n' :: rest) = line :: lines [] rest ∧
      trim line = trim (String.ofList current.reverse) := by
  refine ⟨_, if_pos rfl, ?_⟩
  split
  next carriage =>
    obtain ⟨front, rfl⟩ := List.head?_eq_some_iff.1 carriage
    rw [List.reverse_cons, trim_concat (by decide)]
    rfl
  next => rfl

/-- What is read of the lines of a text, if white space at the ends of a line makes no difference. -/
theorem filterMap_lines {α : Type} {f : String → Option α}
    (same : ∀ s t : String, trim s = trim t → f s = f t) (nothing : f "" = none) :
    ∀ css : List (List Char), (∀ cs ∈ css, '\n' ∉ cs) →
      (lines [] (['\n'].intercalate css)).filterMap f = css.filterMap fun cs => f (String.ofList cs)
  | [], _ => rfl
  | [cs], short => by
    have whole := lines_append (short cs List.mem_cons_self) [] []
    rw [List.append_nil] at whole
    rw [List.intercalate_singleton, whole]
    cases cs with
    | nil => exact (List.filterMap_cons_none nothing).symm
    | cons c cs =>
      rw [lines, if_neg (by simp), List.append_nil, List.reverse_reverse]
      rfl
  | cs :: next :: css, short => by
    have rest := filterMap_lines same nothing (next :: css) fun ds hds => short ds (List.mem_cons_of_mem _ hds)
    obtain ⟨line, cut, trimmed⟩ := lines_newline (cs.reverse ++ []) (['\n'].intercalate (next :: css))
    rw [List.intercalate_cons_cons, List.append_assoc, List.singleton_append,
      lines_append (short cs List.mem_cons_self), cut, List.filterMap_cons, List.filterMap_cons, rest,
      same _ _ trimmed, List.append_nil, List.reverse_reverse]

end C3Lens.Text
