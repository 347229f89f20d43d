import C3Lens.Proofs.Blueprint.Lexing
import C3Lens.Proofs.TypeSyntax.Basic

/-!
# What the text of a form tells

The text of a form determines the form, and where the text ends in a longer one (`TypeForm.Spelled.text_append_inj`):
names consist of the characters of names, and suffixes and brackets of other ones. So types that are shown
alike have the same name, arguments and suffixes, as far as these are kept (`TypeSyntax.IsProper.text_form_inj`),
and a type is shown with all its suffixes just if it keeps them (`TypeSyntax.IsProper.kept_eq_declared_iff`).
-/

namespace C3Lens

open Token (Breaks isNamePart run_append)

/-- What consists of the characters of a class ends where another one comes. -/
theorem eq_of_append_breaks {p : Char → Bool} {cs ds x y : List Char} (hcs : ∀ c ∈ cs, p c = true)
    (hds : ∀ d ∈ ds, p d = true) (hx : Breaks p x) (hy : Breaks p y) (same : cs ++ x = ds ++ y) :
    cs = ds ∧ x = y := by
  have lengths : cs.length = ds.length := by
    rw [← run_append hcs hx, same, run_append hds hy]
  exact List.append_inj same lengths

/-! ## Suffixes -/

namespace TypeSuffix

theorem toList_toString (n : Nat) : (toString n).toList = Nat.toDigits 10 n :=
  String.toList_ofList

/-- What stands in the brackets of an array suffix. -/
def sizeChars (size? : Option Nat) : List Char :=
  (size?.map fun size => (toString size).toList).getD []

theorem toList_text_array (size? : Option Nat) : (array size?).text.toList = '[' :: (sizeChars size? ++ [']']) := by
  cases size? with
  | none => rfl
  | some size =>
    rw [text, Blueprint.markText, String.toList_append, String.toList_append]
    rfl

theorem sizeChars_inj {size? size?' : Option Nat} (same : sizeChars size? = sizeChars size?') : size? = size?' := by
  have some (n : Nat) : (toString n).toList ≠ [] := by
    rw [toList_toString]
    exact Nat.toDigits_ne_nil
  cases size? with
  | none =>
    cases size?' with
    | none => rfl
    | some n => exact absurd same.symm (some n)
  | some m =>
    cases size?' with
    | none => exact absurd same (some m)
    | some n =>
      have digits : (toString m).toList = (toString n).toList := same
      rw [toList_toString, toList_toString] at digits
      have values := congrArg (Nat.ofDigitChars 10 · 0) digits
      simp only [Nat.ofDigitChars_ten_toDigits] at values
      rw [values]

/-- A suffix is told from what follows. -/
theorem text_append_inj {s t : TypeSuffix} {x y : List Char} (same : s.text.toList ++ x = t.text.toList ++ y) :
    s = t ∧ x = y := by
  have star : pointer.text.toList = ['*'] := rfl
  have digits (size? : Option Nat) : ∀ c ∈ sizeChars size?, c.isDigit = true := by
    cases size? with
    | none => exact nofun
    | some size =>
      intro c (mem : c ∈ (toString size).toList)
      rw [toList_toString] at mem
      exact Nat.isDigit_of_mem_toDigits (by decide) (by decide) mem
  have closes (x : List Char) : Breaks Char.isDigit (']' :: x) := by
    rintro _ ⟨⟩
    rfl
  cases s with
  | pointer =>
    cases t with
    | pointer => exact ⟨rfl, List.append_cancel_left same⟩
    | array size? =>
      rw [star, toList_text_array] at same
      cases same
  | array size? =>
    cases t with
    | pointer =>
      rw [star, toList_text_array] at same
      cases same
    | array size?' =>
      rw [toList_text_array, toList_text_array] at same
      simp only [List.cons_append, List.append_assoc, List.cons.injEq, true_and, List.nil_append] at same
      obtain ⟨sizes, rest⟩ := eq_of_append_breaks (digits size?) (digits size?') (closes x) (closes y) same
      exact ⟨congrArg array (sizeChars_inj sizes), (List.cons.inj rest).2⟩

/-- A suffix begins with a star or a bracket. -/
theorem exists_text (s : TypeSuffix) : ∃ c cs, s.text.toList = c :: cs ∧ (c = '*' ∨ c = '[') := by
  cases s with
  | pointer => exact ⟨'*', [], rfl, .inl rfl⟩
  | array size? => exact ⟨'[', _, toList_text_array size?, .inr rfl⟩

theorem count_pointer_append (n : Nat) (size?? : Option (Option Nat)) :
    (List.replicate n pointer ++ (size??.map array).toList).count pointer = n := by
  rw [List.count_append, List.count_replicate_self]
  cases size?? <;> simp

theorem filterMap_array?_append (n : Nat) (size?? : Option (Option Nat)) :
    (List.replicate n pointer ++ (size??.map array).toList).filterMap array? = size??.toList := by
  have none : (List.replicate n pointer).filterMap array? = [] := by
    rw [List.filterMap_eq_nil_iff]
    intro s mem
    rw [List.eq_of_mem_replicate mem]
    rfl
  rw [List.filterMap_append, none]
  cases size?? <;> rfl

/-- All suffixes are kept just if they are few enough and in order. -/
theorem kept_eq_self_iff (suffixes : List TypeSuffix) : kept suffixes = suffixes ↔ AreKept suffixes := by
  constructor
  · intro same
    refine ⟨min (suffixes.count pointer) TypeRef.mostPointers, keptArray? suffixes, Nat.min_le_right _ _,
      fun size last => ?_, same.symm⟩
    obtain ⟨size?, -, small⟩ := Option.map_eq_some_iff.1 last
    exact of_decide_eq_true (Option.filter_eq_some_iff.1 small).2
  · rintro ⟨n, size??, few, small, rfl⟩
    have whole : keptArray? (List.replicate n pointer ++ (size??.map array).toList) = size?? := by
      rw [keptArray?, filterMap_array?_append]
      rcases size?? with _ | _ | size
      · rfl
      · rfl
      · have filtered : (some size).filter (· < 4294967296) = some size := by
          rw [Option.filter_some, if_pos (decide_eq_true (small size rfl))]
        exact congrArg some filtered
    rw [kept, whole, count_pointer_append, Nat.min_eq_left few]

end TypeSuffix

/-! ## Forms -/

namespace TypeForm

/-- The names in the form are made of characters of names. -/
inductive Spelled : TypeForm → Prop
  | named {name : String} {arguments : List TypeForm} {suffixes : List TypeSuffix} {isOptional : Bool}
      (parts : ∀ c ∈ name.toList, isNamePart c = true) (inner : ∀ a ∈ arguments, Spelled a) :
      Spelled (named name arguments suffixes isOptional)

/-- The end of the text, or what stands behind an argument. -/
def Ends (rest : List Char) : Prop :=
  ∀ c ∈ rest.head?, c = ',' ∨ c = '\x7d'

theorem ends_nil : Ends [] :=
  nofun

theorem ends_brace (rest : List Char) : Ends ('\x7d' :: rest) := by
  rintro _ ⟨⟩
  exact .inr rfl

theorem ends_comma (rest : List Char) : Ends (',' :: rest) := by
  rintro _ ⟨⟩
  exact .inl rfl

theorem toList_suffixText_nil (isOptional : Bool) :
    (suffixText [] isOptional).toList = if isOptional then ['?'] else [] := by
  cases isOptional <;> rfl

theorem toList_suffixText_cons (s : TypeSuffix) (ss : List TypeSuffix) (isOptional : Bool) :
    (suffixText (s :: ss) isOptional).toList = s.text.toList ++ (suffixText ss isOptional).toList := by
  simp [suffixText, String.toList_append, String.toList_join, List.append_assoc]

/-- The suffixes are told from what follows. -/
theorem suffixText_append_inj {ss ts : List TypeSuffix} {o p : Bool} {x y : List Char} (hx : Ends x) (hy : Ends y)
    (same : (suffixText ss o).toList ++ x = (suffixText ts p).toList ++ y) : ss = ts ∧ o = p ∧ x = y := by
  -- Behind the suffixes there is neither a star nor a bracket.
  have apart {s : TypeSuffix} {ss : List TypeSuffix} {o p : Bool} {x y : List Char} (hy : Ends y)
      (same : (suffixText (s :: ss) o).toList ++ x = (suffixText [] p).toList ++ y) : False := by
    obtain ⟨c, cs, chars, first⟩ := s.exists_text
    rw [toList_suffixText_cons, chars, toList_suffixText_nil] at same
    cases p with
    | true =>
      have heads : c = '?' := (List.cons.inj same).1
      rcases first with rfl | rfl <;> cases heads
    | false =>
      have ends := hy c (by
        have here : y = c :: _ := same.symm
        rw [here]
        rfl)
      rcases first with rfl | rfl <;> rcases ends with ends | ends <;> cases ends
  induction ss generalizing ts with
  | nil =>
    cases ts with
    | nil =>
      have mark {z : List Char} (hz : Ends z) (marked : '?' :: x = z ∨ '?' :: y = z) : False := by
        rcases marked with rfl | rfl <;> rcases hz '?' rfl with no | no <;> cases no
      rw [toList_suffixText_nil, toList_suffixText_nil] at same
      cases o <;> cases p
      · exact ⟨rfl, rfl, same⟩
      · exact (mark hx (.inr same.symm)).elim
      · exact (mark hy (.inl same)).elim
      · exact ⟨rfl, rfl, (List.cons.inj same).2⟩
    | cons t ts => exact (apart hx same.symm).elim
  | cons s ss ih =>
    cases ts with
    | nil => exact (apart hy same).elim
    | cons t ts =>
      rw [toList_suffixText_cons, toList_suffixText_cons, List.append_assoc, List.append_assoc] at same
      obtain ⟨rfl, rest⟩ := TypeSuffix.text_append_inj same
      obtain ⟨rfl, rfl, rfl⟩ := ih rest
      exact ⟨rfl, rfl, rfl⟩

/-- What stands behind a name: its arguments in braces, if there are any, and the suffixes. -/
def behindName (arguments : List TypeForm) (suffixes : List TypeSuffix) (isOptional : Bool) : List Char :=
  (if arguments.isEmpty then [] else '\x7b' :: ((textOfList arguments).toList ++ ['\x7d'])) ++
    (suffixText suffixes isOptional).toList

theorem toList_text (name : String) (arguments : List TypeForm) (suffixes : List TypeSuffix) (isOptional : Bool) :
    (named name arguments suffixes isOptional).text.toList =
      name.toList ++ behindName arguments suffixes isOptional := by
  rw [text, behindName]
  split <;> simp [String.toList_append]

/-- Suffixes and what stands behind them begin with a mark. -/
theorem head_suffixText (suffixes : List TypeSuffix) (isOptional : Bool) {x : List Char} (hx : Ends x) :
    ∀ c ∈ ((suffixText suffixes isOptional).toList ++ x).head?, c ∈ ['*', '[', '?', ',', '\x7d'] := by
  intro c head
  cases suffixes with
  | cons s ss =>
    obtain ⟨d, ds, chars, first⟩ := s.exists_text
    rw [toList_suffixText_cons, chars] at head
    cases head
    rcases first with rfl | rfl <;> decide
  | nil =>
    cases isOptional with
    | true =>
      cases head
      decide
    | false => rcases hx c head with rfl | rfl <;> decide

theorem behindName_cons (a : TypeForm) (as : List TypeForm) (suffixes : List TypeSuffix) (isOptional : Bool)
    (x : List Char) : behindName (a :: as) suffixes isOptional ++ x =
      '\x7b' :: ((textOfList (a :: as)).toList ++ '\x7d' :: ((suffixText suffixes isOptional).toList ++ x)) := by
  simp [behindName]

theorem breaks_behindName (arguments : List TypeForm) (suffixes : List TypeSuffix) (isOptional : Bool)
    {x : List Char} (hx : Ends x) : Breaks isNamePart (behindName arguments suffixes isOptional ++ x) := by
  intro c head
  cases arguments with
  | nil =>
    have marks : ['*', '[', '?', ',', '\x7d'].all (!isNamePart ·) = true := by decide
    simpa using List.all_eq_true.1 marks c (head_suffixText suffixes isOptional hx c head)
  | cons a as =>
    rw [behindName_cons] at head
    cases head
    decide

/-! ### The text determines the form -/

/-- The text of the form is told from what follows. -/
def IsTold (s : TypeForm) : Prop :=
  ∀ t : TypeForm, t.Spelled → ∀ x y, Ends x → Ends y → s.text.toList ++ x = t.text.toList ++ y → s = t ∧ x = y

theorem textOfList_cons_cons (a b : TypeForm) (as : List TypeForm) (x : List Char) :
    (textOfList (a :: b :: as)).toList ++ x =
      a.text.toList ++ ',' :: ' ' :: ((textOfList (b :: as)).toList ++ x) := by
  rw [textOfList, String.toList_append, String.toList_append, List.append_assoc, List.append_assoc]
  · rfl
  · nofun

/-- Arguments are told from what stands behind their closing brace. -/
theorem textOfList_append_inj {as bs : List TypeForm} (told : ∀ a ∈ as, IsTold a) (spelled : ∀ b ∈ bs, b.Spelled)
    (some : as ≠ []) (some' : bs ≠ []) {x y : List Char}
    (same : (textOfList as).toList ++ '\x7d' :: x = (textOfList bs).toList ++ '\x7d' :: y) : as = bs ∧ x = y := by
  induction as generalizing bs with
  | nil => exact absurd rfl some
  | cons a as ih =>
    obtain ⟨b, bs, rfl⟩ := List.exists_cons_of_ne_nil some'
    obtain ⟨first, others⟩ := List.forall_mem_cons.1 told
    obtain ⟨firstSpelled, othersSpelled⟩ := List.forall_mem_cons.1 spelled
    cases as with
    | nil =>
      cases bs with
      | nil =>
        obtain ⟨rfl, rest⟩ := first b firstSpelled _ _ (ends_brace x) (ends_brace y) same
        exact ⟨rfl, (List.cons.inj rest).2⟩
      | cons b' bs =>
        rw [textOfList_cons_cons] at same
        obtain ⟨-, rest⟩ := first b firstSpelled _ _ (ends_brace x) (ends_comma _) same
        exact absurd (List.cons.inj rest).1 (by decide)
    | cons a' as =>
      cases bs with
      | nil =>
        rw [textOfList_cons_cons] at same
        obtain ⟨-, rest⟩ := first b firstSpelled _ _ (ends_comma _) (ends_brace y) same
        exact absurd (List.cons.inj rest).1 (by decide)
      | cons b' bs =>
        rw [textOfList_cons_cons, textOfList_cons_cons] at same
        obtain ⟨rfl, rest⟩ := first b firstSpelled _ _ (ends_comma _) (ends_comma _) same
        obtain ⟨tails, ends⟩ := ih others othersSpelled (List.cons_ne_nil _ _) (List.cons_ne_nil _ _)
          (List.cons.inj (List.cons.inj rest).2).2
        exact ⟨congrArg _ tails, ends⟩

theorem behindName_append_inj {as bs : List TypeForm} (told : ∀ a ∈ as, IsTold a) (spelled : ∀ b ∈ bs, b.Spelled)
    {ss ts : List TypeSuffix} {o p : Bool} {x y : List Char} (hx : Ends x) (hy : Ends y)
    (same : behindName as ss o ++ x = behindName bs ts p ++ y) : as = bs ∧ ss = ts ∧ o = p ∧ x = y := by
  have noBrace {ss : List TypeSuffix} {o : Bool} {x z : List Char} (hx : Ends x)
      (begins : (suffixText ss o).toList ++ x = '\x7b' :: z) : False := by
    have mark := head_suffixText ss o hx '\x7b' (by rw [begins]; rfl)
    revert mark
    decide
  cases as with
  | nil =>
    cases bs with
    | nil => exact ⟨rfl, suffixText_append_inj hx hy same⟩
    | cons b bs =>
      rw [behindName_cons] at same
      exact (noBrace hx same).elim
  | cons a as =>
    cases bs with
    | nil =>
      rw [behindName_cons] at same
      exact (noBrace hy same.symm).elim
    | cons b bs =>
      rw [behindName_cons, behindName_cons] at same
      obtain ⟨arguments, rest⟩ := textOfList_append_inj told spelled (List.cons_ne_nil _ _) (List.cons_ne_nil _ _)
        (List.cons.inj same).2
      exact ⟨arguments, suffixText_append_inj hx hy rest⟩

theorem Spelled.isTold {s : TypeForm} (h : s.Spelled) : s.IsTold := by
  induction h with
  | named parts _ told =>
    intro t spelled x y hx hy same
    obtain ⟨parts', spelled⟩ := spelled
    rw [toList_text, toList_text, List.append_assoc, List.append_assoc] at same
    -- Behind a name stands no character of names, whatever the form is, so both names end at the same place.
    obtain ⟨names, behind⟩ :=
      eq_of_append_breaks parts parts' (breaks_behindName _ _ _ hx) (breaks_behindName _ _ _ hy) same
    obtain ⟨rfl, rfl, rfl, rfl⟩ := behindName_append_inj told spelled hx hy behind
    rw [String.toList_inj.1 names]
    exact ⟨rfl, rfl⟩

/-- Forms with the same text are the same. -/
theorem Spelled.text_inj {s t : TypeForm} (hs : s.Spelled) (ht : t.Spelled) (same : s.text = t.text) : s = t :=
  (hs.isTold t ht [] [] ends_nil ends_nil (by rw [same])).1

end TypeForm

/-! ## Types -/

namespace TypeSyntax

theorem formsOfList_eq_map (keep : List TypeSuffix → List TypeSuffix) (ts : List TypeSyntax) :
    formsOfList keep ts = ts.map (form keep) := by
  induction ts with
  | nil => rfl
  | cons t ts ih => rw [formsOfList, ih, List.map_cons]

theorem isNamePart_of_isTypeWord {name : String} (h : IsTypeWord name) : ∀ c ∈ name.toList, isNamePart c = true := by
  rcases h with builtin | ⟨written, -⟩
  · have all : builtinTypes.all (·.toList.all isNamePart) = true := by decide
    exact List.all_eq_true.1 (List.all_eq_true.1 all name (List.contains_iff_mem.1 builtin))
  · obtain ⟨c, cs, chars, start, parts⟩ := written.isSpelled.1
    rw [chars]
    refine List.forall_mem_cons.2 ⟨?_, parts⟩
    rw [Token.isNameStart, Bool.or_eq_true] at start
    rw [isNamePart, Char.isAlphanum, Bool.or_eq_true, Bool.or_eq_true]
    exact start.imp_left .inl

namespace IsProper

variable {t u : TypeSyntax} {keep keep' : List TypeSuffix → List TypeSuffix}

theorem spelled_form (h : t.IsProper) (keep : List TypeSuffix → List TypeSuffix) : (t.form keep).Spelled := by
  induction h with
  | named _ word _ _ _ ih =>
    rw [form, formsOfList_eq_map]
    exact .named (isNamePart_of_isTypeWord word) (List.forall_mem_map.2 ih)

/-- Types that are shown alike have the same forms. -/
theorem text_form_inj (ht : t.IsProper) (hu : u.IsProper) :
    (t.form keep).text = (u.form keep').text ↔ t.form keep = u.form keep' :=
  ⟨(ht.spelled_form keep).text_inj (hu.spelled_form keep'), congrArg TypeForm.text⟩

/-- All suffixes of a type and of its arguments are kept just if each of these keeps its own. -/
theorem kept_eq_declared_iff (h : t.IsProper) : t.kept = t.declared ↔ t.KeepsSuffixes := by
  induction h with
  | @named path name inBraces arguments marks _ _ _ _ _ ih =>
    have forms : (TypeSyntax.named path name inBraces arguments marks).kept =
          (TypeSyntax.named path name inBraces arguments marks).declared ↔
        (∀ a ∈ arguments, a.kept = a.declared) ∧
          TypeSuffix.kept (TypeMark.suffixes marks) = TypeMark.suffixes marks := by
      rw [kept, declared, form, form, formsOfList_eq_map, formsOfList_eq_map, TypeForm.named.injEq, List.map_inj_left]
      exact ⟨fun h => ⟨h.2.1, h.2.2.1⟩, fun h => ⟨rfl, h.1, h.2, rfl⟩⟩
    rw [forms, TypeSuffix.kept_eq_self_iff]
    constructor
    · rintro ⟨others, own⟩
      exact .named own fun a mem => (ih a mem).1 (others a mem)
    · rintro ⟨own, others⟩
      exact ⟨fun a mem => (ih a mem).2 (others a mem), own⟩

end IsProper

end TypeSyntax

end C3Lens
