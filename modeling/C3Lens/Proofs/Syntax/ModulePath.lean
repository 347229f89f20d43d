import C3Lens.Outline.Scope
import C3Lens.Proofs.Cursor.Word
import C3Lens.Proofs.Symbol.Written
import C3Lens.Proofs.Syntax.Place
import C3Lens.Proofs.Text.Blank

/-!
# Paths of modules in the text

The path of a module is written with identifiers and pairs of colons, so no name that is read from it
has a colon. Written out again, such names are read back (`Parse.storable_path`).
-/

namespace C3Lens

/-! ## Colons in pairs -/

namespace ModulePath

/-- The colons stand in pairs. -/
inductive ColonPairs : List Char → Prop
  | nil : ColonPairs []
  | char {c : Char} {cs : List Char} (other : c ≠ ':') : ColonPairs cs → ColonPairs (c :: cs)
  | pair {cs : List Char} : ColonPairs cs → ColonPairs (':' :: ':' :: cs)

theorem ColonPairs.append {cs ds : List Char} (h : ColonPairs cs) (k : ColonPairs ds) :
    ColonPairs (cs ++ ds) := by
  induction h with
  | nil => exact k
  | char other _ ih => exact .char other ih
  | pair _ ih => exact .pair ih

theorem colonPairs_of_notMem {cs : List Char} (h : ':' ∉ cs) : ColonPairs cs := by
  induction cs with
  | nil => exact .nil
  | cons c cs ih =>
    exact .char (fun same => h (same ▸ List.mem_cons_self)) (ih fun mem => h (List.mem_cons_of_mem _ mem))

theorem splitColons_char {c : Char} (other : c ≠ ':') (current cs : List Char) :
    splitColons current (c :: cs) = splitColons (c :: current) cs := by
  cases cs with
  | nil => rfl
  | cons d cs => rw [splitColons, if_neg fun both => other both.1]

theorem splitColons_pair (current cs : List Char) :
    splitColons current (':' :: ':' :: cs) = String.ofList current.reverse :: splitColons [] cs := by
  rw [splitColons, if_pos ⟨rfl, rfl⟩]

/-- Cut at all pairs of colons, no colon is left. -/
theorem notMem_of_mem_splitColons {cs : List Char} (h : ColonPairs cs) {current : List Char}
    (clean : ':' ∉ current) : ∀ part ∈ splitColons current cs, ':' ∉ part.toList := by
  induction h generalizing current with
  | nil =>
    rw [splitColons, List.forall_mem_singleton, String.toList_ofList]
    exact fun mem => clean (List.mem_reverse.1 mem)
  | char other _ ih =>
    rw [splitColons_char other]
    exact ih fun mem => (List.mem_cons.1 mem).elim (other ·.symm) clean
  | pair _ ih =>
    rw [splitColons_pair, List.forall_mem_cons, String.toList_ofList]
    exact ⟨fun mem => clean (List.mem_reverse.1 mem), ih List.not_mem_nil⟩

theorem splitColons_ne_nil (current cs : List Char) : splitColons current cs ≠ [] := by
  fun_induction splitColons current cs with
  | case1 => exact List.cons_ne_nil _ _
  | case2 => exact List.cons_ne_nil _ _
  | case3 => exact List.cons_ne_nil _ _
  | case4 _ _ _ _ _ ih => exact ih

/-- What is not cut has no colons. -/
theorem splitColons_singleton {cs : List Char} (h : ColonPairs cs) {current : List Char} {part : String}
    (whole : splitColons current cs = [part]) : part.toList = current.reverse ++ cs := by
  induction h generalizing current with
  | nil =>
    rw [splitColons, List.singleton_inj] at whole
    rw [← whole, String.toList_ofList, List.append_nil]
  | char other _ ih =>
    rw [splitColons_char other] at whole
    rw [ih whole, List.reverse_cons, List.append_assoc, List.singleton_append]
  | pair _ _ =>
    rw [splitColons_pair, List.cons.injEq] at whole
    exact absurd whole.2 (splitColons_ne_nil _ _)

/-! ## Names that are read back -/

theorem splitColons_name {name : List Char} (clean : ':' ∉ name) (current cs : List Char) :
    splitColons current (name ++ cs) = splitColons (name.reverse ++ current) cs := by
  induction name generalizing current with
  | nil => rfl
  | cons c name ih =>
    rw [List.cons_append, splitColons_char (fun same => clean (same ▸ List.mem_cons_self)),
      ih fun mem => clean (List.mem_cons_of_mem _ mem), List.reverse_cons, List.append_assoc,
      List.singleton_append]

/-- Names without colons are what their text is cut into. -/
theorem splitColons_intercalate {name : String} {names : List String} (clean : ':' ∉ name.toList)
    (others : ∀ n ∈ names, ':' ∉ n.toList) :
    splitColons [] ("::".intercalate (name :: names)).toList = name :: names := by
  induction names generalizing name with
  | nil =>
    rw [String.intercalate_singleton, splitColons_of_notMem clean, List.reverse_nil, List.nil_append,
      String.ofList_toList]
  | cons next names ih =>
    have ⟨cleanNext, rest⟩ := List.forall_mem_cons.1 others
    rw [String.intercalate_cons_cons, String.toList_append, String.toList_append, List.append_assoc,
      splitColons_name clean, List.append_nil]
    calc splitColons name.toList.reverse ("::".toList ++ ("::".intercalate (next :: names)).toList)
      _ = String.ofList name.toList.reverse.reverse ::
          splitColons [] ("::".intercalate (next :: names)).toList := splitColons_pair _ _
      _ = name :: next :: names := by
        rw [List.reverse_reverse, String.ofList_toList, ih cleanNext rest]

/-- Names without colons and without blanks around them are read back. -/
theorem storable_of_names {names : List String}
    (clean : ∀ n ∈ names, ':' ∉ n.toList ∧ Text.trim n = n) (named : names ≠ [""]) :
    Storable ⟨names⟩ := by
  cases names with
  | nil => rfl
  | cons name names =>
    have cut : splitColons [] (text ⟨name :: names⟩).toList = name :: names :=
      splitColons_intercalate (clean name List.mem_cons_self).1 fun n hn =>
        (clean n (List.mem_cons_of_mem _ hn)).1
    have some : text ⟨name :: names⟩ ≠ "" := by
      intro nothing
      rw [nothing] at cut
      exact named cut.symm
    rw [Storable, parse, if_neg (beq_iff_eq.not.2 some), cut]
    exact congrArg mk ((List.map_congr_left fun n hn => (clean n hn).2).trans (List.map_id _))

/-- A path is read back if the colons of the text from which it was read stand in pairs, and the text
does not consist of blanks. -/
theorem storable_parse {s : String} (pairs : ColonPairs s.toList)
    (visible : ∃ c ∈ s.toList, Text.isSpace c = false) : (parse s).Storable := by
  obtain ⟨c, hc, seen⟩ := visible
  have some : s ≠ "" := by
    rintro rfl
    cases hc
  rw [parse, if_neg (beq_iff_eq.not.2 some)]
  refine storable_of_names (List.forall_mem_map.2 fun part hp => ⟨?_, Text.trim_trim part⟩) fun blank => ?_
  · intro colon
    rw [Text.toList_trim] at colon
    exact notMem_of_mem_splitColons pairs List.not_mem_nil part hp
      ((List.dropWhile_suffix _).subset ((List.rdropWhile_prefix _ _).subset colon))
  · obtain ⟨part, whole, trimmed⟩ := List.map_eq_singleton_iff.1 blank
    have same : part.toList = s.toList := splitColons_singleton pairs whole
    have space := Text.isSpace_of_trim trimmed c (same ▸ hc)
    rw [seen] at space
    cases space

end ModulePath

/-! ## The text of a path -/

namespace Token

/-- The colons of what paths are written with stand in pairs. -/
theorem colonPairs_of_isPathPart {t : Token} {cs : List Char} (h : t ∈ ofChars cs)
    (part : t.kind.isPathPart = true) : ModulePath.ColonPairs t.text.toList := by
  cases kind : t.kind <;> rw [kind] at part <;> try cases part
  case ident =>
    obtain ⟨c, rest, chars, first, others⟩ := isIdentifier_of_isName h (by rw [kind]; rfl)
    rw [chars]
    refine ModulePath.colonPairs_of_notMem fun mem => ?_
    rcases List.mem_cons.1 mem with rfl | later
    · rcases first with word | mark | mark
      · exact (plain_of_isWordPart word).2.1 rfl
      · cases mark
      · cases mark
    · exact (plain_of_isWordPart (others _ later)).2.1 rfl
  case colonColon =>
    rw [text_of_colonColon h kind]
    exact .pair .nil

theorem visible_of_isPathPart {t : Token} {cs : List Char} (h : t ∈ ofChars cs)
    (part : t.kind.isPathPart = true) : ∃ c ∈ t.text.toList, Text.isSpace c = false := by
  cases kind : t.kind <;> rw [kind] at part <;> try cases part
  case ident =>
    obtain ⟨c, rest, chars, first, -⟩ := isIdentifier_of_isName h (by rw [kind]; rfl)
    rw [chars]
    refine ⟨c, List.mem_cons_self, ?_⟩
    rcases first with word | rfl | rfl
    · exact (plain_of_isWordPart word).2.2.2
    · rfl
    · rfl
  case colonColon =>
    rw [text_of_colonColon h kind]
    exact ⟨':', List.mem_cons_self, rfl⟩

end Token

namespace Tree

/-- Joined with blanks between them, texts with colons in pairs make such a text. -/
theorem colonPairs_joinCompact {ts : List Token}
    (h : ∀ t ∈ ts, t.kind.isTrivia = true ∨ ModulePath.ColonPairs t.text.toList) (blank : Bool) :
    ModulePath.ColonPairs (joinCompact blank ts).toList := by
  induction ts generalizing blank with
  | nil => exact .nil
  | cons t ts ih =>
    have ⟨first, others⟩ := List.forall_mem_cons.1 h
    rw [joinCompact]
    split
    next => exact ih others true
    next significant =>
      have space : ModulePath.ColonPairs (if blank then " " else "").toList := by
        split
        · exact .char (by decide) .nil
        · exact .nil
      rw [String.toList_append, String.toList_append]
      exact (space.append (first.resolve_left significant)).append (ih others false)

theorem mem_joinCompact {t : Token} (significant : ¬ t.kind.isTrivia = true) (ts : List Token) :
    ∀ c ∈ t.text.toList, c ∈ (joinCompact false (t :: ts)).toList := by
  intro c hc
  rw [joinCompact, if_neg significant, String.toList_append, String.toList_append]
  exact List.mem_append_left _ (List.mem_append_right _ hc)

/-- The path that is read from parts of paths is read back from what is written of it. -/
theorem storable_path {tree : Tree} {cs : List Char} (inText : ∀ t ∈ tree.tokens, t ∈ Token.ofChars cs)
    (parts : ∀ t ∈ tree.tokens, t.kind.isTrivia = true ∨ t.kind.isPathPart = true) :
    (ModulePath.parse tree.compactText).Storable := by
  rw [compactText]
  have kept := List.dropWhile_suffix (l := tree.tokens) fun t => t.kind.isTrivia
  cases dropped : tree.tokens.dropWhile fun t => t.kind.isTrivia with
  | nil => rfl
  | cons t ts =>
    rw [dropped] at kept
    have significant : ¬ t.kind.isTrivia = true := by
      have head := List.head_dropWhile_not (fun t : Token => t.kind.isTrivia)
        (l := tree.tokens) (by rw [dropped]; exact List.cons_ne_nil _ _)
      simpa [dropped] using head
    have first : t ∈ tree.tokens := kept.subset List.mem_cons_self
    have pairs : ∀ t ∈ tree.tokens, t.kind.isTrivia = true ∨ ModulePath.ColonPairs t.text.toList :=
      fun t ht => (parts t ht).imp_right (Token.colonPairs_of_isPathPart (inText t ht))
    obtain ⟨c, hc, seen⟩ :=
      Token.visible_of_isPathPart (inText t first) ((parts t first).resolve_left significant)
    refine ModulePath.storable_parse (colonPairs_joinCompact (fun u hu => pairs u (kept.subset hu)) false) ?_
    exact ⟨c, mem_joinCompact significant ts c hc, seen⟩

end Tree

namespace Tree

mutual

theorem tokens_subset_of_mem (t : Tree) {start : Nat} {p : Place} (h : p ∈ t.placesFrom start) :
    p.tree.tokens ⊆ t.tokens := by
  match t with
  | .leaf _ =>
    cases List.mem_singleton.1 h
    exact List.Subset.refl _
  | .node _ ts =>
    rcases List.mem_cons.1 h with rfl | below
    · exact List.Subset.refl _
    · exact tokens_subset_of_mem_list ts below

theorem tokens_subset_of_mem_list (ts : List Tree) {start : Nat} {p : Place}
    (h : p ∈ placesOfList start ts) : p.tree.tokens ⊆ tokensOfList ts := by
  match ts with
  | [] => cases h
  | t :: ts =>
    rcases List.mem_append.1 h with here | later
    · exact List.subset_append_of_subset_left _ (tokens_subset_of_mem t here)
    · exact List.subset_append_of_subset_right _ (tokens_subset_of_mem_list ts later)

end

end Tree

/-- The paths of modules in the tree of a text are read back from what is written of them. -/
theorem Parse.storable_path (s : String) {p : Place} (h : p ∈ (ofString s).root.descendants)
    (path : p.isNode .modulePath = true) : (ModulePath.parse p.tree.compactText).Storable := by
  obtain ⟨start, tree⟩ := p
  obtain ⟨tokens, formed⟩ := tree_ofString s
  have inText : ∀ t ∈ tree.tokens, t ∈ Token.ofString s := fun t ht =>
    tokens ▸ Tree.tokens_subset_of_mem _ h ht
  cases tree with
  | leaf => cases path
  | node kind children =>
    obtain rfl : kind = .modulePath := Option.some.inj (beq_iff_eq.1 path)
    exact Tree.storable_path inText ((formed.fits h).path rfl)

end C3Lens
