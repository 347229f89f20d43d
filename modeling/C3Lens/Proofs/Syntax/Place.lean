import C3Lens.Outline.Scope
import C3Lens.Proofs.Syntax.Identifier
import C3Lens.Proofs.Syntax.Parse
import C3Lens.Proofs.Text.Line

/-!
# Places in a tree

What stands below a place is among its descendants (`Place.descendants_subset`), and so is the first
token, at the place where the whole begins (`Place.mem_descendants_of_firstLeaf?`). A place spells a
text at a range if the range is that of one of its tokens and the token reads so (`Place.Spells`); it
names a text if the token begins a name (`Place.Names`).

A token stands in the text at its place: in front of it are as many bytes as the place says
(`Tree.exists_tokens_of_mem`). So a name in the tree of a text is an identifier that stands in the text
at the range of the name (`Parse.exists_of_names`).
-/

namespace C3Lens

namespace Tree

theorem placesFrom_subset_of_mem_line {start : Nat} {ts : List Tree} {q : Place}
    (h : q ∈ Place.line start ts) : q.descendants ⊆ placesOfList start ts := by
  induction ts generalizing start with
  | nil => cases h
  | cons t ts ih =>
    rw [placesOfList]
    rcases List.mem_cons.1 h with rfl | later
    · exact List.subset_append_left _ _
    · exact List.subset_append_of_subset_right _ (ih later)

mutual

theorem width_of_tokens_eq_nil (t : Tree) (h : t.tokens = []) : t.width = 0 := by
  match t with
  | .leaf _ => cases h
  | .node _ ts => exact widthOfList_of_tokens_eq_nil ts h

theorem widthOfList_of_tokens_eq_nil (ts : List Tree) (h : tokensOfList ts = []) : widthOfList ts = 0 := by
  match ts with
  | [] => rfl
  | t :: ts =>
    rw [tokensOfList, List.append_eq_nil_iff] at h
    rw [widthOfList, width_of_tokens_eq_nil t h.1, widthOfList_of_tokens_eq_nil ts h.2]

end

mutual

theorem firstToken_mem_placesFrom (t : Tree) (start : Nat) (token : Token)
    (h : t.tokens.head? = some token) : ⟨start, .leaf token⟩ ∈ t.placesFrom start := by
  match t with
  | .leaf _ =>
    cases h
    exact List.mem_cons_self
  | .node _ ts => exact List.mem_cons_of_mem _ (firstToken_mem_placesOfList ts start token h)

theorem firstToken_mem_placesOfList (ts : List Tree) (start : Nat) (token : Token)
    (h : (tokensOfList ts).head? = some token) : ⟨start, .leaf token⟩ ∈ placesOfList start ts := by
  match ts with
  | [] => cases h
  | t :: ts =>
    rw [tokensOfList] at h
    rw [placesOfList]
    cases tokens : t.tokens with
    | nil =>
      -- A tree without tokens takes no bytes, so what follows it begins where it does.
      rw [tokens] at h
      rw [width_of_tokens_eq_nil t tokens]
      exact List.mem_append_right _ (firstToken_mem_placesOfList ts start token h)
    | cons first others =>
      rw [tokens, List.cons_append] at h
      refine List.mem_append_left _ (firstToken_mem_placesFrom t start token ?_)
      rw [tokens]
      exact h

end

mutual

/-- What is below a place is below everything that the place is below. -/
theorem placesFrom_subset_of_mem (t : Tree) {start : Nat} {q : Place} (h : q ∈ t.placesFrom start) :
    q.descendants ⊆ t.placesFrom start := by
  match t with
  | .leaf _ =>
    cases List.mem_singleton.1 h
    exact List.Subset.refl _
  | .node _ ts =>
    rcases List.mem_cons.1 h with rfl | below
    · exact List.Subset.refl _
    · exact List.subset_cons_of_subset _ (placesOfList_subset_of_mem ts below)

theorem placesOfList_subset_of_mem (ts : List Tree) {start : Nat} {q : Place}
    (h : q ∈ placesOfList start ts) : q.descendants ⊆ placesOfList start ts := by
  match ts with
  | [] => cases h
  | t :: ts =>
    rcases List.mem_append.1 h with here | later
    · exact List.subset_append_of_subset_left _ (placesFrom_subset_of_mem t here)
    · exact List.subset_append_of_subset_right _ (placesOfList_subset_of_mem ts later)

end

end Tree

namespace Place

theorem descendants_of_children (p : Place) : Tree.placesOfList p.start p.tree.children ⊆ p.descendants := by
  obtain ⟨start, t⟩ := p
  cases t with
  | leaf => exact List.nil_subset _
  | node => exact List.subset_cons_self _ _

theorem descendants_subset {p q : Place} (h : q ∈ p.children) : q.descendants ⊆ p.descendants :=
  List.Subset.trans (Tree.placesFrom_subset_of_mem_line h) p.descendants_of_children

/-- What is found among the children is below everything that the place is below. -/
theorem descendants_subset_of_find? {p q root : Place} {f : Place → Bool}
    (h : p.children.find? f = some q) (below : p.descendants ⊆ root.descendants) :
    q.descendants ⊆ root.descendants :=
  List.Subset.trans (descendants_subset (List.mem_of_find?_eq_some h)) below

theorem mem_descendants_of_firstLeaf? {p leaf : Place} (h : p.firstLeaf? = some leaf) :
    ∃ token, leaf = ⟨p.start, .leaf token⟩ ∧ leaf ∈ p.descendants := by
  obtain ⟨token, first, rfl⟩ := Option.map_eq_some_iff.1 h
  exact ⟨token, rfl, Tree.firstToken_mem_placesFrom p.tree p.start token first⟩

/-- A token at or below the place reads `text`, and it stands at the range. -/
def Spells (p : Place) (lines : LineTable) (text : String) (range : Range) : Prop :=
  ∃ start token, ⟨start, .leaf token⟩ ∈ p.descendants ∧ token.text = text ∧
    range = ⟨lines.position start, lines.position (start + token.width)⟩

variable {p q : Place} {text : String} {range : Range}

theorem Spells.mono {lines : LineTable} (h : p.Spells lines text range)
    (below : p.descendants ⊆ q.descendants) : q.Spells lines text range := by
  obtain ⟨start, token, mem, reads, stands⟩ := h
  exact ⟨start, token, below mem, reads, stands⟩

theorem spells_of_firstLeaf? {leaf : Place} (h : p.firstLeaf? = some leaf) (scope : Scope) :
    p.Spells scope.lines leaf.text (scope.range leaf) := by
  obtain ⟨token, rfl, mem⟩ := mem_descendants_of_firstLeaf? h
  refine ⟨p.start, token, mem, ?_, rfl⟩
  exact String.empty_append.symm

theorem spells_of_nameLeaf? {leaf : Place} (h : p.nameLeaf? = some leaf) (scope : Scope) :
    p.Spells scope.lines leaf.text (scope.range leaf) := by
  obtain ⟨name, child, first⟩ := Option.bind_eq_some_iff.1 h
  exact (spells_of_firstLeaf? first scope).mono (descendants_subset (List.mem_of_find?_eq_some child))

theorem spells_of_mem_nameLeaves {leaf : Place} (h : leaf ∈ p.nameLeaves) (scope : Scope) :
    p.Spells scope.lines leaf.text (scope.range leaf) := by
  obtain ⟨name, child, first⟩ := List.mem_filterMap.1 h
  exact (spells_of_firstLeaf? first scope).mono (descendants_subset (List.mem_filter.1 child).1)

/-! ## Names -/

/-- A name at or below the place begins with a token that reads `text` and stands at the range. -/
def Names (p : Place) (lines : LineTable) (text : String) (range : Range) : Prop :=
  ∃ name leaf, name ∈ p.descendants ∧ name.isNode .name = true ∧ name.firstLeaf? = some leaf ∧
    leaf.text = text ∧ range = ⟨lines.position leaf.start, lines.position leaf.stop⟩

theorem Names.mono {lines : LineTable} (h : p.Names lines text range)
    (below : p.descendants ⊆ q.descendants) : q.Names lines text range := by
  obtain ⟨name, leaf, mem, rest⟩ := h
  exact ⟨name, leaf, below mem, rest⟩

/-- A name spells its text. -/
theorem Names.spells {lines : LineTable} (h : p.Names lines text range) : p.Spells lines text range := by
  obtain ⟨name, leaf, mem, -, first, rfl, rfl⟩ := h
  obtain ⟨token, rfl, below⟩ := mem_descendants_of_firstLeaf? first
  exact ⟨name.start, token, Tree.placesFrom_subset_of_mem _ mem below, String.empty_append.symm, rfl⟩

theorem mem_descendants_self (p : Place) : p ∈ p.descendants := by
  obtain ⟨start, t⟩ := p
  cases t with
  | leaf => exact List.mem_cons_self
  | node => exact List.mem_cons_self

theorem names_of_firstLeaf? {name leaf : Place} (child : name ∈ p.children)
    (kind : name.isNode .name = true) (first : name.firstLeaf? = some leaf) (scope : Scope) :
    p.Names scope.lines leaf.text (scope.range leaf) :=
  ⟨name, leaf, descendants_subset child name.mem_descendants_self, kind, first, rfl, rfl⟩

theorem names_of_nameLeaf? {leaf : Place} (h : p.nameLeaf? = some leaf) (scope : Scope) :
    p.Names scope.lines leaf.text (scope.range leaf) := by
  obtain ⟨name, child, first⟩ := Option.bind_eq_some_iff.1 h
  have kind := List.find?_some child
  exact names_of_firstLeaf? (List.mem_of_find?_eq_some child) kind first scope

theorem names_of_mem_nameLeaves {leaf : Place} (h : leaf ∈ p.nameLeaves) (scope : Scope) :
    p.Names scope.lines leaf.text (scope.range leaf) := by
  obtain ⟨name, child, first⟩ := List.mem_filterMap.1 h
  obtain ⟨mem, kind⟩ := List.mem_filter.1 child
  exact names_of_firstLeaf? mem kind first scope

end Place

end C3Lens

/-! ## Names of a tree in the text -/

namespace C3Lens

/-- The characters of tokens. -/
def Token.charsOf (ts : List Token) : List Char :=
  ts.flatMap (·.text.toList)

@[simp] theorem Token.charsOf_append (ts us : List Token) : charsOf (ts ++ us) = charsOf ts ++ charsOf us :=
  List.flatMap_append

theorem utf8Length_toList (s : String) : utf8Length s.toList = s.utf8ByteSize := by
  have bytes : ∀ cs : List Char, (String.ofList cs).utf8ByteSize = utf8Length cs := by
    intro cs
    induction cs with
    | nil => rfl
    | cons c cs ih =>
      rw [← List.singleton_append, String.ofList_append, String.utf8ByteSize_append, ih,
        ← String.singleton_eq_ofList, String.utf8ByteSize_singleton]
      rfl
  rw [← bytes, String.ofList_toList]

namespace Tree

mutual

theorem width_eq (t : Tree) : t.width = utf8Length (Token.charsOf t.tokens) := by
  match t with
  | .leaf token =>
    rw [width, tokens, Token.charsOf, List.flatMap_singleton, utf8Length_toList, Token.width]
  | .node _ ts =>
    rw [width, tokens]
    exact widthOfList_eq ts

theorem widthOfList_eq (ts : List Tree) : widthOfList ts = utf8Length (Token.charsOf (tokensOfList ts)) := by
  match ts with
  | [] => rfl
  | t :: ts =>
    rw [widthOfList, tokensOfList, Token.charsOf_append, utf8Length_append, width_eq t, widthOfList_eq ts]

end

mutual

/-- In front of a token below a place stand the bytes between the two. -/
theorem exists_tokens_of_mem (t : Tree) {start at' : Nat} {token : Token}
    (h : ⟨at', .leaf token⟩ ∈ t.placesFrom start) :
    ∃ front behind, t.tokens = front ++ token :: behind ∧
      at' = start + utf8Length (Token.charsOf front) := by
  match t with
  | .leaf _ =>
    rw [placesFrom, List.mem_singleton] at h
    cases h
    exact ⟨[], [], rfl, rfl⟩
  | .node _ ts =>
    rcases List.mem_cons.1 h with same | below
    · cases same
    · exact exists_tokens_of_mem_list ts below

theorem exists_tokens_of_mem_list (ts : List Tree) {start at' : Nat} {token : Token}
    (h : ⟨at', .leaf token⟩ ∈ placesOfList start ts) :
    ∃ front behind, tokensOfList ts = front ++ token :: behind ∧
      at' = start + utf8Length (Token.charsOf front) := by
  match ts with
  | [] => cases h
  | t :: ts =>
    rw [tokensOfList]
    rcases List.mem_append.1 h with here | later
    · obtain ⟨front, behind, tokens, offset⟩ := exists_tokens_of_mem t here
      exact ⟨front, behind ++ tokensOfList ts, by rw [tokens]; simp, offset⟩
    · obtain ⟨front, behind, tokens, offset⟩ := exists_tokens_of_mem_list ts later
      refine ⟨t.tokens ++ front, behind, by rw [tokens]; simp, ?_⟩
      rw [offset, t.width_eq, Token.charsOf_append, utf8Length_append, Nat.add_assoc]

end

end Tree

namespace Parse

/-- A name in the tree of a text is an identifier, and it stands in the text where its range is. -/
theorem exists_of_names {s name : String} {lines : LineTable} {range : Range}
    (h : (ofString s).root.Names lines name range) :
    Token.IsIdentifier name.toList ∧ ∃ front behind, s.toList = front ++ name.toList ++ behind ∧
      range = ⟨lines.position (utf8Length front), lines.position (utf8Length (front ++ name.toList))⟩ := by
  obtain ⟨⟨start, t⟩, leaf, mem, kind, first, text, stands⟩ := h
  obtain ⟨tokens, formed⟩ := tree_ofString s
  obtain ⟨children, rfl⟩ : ∃ children, t = .node .name children := by
    cases t with
    | leaf => cases kind
    | node kind' children =>
      have same : kind' = .name := Option.some.inj (beq_iff_eq.1 kind)
      exact ⟨children, by rw [same]⟩
  obtain ⟨token, rfl, identifier⟩ := (formed.fits mem).name rfl
  obtain rfl : (⟨start, .leaf token⟩ : Place) = leaf := Option.some.inj first
  have reads : token.text = name := String.empty_append.symm.trans text
  have below : (⟨start, .leaf token⟩ : Place) ∈ (ofString s).tree.placesFrom 0 :=
    Tree.placesFrom_subset_of_mem _ mem (List.mem_cons_of_mem _ List.mem_cons_self)
  obtain ⟨front, behind, split, offset⟩ := Tree.exists_tokens_of_mem _ below
  rw [tokens] at split
  have chars : s.toList = Token.charsOf front ++ name.toList ++ Token.charsOf behind := by
    rw [← Token.flatMap_ofChars s.toList]
    refine (congrArg Token.charsOf split).trans ?_
    rw [← reads, Token.charsOf_append, List.append_assoc]
    rfl
  have inText : token ∈ Token.ofString s := split ▸ List.mem_append_right _ List.mem_cons_self
  refine ⟨reads ▸ Token.isIdentifier_of_isName inText identifier, _, _, chars, ?_⟩
  rw [Nat.zero_add] at offset
  rw [stands, utf8Length_append, ← offset, ← reads, utf8Length_toList]
  rfl

end Parse

end C3Lens
