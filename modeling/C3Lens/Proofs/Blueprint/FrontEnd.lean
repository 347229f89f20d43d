import C3Lens.Proofs.Blueprint.Parsing
import C3Lens.Proofs.Blueprint.Reading

/-!
# From the text of a blueprint to its module

A proper blueprint that is written out and read again gives what it lists:

* `Blueprint.parse_text`: the text has no syntax error, and but for its blanks its tree is that of the
  blueprint;
* `Blueprint.modules_text`: the symbols of the text are one module, which the blueprint describes;
* `Blueprint.outlineOfText_text`: both.

**Types.** A module keeps no more than `TypeRef.mostPointers` stars of a type, and no size from 2³² on. So
its types are those of the blueprint as they are kept (`WrittenType.kept`), which changes no other type
(`kept_eq_self`). It does change the two types of `overflowing`.
-/

namespace C3Lens

open C3Lens.Tree (leaf node tokensOfList keptGapsBelow)

/-! ## Trees that keep no text -/

/-- Below a node of the kind `parent` the tree keeps no text, and no blank is in it. -/
structure Tree.Simple (parent : NodeKind) (t : Tree) : Prop where
  dropped : keptGapsBelow parent [t] = []
  plain : ∀ u ∈ t.tokens, u.kind.isTrivia = false

namespace Tree

theorem simple_leaf (parent : NodeKind) {t : Token} (plain : t.kind.isTrivia = false) : (leaf t).Simple parent :=
  ⟨rfl, fun _ mem => List.mem_singleton.1 mem ▸ plain⟩

theorem simpleList {parent : NodeKind} {ts : List Tree} (h : ∀ t ∈ ts, t.Simple parent) :
    keptGapsBelow parent ts = [] ∧ ∀ u ∈ tokensOfList ts, u.kind.isTrivia = false := by
  induction ts with
  | nil => exact ⟨rfl, nofun⟩
  | cons t ts ih =>
    obtain ⟨first, others⟩ := List.forall_mem_cons.1 h
    obtain ⟨dropped, plain⟩ := ih others
    refine ⟨?_, List.forall_mem_append.2 ⟨first.plain, plain⟩⟩
    have single := first.dropped
    rw [keptGapsBelow, keptGapsBelow, List.append_nil] at single
    rw [keptGapsBelow, dropped, List.append_nil, single]

theorem simple_node {parent kind : NodeKind} {children : List Tree} (other : parent.keepsText kind = false)
    (h : ∀ t ∈ children, t.Simple kind) : (node kind children).Simple parent := by
  obtain ⟨dropped, plain⟩ := simpleList h
  refine ⟨?_, plain⟩
  rw [keptGapsBelow_node, dropped, other]
  rfl

end Tree

namespace Blueprint

open C3Lens.Tree (Simple simple_leaf simple_node)

theorem simple_type (t : WrittenType) {parent : NodeKind} (other : parent.keepsText .type = false) :
    t.tree.Simple parent := by
  refine simple_node other (List.forall_mem_cons.2 ⟨simple_leaf _ rfl, List.forall_mem_append.2 ⟨?_, ?_⟩⟩)
  · intro u mem
    rw [List.eq_of_mem_replicate mem]
    exact simple_leaf _ rfl
  · intro u mem
    obtain ⟨size?, -, rfl⟩ := Option.map_eq_some_iff.1 (Option.mem_toList.1 mem)
    refine simple_node rfl (List.forall_mem_cons.2 ⟨simple_leaf _ rfl, List.forall_mem_append.2
      ⟨?_, List.forall_mem_singleton.2 (simple_leaf _ rfl)⟩⟩)
    intro u mem
    obtain ⟨size, -, rfl⟩ := Option.map_eq_some_iff.1 (Option.mem_toList.1 mem)
    exact simple_leaf _ rfl

theorem simple_name (name : String) {parent : NodeKind} (other : parent.keepsText .name = false) :
    (nameTree name).Simple parent :=
  simple_node other (List.forall_mem_singleton.2 (simple_leaf _ rfl))

theorem simple_slot (s : Slot) {parent : NodeKind} (type : parent.keepsText .type = false)
    (name : parent.keepsText .name = false) : ∀ t ∈ s.trees, t.Simple parent :=
  List.forall_mem_cons.2 ⟨simple_type s.type type, List.forall_mem_singleton.2 (simple_name s.name name)⟩

theorem simple_bracketed {parent : NodeKind} {opener closer : Token} (plain : opener.kind.isTrivia = false)
    (plain' : closer.kind.isTrivia = false) {ts : List Tree} (h : ∀ t ∈ ts, t.Simple parent) :
    ∀ t ∈ bracketed opener closer ts, t.Simple parent :=
  List.forall_mem_cons.2 ⟨simple_leaf _ plain,
    List.forall_mem_append.2 ⟨h, List.forall_mem_singleton.2 (simple_leaf _ plain')⟩⟩

theorem simple_path (path : List String) {parent : NodeKind} (other : parent.keepsText .modulePath = false) :
    (pathTree path).Simple parent :=
  simple_node other (forall_mem_intersperse (simple_leaf _ rfl) (List.forall_mem_map.2 fun _ _ => simple_leaf _ rfl))

theorem simple_item (item : Item) : item.tree.Simple .sourceFile := by
  have semicolon (parent : NodeKind) : ∀ t ∈ [semicolon], t.Simple parent :=
    List.forall_mem_singleton.2 (simple_leaf _ rfl)
  cases item with
  | global s => exact simple_node rfl (List.forall_mem_append.2 ⟨simple_slot s rfl rfl, semicolon _⟩)
  | struct name members =>
    refine simple_node rfl (List.forall_mem_cons.2 ⟨simple_leaf _ rfl, List.forall_mem_cons.2 ⟨simple_name _ rfl,
      List.forall_mem_singleton.2
        (simple_node rfl (simple_bracketed rfl rfl (List.forall_mem_map.2 fun s _ => ?_)))⟩⟩)
    exact simple_node rfl (List.forall_mem_append.2 ⟨simple_slot s rfl rfl, semicolon _⟩)
  | enum name enumerators =>
    refine simple_node rfl (List.forall_mem_cons.2 ⟨simple_leaf _ rfl, List.forall_mem_cons.2 ⟨simple_name _ rfl,
      List.forall_mem_singleton.2 (simple_node rfl (simple_bracketed rfl rfl (forall_mem_intersperse
        (simple_leaf _ rfl) (List.forall_mem_map.2 fun e _ => ?_))))⟩⟩)
    exact simple_node rfl (List.forall_mem_singleton.2 (simple_name _ rfl))
  | function head parameters =>
    refine simple_node rfl (List.forall_mem_cons.2 ⟨simple_leaf _ rfl, List.forall_mem_append.2
      ⟨simple_slot head rfl rfl, List.forall_mem_cons.2 ⟨simple_node rfl (simple_bracketed rfl rfl
        (forall_mem_intersperse (simple_leaf _ rfl) (List.forall_mem_map.2 fun s _ => ?_))), semicolon _⟩⟩⟩)
    exact simple_node rfl (simple_slot s rfl rfl)

theorem simple_declarations (b : Blueprint) : ∀ t ∈ b.declarations, t.Simple .sourceFile := by
  have line (word : Token) (kind : NodeKind) (path : List String) (plain : word.kind.isTrivia = false)
      (other : kind.keepsText .modulePath = false) (here : NodeKind.sourceFile.keepsText kind = false) :
      (node kind [leaf word, pathTree path, semicolon]).Simple .sourceFile :=
    simple_node here (List.forall_mem_cons.2 ⟨simple_leaf _ plain, List.forall_mem_cons.2 ⟨simple_path path other,
      List.forall_mem_singleton.2 (simple_leaf _ rfl)⟩⟩)
  refine List.forall_mem_cons.2 ⟨line ⟨.moduleKw, "module"⟩ .moduleDecl b.path rfl rfl rfl,
    List.forall_mem_append.2
      ⟨List.forall_mem_map.2 fun path _ => ?_, List.forall_mem_map.2 fun item _ => simple_item item⟩⟩
  exact line ⟨.importKw, "import"⟩ .importDecl path rfl rfl rfl

/-! ## The front end -/

variable {b : Blueprint}

theorem significant_text (proper : b.IsProper) :
    Token.significant (Token.ofString b.text) = tokensOfList b.declarations := by
  have solid : Token.solid (Token.ofString b.text) = tokensOfList b.declarations := solid_text proper
  have same : Token.significant (Token.ofString b.text) = Token.significant (Token.solid (Token.ofString b.text)) := by
    rw [Token.significant, Token.significant, Token.solid, List.filter_filter]
    refine List.filter_congr fun t _ => ?_
    cases t.kind <;> rfl
  rw [same, solid]
  exact List.filter_eq_self.2 fun t mem => by rw [(Tree.simpleList (simple_declarations b)).2 t mem]; rfl

theorem undocumented_text (proper : b.IsProper) : ∀ t ∈ Token.ofString b.text, t.kind ≠ .docComment := by
  have solid : Token.solid (Token.ofString b.text) = tokensOfList b.declarations := solid_text proper
  intro t mem doc
  have there : t ∈ tokensOfList b.declarations := by
    rw [← solid]
    exact List.mem_filter.2 ⟨mem, by rw [doc]; rfl⟩
  have other := (Tree.simpleList (simple_declarations b)).2 t there
  rw [doc] at other
  cases other

/-- The text has no syntax error, and its tree is that of the blueprint but for the blanks. -/
theorem parse_text (proper : b.IsProper) : (Parse.ofString b.text).errors = [] ∧
    ∃ children, (Parse.ofString b.text).tree = .node .sourceFile children ∧
      Tree.bareList children = b.declarations :=
  Parse.of_takes (takes_declarations proper) (significant_text proper)

/-- The symbols of the text are those of the tree, up to the ranges. -/
theorem modules_text (proper : b.IsProper) (doc : DocId) :
    ∃ m, (outlineOfText doc b.text).1.modules.values = [m] ∧ b.Describes m := by
  obtain ⟨-, children, tree, bare⟩ := parse_text proper
  have dropped : keptGapsBelow .sourceFile (Tree.bareList children) = [] :=
    bare ▸ (Tree.simpleList (simple_declarations b)).1
  have erased := outlineOfText_bare doc tree dropped (undocumented_text proper)
  obtain ⟨m, values, describes⟩ := outline_tree proper doc (.ofString b.text)
  have both := congrArg (fun u : SourceUnit => u.modules.values) erased
  have clean : (outline doc (.ofString b.text) (node .sourceFile b.declarations)).1.modules.values = [m] := values
  simp only [SourceUnit.eraseRanges, Table.values_map, bare, clean, List.map_singleton] at both
  obtain ⟨m', values', same⟩ := List.map_eq_singleton_iff.1 both
  exact ⟨m', values', describes_eraseRanges.1 (same ▸ describes_eraseRanges.2 describes)⟩

/-- The text of a proper blueprint is read without a syntax error, and its symbols are one module, which the
blueprint describes. -/
theorem outlineOfText_text (proper : b.IsProper) (doc : DocId) : (Parse.ofString b.text).errors = [] ∧
    ∃ m, (outlineOfText doc b.text).1.modules.values = [m] ∧ b.Describes m :=
  ⟨(parse_text proper).1, modules_text proper doc⟩

/-- Nothing of the type is left out. -/
theorem kept_eq_self {t : WrittenType} (stars : t.stars ≤ TypeRef.mostPointers)
    (size : ∀ n, t.mark? = some (some n) → n < 4294967296) : t.kept = t := by
  obtain ⟨name, stars', mark?⟩ := t
  rw [WrittenType.kept]
  congr 1
  · exact Nat.min_eq_left stars
  · rcases mark? with _ | _ | n
    · rfl
    · rfl
    · rw [Option.map_some, Option.filter_some, if_pos (decide_eq_true (size n rfl))]

/-- A module with a declaration of each kind. -/
def sample : Blueprint where
  path := ["app", "ui"]
  imports := [["std", "io"], ["lib"]]
  items := [
    .struct "Point" [⟨⟨"int", 0, none⟩, "x"⟩, ⟨⟨"Point", 2, some none⟩, "next"⟩],
    .global ⟨⟨"char", 1, some (some 12)⟩, "buffer"⟩,
    .enum "Color" ["red", "green"],
    .function ⟨⟨"void", 0, none⟩, "draw"⟩
      [⟨⟨"Point", 1, none⟩, "p"⟩, ⟨⟨"Color", 0, none⟩, "c"⟩]]

theorem isProper_sample : sample.IsProper := by
  decide +kernel

theorem outlineOfText_sample : sample.IsProper ∧ (Parse.ofString sample.text).errors = [] ∧
    ∃ m, (outlineOfText ⟨"a.c3"⟩ sample.text).1.modules.values = [m] ∧ sample.Describes m :=
  ⟨isProper_sample, outlineOfText_text isProper_sample ⟨"a.c3"⟩⟩

/-- A type with more stars than are counted, and one with a size that is no number of 32 bits. -/
def overflowing : Blueprint :=
  ⟨["a"], [],
    [.global ⟨⟨"int", 256, none⟩, "x"⟩, .global ⟨⟨"int", 0, some (some 4294967296)⟩, "y"⟩]⟩

theorem types_overflowing : overflowing.IsProper ∧
    (outlineOfText ⟨"a.c3"⟩ overflowing.text).1.modules.values.map
      (fun m => m.globals.values.map fun v => v.type.text) ≠
      [overflowing.globals.map fun s => s.type.text] := by
  have proper : overflowing.IsProper := by decide +kernel
  refine ⟨proper, ?_⟩
  obtain ⟨m, values, describes⟩ := modules_text proper ⟨"a.c3"⟩
  have texts : m.globals.values.map (fun v => v.type.text) = overflowing.globals.map fun s => s.type.kept.text := by
    have second := congrArg (List.map fun entry => entry.1.2) describes.globals
    rwa [List.map_map, List.map_map] at second
  rw [values, List.map_singleton, texts]
  decide +kernel

end Blueprint

end C3Lens
