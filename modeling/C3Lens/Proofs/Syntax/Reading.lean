import C3Lens.Syntax.Parse

/-!
# Readings

Whatever the grammar does to a reader is a reading (`Reader.Run`): tokens are placed from the left,
errors are noted, and nodes are opened and closed in pairs, at a checkpoint only where the node in
which it was made is the open one. A node for a name is opened only around one identifier, and a node
for the path of a module only around identifiers and the colons between them.
`Grammar.Reads` says so of an action; it is a class, so that the actions built from others have it by
their shape.

Results:
* `Reader.Run.built`: a reading adds trees to the open node and leaves all others alone, in these trees
  names are identifiers and the paths of modules have identifiers and colons only, and the tokens of
  the trees and the tokens still to come are those that were to come before.
* `Reader.Run.cursor_add_length`, `Reader.Run.ahead_suffix`: the cursor counts the significant tokens
  that were taken from the front.
-/

namespace C3Lens

/-! ## Readings of a reader -/

/-- Whether a kind of node groups whatever it holds; a name holds one token, and the path of a module
the tokens of paths. -/
@[reducible] def NodeKind.isGroup : NodeKind → Bool
  | .name | .modulePath => false
  | _ => true

/-- Whether tokens of the kind make up the paths of modules. -/
def TokenKind.isPathPart : TokenKind → Bool
  | .ident | .colonColon => true
  | _ => false

/-- One reader becomes another by reading. -/
inductive Reader.Run : Reader → Reader → Prop
  | refl (r : Reader) : Run r r
  | trans {r s t : Reader} : Run r s → Run s t → Run r t
  | flush (r : Reader) : Run r r.flush
  | bump (r : Reader) : Run r r.bump
  | report (r : Reader) (cause : SyntaxError.Cause) : Run r (r.report cause)
  | name {r : Reader} {l : Lexeme} {ls : List Lexeme} (blanks : r.blanks = []) (ahead : r.ahead = l :: ls)
    (identifier : l.kind.isName = true) : Run r (r.start .name).bump.finish
  | path {r s : Reader} {ls : List Lexeme} (ahead : r.ahead = ls ++ s.ahead)
    (parts : ∀ l ∈ ls, l.kind.isPathPart = true) : Run (r.start .modulePath) s → Run r s.finish
  | node {r s : Reader} {kind : NodeKind} (group : kind.isGroup = true) :
    Run (r.start kind) s → Run r s.finish
  | nodeFrom {r s t : Reader} {kind : NodeKind} (group : kind.isGroup = true) :
    Run r s → Run (s.startAt r.checkpoint kind) t → Run r t.finish

/-- The tokens that a lexeme stands for. -/
def Lexeme.tokens (l : Lexeme) : List Token :=
  l.token :: l.blanks

theorem Lexeme.arrange_tokens (ts : List Token) :
    (arrange ts).1 ++ (arrange ts).2.flatMap Lexeme.tokens = ts := by
  induction ts with
  | nil => rfl
  | cons t ts ih =>
    rw [arrange]
    dsimp only
    split
    · exact congrArg (t :: ·) ih
    · exact congrArg (t :: ·) ih

theorem Lexeme.length_arrange (ts : List Token) :
    (arrange ts).2.length = (ts.filter (!·.kind.isTrivia)).length := by
  induction ts with
  | nil => rfl
  | cons t ts ih =>
    rw [arrange]
    dsimp only
    split
    next trivia => rw [List.filter_cons_of_neg (by simp [trivia]), ih]
    next significant =>
      rw [List.filter_cons_of_pos (by simp [significant]), List.length_cons, List.length_cons, ih]

namespace TreeBuilder

/-- Adds trees to the open node. -/
def add (b : TreeBuilder) (trees : List Tree) : TreeBuilder :=
  { b with held := trees.reverse ++ b.held }

@[simp] theorem add_nil (b : TreeBuilder) : b.add [] = b :=
  rfl

theorem add_add (b : TreeBuilder) (ts us : List Tree) : (b.add ts).add us = b.add (ts ++ us) := by
  simp [add]

theorem token_eq_add (b : TreeBuilder) (t : Token) : b.token t = b.add [.leaf t] :=
  rfl

/-- What was added to a node since it was started becomes the node. -/
theorem finish?_start_add (b : TreeBuilder) (kind : NodeKind) (ts : List Tree) :
    ((b.start kind).add ts).finish? = some (b.add [.node kind ts]) := by
  simp [add, start, finish?]

/-- What was added to a node since a checkpoint, and since a node was started there, becomes the
node. -/
theorem startAt?_checkpoint_add (b : TreeBuilder) (kind : NodeKind) (ts : List Tree) :
    (b.add ts).startAt? b.checkpoint kind = some ((b.start kind).add ts) := by
  simp [add, start, startAt?, checkpoint]

end TreeBuilder

theorem Tree.tokensOfList_append (ts us : List Tree) :
    tokensOfList (ts ++ us) = tokensOfList ts ++ tokensOfList us := by
  induction ts with
  | nil => rfl
  | cons t ts ih => rw [List.cons_append, tokensOfList, ih, tokensOfList, List.append_assoc]

theorem Tree.tokensOfList_leaves (ts : List Token) : tokensOfList (ts.map leaf) = ts := by
  induction ts with
  | nil => rfl
  | cons t ts ih => rw [List.map_cons, tokensOfList, ih, tokens, List.singleton_append]

/-! ## Names and paths in trees -/

/-- What stands below a node of the kind: below a name one identifier, and below the path of a module
identifiers and colons, with blanks and comments. -/
structure NodeKind.Fits (kind : NodeKind) (children : List Tree) : Prop where
  name : kind = .name → ∃ t : Token, children = [.leaf t] ∧ t.kind.isName = true
  path : kind = .modulePath →
    ∀ t ∈ Tree.tokensOfList children, t.kind.isTrivia = true ∨ t.kind.isPathPart = true

theorem NodeKind.fits_of_isGroup {kind : NodeKind} (group : kind.isGroup = true) (children : List Tree) :
    kind.Fits children where
  name same := by
    rw [same] at group
    cases group
  path same := by
    rw [same] at group
    cases group

mutual

/-- Below every node stands what fits its kind. -/
def Tree.WellFormed : Tree → Prop
  | .leaf _ => True
  | .node kind children => kind.Fits children ∧ WellFormedList children

/-- The same for all nodes of trees side by side. -/
def Tree.WellFormedList : List Tree → Prop
  | [] => True
  | t :: ts => t.WellFormed ∧ WellFormedList ts

end

namespace Tree

theorem wellFormedList_append {ts us : List Tree} :
    WellFormedList (ts ++ us) ↔ WellFormedList ts ∧ WellFormedList us := by
  induction ts with
  | nil => exact ⟨fun h => ⟨trivial, h⟩, fun h => h.2⟩
  | cons t ts ih => rw [List.cons_append, WellFormedList, ih, WellFormedList, and_assoc]

theorem wellFormedList_leaves (ts : List Token) : WellFormedList (ts.map leaf) := by
  induction ts with
  | nil => trivial
  | cons t ts ih => exact ⟨trivial, ih⟩

mutual

/-- What stands at a node below a well-formed tree. -/
theorem WellFormed.fits {t : Tree} (h : t.WellFormed) {start at' : Nat} {kind : NodeKind}
    {children : List Tree} (mem : ⟨at', .node kind children⟩ ∈ t.placesFrom start) :
    kind.Fits children := by
  match t with
  | .leaf _ =>
    rw [placesFrom, List.mem_singleton] at mem
    cases mem
  | .node kind' ts =>
    rcases List.mem_cons.1 mem with same | below
    · cases same
      exact h.1
    · exact WellFormedList.fits h.2 below

theorem WellFormedList.fits {ts : List Tree} (h : WellFormedList ts) {start at' : Nat} {kind : NodeKind}
    {children : List Tree} (mem : ⟨at', .node kind children⟩ ∈ placesOfList start ts) :
    kind.Fits children := by
  match ts with
  | [] => cases mem
  | t :: ts =>
    rcases List.mem_append.1 mem with here | behind
    · exact WellFormed.fits h.1 here
    · exact WellFormedList.fits h.2 behind

end

end Tree

namespace Reader

/-! ## What one reading does -/

/-- What waits in front of the next significant token, or of a later one, are blanks and comments. -/
structure Orderly (r : Reader) : Prop where
  blanks : ∀ t ∈ r.blanks, t.kind.isTrivia = true
  ahead : ∀ l ∈ r.ahead, ∀ t ∈ l.blanks, t.kind.isTrivia = true

/-- The tokens that are not placed yet. -/
def rest (r : Reader) : List Token :=
  r.blanks ++ r.ahead.flatMap Lexeme.tokens

theorem rest_ofTokens (ts : List Token) : (ofTokens ts).rest = ts :=
  Lexeme.arrange_tokens ts

theorem orderly_ofTokens (ts : List Token) : (ofTokens ts).Orderly := by
  suffices arranged : (∀ t ∈ (Lexeme.arrange ts).1, t.kind.isTrivia = true) ∧
      ∀ l ∈ (Lexeme.arrange ts).2, ∀ t ∈ l.blanks, t.kind.isTrivia = true from ⟨arranged.1, arranged.2⟩
  induction ts with
  | nil => exact ⟨nofun, nofun⟩
  | cons t ts ih =>
    rw [Lexeme.arrange]
    dsimp only
    split
    next trivia => exact ⟨List.forall_mem_cons.2 ⟨trivia, ih.1⟩, ih.2⟩
    next => exact ⟨nofun, List.forall_mem_cons.2 ⟨ih.1, ih.2⟩⟩

theorem foldl_place (ts : List Token) (r : Reader) :
    ts.foldl place r =
      { r with
        builder? := r.builder?.map (·.add (ts.map .leaf))
        offset := r.offset + Tree.widthOfList (ts.map .leaf) } := by
  induction ts generalizing r with
  | nil => cases r; simp [Tree.widthOfList]
  | cons t ts ih =>
    rw [List.foldl_cons, ih, place]
    simp [TreeBuilder.token_eq_add, Function.comp_def, TreeBuilder.add_add, Tree.widthOfList, Tree.width,
      Nat.add_assoc]

theorem flush_eq (r : Reader) :
    r.flush =
      { r with
        blanks := []
        builder? := r.builder?.map (·.add (r.blanks.map .leaf))
        offset := r.offset + Tree.widthOfList (r.blanks.map .leaf) } := by
  rw [flush, foldl_place]

@[simp] theorem flush_ahead (r : Reader) : r.flush.ahead = r.ahead := by
  rw [flush_eq]

@[simp] theorem flush_cursor (r : Reader) : r.flush.cursor = r.cursor := by
  rw [flush_eq]

theorem bump_of_nil {r : Reader} (h : r.ahead = []) : r.bump = r.flush := by
  rw [bump]
  simp [h]

theorem bump_of_cons {r : Reader} {l : Lexeme} {ls : List Lexeme} (h : r.ahead = l :: ls) :
    r.bump =
      { r.flush.place l.token with blanks := l.blanks, ahead := ls, cursor := r.cursor + 1 } := by
  rw [bump]
  simp [h]

@[simp] theorem bump_ahead (r : Reader) : r.bump.ahead = r.ahead.tail := by
  cases h : r.ahead with
  | nil => rw [bump_of_nil h, flush_ahead, h, List.tail_nil]
  | cons l ls => rw [bump_of_cons h, List.tail_cons]

/-- From one reader to another the trees were added to the open node, without a mistake, and their
tokens were taken from those to come. What stands below the nodes of the trees fits their kinds. -/
structure Builds (r s : Reader) (trees : List Tree) : Prop where
  builder : ∀ b, r.builder? = some b → s.builder? = some (b.add trees)
  rest : r.rest = Tree.tokensOfList trees ++ s.rest
  formed : r.Orderly → s.Orderly ∧ Tree.WellFormedList trees

namespace Builds

variable {r s t : Reader} {ts us : List Tree}

theorem refl (r : Reader) : r.Builds r [] :=
  ⟨fun _ h => h, rfl, fun orderly => ⟨orderly, trivial⟩⟩

theorem trans (h : r.Builds s ts) (k : s.Builds t us) : r.Builds t (ts ++ us) where
  builder b found := by
    rw [k.builder _ (h.builder b found), TreeBuilder.add_add]
  rest := by
    rw [h.rest, k.rest, Tree.tokensOfList_append, List.append_assoc]
  formed orderly :=
    have ⟨between, first⟩ := h.formed orderly
    have ⟨last, second⟩ := k.formed between
    ⟨last, Tree.wellFormedList_append.2 ⟨first, second⟩⟩

theorem flush (r : Reader) : r.Builds r.flush (r.blanks.map .leaf) where
  builder b found := by
    rw [flush_eq, found]
    rfl
  rest := by
    rw [flush_eq, Tree.tokensOfList_leaves]
    rfl
  formed orderly := by
    rw [flush_eq]
    exact ⟨⟨nofun, orderly.ahead⟩, Tree.wellFormedList_leaves r.blanks⟩

theorem place_first {l : Lexeme} {ls : List Lexeme} (blanks : r.blanks = []) (ahead : r.ahead = l :: ls)
    (n : Nat) :
    r.Builds { r.place l.token with blanks := l.blanks, ahead := ls, cursor := n } [.leaf l.token] where
  builder b found := by
    rw [place, found]
    rfl
  rest := by
    simp [Reader.rest, blanks, ahead, Lexeme.tokens, Tree.tokensOfList, Tree.tokens]
  formed orderly := by
    have ⟨here, later⟩ := List.forall_mem_cons.1 (ahead ▸ orderly.ahead)
    exact ⟨⟨here, later⟩, trivial, trivial⟩

/-- A node groups what was added since it was started. -/
theorem finish {kind : NodeKind} (h : (r.start kind).Builds s ts) (fits : r.Orderly → kind.Fits ts) :
    r.Builds s.finish [.node kind ts] where
  builder b found := by
    have inside : s.builder? = some ((b.start kind).add ts) :=
      h.builder _ (by rw [start, found]; rfl)
    rw [Reader.finish, inside]
    exact b.finish?_start_add kind ts
  rest := by
    have inside : r.rest = _ := h.rest
    rw [inside]
    simp [Tree.tokensOfList, Tree.tokens, Reader.rest, Reader.finish]
  formed orderly :=
    have ⟨behind, inside⟩ := h.formed ⟨orderly.blanks, orderly.ahead⟩
    ⟨⟨behind.blanks, behind.ahead⟩, ⟨fits orderly, inside⟩, trivial⟩

/-- A node that is started at a checkpoint takes in what was added since. -/
theorem startAt (kind : NodeKind) (h : r.Builds s ts) (k : (s.startAt r.checkpoint kind).Builds t us) :
    (r.start kind).Builds t (ts ++ us) where
  builder b found := by
    obtain ⟨c, opened, rfl⟩ := Option.map_eq_some_iff.1 found
    have there : r.checkpoint = c.checkpoint := by rw [Reader.checkpoint, opened]; rfl
    have inside : (s.startAt r.checkpoint kind).builder? = some ((c.start kind).add ts) := by
      rw [Reader.startAt, h.builder c opened, there]
      exact c.startAt?_checkpoint_add kind ts
    rw [k.builder _ inside, TreeBuilder.add_add]
  rest := by
    have before : (r.start kind).rest = _ := h.rest
    have behind : s.rest = _ := k.rest
    rw [before, behind, Tree.tokensOfList_append, List.append_assoc]
  formed orderly :=
    have ⟨between, first⟩ := h.formed ⟨orderly.blanks, orderly.ahead⟩
    have ⟨last, second⟩ := k.formed ⟨between.blanks, between.ahead⟩
    ⟨last, Tree.wellFormedList_append.2 ⟨first, second⟩⟩

/-- What was placed while tokens of a class were taken are these, and blanks and comments. -/
theorem tokens_mem {p : TokenKind → Bool} {ls : List Lexeme} (h : r.Builds s ts)
    (ahead : r.ahead = ls ++ s.ahead) (only : ∀ l ∈ ls, p l.kind = true) (orderly : r.Orderly) :
    ∀ t ∈ Tree.tokensOfList ts, t.kind.isTrivia = true ∨ p t.kind = true := by
  have rest : r.blanks ++ ls.flatMap Lexeme.tokens = Tree.tokensOfList ts ++ s.blanks := by
    have whole : r.blanks ++ r.ahead.flatMap Lexeme.tokens =
        Tree.tokensOfList ts ++ (s.blanks ++ s.ahead.flatMap Lexeme.tokens) := h.rest
    rw [ahead, List.flatMap_append, ← List.append_assoc, ← List.append_assoc] at whole
    exact List.append_cancel_right whole
  intro t ht
  rcases List.mem_append.1 (rest ▸ List.mem_append_left _ ht) with blank | taken
  · exact .inl (orderly.blanks t blank)
  · obtain ⟨l, hl, inside⟩ := List.mem_flatMap.1 taken
    rcases List.mem_cons.1 inside with rfl | blank
    · exact .inr (only l hl)
    · exact .inl (orderly.ahead l (ahead ▸ List.mem_append_left _ hl) t blank)

/-- The next significant token is added behind the blanks before it. -/
theorem bump {l : Lexeme} {ls : List Lexeme} (ahead : r.ahead = l :: ls) :
    r.Builds r.bump (r.blanks.map .leaf ++ [.leaf l.token]) := by
  rw [bump_of_cons ahead]
  have flushed : r.flush.blanks = [] := by rw [flush_eq]
  exact (Builds.flush r).trans (.place_first flushed (r.flush_ahead.trans ahead) _)

end Builds

namespace Run

variable {r s : Reader}

/-- A reading adds trees to the open node. -/
theorem built (h : r.Run s) : ∃ trees, r.Builds s trees := by
  induction h with
  | refl r => exact ⟨[], .refl r⟩
  | trans _ _ ih ih' =>
    obtain ⟨ts, before⟩ := ih
    obtain ⟨us, behind⟩ := ih'
    exact ⟨ts ++ us, before.trans behind⟩
  | flush r => exact ⟨_, .flush r⟩
  | bump r =>
    cases ahead : r.ahead with
    | nil =>
      rw [bump_of_nil ahead]
      exact ⟨_, .flush r⟩
    | cons l ls => exact ⟨_, .bump ahead⟩
  | report r cause =>
    exact ⟨[], fun _ found => found, rfl, fun h => ⟨⟨h.blanks, h.ahead⟩, trivial⟩⟩
  | @name r l ls blanks ahead identifier =>
    have inside := Builds.bump (r := r.start .name) ahead
    rw [show (r.start .name).blanks = [] from blanks] at inside
    exact ⟨_, inside.finish fun _ => ⟨fun _ => ⟨l.token, rfl, identifier⟩, nofun⟩⟩
  | path ahead parts _ ih =>
    obtain ⟨ts, inside⟩ := ih
    exact ⟨_, inside.finish fun orderly =>
      ⟨nofun, fun _ => inside.tokens_mem ahead parts ⟨orderly.blanks, orderly.ahead⟩⟩⟩
  | node group _ ih =>
    obtain ⟨ts, inside⟩ := ih
    exact ⟨_, inside.finish fun _ => NodeKind.fits_of_isGroup group _⟩
  | nodeFrom group _ _ ih ih' =>
    obtain ⟨ts, before⟩ := ih
    obtain ⟨us, inside⟩ := ih'
    exact ⟨_, (before.startAt _ inside).finish fun _ => NodeKind.fits_of_isGroup group _⟩

/-- The cursor counts the tokens that are taken from the front of those to come. -/
theorem cursor_add_length (h : r.Run s) : s.cursor + s.ahead.length = r.cursor + r.ahead.length := by
  induction h with
  | refl => rfl
  | trans _ _ ih ih' => exact ih'.trans ih
  | flush r => rw [flush_cursor, flush_ahead]
  | bump r =>
    cases ahead : r.ahead with
    | nil => rw [bump_of_nil ahead, flush_cursor, flush_ahead, ahead]
    | cons l ls =>
      rw [bump_of_cons ahead, List.length_cons]
      exact (Nat.add_right_comm _ _ _).trans rfl
  | report => rfl
  | @name r l ls _ ahead _ =>
    have placed : (r.start .name).bump.finish = _ := congrArg finish (bump_of_cons ahead)
    rw [placed, ahead, List.length_cons]
    exact (Nat.add_right_comm _ _ _).trans rfl
  | path _ _ _ ih => exact ih
  | node _ _ ih => exact ih
  | nodeFrom _ _ _ ih ih' => exact Eq.trans ih' ih

theorem ahead_suffix (h : r.Run s) : s.ahead <:+ r.ahead := by
  induction h with
  | refl => exact List.suffix_refl _
  | trans _ _ ih ih' => exact ih'.trans ih
  | flush r => exact flush_ahead r ▸ List.suffix_refl _
  | bump r =>
    rw [bump_ahead]
    exact List.tail_suffix _
  | report => exact List.suffix_refl _
  | @name r _ _ _ _ _ =>
    have tail : (r.start .name).bump.finish.ahead = r.ahead.tail := bump_ahead _
    rw [tail]
    exact List.tail_suffix _
  | path _ _ _ ih => exact ih
  | node _ _ ih => exact ih
  | nodeFrom _ _ _ ih ih' => exact List.IsSuffix.trans ih' ih

theorem cursor_le (h : r.Run s) : r.cursor ≤ s.cursor := by
  have sum := h.cursor_add_length
  have fewer := h.ahead_suffix.length_le
  omega

end Run

end Reader

/-! ## Actions that read -/

/-- The kind of a node that groups; for the kinds that the grammar writes out, this is seen. -/
class NodeKind.Groups (kind : NodeKind) : Prop where
  group : kind.isGroup = true

/-- Truth of a condition that computes. -/
class Holds (condition : Bool) : Prop where
  holds : condition = true

instance : Holds true :=
  ⟨rfl⟩

instance (kind : NodeKind) [h : Holds kind.isGroup] : kind.Groups :=
  ⟨h.holds⟩

namespace Grammar

/-- The action reads, whatever the reader. -/
class Reads {α : Type} (m : Grammar α) : Prop where
  run : ∀ r, Reader.Run r (m.after r)

section

variable {α β : Type} {m m' : Grammar α} {f : α → Grammar β}

instance (a : α) : Reads (pure a : Grammar α) :=
  ⟨fun r => .refl r⟩

theorem Reads.bind [hm : Reads m] (hf : ∀ a, Reads (f a)) : Reads (m >>= f) :=
  ⟨fun r => (hm.run r).trans ((hf _).run _)⟩

instance [Reads m] [hf : ∀ a, Reads (f a)] : Reads (m >>= f) :=
  .bind hf

instance {c : Prop} [Decidable c] [Reads m] [Reads m'] : Reads (if c then m else m') := by
  split <;> infer_instance

end

instance : Reads ahead := ⟨fun r => .refl r⟩
instance (n : Nat) : Reads (kindAt n) := ⟨fun r => .refl r⟩
instance : Reads current := ⟨fun r => .refl r⟩
instance : Reads currentText := ⟨fun r => .refl r⟩
instance (kind : TokenKind) : Reads (looksAt kind) := ⟨fun r => .refl r⟩
instance (n : Nat) (kind : TokenKind) : Reads (looksAtNth n kind) := ⟨fun r => .refl r⟩
instance (p : TokenKind → Bool) : Reads (looksAtAny p) := ⟨fun r => .refl r⟩
instance (n : Nat) (p : TokenKind → Bool) : Reads (looksAtNthAny n p) := ⟨fun r => .refl r⟩
instance : Reads atEnd := ⟨fun r => .refl r⟩
instance : Reads cursor := ⟨fun r => .refl r⟩
instance : Reads flush := ⟨fun r => .flush r⟩
instance : Reads bump := ⟨fun r => .bump r⟩
instance (cause : SyntaxError.Cause) : Reads (report cause) := ⟨fun r => .report r cause⟩

instance (kind : NodeKind) (body : Grammar Unit) [k : kind.Groups] [h : Reads body] :
    Reads (node kind body) :=
  ⟨fun r => (Reader.Run.flush r).trans (.node k.group (h.run _))⟩

/-- The action carries on a reading that began at `r`. -/
def Continues {α : Type} (r : Reader) (m : Grammar α) : Prop :=
  ∀ s, r.Run s → r.Run (m.after s)

section

variable {α β : Type} {r : Reader} {m m' : Grammar α} {f : α → Grammar β}

theorem Continues.ofReads (m : Grammar α) [h : Reads m] : Continues r m :=
  fun s since => since.trans (h.run s)

theorem Continues.bind (hm : Continues r m) (hf : ∀ a, Continues r (f a)) : Continues r (m >>= f) :=
  fun s since => hf _ _ (hm s since)

/-- A node from a checkpoint on takes in what was read since. -/
theorem Continues.nodeFrom (kind : NodeKind) (body : Grammar Unit) [k : kind.Groups] [h : Reads body] :
    Continues r (nodeFrom r.checkpoint kind body) :=
  fun _ since => .nodeFrom k.group since (h.run _)

theorem Reads.checkpoint {f : Checkpoint → Grammar α}
    (h : ∀ r : Reader, Continues r (f r.checkpoint)) : Reads (checkpoint >>= f) :=
  ⟨fun r => (Reader.Run.flush r).trans (h r.flush _ (.refl _))⟩

end

instance {α : Type} (step : α → Grammar (Option α)) (n : Nat) (a : α) [h : ∀ a, Reads (step a)] :
    Reads (loopAtMost step n a) := by
  induction n generalizing a with
  | zero => exact inferInstanceAs (Reads (pure ()))
  | succ n ih =>
    refine .bind fun next? => ?_
    cases next? with
    | none => infer_instance
    | some next => exact ih next

instance {α : Type} (step : α → Grammar (Option α)) (a : α) [h : ∀ a, Reads (step a)] :
    Reads (loopFrom step a) :=
  .bind fun _ => inferInstance

theorem Reads.nest {α : Type} {within : (α → Grammar Unit) → α → Grammar Unit}
    (h : ∀ inner, (∀ a, Reads (inner a)) → ∀ a, Reads (within inner a)) (a : α) :
    Reads (nest within a) := by
  have most : ∀ depth a, Reads (nestAtMost within depth a) := by
    intro depth
    induction depth with
    | zero => exact fun _ => inferInstanceAs (Reads (pure ()))
    | succ depth ih => exact h _ ih
  exact .bind fun _ => most _ a

instance (step : Grammar Bool) (u : Unit) [Reads step] : Reads (plain step u) := by
  unfold plain
  infer_instance

instance (step : Grammar Bool) [Reads step] : Reads (loop step) := by
  unfold loop
  infer_instance

end Grammar

end C3Lens
