import C3Lens.Proofs.Syntax.Blanks
import C3Lens.Proofs.Syntax.Parse
import C3Lens.Proofs.Syntax.Place
import C3Lens.Proofs.Syntax.Takes

/-!
# The counters of a reader agree

A reader counts bytes and significant tokens and looks ahead at significant tokens only, while blanks and
comments are placed late, in front of the next token or the next node. `Reader.Step` is the least that
is done to a reader, one token at most, and `Reader.Pushes` what steps do one after another, with the
tokens that they push.

* `Reader.Run.pushes`: every reading is made of steps.
* `Reader.Agrees.of_step`: every step keeps the counters, the tokens ahead and the tree in agreement with
  the tokens that were pushed, and an error is noted where a significant token begins or the text ends,
  and not in front of another one.
* `Parse.counters_agree`: so it is at every point of the parse of a text.
-/

namespace C3Lens

/-! ## Offsets of tokens -/

namespace Token

/-- Number of bytes of tokens. -/
def widthOf : List Token → Nat
  | [] => 0
  | t :: ts => t.width + widthOf ts

/-- One of the tokens, a significant one, begins at the byte offset. -/
def BeginsAt (ts : List Token) (offset : Nat) : Prop :=
  ∃ front t behind, ts = front ++ t :: behind ∧ t.kind.isTrivia = false ∧ offset = widthOf front

@[simp] theorem widthOf_append (ts us : List Token) : widthOf (ts ++ us) = widthOf ts + widthOf us := by
  induction ts with
  | nil => exact (Nat.zero_add _).symm
  | cons t ts ih => rw [List.cons_append, widthOf, ih, widthOf, Nat.add_assoc]

theorem widthOf_eq (ts : List Token) : widthOf ts = utf8Length (charsOf ts) := by
  induction ts with
  | nil => rfl
  | cons t ts ih =>
    have one : utf8Length (charsOf [t]) = t.width := by
      rw [charsOf, List.flatMap_singleton, utf8Length_toList, width]
    rw [widthOf, ih, ← List.singleton_append, charsOf_append, utf8Length_append, one]

/-- The tokens of a text have its bytes. -/
theorem widthOf_ofString (s : String) : widthOf (ofString s) = s.utf8ByteSize := by
  have chars : charsOf (ofString s) = s.toList := flatMap_ofChars s.toList
  rw [widthOf_eq, chars, utf8Length_toList]

end Token

/-! ## Tokens of a tree that is being built -/

namespace TreeBuilder

/-- The tokens in front of the open node, in the nodes that are started around it. -/
def tokensAround : List (NodeKind × List Tree) → List Token
  | [] => []
  | (_, front) :: started => tokensAround started ++ Tree.tokensOfList front.reverse

/-- The tokens placed so far. -/
def tokens (b : TreeBuilder) : List Token :=
  tokensAround b.started ++ Tree.tokensOfList b.held.reverse

theorem tokens_token (b : TreeBuilder) (t : Token) : (b.token t).tokens = b.tokens ++ [t] := by
  rw [tokens, tokens, token, List.reverse_cons, Tree.tokensOfList_append, List.append_assoc]
  rfl

theorem tokens_start (b : TreeBuilder) (kind : NodeKind) : (b.start kind).tokens = b.tokens := by
  rw [tokens, start, tokensAround]
  exact List.append_nil _

theorem tokens_of_startAt? {b c : TreeBuilder} {at' : Checkpoint} {kind : NodeKind}
    (h : b.startAt? at' kind = some c) : c.tokens = b.tokens := by
  rw [startAt?] at h
  split at h
  next =>
    obtain rfl := Option.some.inj h
    rw [tokens, tokensAround, tokens, List.append_assoc, ← Tree.tokensOfList_append, ← List.reverse_append,
      List.take_append_drop]
  next => cases h

theorem tokens_of_finish? {b c : TreeBuilder} (h : b.finish? = some c) : c.tokens = b.tokens := by
  obtain ⟨held, started⟩ := b
  cases started with
  | nil => cases h
  | cons first started =>
    obtain rfl := Option.some.inj h
    rw [tokens, tokens, tokensAround, List.reverse_cons, Tree.tokensOfList_append, List.append_assoc]
    exact congrArg _ (congrArg _ (List.append_nil _))

end TreeBuilder

/-! ## Steps of a reader -/

namespace Reader

/-- One reader becomes another by the least that there is to do, which pushes at most one token: the first
one that is to come. -/
inductive Step : Reader → List Token → Reader → Prop
  | blank {r : Reader} {t : Token} {ts : List Token} (waiting : r.blanks = t :: ts) :
    Step r [t] { r.place t with blanks := ts }
  | token {r : Reader} {l : Lexeme} {ls : List Lexeme} (noBlanks : r.blanks = []) (ahead : r.ahead = l :: ls) :
    Step r [l.token] { r.place l.token with blanks := l.blanks, ahead := ls, cursor := r.cursor + 1 }
  | report (r : Reader) (cause : SyntaxError.Cause) : Step r [] (r.report cause)
  | start (r : Reader) (kind : NodeKind) : Step r [] (r.start kind)
  | startAt (r : Reader) (c : Checkpoint) (kind : NodeKind) : Step r [] (r.startAt c kind)
  | finish (r : Reader) : Step r [] r.finish

/-- One reader becomes another step by step, and these tokens are pushed. -/
inductive Pushes : Reader → List Token → Reader → Prop
  | refl (r : Reader) : Pushes r [] r
  | step {r s t : Reader} {ts us : List Token} : Pushes r ts s → Step s us t → Pushes r (ts ++ us) t

namespace Pushes

variable {r s t : Reader} {ts us : List Token}

theorem trans (h : r.Pushes ts s) (k : s.Pushes us t) : r.Pushes (ts ++ us) t := by
  induction k with
  | refl => rwa [List.append_nil]
  | step _ last ih =>
    rw [← List.append_assoc]
    exact ih.step last

theorem single (h : r.Step ts s) : r.Pushes ts s :=
  (Pushes.refl r).step h

theorem flush (r : Reader) : r.Pushes r.blanks r.flush := by
  generalize waiting : r.blanks = ts
  induction ts generalizing r with
  | nil =>
    have done : r.flush = r := by
      rw [Reader.flush, waiting, List.foldl_nil, ← waiting]
    rw [done]
    exact .refl r
  | cons t ts ih =>
    have later : { r.place t with blanks := ts }.flush = r.flush := by
      rw [flush_eq, flush_eq, waiting, place]
      simp [TreeBuilder.token_eq_add, Function.comp_def, TreeBuilder.add_add, Tree.widthOfList, Tree.width,
        Nat.add_assoc]
    have first := single (.blank waiting)
    exact first.trans (later ▸ ih { r.place t with blanks := ts } rfl)

theorem exists_bump (r : Reader) : ∃ ts, r.Pushes ts r.bump := by
  cases ahead : r.ahead with
  | nil => exact ⟨_, bump_of_nil ahead ▸ flush r⟩
  | cons l ls =>
    have flushed : r.flush.blanks = [] := by rw [flush_eq]
    have last := Step.token flushed ((flush_ahead r).trans ahead)
    rw [flush_cursor] at last
    exact ⟨_, bump_of_cons ahead ▸ (flush r).step last⟩

/-- A node is started, and finished behind what is read inside. -/
theorem inside {kind : NodeKind} (h : (r.start kind).Pushes ts s) : r.Pushes ts s.finish := by
  have whole := ((single (.start r kind)).trans h).step (.finish s)
  rwa [List.nil_append, List.append_nil] at whole

end Pushes

/-- A reading is made of steps. -/
theorem Run.pushes {r s : Reader} (h : r.Run s) : ∃ ts, r.Pushes ts s := by
  induction h with
  | refl r => exact ⟨[], .refl r⟩
  | trans _ _ ih ih' =>
    obtain ⟨ts, first⟩ := ih
    obtain ⟨us, second⟩ := ih'
    exact ⟨ts ++ us, first.trans second⟩
  | flush r => exact ⟨_, .flush r⟩
  | bump r => exact Pushes.exists_bump r
  | report r cause => exact ⟨_, .single (.report r cause)⟩
  | @name r =>
    obtain ⟨ts, bumped⟩ := Pushes.exists_bump (r.start .name)
    exact ⟨ts, bumped.inside⟩
  | path _ _ _ ih => exact ih.imp fun _ => Pushes.inside
  | node _ _ ih => exact ih.imp fun _ => Pushes.inside
  | @nodeFrom r s t kind _ _ _ ih ih' =>
    obtain ⟨ts, first⟩ := ih
    obtain ⟨us, second⟩ := ih'
    exact ⟨_, ((first.step (.startAt s r.checkpoint kind)).trans second).step (.finish t)⟩

/-! ## What agrees at every point -/

theorem here_eq (r : Reader) : r.here = r.offset + Token.widthOf r.blanks := by
  have sum : ∀ ts : List Token, ts.foldr (fun t n => t.width + n) 0 = Token.widthOf ts := by
    intro ts
    induction ts with
    | nil => rfl
    | cons t ts ih => rw [List.foldr_cons, ih, Token.widthOf]
  rw [here, sum]

/-- Of the tokens `ts` these were pushed when the reader was reached. -/
structure Agrees (ts pushed : List Token) (r : Reader) : Prop where
  whole : pushed ++ r.rest = ts
  orderly : r.Orderly
  plain : ∀ l ∈ r.ahead, l.kind.isTrivia = false
  offset : r.offset = Token.widthOf pushed
  cursor : r.cursor = (Token.significant pushed).length
  tree : ∀ b, r.builder? = some b → b.tokens = pushed
  marks : ∀ e ∈ r.errors, Token.BeginsAt ts e.offset ∨ e.offset = Token.widthOf ts
  passed : ∀ e ∈ r.errors, e.offset ≤ r.here
  order : r.errors.Pairwise fun later earlier => earlier.offset ≤ later.offset

namespace Agrees

variable {ts pushed us : List Token} {r s : Reader}

theorem ofTokens (ts : List Token) : (ofTokens ts).Agrees ts [] where
  whole := rest_ofTokens ts
  orderly := orderly_ofTokens ts
  plain := by
    suffices arranged : ∀ l ∈ (Lexeme.arrange ts).2, l.kind.isTrivia = false from arranged
    induction ts with
    | nil => exact nofun
    | cons t ts ih =>
      rw [Lexeme.arrange]
      dsimp only
      split
      next => exact ih
      next significant => exact List.forall_mem_cons.2 ⟨Bool.not_eq_true _ ▸ significant, ih⟩
  offset := rfl
  cursor := rfl
  tree b found := by
    obtain rfl := Option.some.inj found
    rfl
  marks := nofun
  passed := nofun
  order := .nil

/-- The tokens ahead are the significant ones among those to come. -/
theorem tokens (h : r.Agrees ts pushed) : r.tokens = Token.significant r.rest := by
  rw [rest, Token.significant_append, Token.significant_of_trivia h.orderly.blanks, List.nil_append,
    Lexeme.significant_tokens h.plain h.orderly.ahead]
  rfl

/-- An error is noted where the next significant token begins, or behind all tokens. -/
theorem mark_here (h : r.Agrees ts pushed) : Token.BeginsAt ts r.here ∨ r.here = Token.widthOf ts := by
  have whole := h.whole
  rw [rest] at whole
  rw [here_eq, h.offset, ← Token.widthOf_append]
  cases ahead : r.ahead with
  | nil =>
    rw [ahead, List.flatMap_nil, List.append_nil] at whole
    exact .inr (congrArg _ whole)
  | cons l ls =>
    have plain := h.plain l (ahead ▸ List.mem_cons_self)
    rw [ahead, List.flatMap_cons, Lexeme.tokens, List.cons_append, ← List.append_assoc] at whole
    exact .inl ⟨_, l.token, _, whole.symm, plain, rfl⟩

section

variable (h : r.Agrees ts pushed)
include h

/-- The first token to come is placed, and others wait behind it. -/
theorem place {t : Token} {blanks : List Token} {ahead : List Lexeme} {cursor : Nat}
    (first : r.rest = t :: (blanks ++ ahead.flatMap Lexeme.tokens))
    (orderly : Orderly { r.place t with blanks := blanks, ahead := ahead, cursor := cursor })
    (plain : ∀ l ∈ ahead, l.kind.isTrivia = false) (counted : cursor = r.cursor + (Token.significant [t]).length)
    (further : r.here ≤ Reader.here { r.place t with blanks := blanks, ahead := ahead, cursor := cursor }) :
    Agrees ts (pushed ++ [t]) { r.place t with blanks := blanks, ahead := ahead, cursor := cursor } where
  whole := by
    have whole := h.whole
    rwa [first, List.append_cons] at whole
  orderly := orderly
  plain := plain
  offset := by
    rw [Reader.place, h.offset, Token.widthOf_append, Token.widthOf, Token.widthOf, Nat.add_zero]
  cursor := by rw [counted, h.cursor, Token.significant_append, List.length_append]
  tree c found := by
    obtain ⟨b, before, rfl⟩ := Option.map_eq_some_iff.1 found
    rw [b.tokens_token, h.tree b before]
  marks := h.marks
  passed e mem := (h.passed e mem).trans further
  order := h.order

theorem blank {t : Token} {blanks : List Token} (waiting : r.blanks = t :: blanks) :
    Agrees ts (pushed ++ [t]) { r.place t with blanks := blanks } := by
  obtain ⟨trivia, later⟩ := List.forall_mem_cons.1 (waiting ▸ h.orderly.blanks)
  refine h.place (by rw [rest, waiting]; rfl) ⟨later, h.orderly.ahead⟩ h.plain ?_ ?_
  · rw [Token.significant_cons_of_trivia trivia]
    rfl
  · rw [here_eq, here_eq, waiting, Token.widthOf, ← Nat.add_assoc]
    exact le_rfl

theorem token {l : Lexeme} {ls : List Lexeme} (noBlanks : r.blanks = []) (ahead : r.ahead = l :: ls) :
    Agrees ts (pushed ++ [l.token])
      { r.place l.token with blanks := l.blanks, ahead := ls, cursor := r.cursor + 1 } := by
  obtain ⟨plain, plainLater⟩ := List.forall_mem_cons.1 (ahead ▸ h.plain)
  obtain ⟨behind, behindLater⟩ := List.forall_mem_cons.1 (ahead ▸ h.orderly.ahead)
  refine h.place ?_ ⟨behind, behindLater⟩ plainLater ?_ ?_
  · rw [rest, noBlanks, ahead, List.nil_append, List.flatMap_cons, Lexeme.tokens, List.cons_append]
  · rw [Token.significant_cons plain]
    rfl
  · rw [here_eq, here_eq, noBlanks, Token.widthOf]
    exact (Nat.le_add_right r.offset l.token.width).trans (Nat.le_add_right _ _)

theorem report (cause : SyntaxError.Cause) : (r.report cause).Agrees ts pushed where
  whole := h.whole
  orderly := ⟨h.orderly.blanks, h.orderly.ahead⟩
  plain := h.plain
  offset := h.offset
  cursor := h.cursor
  tree := h.tree
  marks := List.forall_mem_cons.2 ⟨h.mark_here, h.marks⟩
  passed := List.forall_mem_cons.2 ⟨le_rfl, h.passed⟩
  order := .cons h.passed h.order

/-- To group what was placed changes no token of the tree. -/
theorem regroup {builder? : Option TreeBuilder}
    (tokens : ∀ c, builder? = some c → ∃ b, r.builder? = some b ∧ c.tokens = b.tokens) :
    Agrees ts pushed { r with builder? := builder? } where
  whole := h.whole
  orderly := ⟨h.orderly.blanks, h.orderly.ahead⟩
  plain := h.plain
  offset := h.offset
  cursor := h.cursor
  tree c found := by
    obtain ⟨b, before, same⟩ := tokens c found
    exact same.trans (h.tree b before)
  marks := h.marks
  passed := h.passed
  order := h.order

theorem of_step (step : r.Step us s) : s.Agrees ts (pushed ++ us) := by
  cases step with
  | blank waiting => exact h.blank waiting
  | token noBlanks ahead => exact h.token noBlanks ahead
  | report cause =>
    rw [List.append_nil]
    exact h.report cause
  | start kind =>
    rw [List.append_nil]
    refine h.regroup fun c found => ?_
    obtain ⟨b, before, rfl⟩ := Option.map_eq_some_iff.1 found
    exact ⟨b, before, b.tokens_start kind⟩
  | startAt c kind =>
    rw [List.append_nil]
    refine h.regroup fun c found => ?_
    obtain ⟨b, before, started⟩ := Option.bind_eq_some_iff.1 found
    exact ⟨b, before, TreeBuilder.tokens_of_startAt? started⟩
  | finish =>
    rw [List.append_nil]
    refine h.regroup fun c found => ?_
    obtain ⟨b, before, finished⟩ := Option.bind_eq_some_iff.1 found
    exact ⟨b, before, TreeBuilder.tokens_of_finish? finished⟩

end

/-- Step by step the counters stay in agreement with the tokens that were pushed. -/
theorem of_pushes (h : r.Agrees ts pushed) (pushes : r.Pushes us s) : s.Agrees ts (pushed ++ us) := by
  induction pushes with
  | refl => rwa [List.append_nil]
  | step _ last ih => exact List.append_assoc .. ▸ ih.of_step last

end Agrees

end Reader

/-! ## The points of a parse -/

namespace Grammar

theorem sourceFile_pushes (ts : List Token) : (Reader.ofTokens ts).Pushes ts (sourceFile.after (.ofTokens ts)) := by
  obtain ⟨pushed, inside⟩ := (run_lastOf ts).pushes
  have pushes : (Reader.ofTokens ts).Pushes pushed (sourceFile.after (.ofTokens ts)) := inside.inside
  have whole := ((Reader.Agrees.ofTokens ts).of_pushes pushes).whole
  have nothing : (sourceFile.after (.ofTokens ts)).rest = [] := rest_lastOf ts
  rw [nothing, List.append_nil, List.nil_append] at whole
  exact whole ▸ pushes

end Grammar

/-- Reading a text pushes its tokens one after another, and every action on the way goes from one point to
another. At every point the tree holds the tokens that were pushed and the others are to come, the offset is the
length of these tokens in bytes and the cursor the number of significant ones, and the next token ahead is the
first significant one to come. So the errors noted up to there are in the order of their offsets, and at each of
these a significant token begins or the text ends. -/
theorem Parse.counters_agree (s : String) :
    (Reader.ofTokens (Token.ofString s)).Pushes (Token.ofString s)
      (Grammar.sourceFile.after (.ofTokens (Token.ofString s))) ∧
    (∀ pushed r, (Reader.ofTokens (Token.ofString s)).Pushes pushed r →
      (∀ {α : Type} (m : Grammar α) [Grammar.Reads m],
        ∃ more, (Reader.ofTokens (Token.ofString s)).Pushes (pushed ++ more) (m.after r)) ∧
      (∀ b, r.builder? = some b → b.tokens = pushed) ∧ pushed ++ r.rest = Token.ofString s ∧
      r.offset = Token.widthOf pushed ∧ r.cursor = (Token.significant pushed).length ∧
      r.tokens.head? = r.rest.find? (!·.kind.isTrivia) ∧
      (r.errors.Pairwise fun later earlier => earlier.offset ≤ later.offset) ∧
      ∀ e ∈ r.errors, Token.BeginsAt (Token.ofString s) e.offset ∨ e.offset = s.utf8ByteSize) ∧
    (Parse.ofString s).errors.Pairwise (fun earlier later => earlier.offset ≤ later.offset) ∧
    ∀ e ∈ (Parse.ofString s).errors, Token.BeginsAt (Token.ofString s) e.offset ∨ e.offset = s.utf8ByteSize := by
  have agrees {pushed r} (point : (Reader.ofTokens (Token.ofString s)).Pushes pushed r) :=
    (Reader.Agrees.ofTokens _).of_pushes point
  have last := agrees (Grammar.sourceFile_pushes (Token.ofString s))
  refine ⟨Grammar.sourceFile_pushes _, fun pushed r point => ?_, List.pairwise_reverse.2 last.order, ?_⟩
  · have here := agrees point
    rw [List.nil_append] at here
    refine ⟨fun m reads => ?_, here.tree, here.whole, here.offset, here.cursor, ?_, here.order, ?_⟩
    · obtain ⟨more, further⟩ := (reads.run r).pushes
      exact ⟨more, point.trans further⟩
    · rw [here.tokens, Token.significant, List.head?_filter]
    · exact Token.widthOf_ofString s ▸ here.marks
  · intro e mem
    exact Token.widthOf_ofString s ▸ last.marks e (List.mem_reverse.1 mem)

end C3Lens
