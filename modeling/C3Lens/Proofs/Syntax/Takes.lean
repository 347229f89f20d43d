import C3Lens.Proofs.Syntax.Resumed

/-!
# What the grammar takes

`Grammar.Takes m a us behind` says what an action does where its construct stands: in front of the
tokens of the trees `us`, with something behind them that satisfies `behind`, it answers `a`, adds these
trees and notes no error. Blanks and comments may stand anywhere; they end up in the trees, and the trees
are meant without them. Such statements are put together the way the actions are.
-/

namespace C3Lens

namespace Reader

/-- The significant tokens to come. -/
def tokens (r : Reader) : List Token :=
  r.ahead.map Lexeme.token

/-- From one reader to another the trees were gathered, up to blanks and comments, without an error. -/
structure Gathers (r s : Reader) (us : List Tree) : Prop where
  orderly : s.Orderly
  tokens : r.tokens = Tree.tokensOfList us ++ s.tokens
  errors : s.errors = r.errors
  cursor : s.cursor = r.cursor + (Tree.tokensOfList us).length
  added : ∃ ts, r.Adds s ts ∧ Tree.bareList ts = us

namespace Gathers

variable {r s t : Reader} {us vs : List Tree}

theorem refl (h : r.Orderly) : r.Gathers r [] :=
  ⟨h, rfl, rfl, rfl, [], .refl r, rfl⟩

theorem trans (h : r.Gathers s us) (k : s.Gathers t vs) : r.Gathers t (us ++ vs) := by
  obtain ⟨ts, first, bare⟩ := h.added
  obtain ⟨ts', second, bare'⟩ := k.added
  refine ⟨k.orderly, ?_, k.errors.trans h.errors, ?_, ts ++ ts', first.trans second, ?_⟩
  · rw [h.tokens, k.tokens, Tree.tokensOfList_append, List.append_assoc]
  · rw [k.cursor, h.cursor, Tree.tokensOfList_append, List.length_append, Nat.add_assoc]
  · rw [Tree.bareList_append, bare, bare']

theorem flush (h : r.Orderly) : r.Gathers r.flush [] where
  orderly := by
    rw [flush_eq]
    exact ⟨nofun, h.ahead⟩
  tokens := by rw [flush_eq]; rfl
  errors := by rw [flush_eq]
  cursor := flush_cursor r
  added := ⟨_, (Builds.flush r).adds, Tree.bareList_blanks h.blanks⟩

theorem bump (h : r.Orderly) {t : Token} {rest : List Token} (tokens : r.tokens = t :: rest)
    (plain : t.kind.isTrivia = false) : r.Gathers r.bump [.leaf t] ∧ r.bump.tokens = rest := by
  obtain ⟨l, ls, ahead, rfl, rfl⟩ := List.map_eq_cons_iff.1 tokens
  have behind : r.bump.tokens = ls.map Lexeme.token := by
    rw [Reader.tokens, bump_ahead, ahead, List.tail_cons]
  refine ⟨⟨((Builds.bump ahead).formed h).1, ?_, ?_, ?_, _, (Builds.bump ahead).adds, ?_⟩, behind⟩
  · rw [behind, tokens]
    rfl
  · rw [bump_of_cons ahead, flush_eq]
    rfl
  · rw [bump_of_cons ahead]
    rfl
  · rw [Tree.bareList_append, Tree.bareList_blanks h.blanks, Tree.bareList_leaf, plain]
    rfl

/-- What was gathered since a node was started becomes the node. -/
theorem finish {kind : NodeKind} (h : (r.start kind).Gathers s us) : r.Gathers s.finish [.node kind us] := by
  obtain ⟨ts, added, bare⟩ := h.added
  refine ⟨⟨h.orderly.blanks, h.orderly.ahead⟩, ?_, h.errors, ?_, _, added.finish, ?_⟩
  · refine h.tokens.trans ?_
    simp only [Tree.tokensOfList, Tree.tokens, List.append_nil]
    rfl
  · refine h.cursor.trans ?_
    simp only [Tree.tokensOfList, Tree.tokens, List.append_nil]
    rfl
  · rw [Tree.bareList_node, bare]
    rfl

/-- A node that is started at a checkpoint takes in what was gathered since. -/
theorem startAt (kind : NodeKind) (h : r.Gathers s us) (k : (s.startAt r.checkpoint kind).Gathers t vs) :
    (r.start kind).Gathers t (us ++ vs) := by
  obtain ⟨ts, first, bare⟩ := h.added
  obtain ⟨ts', second, bare'⟩ := k.added
  refine ⟨k.orderly, ?_, k.errors.trans h.errors, ?_, ts ++ ts', first.startAt kind second, ?_⟩
  · have behind : s.tokens = _ := k.tokens
    refine h.tokens.trans ?_
    rw [behind, Tree.tokensOfList_append, List.append_assoc]
  · refine k.cursor.trans ?_
    rw [Tree.tokensOfList_append, List.length_append, ← Nat.add_assoc]
    exact congrArg (· + _) h.cursor
  · rw [Tree.bareList_append, bare, bare']

end Gathers

end Reader

namespace Grammar

/-- Where the trees' tokens stand in front of something that satisfies `behind`, the action answers `a`
and gathers the trees. -/
structure Takes {α : Type} (m : Grammar α) (a : α) (us : List Tree) (behind : List Token → Prop) : Prop where
  run : ∀ r : Reader, r.Orderly → ∀ rest, r.tokens = Tree.tokensOfList us ++ rest → behind rest →
    m.answer r = a ∧ r.Gathers (m.after r) us ∧ (m.after r).tokens = rest

namespace Takes

variable {α β γ : Type} {m : Grammar α} {k : α → Grammar β} {a : α} {b : β} {us vs : List Tree}
  {P Q : List Token → Prop}

protected theorem pure (a : α) : Takes (pure a : Grammar α) a [] Q :=
  ⟨fun _ orderly _ tokens _ => ⟨rfl, .refl orderly, tokens⟩⟩

protected theorem bind (h : Takes m a us P) (hk : Takes (k a) b vs Q)
    (onward : ∀ rest, Q rest → P (Tree.tokensOfList vs ++ rest)) : Takes (m >>= k) b (us ++ vs) Q where
  run r orderly rest tokens behind := by
    rw [Tree.tokensOfList_append, List.append_assoc] at tokens
    obtain ⟨answer, first, there⟩ := h.run r orderly _ tokens (onward rest behind)
    obtain ⟨answer', second, there'⟩ := hk.run _ first.orderly rest there behind
    have runs : (m >>= k).run r = (k (m.answer r)).run (m.after r) := rfl
    rw [answer] at runs
    exact ⟨(congrArg Prod.fst runs).trans answer',
      (congrArg (fun s => r.Gathers s _) (congrArg Prod.snd runs)).mpr (first.trans second),
      (congrArg Reader.tokens (congrArg Prod.snd runs)).trans there'⟩

/-- What takes nothing comes first. -/
theorem nothing (h : Takes m a [] P) (hk : Takes (k a) b vs Q)
    (onward : ∀ rest, Q rest → P (Tree.tokensOfList vs ++ rest)) : Takes (m >>= k) b vs Q :=
  h.bind hk onward

/-- What takes one tree comes first. -/
theorem cons {u : Tree} (h : Takes m a [u] P) (hk : Takes (k a) b vs Q)
    (onward : ∀ rest, Q rest → P (Tree.tokensOfList vs ++ rest)) : Takes (m >>= k) b (u :: vs) Q :=
  h.bind hk onward

/-- Less may be asked of what is behind. -/
theorem weaken (h : Takes m a us P) (weaker : ∀ rest, Q rest → P rest) : Takes m a us Q :=
  ⟨fun r orderly rest tokens behind => h.run r orderly rest tokens (weaker rest behind)⟩

end Takes

end Grammar

/-! ## Looking ahead -/

/-- The token with nothing behind it. -/
abbrev Token.bareLexeme (t : Token) : Lexeme :=
  ⟨t, []⟩

/-- What does not depend on blanks is decided by the tokens. -/
theorem Lexeme.eq_of_tokens {γ : Type} {g : List Lexeme → γ} (hg : ∀ ls, g (ls.map bare) = g ls)
    {ls : List Lexeme} {ts : List Token} (tokens : ls.map token = ts) : g ls = g (ts.map Token.bareLexeme) := by
  rw [← hg, ← tokens, List.map_map]
  rfl

namespace Grammar

/-- The action answers what `f` says of the tokens to come, and does nothing. -/
def Sees {α : Type} (m : Grammar α) (f : List Token → α) : Prop :=
  ∀ r : Reader, m.run r = (f r.tokens, r)

theorem Sees.pure {α : Type} (a : α) : Sees (pure a) fun _ => a :=
  fun _ => rfl

theorem Sees.bind {α β : Type} {m : Grammar α} {k : α → Grammar β} {f : List Token → α}
    {g : α → List Token → β} (hm : Sees m f) (hk : ∀ a, Sees (k a) (g a)) :
    Sees (m >>= k) fun ts => g (f ts) ts := by
  intro r
  calc (m >>= k).run r
    _ = (k (m.run r).1).run (m.run r).2 := rfl
    _ = _ := by rw [hm r, hk]

section

variable (kind : TokenKind) (p : TokenKind → Bool) (n : Nat)

/-- The kind of a token ahead is seen without blanks. -/
theorem kind_getElem?_tokens (r : Reader) : (r.tokens[n]?).map Token.kind = (r.ahead[n]?).map Lexeme.kind := by
  rw [Reader.tokens, List.getElem?_map, Option.map_map]
  rfl

theorem kind_head?_tokens (r : Reader) : r.tokens.head?.map Token.kind = r.ahead.head?.map Lexeme.kind := by
  rw [Reader.tokens, List.head?_map, Option.map_map]
  rfl

theorem sees_current : Sees current fun ts => ts.head?.map Token.kind := by
  intro r
  dsimp only
  rw [kind_head?_tokens]
  rfl

theorem sees_kindAt : Sees (kindAt n) fun ts => ts[n]?.map Token.kind := by
  intro r
  dsimp only
  rw [kind_getElem?_tokens]
  rfl

theorem sees_looksAt : Sees (looksAt kind) fun ts => ts.head?.map Token.kind == some kind := by
  intro r
  dsimp only
  rw [kind_head?_tokens]
  rfl

theorem sees_looksAtNth : Sees (looksAtNth n kind) fun ts => ts[n]?.map Token.kind == some kind := by
  intro r
  dsimp only
  rw [kind_getElem?_tokens]
  rfl

theorem sees_looksAtAny : Sees (looksAtAny p) fun ts => ((ts.head?.map Token.kind).map p).getD false := by
  intro r
  dsimp only
  rw [kind_head?_tokens]
  rfl

theorem sees_looksAtNthAny :
    Sees (looksAtNthAny n p) fun ts => ((ts[n]?.map Token.kind).map p).getD false := by
  intro r
  dsimp only
  rw [kind_getElem?_tokens]
  rfl

theorem sees_currentText : Sees currentText fun ts => (ts.head?.map Token.text).getD "" := by
  intro r
  dsimp only
  rw [Reader.tokens, List.head?_map, Option.map_map]
  rfl

theorem sees_atEnd : Sees atEnd List.isEmpty := by
  intro r
  rw [Reader.tokens, List.isEmpty_map]
  rfl

end

namespace Takes

variable {α β γ : Type} {m : Grammar α} {k : α → Grammar β} {a : α} {b : β} {us vs : List Tree}
  {P Q : List Token → Prop} {kind : TokenKind} {t : Token} {body : Grammar Unit}

/-- What is seen ahead decides how to go on. -/
theorem lookEach {f : List Token → α} (hm : Sees m f)
    (hk : ∀ rest, Q rest → Takes (k (f (Tree.tokensOfList us ++ rest))) b us Q) : Takes (m >>= k) b us Q where
  run r orderly rest tokens behind := by
    have runs : (m >>= k).run r = (k (f (Tree.tokensOfList us ++ rest))).run r := calc
      (m >>= k).run r
      _ = (k (m.run r).1).run (m.run r).2 := rfl
      _ = _ := by rw [hm r, tokens]
    rw [answer, after, runs]
    exact (hk rest behind).run r orderly rest tokens behind

theorem look {f : List Token → α} (hm : Sees m f) (hk : Takes (k a) b us Q)
    (seen : ∀ rest, Q rest → f (Tree.tokensOfList us ++ rest) = a) : Takes (m >>= k) b us Q :=
  lookEach hm fun rest behind => (seen rest behind).symm ▸ hk

/-- The next token is of the kind that is looked for. -/
theorem present {k : Bool → Grammar β} (hk : Takes (k true) b us Q)
    (next : ∀ rest, Q rest → ((Tree.tokensOfList us ++ rest).head?.map Token.kind == some kind) = true) :
    Takes (looksAt kind >>= k) b us Q :=
  look (sees_looksAt kind) hk next

/-- The next token is of another kind. -/
theorem absent {k : Bool → Grammar β} (hk : Takes (k false) b us Q)
    (next : ∀ rest, Q rest → ((Tree.tokensOfList us ++ rest).head?.map Token.kind == some kind) = false) :
    Takes (looksAt kind >>= k) b us Q :=
  look (sees_looksAt kind) hk next

/-- The lexemes ahead decide how to go on. -/
theorem lookAhead {k : List Lexeme → Grammar β}
    (hk : ∀ ls rest, ls.map Lexeme.token = Tree.tokensOfList us ++ rest → Q rest → Takes (k ls) b us Q) :
    Takes (ahead >>= k) b us Q :=
  ⟨fun r orderly rest tokens behind => (hk r.ahead rest tokens behind).run r orderly rest tokens behind⟩

/-! ## Placing tokens -/

theorem bump (plain : t.kind.isTrivia = false) : Takes bump () [.leaf t] fun _ => True :=
  ⟨fun _ orderly _ tokens _ => ⟨rfl, Reader.Gathers.bump orderly tokens plain⟩⟩

theorem expect (plain : t.kind.isTrivia = false) (cause : SyntaxError.Cause) :
    Takes (expect t.kind cause) () [.leaf t] fun _ => True :=
  present (bump plain) fun _ _ => beq_self_eq_true _

theorem eat_none : Takes (eat kind) false [] fun rest => (rest.head?.map Token.kind == some kind) = false :=
  absent (.pure false) fun _ other => other

theorem skip_none : Takes (skip kind) () [] fun rest => (rest.head?.map Token.kind == some kind) = false :=
  absent (.pure ()) fun _ other => other

/-- What is taken becomes a node. -/
theorem node (kind : NodeKind) (h : Takes body () us P) : Takes (node kind body) () [.node kind us] P where
  run r orderly rest tokens behind := by
    have flushed := Reader.Gathers.flush orderly
    have inside : (r.flush.start kind).tokens = Tree.tokensOfList us ++ rest := by
      simpa [Tree.tokensOfList, Tree.tokens, Reader.tokens, Reader.start] using tokens
    obtain ⟨-, gathered, there⟩ :=
      h.run (r.flush.start kind) ⟨flushed.orderly.blanks, flushed.orderly.ahead⟩ rest inside behind
    exact ⟨rfl, flushed.trans gathered.finish, there⟩

/-! ## Repetition -/

theorem loopFrom {step : α → Grammar (Option α)}
    (h : ∀ n, (Tree.tokensOfList us).length < n → Takes (loopAtMost step n a) () us Q) :
    Takes (loopFrom step a) () us Q where
  run r orderly rest tokens behind := by
    have enough : (Tree.tokensOfList us).length < r.ahead.length + 1 := by
      have lengths := congrArg List.length tokens
      rw [Reader.tokens, List.length_map, List.length_append] at lengths
      omega
    exact (h _ enough).run r orderly rest tokens behind

theorem nest {within : (α → Grammar Unit) → α → Grammar Unit}
    (h : ∀ nested, Takes (within nested a) () us Q) : Takes (nest within a) () us Q where
  run r orderly rest tokens behind := (h (nestAtMost within r.ahead.length)).run r orderly rest tokens behind

/-- A loop takes what its steps take, one after the other, up to where a step stops. Behind a step stands
what the next one takes, or what stands behind the loop. -/
theorem loop {step : Grammar Bool} {items : List (List Tree)} (hstep : ∀ us ∈ items, Takes step true us P)
    (more : ∀ us ∈ items, Tree.tokensOfList us ≠ [])
    (onward : ∀ us ∈ items, ∀ rest, P (Tree.tokensOfList us ++ rest)) (stop : Takes step false [] Q)
    (last : ∀ rest, Q rest → P rest) : Takes (loop step) () items.flatten Q := by
  have plain {answer : Bool} {us : List Tree} {R : List Token → Prop} (h : Takes step answer us R) :
      Takes (plain step ()) (if answer then some () else none) us R := by
    have bound := h.bind (k := fun go => (return if go then some () else none : Grammar (Option Unit)))
      (.pure _) fun rest (behind : R rest) => behind
    rwa [List.append_nil] at bound
  have atMost : ∀ n, items.length < n → Takes (loopAtMost (Grammar.plain step) n ()) () items.flatten Q := by
    intro n enough
    induction items generalizing n with
    | nil =>
      obtain _ | n := n
      · omega
      exact (plain stop).bind (.pure ()) fun _ behind => behind
    | cons us items ih =>
      obtain _ | n := n
      · omega
      obtain ⟨first, others⟩ := List.forall_mem_cons.1 hstep
      refine (plain first).bind (ih others (fun us h => more us (List.mem_cons_of_mem _ h))
        (fun us h => onward us (List.mem_cons_of_mem _ h)) n (Nat.lt_of_succ_lt_succ enough)) fun rest behind => ?_
      cases items with
      | nil => exact last rest behind
      | cons vs items =>
        rw [List.flatten_cons, Tree.tokensOfList_append, List.append_assoc]
        exact onward vs (by simp) _
  refine loopFrom fun n enough => atMost n (Nat.lt_of_le_of_lt ?_ enough)
  clear hstep onward enough atMost
  induction items with
  | nil => exact Nat.zero_le _
  | cons us items ih =>
    obtain ⟨first, others⟩ := List.forall_mem_cons.1 more
    have some := List.length_pos_iff.2 first
    have rest := ih others
    rw [List.flatten_cons, Tree.tokensOfList_append, List.length_append, List.length_cons]
    omega

/-- A loop whose first step stops takes nothing. -/
theorem loop_none {step : Grammar Bool} (stop : Takes step false [] Q) : Takes (Grammar.loop step) () [] Q := by
  have nothing : ∀ us ∈ ([] : List (List Tree)), False := fun _ mem => nomatch mem
  exact loop (fun us mem => (nothing us mem).elim) (fun us mem => (nothing us mem).elim)
    (fun us mem => (nothing us mem).elim) stop fun _ behind => behind

/-- A loop whose steps take one tree each. -/
theorem loopEach {step : Grammar Bool} {ts : List Tree} (hstep : ∀ t ∈ ts, Takes step true [t] P)
    (more : ∀ t ∈ ts, t.tokens ≠ []) (onward : ∀ t ∈ ts, ∀ rest, P (t.tokens ++ rest))
    (stop : Takes step false [] Q) (last : ∀ rest, Q rest → P rest) : Takes (Grammar.loop step) () ts Q := by
  have steps : ∀ us ∈ ts.map fun t => [t], Takes step true us P := List.forall_mem_map.2 hstep
  have whole := loop steps (List.forall_mem_map.2 fun t h => by simpa [Tree.tokensOfList] using more t h)
    (List.forall_mem_map.2 fun t h => by simpa [Tree.tokensOfList] using onward t h) stop last
  rwa [← List.flatMap_def, List.flatMap_singleton'] at whole

theorem unlessMoved {otherwise : Grammar Bool} (h : Takes body () us Q) (more : Tree.tokensOfList us ≠ []) :
    Takes (unlessMoved body otherwise) true us Q where
  run r orderly rest tokens behind := by
    obtain ⟨-, gathered, there⟩ := h.run r orderly rest tokens behind
    have moved : (body.after r).cursor ≠ r.cursor := by
      have some := List.length_pos_iff.2 more
      have sum := gathered.cursor
      omega
    have runs := run_unlessMoved body otherwise r
    rw [if_neg moved] at runs
    rw [answer, after, runs]
    exact ⟨rfl, gathered, there⟩

theorem moved (h : Takes body () us Q) (more : Tree.tokensOfList us ≠ []) :
    Takes (do
      let before ← cursor
      body
      return (← cursor) != before) true us Q where
  run r orderly rest tokens behind := by
    obtain ⟨-, gathered, there⟩ := h.run r orderly rest tokens behind
    have moved : (body.after r).cursor ≠ r.cursor := by
      have some := List.length_pos_iff.2 more
      have sum := gathered.cursor
      omega
    exact ⟨bne_iff_ne.2 moved, gathered, there⟩

/-- A loop takes what one step takes, and then what it takes behind that. -/
theorem loopNext {step : Grammar Bool} [Reads step] [steps : Steps step] (h : Takes step true us P)
    (hk : Takes (Grammar.loop step) () vs Q) (onward : ∀ rest, Q rest → P (Tree.tokensOfList vs ++ rest)) :
    Takes (Grammar.loop step) () (us ++ vs) Q where
  run r orderly rest tokens behind := by
    rw [Tree.tokensOfList_append, List.append_assoc] at tokens
    obtain ⟨goes, first, there⟩ := h.run r orderly _ tokens (onward rest behind)
    obtain ⟨-, second, there'⟩ := hk.run _ first.orderly rest there behind
    have once : (plain step ()).answer r = some () := by
      have answer : (plain step ()).answer r = if step.answer r then some () else none := rfl
      rw [answer, goes, if_pos rfl]
    have runs : (Grammar.loop step).run r = (Grammar.loop step).run (step.after r) := by
      have unfolded := (Steps.productive steps).run_loopFrom () r
      rwa [once] at unfolded
    rw [answer, after, runs]
    exact ⟨rfl, first.trans second, there'⟩

/-! ## Top-level declarations -/

theorem run_ahead_bind (k : List Lexeme → Grammar β) (r : Reader) : (ahead >>= k).run r = (k r.ahead).run r :=
  rfl

theorem run_current_bind {t : Token} {ts : List Token} {r : Reader} (tokens : r.tokens = t :: ts)
    (k : Option TokenKind → Grammar β) : (current >>= k).run r = (k (some t.kind)).run r := by
  have head : r.ahead.head?.map Lexeme.kind = some t.kind := by
    rw [← kind_head?_tokens, tokens, List.head?_cons, Option.map_some]
  rw [← head]
  rfl

theorem modifiers : Takes modifiers () [] fun rest =>
    ((rest.head?.map Token.kind).map fun kind => kind matches .externKw | .staticKw | .tlocalKw).getD false = false :=
  loop_none (look (a := false) (sees_looksAtAny _) (.pure false) fun _ other => other)

/-- What begins no modifier and is read as a node is an item. -/
theorem item {kind : NodeKind} (h : Takes body () us Q)
    (same : ∀ (c : Checkpoint) (r : Reader) rest, r.tokens = Tree.tokensOfList us ++ rest → Q rest →
      (unmodified c).run r = (nodeFrom c kind body).run r)
    (plain : ∀ rest, Q rest → (((Tree.tokensOfList us ++ rest).head?.map Token.kind).map fun kind =>
      kind matches .externKw | .staticKw | .tlocalKw).getD false = false) :
    Takes item () [.node kind us] Q where
  run r orderly rest tokens behind := by
    have inside : r.flush.tokens = Tree.tokensOfList us ++ rest := by
      simpa [Tree.tokensOfList, Tree.tokens, Reader.tokens] using tokens
    have flushed := Reader.Gathers.flush orderly
    obtain ⟨-, none, there⟩ := modifiers.run r.flush flushed.orderly _ inside (plain rest behind)
    obtain ⟨s, hs⟩ : ∃ s, Grammar.modifiers.after r.flush = s := ⟨_, rfl⟩
    rw [hs] at none there
    obtain ⟨-, gathered, after⟩ := h.run (s.startAt r.flush.checkpoint kind)
      ⟨none.orderly.blanks, none.orderly.ahead⟩ rest there behind
    have runs : Grammar.item.run r = (unmodified r.flush.checkpoint).run s := hs ▸ rfl
    have run : Grammar.item.run r = ((), (body.after (s.startAt r.flush.checkpoint kind)).finish) :=
      runs.trans (same r.flush.checkpoint s rest there behind)
    rw [answer, Grammar.after, run]
    exact ⟨rfl, flushed.trans (none.startAt kind gathered).finish, after⟩

end Takes

end Grammar

/-! ## Whole texts -/

theorem Reader.tokens_ofTokens (ts : List Token) : (Reader.ofTokens ts).tokens = Token.significant ts := by
  have bare := congrArg (List.map Lexeme.token) (Lexeme.bare_arrange ts)
  rw [List.map_map, List.map_map] at bare
  exact bare.trans (List.map_id _)

/-- If the items of a text are taken, the text has no syntax error, and the trees are those of the text
without its blanks and comments. -/
theorem Parse.of_takes {ts : List Token} {us : List Tree}
    (h : Grammar.Takes (Grammar.loop Grammar.itemStep) () us fun rest => rest = [])
    (tokens : Token.significant ts = Tree.tokensOfList us) :
    (ofTokens ts).errors = [] ∧ ∃ children, (ofTokens ts).tree = .node .sourceFile children ∧
      Tree.bareList children = us := by
  have orderly : ((Reader.ofTokens ts).start .sourceFile).Orderly :=
    ⟨(Reader.orderly_ofTokens ts).blanks, (Reader.orderly_ofTokens ts).ahead⟩
  have coming : ((Reader.ofTokens ts).start .sourceFile).tokens = Tree.tokensOfList us ++ [] := by
    rw [List.append_nil, ← tokens]
    exact Reader.tokens_ofTokens ts
  obtain ⟨-, gathered, -⟩ := h.run _ orderly [] coming rfl
  obtain ⟨trees, added, bare⟩ := gathered.added
  obtain ⟨blanks, trivia, tree⟩ := children_of_adds added
  refine ⟨?_, _, tree, ?_⟩
  · have errors : (ofTokens ts).errors = (Grammar.lastOf ts).flush.errors.reverse := rfl
    have none : (Grammar.lastOf ts).errors = [] := gathered.errors
    rw [errors, Reader.flush_eq]
    exact congrArg List.reverse none
  · rw [Tree.bareList_append, bare, Tree.bareList_blanks trivia, List.append_nil]

end C3Lens
