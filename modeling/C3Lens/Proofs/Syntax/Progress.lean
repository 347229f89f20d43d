import C3Lens.Proofs.Syntax.Nesting

/-!
# Progress

A step of a loop that answers to go on has placed a significant token.
-/

-- An instance spells out the action that it is about.
set_option synthInstance.maxSize 16384

namespace C3Lens.Grammar

/-! ## Actions that place a token -/

section

variable {α β : Type} {m m' : Grammar α} {f : α → Grammar β} {r : Reader}

/-- The action never goes back. -/
class Grows (m : Grammar α) : Prop where
  le : ∀ r, r.cursor ≤ (m.after r).cursor

instance (priority := high) [h : Reads m] : Grows m :=
  ⟨fun r => (h.run r).cursor_le⟩

instance (c : Checkpoint) (kind : NodeKind) (body : Grammar Unit) [h : Reads body] :
    Grows (nodeFrom c kind body) :=
  ⟨fun r => (h.run (r.startAt c kind)).cursor_le⟩

theorem Grows.bind [hm : Grows m] (hf : ∀ a, Grows (f a)) : Grows (m >>= f) :=
  ⟨fun r => Nat.le_trans (hm.le r) ((hf _).le _)⟩

instance [Grows m] [hf : ∀ a, Grows (f a)] : Grows (m >>= f) :=
  .bind hf

instance {c : Prop} [Decidable c] [Grows m] [Grows m'] : Grows (if c then m else m') := by
  split <;> infer_instance

/-- From the reader on, the action places a significant token. -/
def Moves (m : Grammar α) (r : Reader) : Prop :=
  r.cursor < (m.after r).cursor

theorem Moves.first [hf : ∀ a, Grows (f a)] (h : Moves m r) : Moves (m >>= f) r :=
  Nat.lt_of_lt_of_le h ((hf _).le _)

theorem Moves.behind [hm : Grows m] (h : Moves (f (m.answer r)) (m.after r)) : Moves (m >>= f) r :=
  Nat.lt_of_le_of_lt (hm.le r) h

/-- If the first action places no significant token, the second one begins at the same token. -/
theorem Moves.later [hm : Reads m] [∀ a, Grows (f a)]
    (h : (m.after r).ahead = r.ahead → Moves (f (m.answer r)) (m.after r)) : Moves (m >>= f) r := by
  have reads := hm.run r
  by_cases moved : r.cursor < (m.after r).cursor
  · exact .first moved
  · have sum := reads.cursor_add_length
    have le := reads.cursor_le
    exact .behind (h (reads.ahead_suffix.eq_of_length (by omega)))

theorem moves_bump (more : r.ahead ≠ []) : Moves bump r := by
  obtain ⟨l, ls, ahead⟩ := List.exists_cons_of_ne_nil more
  calc r.cursor
    _ < r.cursor + 1 := Nat.lt_succ_self _
    _ = r.bump.cursor := by rw [Reader.bump_of_cons ahead]

theorem Moves.node (kind : NodeKind) {body : Grammar Unit} (h : Moves body (r.flush.start kind)) :
    Moves (node kind body) r := by
  calc r.cursor
    _ = (r.flush.start kind).cursor := r.flush_cursor.symm
    _ < (body.after (r.flush.start kind)).cursor := h

theorem Moves.nodeFrom (c : Checkpoint) (kind : NodeKind) {body : Grammar Unit}
    (h : Moves body (r.startAt c kind)) : Moves (nodeFrom c kind body) r :=
  h

theorem Moves.ite {c : Prop} [Decidable c] (h : c → Moves m r) (h' : ¬ c → Moves m' r) :
    Moves (if c then m else m') r := by
  split
  next yes => exact h yes
  next no => exact h' no

/-- The action only looks at the reader. -/
class Looks (m : Grammar α) : Prop where
  after : ∀ r, m.after r = r

instance (a : α) : Looks (pure a : Grammar α) := ⟨fun _ => rfl⟩
instance : Looks ahead := ⟨fun _ => rfl⟩
instance (n : Nat) : Looks (kindAt n) := ⟨fun _ => rfl⟩
instance : Looks current := ⟨fun _ => rfl⟩
instance : Looks currentText := ⟨fun _ => rfl⟩
instance (kind : TokenKind) : Looks (looksAt kind) := ⟨fun _ => rfl⟩
instance (n : Nat) (kind : TokenKind) : Looks (looksAtNth n kind) := ⟨fun _ => rfl⟩
instance (p : TokenKind → Bool) : Looks (looksAtAny p) := ⟨fun _ => rfl⟩
instance (n : Nat) (p : TokenKind → Bool) : Looks (looksAtNthAny n p) := ⟨fun _ => rfl⟩
instance : Looks atEnd := ⟨fun _ => rfl⟩
instance : Looks cursor := ⟨fun _ => rfl⟩

theorem Looks.run_bind (hm : Looks m) (f : α → Grammar β) (r : Reader) :
    (m >>= f).run r = (f (m.answer r)).run r := by
  calc (m >>= f).run r
    _ = (f (m.answer r)).run (m.after r) := rfl
    _ = (f (m.answer r)).run r := by rw [hm.after]

theorem Moves.look [hm : Looks m] (h : Moves (f (m.answer r)) r) : Moves (m >>= f) r := by
  calc r.cursor
    _ < ((f (m.answer r)).after r).cursor := h
    _ = ((m >>= f).after r).cursor := (congrArg (·.2.cursor) (hm.run_bind f r)).symm

theorem answer_current {l : Lexeme} {ls : List Lexeme} (ahead : r.ahead = l :: ls) :
    current.answer r = some l.kind := by
  calc current.answer r
    _ = r.ahead.head?.map Lexeme.kind := rfl
    _ = some l.kind := by rw [ahead]; rfl

theorem answer_looksAt {l : Lexeme} {ls : List Lexeme} (ahead : r.ahead = l :: ls) (kind : TokenKind) :
    (looksAt kind).answer r = (l.kind == kind) := by
  calc (looksAt kind).answer r
    _ = (r.ahead.head?.map Lexeme.kind == some kind) := rfl
    _ = (l.kind == kind) := by rw [ahead]; rfl

theorem answer_looksAtAny {l : Lexeme} {ls : List Lexeme} (ahead : r.ahead = l :: ls)
    (p : TokenKind → Bool) : (looksAtAny p).answer r = p l.kind := by
  calc (looksAtAny p).answer r
    _ = ((r.ahead.head?.map Lexeme.kind).map p).getD false := rfl
    _ = p l.kind := by rw [ahead]; rfl

/-- The action places a significant token wherever there is one. -/
class Gains (m : Grammar α) : Prop where
  moves : ∀ r : Reader, r.ahead ≠ [] → Moves m r

instance : Gains bump :=
  ⟨fun _ more => moves_bump more⟩

theorem Gains.first [hm : Gains m] (hf : ∀ a, Grows (f a)) : Gains (m >>= f) :=
  ⟨fun r more => (hm.moves r more).first⟩

instance [Gains m] [hf : ∀ a, Grows (f a)] : Gains (m >>= f) :=
  .first hf

theorem Gains.look [Looks m] (hf : ∀ a, Gains (f a)) : Gains (m >>= f) :=
  ⟨fun r more => .look ((hf _).moves r more)⟩

instance [Looks m] [hf : ∀ a, Gains (f a)] : Gains (m >>= f) :=
  .look hf

/-- Where there is a token, its kind is there to look at. -/
theorem Gains.current {f : Option TokenKind → Grammar β} (hf : ∀ kind, Gains (f (some kind))) :
    Gains (current >>= f) where
  moves r more := by
    obtain ⟨l, ls, ahead⟩ := List.exists_cons_of_ne_nil more
    refine .look ?_
    rw [answer_current ahead]
    exact (hf l.kind).moves r more

instance {c : Prop} [Decidable c] [Gains m] [Gains m'] : Gains (if c then m else m') := by
  split <;> infer_instance

end

instance (kind : NodeKind) (body : Grammar Unit) [h : Gains body] : Gains (node kind body) where
  moves r more := .node kind (h.moves _ (by rwa [← r.flush_ahead] at more))

instance (c : Checkpoint) (kind : NodeKind) (body : Grammar Unit) [h : Gains body] :
    Gains (nodeFrom c kind body) where
  moves r more := .nodeFrom c kind (h.moves (r.startAt c kind) more)

theorem Gains.checkpoint {α : Type} {f : Checkpoint → Grammar α} (hf : ∀ c, Gains (f c)) :
    Gains (checkpoint >>= f) where
  moves r more := by
    have flushed : Moves (f r.flush.checkpoint) r.flush :=
      (hf _).moves _ (by rwa [← r.flush_ahead] at more)
    calc r.cursor
      _ = r.flush.cursor := r.flush_cursor.symm
      _ < ((f r.flush.checkpoint).after r.flush).cursor := flushed

theorem Gains.looksAtAny {α : Type} {p : TokenKind → Bool} {m m' : Grammar α} [h' : Gains m']
    (h : ∀ (r : Reader) (l : Lexeme) (ls : List Lexeme), r.ahead = l :: ls → p l.kind = true →
      Moves m r) : Gains (do if ← looksAtAny p then m else m') where
  moves r more := by
    obtain ⟨l, ls, ahead⟩ := List.exists_cons_of_ne_nil more
    refine .look (.ite (fun yes => ?_) fun _ => h'.moves r more)
    exact h r l ls ahead ((answer_looksAtAny ahead p).symm.trans yes)

theorem Moves.nest {α : Type} {within : (α → Grammar Unit) → α → Grammar Unit} (h : Nests within)
    {a : α} {r : Reader} (hm : ∀ inner, (∀ a, Reads (inner a)) → Moves (within inner a) r) :
    Moves (nest within a) r :=
  hm _ (h.reads_atMost r.ahead.length)

theorem Gains.nest {α : Type} {within : (α → Grammar Unit) → α → Grammar Unit} (h : Nests within)
    (hg : ∀ inner a, (∀ a, Reads (inner a)) → Gains (within inner a)) (a : α) :
    Gains (nest within a) :=
  ⟨fun r more => .nest h fun inner reads => (hg inner a reads).moves r more⟩

/-! ## Loops -/

theorem Moves.fewer {α : Type} {m : Grammar α} [hm : Reads m] {r : Reader} (h : Moves m r) :
    (m.after r).ahead.length < r.ahead.length := by
  have sum := (hm.run r).cursor_add_length
  have more : r.cursor < (m.after r).cursor := h
  omega

/-- A step that gives a value to go on with places a significant token. -/
def Productive {α : Type} (step : α → Grammar (Option α)) : Prop :=
  ∀ (a next : α) (r : Reader), (step a).answer r = some next → Moves (step a) r

theorem run_loopAtMost_succ {α : Type} (step : α → Grammar (Option α)) (n : Nat) (a : α) (r : Reader) :
    (loopAtMost step (n + 1) a).run r =
      match (step a).answer r with
      | some next => (loopAtMost step n next).run ((step a).after r)
      | none => ((), (step a).after r) := by
  calc (loopAtMost step (n + 1) a).run r
    _ = (match (step a).answer r with
        | some next => loopAtMost step n next
        | none => pure ()).run ((step a).after r) := rfl
    _ = _ := by split <;> rfl

section

variable {α : Type} {step : α → Grammar (Option α)} [∀ a, Reads (step a)]

/-- Bounds above the number of tokens do not matter. -/
theorem Productive.run_loopAtMost (h : Productive step) {n n' : Nat} (a : α) (r : Reader)
    (lt : r.ahead.length < n) (lt' : r.ahead.length < n') :
    (loopAtMost step n a).run r = (loopAtMost step n' a).run r := by
  induction n generalizing n' a r with
  | zero => omega
  | succ n ih =>
    obtain _ | n' := n'
    · omega
    rw [run_loopAtMost_succ, run_loopAtMost_succ]
    cases answer : (step a).answer r with
    | none => rfl
    | some next =>
      have fewer := (h a next r answer).fewer
      exact ih next _ (by omega) (by omega)

/-- The equation of a loop without a bound: a loop with a productive step is never cut off. -/
theorem Productive.run_loopFrom (h : Productive step) (a : α) (r : Reader) :
    (loopFrom step a).run r =
      match (step a).answer r with
      | some next => (loopFrom step next).run ((step a).after r)
      | none => ((), (step a).after r) := by
  calc (loopFrom step a).run r
    _ = (loopAtMost step (r.ahead.length + 1) a).run r := rfl
    _ = _ := run_loopAtMost_succ step _ a r
  cases answer : (step a).answer r with
  | none => rfl
  | some next => exact h.run_loopAtMost next _ (h a next r answer).fewer (Nat.lt_succ_self _)

/-- A loop ends behind a step that gives nothing to go on with. -/
theorem Productive.loopFrom_ends (h : Productive step) (a : α) (r : Reader) :
    ∃ b s, (step b).answer s = none ∧ (loopFrom step a).after r = (step b).after s := by
  have loop := h.run_loopFrom a r
  cases answer : (step a).answer r with
  | none =>
    rw [answer] at loop
    exact ⟨a, r, answer, congrArg Prod.snd loop⟩
  | some next =>
    rw [answer] at loop
    obtain ⟨b, s, ends, after⟩ := h.loopFrom_ends next ((step a).after r)
    exact ⟨b, s, ends, (congrArg Prod.snd loop).trans after⟩
termination_by r.ahead.length
decreasing_by exact (h a next r answer).fewer

end

/-- A loop places a token if its first step does. -/
theorem Moves.loopFrom {α : Type} {step : α → Grammar (Option α)} [∀ a, Reads (step a)] {a : α}
    {r : Reader} (h : Moves (step a) r) : Moves (loopFrom step a) r := by
  have most (n : Nat) : Moves (loopAtMost step (n + 1) a) r := by
    have rest (next? : Option α) : Grows (match next? with
        | some next => loopAtMost step n next
        | none => pure () : Grammar Unit) := by
      cases next? <;> infer_instance
    exact .first h
  exact most r.ahead.length

instance {α : Type} (step : α → Grammar (Option α)) (a : α) [∀ a, Reads (step a)] [h : Gains (step a)] :
    Gains (loopFrom step a) :=
  ⟨fun r more => .loopFrom (h.moves r more)⟩

theorem Moves.loop {step : Grammar Bool} [Reads step] {r : Reader} (h : Moves step r) :
    Moves (loop step) r :=
  .loopFrom (.first h)

/-! ## Steps that answer whether to go on -/

section

variable {α : Type} {m : Grammar α} {step step' : Grammar Bool} {f : α → Grammar Bool}

/-- The step places a significant token if it answers `true`. -/
class Steps (step : Grammar Bool) : Prop where
  moves : ∀ r, step.answer r = true → Moves step r

instance : Steps (pure false) :=
  ⟨fun _ no => absurd no Bool.false_ne_true⟩

theorem Steps.behind [Reads m] (hf : ∀ a, Steps (f a)) : Steps (m >>= f) :=
  ⟨fun _ goes => .behind ((hf _).moves _ goes)⟩

instance [Reads m] [hf : ∀ a, Steps (f a)] : Steps (m >>= f) :=
  .behind hf

/-- What follows a step that answered not to go on does not go on either. -/
instance {k : Grammar Bool} [hs : Steps step] [Reads k] :
    Steps (step >>= fun goes => if goes then k else pure false) where
  moves r goes := by
    have answer : (step >>= fun goes => if goes then k else pure false).answer r =
        (if step.answer r then k else pure false).answer (step.after r) := rfl
    cases went : step.answer r with
    | true => exact .first (hs.moves r went)
    | false =>
      rw [answer, went] at goes
      exact absurd goes Bool.false_ne_true

instance {c : Prop} [Decidable c] [Steps step] [Steps step'] : Steps (if c then step else step') := by
  split <;> infer_instance

theorem Steps.productive (h : Steps step) : Productive (plain step) := by
  intro _ _ r goes
  have answer : (plain step ()).answer r = if step.answer r then some () else none := rfl
  have yes : step.answer r = true := by
    cases no : step.answer r with
    | true => rfl
    | false =>
      rw [answer, no] at goes
      cases goes
  exact h.moves r yes

/-- Where there is a token, the step places one if it answers `true`. -/
class Strides (step : Grammar Bool) : Prop where
  moves : ∀ r : Reader, r.ahead ≠ [] → step.answer r = true → Moves step r

instance (priority := low) [h : Gains step] : Strides step :=
  ⟨fun r more _ => h.moves r more⟩

instance (priority := low) [h : Steps step] : Strides step :=
  ⟨fun r _ goes => h.moves r goes⟩

theorem Strides.look [hm : Looks m] (hf : ∀ a, Strides (f a)) : Strides (m >>= f) where
  moves r more goes :=
    .look ((hf _).moves r more ((congrArg Prod.fst (hm.run_bind f r)).symm.trans goes))

instance [Looks m] [hf : ∀ a, Strides (f a)] : Strides (m >>= f) :=
  .look hf

instance {c : Prop} [Decidable c] [Strides step] [Strides step'] :
    Strides (if c then step else step') := by
  split <;> infer_instance

/-- A step that reads on only where there is a token. -/
theorem Strides.steps (h : Strides step)
    (stops : ∀ blanks offset cursor builder? errors,
      step.answer ⟨blanks, [], offset, cursor, builder?, errors⟩ = false) : Steps step where
  moves := by
    rintro ⟨blanks, _ | ⟨l, ls⟩, offset, cursor, builder?, errors⟩ goes
    · exact absurd ((stops ..).symm.trans goes) Bool.false_ne_true
    · exact h.moves _ (List.cons_ne_nil l ls) goes

/-- Runs `body`, and `otherwise` behind it if it has placed no significant token. -/
abbrev unlessMoved (body : Grammar Unit) (otherwise : Grammar Bool) : Grammar Bool := do
  let before ← cursor
  body
  if (← cursor) == before then otherwise else return true

theorem run_unlessMoved (body : Grammar Unit) (otherwise : Grammar Bool) (r : Reader) :
    (unlessMoved body otherwise).run r =
      if (body.after r).cursor = r.cursor then otherwise.run (body.after r) else (true, body.after r) := by
  calc (unlessMoved body otherwise).run r
    _ = (if (body.after r).cursor == r.cursor then otherwise else return true).run (body.after r) := rfl
    _ = _ := by
      by_cases stays : (body.after r).cursor = r.cursor
      · rw [if_pos stays, if_pos (beq_iff_eq.2 stays)]
      · rw [if_neg stays, if_neg (mt beq_iff_eq.1 stays)]
        rfl

theorem Strides.unlessMoved {body : Grammar Unit} {otherwise : Grammar Bool} [hb : Reads body]
    (ho : Strides otherwise) : Strides (unlessMoved body otherwise) where
  moves r more goes := by
    have runs := run_unlessMoved body otherwise r
    by_cases stays : (body.after r).cursor = r.cursor
    · rw [if_pos stays] at runs
      have still : (body.after r).ahead ≠ [] := by
        have sum := (hb.run r).cursor_add_length
        rw [← List.length_pos_iff] at more ⊢
        omega
      have answer : otherwise.answer (body.after r) = true := (congrArg Prod.fst runs).symm.trans goes
      calc r.cursor
        _ = (body.after r).cursor := stays.symm
        _ < (otherwise.after (body.after r)).cursor := ho.moves _ still answer
        _ = ((Grammar.unlessMoved body otherwise).after r).cursor :=
          (congrArg (·.2.cursor) runs).symm
    · rw [if_neg stays] at runs
      calc r.cursor
        _ < (body.after r).cursor := Nat.lt_of_le_of_ne (hb.run r).cursor_le (Ne.symm stays)
        _ = ((Grammar.unlessMoved body otherwise).after r).cursor :=
          (congrArg (·.2.cursor) runs).symm

end

end C3Lens.Grammar
