import C3Lens.Proofs.Lookup.Unique
import C3Lens.Proofs.NameIndex

/-!
# What stands behind a dot

What stands in front of a dot is followed to its base, whose members and associated values may be named
as far as the access goes (`part?`). Methods are those of the base and, for values, those of the distinct
type on the way to it (`Hosts`). A step finds a part of the base or a method of a host, and it finds
something wherever one of them has the name (`found_of_step?`, `isSome_step?_of_part`,
`isSome_step?_of_method`). A name behind the dots of a word is resolved by one step from what stands in
front of the last dot (`resolve?_of_parent?`).
-/

namespace C3Lens

/-- The word with another name as its head. -/
def Word.withHead (w : Word) (p : WordPart) : Word :=
  { w with head? := some p }

/-- What is seen from a cursor, which may say any module. -/
def Workspace.seenFrom (w : Workspace) (c : Cursor) : Viewpoint :=
  ⟨w, c, w.visibleModules c⟩

theorem Workspace.Named.seenFrom {w : Workspace} (h : w.Named) (c : Cursor) : (w.seenFrom c).Named :=
  ⟨h, fun _ hm => h.modules _ (content_of_mem_visibleModules hm)⟩

namespace Viewpoint

theorem inside_seenFrom (w : Workspace) (c : Cursor) : (w.seenFrom c).Inside :=
  fun _ hm => Workspace.content_of_mem_visibleModules hm

theorem isSome_orElse {α : Type} (a b : Option α) : (a <|> b).isSome = (a.isSome || b.isSome) := by
  simp only [Option.orElse_eq_orElse, Option.orElse_eq_or, Option.isSome_or]

variable {v : Viewpoint} {r b t : Reached} {name host : String} {path : ModulePath} {s : Symbol}

/-! ## Bases and hosts -/

/-- The declaration that what stands in front of a dot is followed to. -/
def Base (v : Viewpoint) (r b : Reached) : Prop :=
  ∃ d, v.follow true r = some d ∧ v.follow false d = some b

/-- A type whose methods may be named behind the dot, and its module. -/
inductive Hosts (v : Viewpoint) (r : Reached) (host : String) (path : ModulePath) : Prop
  /-- A distinct type has methods of its own, for its values. -/
  | distinct {d : Reached} : v.follow true r = some d → d.symbol.kind = .distinct → d.access.isValue = true →
      d.access.methods = true → methodHost? d.symbol = some (host, path) → Hosts v r host path
  | base {b : Reached} : v.Base r b → b.access.methods = true → methodHost? b.symbol = some (host, path) →
      Hosts v r host path

/-- The member or associated value of the name, as far as the access goes. -/
def part? (name : String) (b : Reached) : Option Symbol :=
  (if b.access.readsMembers then ownMember? name b.symbol else none) <|>
  (if b.access.members then none else associatedValue? name b.symbol)

theorem Named.base (h : v.Named) (named : r.symbol.Named) (base : v.Base r b) : b.symbol.Named := by
  obtain ⟨d, first, second⟩ := base
  exact h.followFor (h.followFor named first) second

theorem Named.parent (h : v.Named) {w : Word} (parent : w.parent?.bind v.parent? = some r) : r.symbol.Named := by
  obtain ⟨q, -, leads⟩ := Option.bind_eq_some_iff.1 parent
  obtain ⟨s, resolved, rfl⟩ := Option.map_eq_some_iff.1 leads
  exact (h.resolve? resolved).2.named

/-! ## Steps -/

/-- A step finds a part of the base, or a method of a host. -/
theorem found_of_step? (found : v.step? r name = some t) :
    (∃ b, v.Base r b ∧ part? name b = some t.symbol) ∨
      ∃ host path, v.Hosts r host path ∧ v.method? host path name = some t.symbol := by
  obtain ⟨d, followed, found⟩ := Option.bind_eq_some_iff.1 found
  split at found
  next method own =>
    cases found
    rw [distinctMethod?] at own
    split at own
    next k distinct =>
      split at own
      next value =>
        rw [Bool.and_eq_true] at value
        have kind : d.symbol.kind = .distinct := by
          rw [distinct]
          rfl
        have type : methodHost? d.symbol = some (k.name, k.modulePath) := by
          rw [distinct]
          rfl
        exact .inr ⟨k.name, k.modulePath, .distinct followed kind value.1 value.2 type, own⟩
      next => cases own
    next => cases own
  next =>
    obtain ⟨b, again, found⟩ := Option.bind_eq_some_iff.1 found
    obtain ⟨s, member, found⟩ := Option.bind_eq_some_iff.1 found
    cases found
    have base : v.Base r b := ⟨d, followed, again⟩
    rcases (Option.orElse_eq_some _ _ _).1 member with own | ⟨noOwn, others⟩
    · exact .inl ⟨b, base, (Option.orElse_eq_some _ _ _).2 (.inl own)⟩
    rcases (Option.orElse_eq_some _ _ _).1 others with value | ⟨-, method⟩
    · exact .inl ⟨b, base, (Option.orElse_eq_some _ _ _).2 (.inr ⟨noOwn, value⟩)⟩
    · split at method
      next methods =>
        obtain ⟨⟨host, path⟩, type, method⟩ := Option.bind_eq_some_iff.1 method
        exact .inr ⟨host, path, .base base methods type, method⟩
      next => cases method

/-- Where something is found behind the base, the step finds something. -/
theorem isSome_step?_of_base (base : v.Base r b) (member : (v.memberOrMethod? b name).isSome = true) :
    (v.step? r name).isSome = true := by
  obtain ⟨d, first, second⟩ := base
  obtain ⟨s, member⟩ := Option.isSome_iff_exists.1 member
  rw [step?, first, Option.bind_eq_bind, Option.bind_some]
  cases v.distinctMethod? d name with
  | some method => rfl
  | none =>
    rw [second, Option.bind_eq_bind, Option.bind_some, member]
    rfl

theorem isSome_step?_of_part (base : v.Base r b) (part : (part? name b).isSome = true) :
    (v.step? r name).isSome = true := by
  refine isSome_step?_of_base base ?_
  rw [part?, isSome_orElse, Bool.or_eq_true] at part
  rw [memberOrMethod?, isSome_orElse, isSome_orElse, Bool.or_eq_true, Bool.or_eq_true]
  exact part.imp_right .inl

theorem isSome_step?_of_method (hosts : v.Hosts r host path)
    (method : (v.method? host path name).isSome = true) : (v.step? r name).isSome = true := by
  cases hosts with
  | @distinct d followed kind value methods type =>
    obtain ⟨s, method⟩ := Option.isSome_iff_exists.1 method
    have own : v.distinctMethod? d name = some s := by
      obtain ⟨symbol, access⟩ := d
      cases symbol with
      | distinct k =>
        cases type
        rw [distinctMethod?]
        exact (if_pos (Bool.and_eq_true_iff.2 ⟨value, methods⟩)).trans method
      | aggregate a => exact absurd kind (Symbol.kind_aggregate_ne (by decide) (by decide))
      | _ => cases kind
    rw [step?, followed, Option.bind_eq_bind, Option.bind_some, own]
    rfl
  | base base methods type =>
    refine isSome_step?_of_base base ?_
    rw [memberOrMethod?, isSome_orElse, isSome_orElse, if_pos methods, type, Bool.or_eq_true, Bool.or_eq_true]
    exact .inr (.inr method)

/-- A function that the index has under the name of the method is found. -/
theorem Named.isSome_method? (h : v.Named) (whole : NameQuery.Whole name) {l : SymbolLocation}
    (entry : l ∈ v.workspace.names.entries)
    (key : l.key = NameQuery.path (path.qualify (host ++ "." ++ name)))
    (leads : v.workspace.symbolAt? l = some s) (kind : s.kind = .function) :
    (v.method? host path name).isSome = true := by
  have query : path.text ++ "::" ++ (host ++ "." ++ name) = path.text ++ "::" ++ host ++ "." ++ name := by
    rw [← String.append_assoc, ← String.append_assoc]
  have asked : NameQuery.parse (path.text ++ "::" ++ (host ++ "." ++ name)) = .exact l.key := by
    rw [key, ← NameQuery.path_qualify, query, NameQuery.parse_append whole]
  have searched : l ∈ v.workspace.names.search (path.text ++ "::" ++ (host ++ "." ++ name)) := by
    rw [NameIndex.search_of_exact asked]
    exact NameIndex.mem_entriesAt_key h.workspace.orderly.distinct h.workspace.keyed entry
  have indexed : (((v.workspace.names.search (path.text ++ "::" ++ (host ++ "." ++ name))).filterMap
      v.workspace.symbolAt?).find? (·.kind == .function)).isSome = true :=
    List.find?_isSome.2 ⟨s, List.mem_filterMap.2 ⟨l, searched, leads⟩, beq_iff_eq.2 kind⟩
  rw [Viewpoint.method?, isSome_orElse, indexed, Bool.true_or]

/-- A module has neither members nor methods. -/
theorem step?_module (m : Module) (access : Access) : v.step? ⟨.module m, access⟩ name = none := by
  have stays : ∀ atDistinct, v.follow atDistinct ⟨.module m, access⟩ = some ⟨.module m, access⟩ :=
    fun _ => rfl
  have nothing : v.memberOrMethod? ⟨.module m, access⟩ name = none := by
    rw [memberOrMethod?]
    cases access.readsMembers <;> cases access.members <;> cases access.methods <;> rfl
  rw [step?, stays, Option.bind_eq_bind, Option.bind_some]
  show ((v.follow false ⟨.module m, access⟩).bind fun b => _) = none
  rw [stays, Option.bind_some, nothing]
  rfl

/-! ## Words -/

theorem steps?_append (r : Reached) (names more : List String) :
    v.steps? r (names ++ more) = (v.steps? r names).bind (v.steps? · more) := by
  induction names generalizing r with
  | nil => rfl
  | cons name names ih =>
    rw [List.cons_append, steps?, steps?]
    cases v.step? r name with
    | none => rfl
    | some next => exact ih next

/-- Behind a step the access is that of what was found. -/
theorem access_of_steps? {names : List String} (found : v.steps? r (names ++ [name]) = some t) :
    t = ⟨t.symbol, .ofMember t.symbol⟩ := by
  rw [steps?_append] at found
  obtain ⟨next, -, found⟩ := Option.bind_eq_some_iff.1 found
  rw [steps?_singleton] at found
  obtain ⟨d, -, found⟩ := Option.bind_eq_some_iff.1 found
  split at found
  · cases found
    rfl
  · obtain ⟨b, -, found⟩ := Option.bind_eq_some_iff.1 found
    obtain ⟨s, -, found⟩ := Option.bind_eq_some_iff.1 found
    cases found
    rfl

theorem isName_of_resolve? {w : Word} (found : v.resolve? w = some s) :
    w.isName = true ∧ isReserved w.text = false := by
  rw [resolve?] at found
  split at found
  · cases found
  next names =>
    rw [Bool.or_eq_true, not_or, Bool.not_eq_true, Bool.not_eq_false', Bool.not_eq_true] at names
    exact names

/-- A first name that is not the last one cannot be the last name of a module path. -/
theorem first?_of_isLast {w : Word} (found : v.first? w name true = some s) :
    v.first? w name false = some s ∨ v.first? w name false = none ∧ ∃ m, s = .module m := by
  rw [first?] at found ⊢
  split at found
  next plain =>
    rw [if_pos plain]
    exact .inl found
  next qualified =>
    rw [if_neg qualified]
    rcases (Option.orElse_eq_some _ _ _).1 found with declared | ⟨nothing, module⟩
    · exact .inl ((Option.orElse_eq_some _ _ _).2 (.inl declared))
    · obtain ⟨m, -, rfl⟩ := Option.map_eq_some_iff.1 module
      exact .inr ⟨(Option.orElse_eq_none _ _).2 ⟨nothing, rfl⟩, m, rfl⟩

/-- Behind what stands in front of the last dot, a name is resolved by one step. -/
theorem resolve?_of_parent? {w : Word} (parent : w.parent?.bind v.parent? = some r) {p : WordPart}
    (isName : (w.withHead p).isName = true) (reserved : isReserved p.text = false) :
    v.resolve? (w.withHead p) = (v.step? r p.text).map (·.symbol) := by
  obtain ⟨q, cut, leads⟩ := Option.bind_eq_some_iff.1 parent
  obtain ⟨s, resolved, rfl⟩ := Option.map_eq_some_iff.1 leads
  obtain ⟨qName, qReserved⟩ := isName_of_resolve? resolved
  rw [Word.parent?] at cut
  split at cut
  · cases cut
  next last ends =>
  cases cut
  have access : w.access = w.access.dropLast ++ [last] := (List.dropLast_append_getLast? last ends).symm
  generalize w.access.dropLast = front at *
  cases front with
  | nil =>
    have here : ([] : List WordPart).map (·.text) ++ [last.text] = [last.text] := rfl
    rw [resolve?_of_isName qName qReserved here] at resolved
    obtain ⟨s', first, same⟩ := Option.bind_eq_some_iff.1 resolved
    obtain rfl : s' = s := Option.some.inj same
    have written : (w.withHead p).access.map (·.text) ++ [(w.withHead p).text] = [last.text, p.text] := by
      show w.access.map (·.text) ++ [p.text] = _
      rw [access]
      rfl
    rw [resolve?_of_isName isName reserved written]
    rcases first?_of_isLast first with first | ⟨nothing, m, rfl⟩
    · have head : v.first? (w.withHead p) last.text false = some s' := first
      show (v.first? (w.withHead p) last.text false).bind _ = _
      rw [head, Option.bind_some, steps?_singleton]
      rfl
    · have head : v.first? (w.withHead p) last.text false = none := nothing
      show (v.first? (w.withHead p) last.text false).bind _ = _
      rw [head, step?_module]
      rfl
  | cons part front =>
    have here : (part :: front).map (·.text) ++ [last.text] =
        part.text :: (front.map (·.text) ++ [last.text]) := rfl
    rw [resolve?_of_isName qName qReserved here] at resolved
    obtain ⟨s', first, found⟩ := Option.bind_eq_some_iff.1 resolved
    obtain ⟨t, steps, rfl⟩ := Option.map_eq_some_iff.1 found
    have written : (w.withHead p).access.map (·.text) ++ [(w.withHead p).text] =
        part.text :: (front.map (·.text) ++ [last.text] ++ [p.text]) := by
      show w.access.map (·.text) ++ [p.text] = _
      rw [access, List.map_append]
      rfl
    have further : ∀ (names : List String) (name : String), (names ++ [name]).isEmpty = false := by simp
    rw [further] at first
    have head : v.first? (w.withHead p) part.text false = some s' := first
    rw [resolve?_of_isName isName reserved written, further, head, Option.bind_some, steps?_append, steps,
      Option.bind_some, steps?_singleton]
    exact congrArg (fun r => (v.step? r p.text).map (·.symbol)) (access_of_steps? steps)

end Viewpoint

end C3Lens
