import C3Lens.Proofs.Lookup.Unique
import C3Lens.Proofs.SymbolStore.Shadow

/-!
# Lookups past a private module

`Veils hidden v w` says that the viewpoint `w` is the viewpoint `v` where the module `hidden`, which is not
visible, has no contents. As long as nothing leads into the module both find the same. There is one lemma for
each lookup, which says at once that what is found leads nowhere into the module (`BothFind`), since the next
lookup starts there. A word may still name the module itself (`Veils.resolve?`).
-/

namespace C3Lens

/-- The symbol `t` is `s`, or `s` is the module `hidden` up to resolution and `t` has nothing of its contents. -/
def Symbol.Shades (hidden : Module) (s t : Symbol) : Prop :=
  t = s ∨ ∃ m : Module, s = .module m ∧ m.skeleton = hidden.skeleton ∧ t = .module m.veil

/-- What two lookups find is the same up to the contents of the module, and leads nowhere into it. -/
structure Symbol.BothMean (hidden : Module) (a b : Option Symbol) : Prop where
  shades : Option.Rel (Symbol.Shades hidden) a b
  avoids : ∀ s, a = some s → s.avoids hidden = true

/-! ## What both find -/

/-- Both lookups find the same, and it has the property. -/
structure BothFind {α : Type} (P : α → Prop) (a b : Option α) : Prop where
  same : b = a
  all : ∀ x, a = some x → P x

namespace BothFind

variable {α β : Type} {P : α → Prop} {Q : β → Prop} {a b c d : Option α}

theorem none : BothFind P .none .none :=
  ⟨rfl, fun _ h => by cases h⟩

theorem some {x : α} (h : P x) : BothFind P (.some x) (.some x) :=
  ⟨rfl, fun _ same => Option.some.inj same ▸ h⟩

/-- A lookup that does not depend on the module. -/
theorem refl (h : ∀ x, a = .some x → P x) : BothFind P a a :=
  ⟨rfl, h⟩

theorem orElse (first : BothFind P a b) (second : BothFind P c d) : BothFind P (a <|> c) (b <|> d) := by
  obtain ⟨rfl, first⟩ := first
  obtain ⟨rfl, second⟩ := second
  exact ⟨rfl, fun x h => ((Option.orElse_eq_some _ _ _).1 h).elim (first x) fun later => second x later.2⟩

theorem bind (h : BothFind P a b) {f g : α → Option β} (hf : ∀ x, P x → BothFind Q (f x) (g x)) :
    BothFind Q (a.bind f) (b.bind g) := by
  obtain ⟨rfl, all⟩ := h
  cases b with
  | none => exact BothFind.none
  | some x => exact hf x (all x rfl)

theorem mean {hidden : Module} {a b : Option Symbol} (h : BothFind (fun s => s.avoids hidden = true) a b) :
    Symbol.BothMean hidden a b := by
  obtain ⟨rfl, all⟩ := h
  refine ⟨?_, all⟩
  cases b with
  | none => exact .none
  | some s => exact .some (.inl rfl)

end BothFind

theorem rel_orElse {α : Type} {R : α → α → Prop} {a b c d : Option α} (first : Option.Rel R a b)
    (second : Option.Rel R c d) : Option.Rel R (a <|> c) (b <|> d) := by
  cases first with
  | none => exact second
  | some related => exact .some related

/-- What the second lookups find is only looked at where the first ones find nothing. -/
theorem Symbol.BothMean.orElse {hidden : Module} {a b c d : Option Symbol}
    (first : BothFind (fun s => s.avoids hidden = true) a b) (second : Symbol.BothMean hidden c d) :
    Symbol.BothMean hidden (a <|> c) (b <|> d) := by
  cases a with
  | none =>
    cases first.same
    exact second
  | some s =>
    cases first.same
    exact first.mean

theorem bothMean_module {hidden : Module} {a b : Option Module} (h : Option.Rel (Module.Shades hidden) a b) :
    Symbol.BothMean hidden (a.map .module) (b.map .module) := by
  cases h with
  | none => exact BothFind.none.mean
  | @some m n shades =>
    refine ⟨.some ?_, fun s found => Option.some.inj found ▸ rfl⟩
    rcases shades with rfl | ⟨same, rfl⟩
    · exact .inl rfl
    · exact .inr ⟨m, rfl, same, rfl⟩

namespace Viewpoint

/-! ## The viewpoint without the module -/

/-- The viewpoint `w` is `v` with nothing in the module `hidden`, which is not visible. Nothing else leads into
the module, and the index has no entries for it. -/
structure Veils (hidden : Module) (v w : Viewpoint) : Prop where
  cursor : w.cursor = v.cursor
  visible : w.modules = v.modules
  names : w.workspace.names = v.workspace.names
  modules : List.Forall₂ (Module.Shades hidden) v.workspace.symbols.modules w.workspace.symbols.modules
  entries : ∀ query, ∀ l ∈ v.workspace.names.search query,
    w.workspace.symbolAt? l = v.workspace.symbolAt? l
  avoids : ∀ m ∈ w.workspace.symbols.modules, hidden.avoids m = true
  spares : ∀ m ∈ v.modules, hidden.avoids m.content = true

section Veils

variable {hidden : Module} {v w : Viewpoint} (h : v.Veils hidden w)

include h

/-! ## Plain and qualified names -/

theorem Veils.find? (name : String) :
    BothFind (fun s => s.avoids hidden = true) (v.find? name) (w.find? name) := by
  -- Plain names are looked up in the visible modules alone, and these are the same.
  have same : w.find? name = v.find? name := by
    obtain ⟨_, _, _⟩ := v
    obtain ⟨_, _, _⟩ := w
    cases h.cursor
    cases h.visible
    rfl
  refine ⟨same, fun s found => ?_⟩
  rw [Viewpoint.find?] at found
  split at found
  · cases found
  rcases (Option.orElse_eq_some _ _ _).1 found with declared | ⟨-, module⟩
  · obtain ⟨m, hm, declared⟩ := List.exists_of_findSome?_eq_some declared
    rcases (Option.orElse_eq_some _ _ _).1 declared with inside | ⟨-, child⟩
    · obtain ⟨x, -, rfl⟩ := Option.map_eq_some_iff.1 inside
      rfl
    · exact Module.avoids_iff.1 (h.spares m hm) s (Module.mem_of_child? child)
  · obtain ⟨m, -, rfl⟩ := Option.map_eq_some_iff.1 module
    rfl

/-- The first declaration of the name in the modules of certain paths, where the module is not one of them or
does not declare the name. -/
theorem Veils.firstChild {q : Module → Bool} (ofPath : ∀ m n : Module, m.modulePath = n.modulePath → q m = q n)
    {name : String} (out : (q hidden && hidden.declares name) = false) :
    BothFind (fun s => s.avoids hidden = true)
      ((v.workspace.symbols.modules.filter q).findSome? (·.child? name))
      ((w.workspace.symbols.modules.filter q).findSome? (·.child? name)) := by
  have same : (w.workspace.symbols.modules.filter q).findSome? (·.child? name) =
      (v.workspace.symbols.modules.filter q).findSome? (·.child? name) := by
    -- A module of another path is left out on both sides; one of the path has nothing of the name.
    cases met : q hidden with
    | false =>
      have path : ∀ m : Module, m.skeleton = hidden.skeleton → q m = false := fun m same =>
        (ofPath m hidden (Module.modulePath_of_skeleton same)).trans met
      rw [filter_shades h.modules path fun m same => (ofPath m.veil m rfl).trans (path m same)]
    | true =>
      rw [met, Bool.true_and] at out
      refine findSome?_shades (filter_shades_path h.modules ofPath) (fun m same => ?_) fun _ => rfl
      have absent := (Module.declares_of_skeleton same name).trans out
      rwa [Module.declares, Option.isSome_eq_false_iff, Option.isNone_iff_eq_none] at absent
  refine ⟨same, fun s found => ?_⟩
  rw [← same] at found
  obtain ⟨m, hm, child⟩ := List.exists_of_findSome?_eq_some found
  exact Module.avoids_iff.1 (h.avoids m (List.mem_of_mem_filter hm)) s (Module.mem_of_child? child)

theorem Veils.findQualified? {path written : ModulePath} {name : String}
    (out : (hidden.isMetBy path written && hidden.declares name) = false) :
    BothFind (fun s => s.avoids hidden = true) (v.findQualified? path written name)
      (w.findQualified? path written name) := by
  rw [Module.isMetBy, Bool.and_or_distrib_right, Bool.or_eq_false_iff] at out
  rw [Viewpoint.findQualified?, Viewpoint.findQualified?]
  split
  · exact .none
  · refine .orElse (h.firstChild (fun m n same => ?_) out.1) (h.firstChild (fun m n same => ?_) out.2)
    · rw [same]
    · rw [same]

/-! ## Following declarations -/

/-- An entry of the index leads to the same symbol. -/
theorem Veils.symbolAt? {query : String} {l : SymbolLocation} (hl : l ∈ v.workspace.names.search query) :
    BothFind (fun s => s.avoids hidden = true) (v.workspace.symbolAt? l) (w.workspace.symbolAt? l) := by
  refine ⟨h.entries query l hl, fun s found => ?_⟩
  rw [← h.entries query l hl] at found
  rcases Workspace.mem_of_symbolAt? found with ⟨m, rfl⟩ | ⟨m, hm, child⟩
  · rfl
  · exact Module.avoids_iff.1 (h.avoids m hm) s child

theorem Veils.search (query : String) (p : SymbolLocation → Bool) :
    ((w.workspace.names.search query).filter p).filterMap w.workspace.symbolAt? =
      ((v.workspace.names.search query).filter p).filterMap v.workspace.symbolAt? := by
  rw [h.names]
  exact List.filterMap_congr fun l hl => h.entries query l (List.mem_of_mem_filter hl)

theorem Veils.firstEntry (query : String) (p : Symbol → Bool) :
    BothFind (fun s => s.avoids hidden = true)
      (((v.workspace.names.search query).filterMap v.workspace.symbolAt?).find? p)
      (((w.workspace.names.search query).filterMap w.workspace.symbolAt?).find? p) := by
  have same := h.search query fun _ => true
  rw [List.filter_true, List.filter_true] at same
  rw [same]
  refine .refl fun s found => ?_
  obtain ⟨l, hl, leads⟩ := List.mem_filterMap.1 (List.mem_of_find?_eq_some found)
  exact (h.symbolAt? hl).all s leads

theorem Veils.typeDeclaration? (t : TypeRef) :
    BothFind (fun s => s.avoids hidden = true) (v.typeDeclaration? t) (w.typeDeclaration? t) := by
  rw [Viewpoint.typeDeclaration?, Viewpoint.typeDeclaration?]
  split
  · exact .none
  · refine (h.firstEntry t.qualifiedName (·.isType)).orElse ?_
    rw [h.visible]
    refine .refl fun s found => ?_
    obtain ⟨m, hm, child⟩ := List.mem_filterMap.1 (List.mem_of_find?_eq_some found)
    exact Module.avoids_iff.1 (h.spares m hm) s (Module.mem_of_child? child)

theorem Veils.aliased? {a : Alias} {path : String} (target : a.target = .symbol path)
    (avoids : a.avoids hidden = true) :
    BothFind (fun s => s.avoids hidden = true) (v.aliased? path a.modulePath) (w.aliased? path a.modulePath) := by
  rw [Alias.avoids, target] at avoids
  dsimp only at avoids
  rw [Viewpoint.aliased?, Viewpoint.aliased?]
  cases cut : ModulePath.cutLast? path.toList with
  | some parts =>
    rw [cut, Bool.not_eq_true'] at avoids
    exact h.findQualified? avoids
  | none =>
    rw [cut, Bool.not_eq_true'] at avoids
    exact .orElse (h.firstChild (fun m n same => by rw [same]) avoids) (h.find? path)

theorem Veils.target? {s : Symbol} (avoids : s.avoids hidden = true) :
    BothFind (fun t => t.avoids hidden = true) (v.target? s) (w.target? s) := by
  unfold Viewpoint.target?
  split
  next x => exact h.typeDeclaration? x.type
  next k =>
    rw [Symbol.avoids, Bool.and_eq_true] at avoids
    cases some : k.body? with
    | some body => exact .some (Member.avoids_body avoids.2 some)
    | none => exact h.typeDeclaration? k.type
  next f => exact h.typeDeclaration? f.returns
  next f _ => exact h.typeDeclaration? f.returns
  next a =>
    rw [Symbol.avoids, Bool.and_eq_true] at avoids
    cases target : a.target with
    | type t => exact h.typeDeclaration? t
    | symbol path => exact h.aliased? target avoids.2
  next d => exact h.typeDeclaration? d.base
  next => exact .none

theorem Veils.followFor (atDistinct : Bool) (steps : Nat) {r : Reached} (avoids : r.symbol.avoids hidden = true) :
    BothFind (fun t => t.symbol.avoids hidden = true) (v.followFor atDistinct steps r)
      (w.followFor atDistinct steps r) := by
  -- Where a step leads avoids the module again, so the induction is over all starts.
  induction steps generalizing r with
  | zero => exact .none
  | succ steps ih =>
    rw [Viewpoint.followFor, Viewpoint.followFor]
    split
    · exact .some avoids
    · have target := h.target? avoids
      rw [target.same]
      cases found : v.target? r.symbol with
      | none => exact .none
      | some t => exact ih (target.all t found)

/-! ## Members and methods -/

omit h in
/-- A module without methods of a type has none of any name. -/
theorem function?_of_hasMethodOf {m : Module} {host : String} (without : m.hasMethodOf host = false)
    (name : String) : m.function? (host ++ "." ++ name) = none := by
  refine List.find?_eq_none.2 fun f hf called => ?_
  have other := List.any_eq_false.1 without f hf
  rw [beq_iff_eq.1 called] at other
  refine other (List.isPrefixOf_iff_prefix.2 ?_)
  simp only [String.toList_append]
  exact List.prefix_append _ _

theorem Veils.method? {host : String} {path : ModulePath} (out : hidden.addsMethodsTo host path = false)
    (name : String) :
    BothFind (fun s => s.avoids hidden = true) (v.method? host path name) (w.method? host path name) := by
  have declared : (w.workspace.modulesAt path ++ w.modules.map (·.content)).findSome?
        (·.function? (host ++ "." ++ name)) =
      (v.workspace.modulesAt path ++ v.modules.map (·.content)).findSome?
        (·.function? (host ++ "." ++ name)) := by
    rw [List.findSome?_append, List.findSome?_append, h.visible]
    congr 1
    rw [Workspace.modulesAt, Workspace.modulesAt]
    rw [Module.addsMethodsTo] at out
    cases here : hidden.modulePath == path with
    | false =>
      have path : ∀ m : Module, m.skeleton = hidden.skeleton → (m.modulePath == path) = false := fun m same => by
        rw [Module.modulePath_of_skeleton same, here]
      rw [filter_shades h.modules path path]
    | true =>
      rw [here, Bool.true_and] at out
      have chosen := filter_shades_path h.modules (q := (·.modulePath == path)) fun m n same => by rw [same]
      exact findSome?_shades chosen (fun m same => Module.function?_of_skeleton same
        (function?_of_hasMethodOf out name)) fun _ => rfl
  rw [Viewpoint.method?, Viewpoint.method?]
  refine (h.firstEntry _ _).orElse ?_
  rw [declared]
  refine .refl fun s found => ?_
  obtain ⟨f, -, rfl⟩ := Option.map_eq_some_iff.1 found
  rfl

end Veils

/-- A member has no more methods than the declaration that has it. -/
theorem avoids_of_ownMember? {hidden : Module} {name : String} {s t : Symbol} (avoids : s.avoids hidden = true)
    (found : ownMember? name s = some t) : t.avoids hidden = true := by
  cases s with
  | enum e =>
    rcases (Option.orElse_eq_some _ _ _).1 found with enumerator | ⟨-, value⟩
    · obtain ⟨r, -, rfl⟩ := Option.map_eq_some_iff.1 enumerator
      exact avoids
    · obtain ⟨x, -, rfl⟩ := Option.map_eq_some_iff.1 value
      rfl
  | enumerator _ e =>
    obtain ⟨x, -, rfl⟩ := Option.map_eq_some_iff.1 found
    rfl
  | fault f =>
    rw [Symbol.avoids, Bool.and_eq_true] at avoids
    obtain ⟨c, hc, rfl⟩ := Option.map_eq_some_iff.1 found
    exact (Bool.and_true _).trans (List.all_eq_true.1 avoids.2 c (List.mem_of_find?_eq_some hc))
  | aggregate a =>
    rw [Symbol.avoids, Bool.and_eq_true] at avoids
    obtain ⟨k, hk, rfl⟩ := Option.map_eq_some_iff.1 found
    exact Member.avoidsOfList_iff.1 avoids.2 k (List.mem_of_find?_eq_some hk)
  | bitstruct b =>
    rw [Symbol.avoids, Bool.and_eq_true] at avoids
    obtain ⟨k, hk, rfl⟩ := Option.map_eq_some_iff.1 found
    exact Member.avoidsOfList_iff.1 avoids.2 k (List.mem_of_find?_eq_some hk)
  | interface i =>
    obtain ⟨f, -, rfl⟩ := Option.map_eq_some_iff.1 found
    rfl
  | _ => cases found

theorem avoids_of_associatedValue? {hidden : Module} {name : String} {s t : Symbol}
    (found : associatedValue? name s = some t) : t.avoids hidden = true := by
  unfold associatedValue? at found
  split at found
  · obtain ⟨x, -, rfl⟩ := Option.map_eq_some_iff.1 found
    rfl
  · obtain ⟨x, -, rfl⟩ := Option.map_eq_some_iff.1 found
    rfl
  · cases found

section Veils

variable {hidden : Module} {v w : Viewpoint} (h : v.Veils hidden w)

include h

theorem Veils.methodOf? {s : Symbol} (avoids : s.avoids hidden = true) (name : String) :
    BothFind (fun t => t.avoids hidden = true)
      ((methodHost? s).bind fun host => v.method? host.1 host.2 name)
      ((methodHost? s).bind fun host => w.method? host.1 host.2 name) := by
  have apart := Symbol.isHostApart_of_avoids avoids
  rw [Symbol.isHostApart] at apart
  cases hosted : methodHost? s with
  | none => exact .none
  | some host =>
    rw [hosted, Option.all_some, Bool.not_eq_true'] at apart
    exact h.method? apart name

theorem Veils.memberOrMethod? {r : Reached} (avoids : r.symbol.avoids hidden = true) (name : String) :
    BothFind (fun t => t.avoids hidden = true) (v.memberOrMethod? r name) (w.memberOrMethod? r name) := by
  rw [Viewpoint.memberOrMethod?, Viewpoint.memberOrMethod?]
  refine .orElse ?_ (.orElse ?_ ?_)
  · split
    · exact .refl fun t found => avoids_of_ownMember? avoids found
    · exact .none
  · split
    · exact .none
    · exact .refl fun t found => avoids_of_associatedValue? found
  · split
    · exact h.methodOf? avoids name
    · exact .none

theorem Veils.distinctMethod? {r : Reached} (avoids : r.symbol.avoids hidden = true) (name : String) :
    BothFind (fun t => t.avoids hidden = true) (v.distinctMethod? r name) (w.distinctMethod? r name) := by
  unfold Viewpoint.distinctMethod?
  split
  next d symbol =>
    split
    · rw [symbol] at avoids
      exact h.methodOf? avoids name
    · exact .none
  next => exact .none

theorem Veils.step? {r : Reached} (avoids : r.symbol.avoids hidden = true) (name : String) :
    BothFind (fun t => t.symbol.avoids hidden = true) (v.step? r name) (w.step? r name) := by
  refine .bind (h.followFor true mostSteps avoids) fun parent hp => ?_
  have method := h.distinctMethod? hp name
  rw [method.same]
  split
  next t found => exact .some (method.all t found)
  next =>
    refine .bind (h.followFor false mostSteps hp) fun base hb => ?_
    exact .bind (h.memberOrMethod? hb name) fun t ht => .some ht

theorem Veils.steps? {r : Reached} (avoids : r.symbol.avoids hidden = true) (names : List String) :
    BothFind (fun t => t.symbol.avoids hidden = true) (v.steps? r names) (w.steps? r names) := by
  induction names generalizing r with
  | nil => exact .some avoids
  | cons name names ih =>
    have step := h.step? avoids name
    rw [Viewpoint.steps?, Viewpoint.steps?, step.same]
    split
    next next found => exact ih (step.all next found)
    next => exact .none

/-! ## Words -/

/-- The modules that a path names with a further name. -/
theorem Veils.moduleBelow? (path written : ModulePath) (last : String) :
    Option.Rel (Module.Shades hidden) (v.moduleBelow? path written last) (w.moduleBelow? path written last) := by
  have first : ∀ {ms ns : List Module}, List.Forall₂ (Module.Shades hidden) ms ns →
      Option.Rel (Module.Shades hidden) ms.head? ns.head? := by
    intro ms ns shades
    cases shades with
    | nil => exact .none
    | cons shade _ => exact .some shade
  have exact := first (filter_shades_path h.modules (q := (·.modulePath == ⟨path.names ++ [last]⟩))
    fun m n same => by rw [same])
  have ending := first (filter_shades_path h.modules (q := (·.modulePath.endsWith ⟨written.names ++ [last]⟩))
    fun m n same => by rw [same])
  exact rel_orElse exact ending

section Words

variable {word : Word}
  (apart : word.modules.isEmpty = false → hidden.isMetBy word.modulePath word.writtenModule = false)

include apart

/-- What a word begins with that has further names. -/
theorem Veils.first? (name : String) :
    BothFind (fun s => s.avoids hidden = true) (v.first? word name false) (w.first? word name false) := by
  rw [Viewpoint.first?, Viewpoint.first?]
  split
  · exact h.find? name
  next modules =>
    refine .orElse (h.findQualified? ?_) .none
    rw [apart (Bool.eq_false_iff.2 modules), Bool.false_and]

/-- A word that is a single name behind a module path may be the path of a module as a whole. -/
theorem Veils.onlyName? (name : String) :
    Symbol.BothMean hidden (v.first? word name true) (w.first? word name true) := by
  rw [Viewpoint.first?, Viewpoint.first?]
  split
  · exact (h.find? name).mean
  next modules =>
    refine .orElse (h.findQualified? ?_) (bothMean_module (h.moduleBelow? _ _ name))
    rw [apart (Bool.eq_false_iff.2 modules), Bool.false_and]

/-- **A word means the same whatever a module contains that nothing leads into.** -/
theorem Veils.resolve? : Symbol.BothMean hidden (v.resolve? word) (w.resolve? word) := by
  rw [Viewpoint.resolve?, Viewpoint.resolve?]
  split
  · exact BothFind.none.mean
  split
  · exact BothFind.none.mean
  next name names _ =>
    cases names with
    | nil =>
      have only := h.onlyName? apart name
      have whole : ∀ x : Viewpoint, ((x.first? word name true).bind fun first =>
          (x.steps? ⟨first, .start⟩ []).bind fun r => some r.symbol) = x.first? word name true :=
        fun x => Option.bind_fun_some _
      rw [← whole v, ← whole w] at only
      exact only
    | cons next names =>
      refine BothFind.mean (.bind (h.first? apart name) fun first hf => ?_)
      exact .bind (h.steps? hf (next :: names)) fun r hr => .some hr

end Words

end Veils

end Viewpoint

end C3Lens
