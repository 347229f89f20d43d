import C3Lens.Answer.Completion
import C3Lens.Proofs.Workspace.Private

/-!
# What a private module changes elsewhere

* `Workspace.answers_past_private`: two runs register the same documents, except that one of them has other
  contents in a private module. At a cursor in another document and in a module of another path, the same is
  offered and the same declaration is found, provided that nothing that is registered leads into the module
  (`Registers.staysOut`) and that the word does not name it as the module to look in. The declaration that is
  found may be the module itself, which is then the same up to its contents (`Symbol.SameApart`).
* `Workspace.reached_in_vault`: a qualified name does lead into a private module of another document, because
  its path is looked up among all registered modules.

The two runs are not compared with each other. Both are compared with a third one, in which the document is
registered with nothing in the module (`Registers.veils`): the relation of a workspace to the one without the
module is kept by every step, and it leaves nothing to choose on its right-hand side.
-/

namespace C3Lens

/-! ## Completions -/

namespace Viewpoint

/-- What is offered behind the declaration that stands in front of a dot. -/
def offersBehind (v : Viewpoint) (start : String) (r : Reached) : List Completion :=
  match v.follow true r with
  | none => []
  | some r =>
    v.distinctMethodsOf start r ++
      match v.follow false r with
      | some base => v.offersOf start base
      | none => []

theorem completionsBehindDot_eq (v : Viewpoint) (word : Word) : v.completionsBehindDot word =
    ((word.parent?.bind v.parent?).map (v.offersBehind word.start)).getD [] := by
  rw [completionsBehindDot]
  cases word.parent?.bind v.parent? with
  | none => rfl
  | some r => rfl

/-- A module has no members: behind a dot nothing is offered for it. -/
theorem offersBehind_module (v : Viewpoint) (start : String) (m : Module) (a : Access) :
    v.offersBehind start ⟨.module m, a⟩ = [] := by
  have followed : ∀ atDistinct, v.follow atDistinct ⟨.module m, a⟩ = some ⟨.module m, a⟩ := by
    intro atDistinct
    have stops : stopsAt atDistinct (.module m) = true := Bool.true_or _
    rw [follow, mostSteps, followFor]
    exact if_pos stops
  rw [offersBehind, followed]
  dsimp only
  rw [followed]
  simp [distinctMethodsOf, offersOf, membersOf, associatedValuesOf, methodsOf, methodHost?, Symbol.kind]

section Veils

variable {hidden : Module} {v w : Viewpoint} (h : v.Veils hidden w)

include h

theorem Veils.methodsOf (start : String) (s : Symbol) : w.methodsOf start s = v.methodsOf start s := by
  rw [Viewpoint.methodsOf, Viewpoint.methodsOf]
  split
  · rfl
  · dsimp only
    rw [h.search]

theorem Veils.offersOf (start : String) : w.offersOf start = v.offersOf start := by
  funext r
  rw [Viewpoint.offersOf, h.methodsOf, Viewpoint.offersOf]

theorem Veils.offersBehind (start : String) {r : Reached} (avoids : r.symbol.avoids hidden = true) :
    w.offersBehind start r = v.offersBehind start r := by
  have stop := h.followFor true mostSteps avoids
  rw [Viewpoint.offersBehind, Viewpoint.offersBehind, follow, follow, stop.same]
  split
  next => rfl
  next t found =>
    have base := h.followFor false mostSteps (stop.all t found)
    rw [Viewpoint.distinctMethodsOf, h.methodsOf, Viewpoint.distinctMethodsOf, follow, follow, base.same, h.offersOf]

section Words

variable {word : Word}
  (apart : word.modules.isEmpty = false → hidden.isMetBy word.modulePath word.writtenModule = false)

include apart

/-- In front of the dot there may be the module itself, which differs but offers nothing. -/
theorem Veils.completionsBehindDot : w.completionsBehindDot word = v.completionsBehindDot word := by
  rw [completionsBehindDot_eq, completionsBehindDot_eq]
  cases parent : word.parent? with
  | none => simp only [Option.bind_none, Option.map_none]
  | some front =>
    have path : front.modules = word.modules ∧ front.modulePath = word.modulePath ∧
        front.writtenModule = word.writtenModule := by
      rw [Word.parent?] at parent
      split at parent
      · cases parent
      · cases parent
        exact ⟨rfl, rfl, rfl⟩
    have mean : Symbol.BothMean hidden (v.resolve? front) (w.resolve? front) :=
      h.resolve? (by rw [path.1, path.2.1, path.2.2]; exact apart)
    obtain ⟨shades, avoids⟩ := mean
    rw [Option.bind_some, Option.bind_some, parent?, parent?]
    generalize v.resolve? front = a at shades avoids
    generalize w.resolve? front = b at shades
    cases shades with
    | none => simp only [Option.map_none]
    | @some s t shade =>
      rw [Option.map_some, Option.map_some, Option.map_some, Option.map_some, Option.getD_some, Option.getD_some]
      rcases shade with rfl | ⟨m, rfl, -, rfl⟩
      · exact h.offersBehind word.start (avoids t rfl)
      · rw [offersBehind_module, offersBehind_module]

theorem Veils.completionsInModules (qualified : word.modules.isEmpty = false) :
    w.completionsInModules word = v.completionsInModules word := by
  have met := apart qualified
  rw [Module.isMetBy, Bool.or_eq_false_iff] at met
  -- Of a module that is met the members are listed, of one below the path only the name.
  have path : ∀ q : Module → Bool,
      (∀ m n : Module, m.modulePath = n.modulePath → q m = q n) → q hidden = false →
      w.workspace.symbols.modules.filter q = v.workspace.symbols.modules.filter q := by
    intro q ofPath none
    have out : ∀ m : Module, m.skeleton = hidden.skeleton → q m = false := fun m same =>
      (ofPath m hidden (Module.modulePath_of_skeleton same)).trans none
    exact filter_shades h.modules out fun m same => (ofPath m.veil m rfl).trans (out m same)
  have matching : w.modulesMatching word.modulePath word.writtenModule =
      v.modulesMatching word.modulePath word.writtenModule := by
    rw [modulesMatching, Workspace.modulesAt, modulesEnding, path _ (fun m n same => by rw [same]) met.1,
      path _ (fun m n same => by rw [same]) met.2, modulesMatching, Workspace.modulesAt, modulesEnding]
  have below : ∀ f : ModulePath → Option Completion,
      (w.workspace.symbols.modules.filterMap fun m => f m.modulePath) =
        v.workspace.symbols.modules.filterMap fun m => f m.modulePath := by
    intro f
    have shades := h.modules
    generalize v.workspace.symbols.modules = ms at shades
    generalize w.workspace.symbols.modules = ns at shades
    induction shades with
    | nil => rfl
    | cons shade _ ih =>
      rw [List.filterMap_cons, List.filterMap_cons, ih, Module.modulePath_of_shades shade]
  rw [Viewpoint.completionsInModules, matching, Viewpoint.completionsInModules]
  congr 1
  exact below fun path => ((nameBelow? word.modulePath path) <|> (nameBelow? word.writtenModule path)).map
    Completion.ofModuleName

/-- **The same is offered whatever a module contains that nothing leads into.** -/
theorem Veils.completions : w.completions word = v.completions word := by
  have anywhere : w.completionsAnywhere = v.completionsAnywhere := by
    obtain ⟨_, _, _⟩ := v
    obtain ⟨_, _, _⟩ := w
    cases h.cursor
    cases h.visible
    rfl
  rw [Viewpoint.completions, Viewpoint.completions, h.completionsBehindDot apart, anywhere]
  split
  · rfl
  split
  next qualified =>
    rw [h.completionsInModules apart (Bool.not_eq_true' _ ▸ qualified)]
  · rfl

end Words

end Veils

end Viewpoint

/-! ## Answers -/

/-- The symbol `t` is `s`, or both are modules of the path that differ in their contents only. -/
def Symbol.SameApart (path : ModulePath) (s t : Symbol) : Prop :=
  t = s ∨ ∃ m n : Module, s = .module m ∧ t = .module n ∧ n.veil = m.veil ∧ m.modulePath = path

/-- Two symbols of which the same is left without the contents of one module. -/
theorem Symbol.Shades.sameApart {m₁ m₂ : Module} (path : m₂.modulePath = m₁.modulePath) {s₁ s₂ t : Symbol}
    (first : Symbol.Shades m₁ s₁ t) (second : Symbol.Shades m₂ s₂ t) : SameApart m₁.modulePath s₁ s₂ := by
  rcases first with rfl | ⟨m, rfl, same, rfl⟩
  · rcases second with rfl | ⟨n, rfl, same, rfl⟩
    · exact .inl rfl
    · exact .inr ⟨n.veil, n, rfl, rfl, rfl, (Module.modulePath_of_skeleton (m := n) same).trans path⟩
  · have home := Module.modulePath_of_skeleton same
    rcases second with rfl | ⟨n, rfl, -, veiled⟩
    · exact .inr ⟨m, m.veil, rfl, rfl, rfl, home⟩
    · exact .inr ⟨m, n, rfl, rfl, (Symbol.module.inj veiled).symm, home⟩

namespace Workspace

variable {k : ModuleKey} {hidden : Module} {w v : Workspace} {doc : DocId} {p : Position}

section Veils

variable (h : Veils k hidden w v) (view : (w.viewpoint doc p).Veils hidden (v.viewpoint doc p))
  (elsewhere : doc ≠ k.doc)
  (apart : ∀ word ∈ w.word? doc p, word.modules.isEmpty = false →
    hidden.isMetBy word.modulePath word.writtenModule = false)

include h view elsewhere apart

theorem Veils.completions : v.completions doc p = w.completions doc p := by
  rw [Workspace.completions, h.word? elsewhere, Workspace.completions]
  cases written : w.word? doc p with
  | none => rfl
  | some word => exact view.completions (apart word written)

theorem Veils.declaration? :
    Option.Rel (Symbol.Shades hidden) (w.declaration? doc p) (v.declaration? doc p) := by
  rw [Workspace.declaration?, Workspace.declaration?, h.word? elsewhere]
  cases written : w.word? doc p with
  | none => exact .none
  | some word =>
    have resolved := (view.resolve? (apart word written)).shades
    rw [Option.bind_some, Option.bind_some, meaning?, meaning?, h.declaredAt? elsewhere]
    refine rel_orElse ?_ resolved
    split
    · cases w.declaredAt? doc p with
      | none => exact .none
      | some s => exact .some (.inl rfl)
    · exact .none

end Veils

/-- The module is the same in both texts but for its contents. -/
theorem SameOutside.veil {text₁ text₂ : String} {m₁ m₂ : Module} (h : SameOutside k text₁ text₂)
    (first : (unitOf k.doc.text text₁).module? k.name = some m₁)
    (second : (unitOf k.doc.text text₂).module? k.name = some m₂) : m₂.veil = m₁.veil := by
  have veiled : ∀ {text : String} {m : Module}, (unitOf k.doc.text text).module? k.name = some m →
      ((unitOf k.doc.text text).veil k).module? k.name = some m.veil := by
    intro text m found
    rw [SourceUnit.veil, if_pos (doc_unitOf _ _)]
    show ((unitOf k.doc.text text).modules.modify k.name Module.veil).get? k.name = _
    rw [Table.get?_modify, if_pos rfl]
    exact congrArg (Option.map Module.veil) found
  have other := veiled second
  rw [← h.unit, veiled first, Option.some.injEq] at other
  exact other.symm

/-- **What a private module contains does not change what is answered elsewhere**, as long as nothing that is
registered leads into it and the path of the module is not written at the cursor. -/
theorem answers_past_private {text₁ text₂ : String} {m₁ m₂ : Module} {pre post : List Action} {a₁ a₂ : Action}
    (first : Registers k m₁ text₁ pre a₁ post) (second : Registers k m₂ text₂ pre a₂ post)
    (same : SameOutside k text₁ text₂) (elsewhere : doc ≠ k.doc)
    (outside : ((run (pre ++ a₁ :: post)).cursor doc p).modulePath ≠ m₁.modulePath)
    (apart : ∀ word ∈ (run (pre ++ a₁ :: post)).word? doc p, word.modules.isEmpty = false →
      m₁.isMetBy word.modulePath word.writtenModule = false) :
    (run (pre ++ a₂ :: post)).completions doc p = (run (pre ++ a₁ :: post)).completions doc p ∧
      Option.Rel (Symbol.SameApart m₁.modulePath) ((run (pre ++ a₁ :: post)).declaration? doc p)
        ((run (pre ++ a₂ :: post)).declaration? doc p) := by
  have path : m₂.modulePath = m₁.modulePath :=
    congrArg (·.modulePath) (same.veil first.declares second.declares)
  have one := first.veils (SameOutside.refl k text₁).omits
  have two := second.veils same.omits
  rw [← same.unit] at two
  -- Both runs are seen through the one that registers the document with nothing in the module.
  generalize post.foldl act ((run pre).take ((unitOf k.doc.text text₁).veil k)
    ((pendingOf k.doc.text text₁).without k)) = v at one two
  have cursor := (one.cursor elsewhere (p := p)).symm.trans (two.cursor elsewhere)
  have word := (one.word? elsewhere (p := p)).symm.trans (two.word? elsewhere)
  have outside₂ : ((run (pre ++ a₂ :: post)).cursor doc p).modulePath ≠ m₂.modulePath := by
    rw [← cursor, path]
    exact outside
  have apart₂ : ∀ word ∈ (run (pre ++ a₂ :: post)).word? doc p, word.modules.isEmpty = false →
      m₂.isMetBy word.modulePath word.writtenModule = false := by
    rw [← word]
    intro written hw qualified
    rw [Module.isMetBy, path]
    exact apart written hw qualified
  have view := one.viewpoint elsewhere first.isPrivate outside first.named.orderly.distinct first.named.keyed
  have view₂ := two.viewpoint elsewhere second.isPrivate outside₂ second.named.orderly.distinct second.named.keyed
  refine ⟨(two.completions view₂ elsewhere apart₂).symm.trans (one.completions view elsewhere apart), ?_⟩
  have seen := one.declaration? view elsewhere apart
  have seen₂ := two.declaration? view₂ elsewhere apart₂
  generalize (run (pre ++ a₁ :: post)).declaration? doc p = found at seen
  generalize (run (pre ++ a₂ :: post)).declaration? doc p = found₂ at seen₂
  generalize v.declaration? doc p = veiled at seen seen₂
  cases seen with
  | none =>
    cases seen₂ with
    | none => exact .none
  | some shades =>
    cases seen₂ with
    | some shades₂ => exact .some (shades.sameApart path shades₂)

/-- A private module in a document of its own. -/
def vault : ModuleKey :=
  ⟨⟨"file:///vault.c3"⟩, "vault"⟩

/-- The document of the private module, with what it declares. -/
def vaultText (content : String) : String :=
  "module vault @private; " ++ content

/-- The private module with what it declares. -/
def vaultModule (content : String) : Module :=
  ((unitOf vault.doc.text (vaultText content)).module? vault.name).getD default

/-- A document that declares what it uses. -/
def coinText : String :=
  "struct Coin { int w; } Coin c; int s = c.w;"

/-- The private module with what it declares, and another document. -/
def vaultRead (content text : String) : List Action :=
  [] ++ .openDocument vault.doc (vaultText content) 1 :: [.openDocument ⟨"file:///shop.c3"⟩ text 1]

theorem registers_vault {content text : String}
    (declares : ((unitOf vault.doc.text (vaultText content)).module? vault.name).isSome = true)
    (isPrivate : (vaultModule content).isPrivate = true)
    (own : (unitOf vault.doc.text (vaultText content)).StaysOut vault (vaultModule content)
      (pendingOf vault.doc.text (vaultText content)))
    (other : (unitOf "file:///shop.c3" text).StaysOut vault (vaultModule content)
      (pendingOf "file:///shop.c3" text)) :
    Registers vault (vaultModule content) (vaultText content) [] (.openDocument vault.doc (vaultText content) 1)
      [.openDocument ⟨"file:///shop.c3"⟩ text 1] := by
  have ne : (⟨"file:///shop.c3"⟩ : DocId) ≠ vault.doc := by decide
  refine ⟨fun b hb => ?_, ⟨_, rfl, rfl, rfl⟩, ?_, isPrivate, fun b hb => ?_⟩
  · cases List.mem_singleton.1 hb
    exact ⟨_, rfl, ne⟩
  · obtain ⟨m, found⟩ := Option.isSome_iff_exists.1 declares
    rw [vaultModule, found, Option.getD_some]
  · rcases List.mem_cons.1 hb with rfl | hb
    · intro d hd
      cases hd
      exact own
    · cases List.mem_singleton.1 hb
      intro d hd
      cases hd
      exact other

theorem sameOutside_vault : SameOutside vault (vaultText "int bar;") (vaultText "fn void lock() {}") := by
  have texts :
      (unitOf vault.doc.text (vaultText "int bar;")).modules.names = [vault.name] ∧
      (unitOf vault.doc.text (vaultText "fn void lock() {}")).modules.names = [vault.name] ∧
      ((unitOf vault.doc.text (vaultText "int bar;")).module? vault.name).map Module.heading =
        ((unitOf vault.doc.text (vaultText "fn void lock() {}")).module? vault.name).map Module.heading ∧
      (pendingOf vault.doc.text (vaultText "int bar;")).types.filter (·.key != vault) =
        (pendingOf vault.doc.text (vaultText "fn void lock() {}")).types.filter (·.key != vault) ∧
      (pendingOf vault.doc.text (vaultText "int bar;")).inlines.filter (·.key != vault) =
        (pendingOf vault.doc.text (vaultText "fn void lock() {}")).inlines.filter (·.key != vault) := by
    decide +kernel
  exact .of_only texts.1 texts.2.1 texts.2.2.1 texts.2.2.2.1 texts.2.2.2.2

/-- The member of a struct is the same whatever the private module declares. -/
theorem coin_past_vault :
    let one := run (vaultRead "int bar;" coinText)
    let two := run (vaultRead "fn void lock() {}" coinText)
    (one.declaration? ⟨"file:///shop.c3"⟩ ⟨0, 41⟩).map (·.name) = some "w" ∧
      two.completions ⟨"file:///shop.c3"⟩ ⟨0, 41⟩ = one.completions ⟨"file:///shop.c3"⟩ ⟨0, 41⟩ ∧
      Option.Rel (Symbol.SameApart (vaultModule "int bar;").modulePath)
        (one.declaration? ⟨"file:///shop.c3"⟩ ⟨0, 41⟩) (two.declaration? ⟨"file:///shop.c3"⟩ ⟨0, 41⟩) := by
  intro one two
  have facts :
      (((unitOf vault.doc.text (vaultText "int bar;")).module? vault.name).isSome = true ∧
        (vaultModule "int bar;").isPrivate = true ∧
        (unitOf vault.doc.text (vaultText "int bar;")).StaysOut vault (vaultModule "int bar;")
          (pendingOf vault.doc.text (vaultText "int bar;")) ∧
        (unitOf "file:///shop.c3" coinText).StaysOut vault (vaultModule "int bar;")
          (pendingOf "file:///shop.c3" coinText)) ∧
      (((unitOf vault.doc.text (vaultText "fn void lock() {}")).module? vault.name).isSome = true ∧
        (vaultModule "fn void lock() {}").isPrivate = true ∧
        (unitOf vault.doc.text (vaultText "fn void lock() {}")).StaysOut vault (vaultModule "fn void lock() {}")
          (pendingOf vault.doc.text (vaultText "fn void lock() {}")) ∧
        (unitOf "file:///shop.c3" coinText).StaysOut vault (vaultModule "fn void lock() {}")
          (pendingOf "file:///shop.c3" coinText)) ∧
      (one.cursor ⟨"file:///shop.c3"⟩ ⟨0, 41⟩).modulePath ≠ (vaultModule "int bar;").modulePath ∧
      (∀ word ∈ one.word? ⟨"file:///shop.c3"⟩ ⟨0, 41⟩, word.modules.isEmpty = false →
        (vaultModule "int bar;").isMetBy word.modulePath word.writtenModule = false) ∧
      (one.declaration? ⟨"file:///shop.c3"⟩ ⟨0, 41⟩).map (·.name) = some "w" := by decide +kernel
  obtain ⟨⟨declares, isPrivate, own, other⟩, ⟨declares₂, isPrivate₂, own₂, other₂⟩, outside, apart,
    found⟩ := facts
  have first := registers_vault declares isPrivate own other
  have second := registers_vault declares₂ isPrivate₂ own₂ other₂
  exact ⟨found, answers_past_private first second sameOutside_vault (by decide) outside apart⟩

/-- A path that is written out leads into the private module of another document, to what one text declares
there and the other one does not. -/
theorem reached_in_vault :
    let one := run (vaultRead "int bar;" "int s = vault::bar;")
    let two := run (vaultRead "fn void lock() {}" "int s = vault::bar;")
    SameOutside vault (vaultText "int bar;") (vaultText "fn void lock() {}") ∧
      (vaultModule "int bar;").isPrivate = true ∧
      (one.cursor ⟨"file:///shop.c3"⟩ ⟨0, 16⟩).modulePath ≠ (vaultModule "int bar;").modulePath ∧
      (one.declaration? ⟨"file:///shop.c3"⟩ ⟨0, 16⟩).map (·.name) = some "bar" ∧
      (two.declaration? ⟨"file:///shop.c3"⟩ ⟨0, 16⟩).isNone = true ∧
      (one.completions ⟨"file:///shop.c3"⟩ ⟨0, 16⟩).map (·.label) = ["bar"] ∧
      (two.completions ⟨"file:///shop.c3"⟩ ⟨0, 16⟩).map (·.label) = [] := by
  intro one two
  exact ⟨sameOutside_vault, by decide +kernel⟩

end Workspace

end C3Lens
