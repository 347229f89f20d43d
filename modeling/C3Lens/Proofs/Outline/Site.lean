import C3Lens.Proofs.Symbol.Site

/-!
# The sites of what is read

The builders of symbols take module and document from their scope, for a declaration as for all that
stands inside of it. So what an outline puts into a module is written in that module and in the document
that is read (`sited_outline`, `inDoc_outline`).
-/

namespace C3Lens

/-- The site of what is declared in the scope. -/
def Scope.site (s : Scope) : Site :=
  ⟨s.path, s.doc⟩

namespace Outline

variable (scope : Scope) (p : Place) (comment? : Option DocComment)

/-- What is declared in the scope is at its site. -/
theorem at_declaration (name : String) (nameRange range : Range) (comment? : Option DocComment) :
    (scope.declaration name nameRange range comment?).At scope.site :=
  ⟨rfl, rfl⟩

theorem at_declarationOf : Gives scope (declarationOf p comment?) fun d => d.At scope.site :=
  Gives.read (Gives.skip fun _ => Gives.pure (at_declaration scope _ _ _ _))

/-! ## Variables and functions -/

theorem at_variablesOf : Gives scope (variablesOf p comment?) fun vs => ∀ v ∈ vs, v.At scope.site :=
  Gives.read (Gives.skip fun _ => Gives.pure (List.forall_mem_map.2 fun _ _ => at_declaration scope _ _ _ _))

theorem at_parameterOf (index : Nat) (receiver? : Option String) :
    Gives scope (parameterOf p index receiver?) fun v => v.At scope.site := by
  refine Gives.read ?_
  split
  refine Gives.skip fun type? => ?_
  cases type? with
  | some t => exact Gives.skip fun _ => Gives.pure (at_declaration scope _ _ _ _)
  | none => exact Gives.skip fun _ => Gives.skip fun _ => Gives.pure (at_declaration scope _ _ _ _)

theorem at_parametersOf (receiver? : Option String) (ps : List Place) (index : Nat) :
    Gives scope (parametersOf receiver? index ps) fun vs => ∀ v ∈ vs, v.At scope.site := by
  induction ps generalizing index with
  | nil => exact Gives.pure fun v hv => absurd hv List.not_mem_nil
  | cons q ps ih =>
    refine Gives.bind (at_parameterOf scope q index receiver?) fun v hv => ?_
    exact Gives.bind (ih (index + 1)) fun vs hvs => Gives.pure (List.forall_mem_cons.2 ⟨hv, hvs⟩)

theorem at_localsOf (ps : List Place) : Gives scope (localsOf ps) fun vs => ∀ v ∈ vs, v.At scope.site := by
  induction ps with
  | nil => exact Gives.pure fun v hv => absurd hv List.not_mem_nil
  | cons q ps ih =>
    refine Gives.bind (at_variablesOf scope q none) fun vs hvs => ?_
    exact Gives.bind ih fun ws hws => Gives.pure (List.forall_mem_append.2 ⟨hvs, hws⟩)

theorem sited_functionOf :
    Gives scope (functionOf p comment?) fun f => (Symbol.function f).SitedAt scope.site := by
  refine Gives.skip fun returns => Gives.bind (at_declarationOf scope p comment?) fun d hd => ?_
  extract_lets name kind withParameters
  have whole : ∀ (f : Function), f.At scope.site → (∀ v ∈ f.parameters.values, v.At scope.site) →
      (∀ v ∈ f.locals, v.At scope.site) → (Symbol.function f).SitedAt scope.site :=
    fun f own parameters locals => List.forall_mem_cons.2 ⟨own, List.forall_mem_append.2
      ⟨List.forall_mem_map.2 parameters, List.forall_mem_map.2 locals⟩⟩
  have function : ∀ vs : List Variable, (∀ v ∈ vs, v.At scope.site) →
      Gives scope (withParameters vs) fun f => (Symbol.function f).SitedAt scope.site := by
    intro vs hvs
    dsimp only [withParameters]
    split
    · exact Gives.bind (at_localsOf scope _) fun locals hl =>
        Gives.pure (whole _ ⟨hd.path, hd.doc⟩ (Table.forall_values_ofList hvs) hl)
    · exact Gives.pure (whole _ ⟨hd.path, hd.doc⟩ (Table.forall_values_ofList hvs)
        fun v hv => absurd hv List.not_mem_nil)
  split
  · exact Gives.bind (at_parametersOf scope _ _ _) function
  · exact function [] fun v hv => absurd hv List.not_mem_nil

/-! ## Members -/

/-- The members are written at the site, those in their bodies bear the names of the bodies, and none of
them is expanded. -/
def Fresh (site : Site) (ms : List Member) : Prop :=
  ∀ m ∈ ms, m.SitedAt site ∧ Member.OwnsBody m.body? ∧ m.isExpanded = false

variable {scope}

theorem fresh_nil {site : Site} : Fresh site [] :=
  fun _ hm => absurd hm List.not_mem_nil

theorem Fresh.append {site : Site} {ms ns : List Member} (h : Fresh site ms) (k : Fresh site ns) :
    Fresh site (ms ++ ns) :=
  List.forall_mem_append.2 ⟨h, k⟩

/-- Members bear the name of the struct that is made of them. -/
theorem Fresh.ownedBy {site : Site} {ms : List Member} (h : Fresh site ms) (owner : String) :
    ∀ m ∈ ms.map ({ · with owner := owner }), m.OwnedBy owner :=
  List.forall_mem_map.2 fun m hm => Member.ownedBy_iff.2 ⟨rfl, (h m hm).2.1⟩

theorem Fresh.withOwner {site : Site} {ms : List Member} (h : Fresh site ms) (owner : String) :
    Fresh site (ms.map ({ · with owner := owner })) :=
  List.forall_mem_map.2 fun m hm => ⟨(h m hm).1.congr rfl rfl, (h m hm).2⟩

variable (scope)

theorem fresh_inlineMemberOf (host? : Option String) :
    Gives scope (inlineMemberOf p host?) (Fresh scope.site) := by
  refine Gives.read ?_
  split
  next => exact Gives.pure fresh_nil
  next typePlace _ =>
    refine Gives.skip fun t => ?_
    have finish : ∀ name nameRange, Gives scope (pure [{ plainMember
        (scope.declaration name nameRange (scope.range p) none) t with awaitsExpansion := true }])
        (Fresh scope.site) := fun name nameRange =>
      Gives.pure (List.forall_mem_singleton.2
        ⟨List.forall_mem_singleton.2 (at_declaration scope name nameRange _ none), trivial, rfl⟩)
    cases p.nameLeaf? with
    | none =>
      dsimp only
      split
      · exact Gives.skip fun _ => finish _ _
      · exact finish _ _
    | some leaf =>
      dsimp only
      split
      · exact Gives.skip fun _ => finish _ _
      · exact finish _ _

theorem fresh_nestedMemberOf (keyword : Token) {nested : List Member} (h : Fresh scope.site nested) :
    Gives scope (nestedMemberOf p keyword nested) (Fresh scope.site) := by
  refine Gives.read ?_
  split
  next => exact Gives.pure h
  next leaf _ =>
    refine Gives.skip fun type? => Gives.pure (List.forall_mem_singleton.2 ?_)
    have own := at_declaration scope leaf.text (scope.range leaf) (scope.range p) none
    refine ⟨List.forall_mem_cons.2 ⟨own, List.forall_mem_cons.2 ⟨own, fun d hd => ?_⟩⟩,
      Member.ownedListBy_iff.2 (h.ownedBy leaf.text), rfl⟩
    rw [Member.nestedOfList_eq] at hd
    obtain ⟨m, hm, inside⟩ := List.mem_flatMap.1 hd
    exact (h.withOwner leaf.text m hm).1 d inside

theorem fresh_fieldsOf : Gives scope (fieldsOf p) (Fresh scope.site) := by
  refine Gives.read (Gives.skip fun type? => ?_)
  cases type? with
  | none => exact Gives.pure fresh_nil
  | some t =>
    refine Gives.pure (List.forall_mem_map.2 fun leaf _ => ?_)
    exact ⟨List.forall_mem_singleton.2 (at_declaration scope leaf.text _ _ none), trivial, rfl⟩

mutual

theorem fresh_membersOf (host? : Option String) (start : Nat) (ts : List Tree) :
    Gives scope (membersOf host? start ts) (Fresh scope.site) := by
  match ts with
  | [] => exact Gives.pure fresh_nil
  | t :: ts =>
    rw [membersOf]
    refine Gives.bind (fresh_membersOfPart host? start t) fun ms hms => ?_
    exact Gives.bind (fresh_membersOf host? _ ts) fun ns hns => Gives.pure (hms.append hns)

theorem fresh_membersOfPart (host? : Option String) (start : Nat) (t : Tree) :
    Gives scope (membersOfPart host? start t) (Fresh scope.site) := by
  match t with
  | .leaf _ => exact Gives.pure fresh_nil
  | .node kind parts =>
    by_cases declares : kind = .memberDecl
    · subst declares
      rw [membersOfPart]
      split
      · exact fresh_inlineMemberOf scope _ host?
      split
      · exact Gives.bind (fresh_membersOfBody start parts) fun nested hn =>
          fresh_nestedMemberOf scope _ _ hn
      · exact fresh_fieldsOf scope _
    · rw [membersOfPart]
      · exact Gives.pure fresh_nil
      · exact fun parts same => declares (Tree.node.inj same).1

theorem fresh_membersOfBody (start : Nat) (ts : List Tree) :
    Gives scope (membersOfBody start ts) (Fresh scope.site) := by
  match ts with
  | [] => exact Gives.pure fresh_nil
  | .leaf t :: ts =>
    rw [membersOfBody]
    · exact fresh_membersOfBody _ ts
    · simp
  | .node kind parts :: ts =>
    by_cases body : kind = .structBody
    · subst body
      rw [membersOfBody]
      exact fresh_membersOf none start parts
    · rw [membersOfBody]
      · exact fresh_membersOfBody _ ts
      · exact fun parts same => body (Tree.node.inj same).1

end

/-- The members of a body bear the name of the type that is declared. -/
theorem fresh_membersBelow (owner : String) (host? : Option String) :
    Gives scope (membersBelow p owner host?) fun ms =>
      Fresh scope.site ms ∧ ∀ m ∈ ms, m.OwnedBy owner := by
  unfold membersBelow
  split
  · exact Gives.bind (fresh_membersOf scope _ _ _) fun ms hms =>
      Gives.pure ⟨hms.withOwner owner, hms.ownedBy owner⟩
  · exact Gives.pure ⟨fresh_nil, fun m hm => absurd hm List.not_mem_nil⟩

theorem sited_structOf :
    Gives scope (structOf p comment?) fun a => (Symbol.aggregate a).SitedAt scope.site :=
  Gives.bind (at_declarationOf scope p comment?) fun _ hd =>
    Gives.bind (fresh_membersBelow scope p _ _) fun _ hm =>
      Gives.pure ⟨hd, .of_sited fun m h => ⟨(hm.1 m h).1, (hm.1 m h).2.2⟩, hm.2⟩

theorem sited_bitstructOf :
    Gives scope (bitstructOf p comment?) fun b => (Symbol.bitstruct b).SitedAt scope.site :=
  Gives.bind (at_declarationOf scope p comment?) fun _ hd => Gives.skip fun _ =>
    Gives.bind (fresh_membersBelow scope p _ _) fun _ hm =>
      Gives.pure ⟨hd, fun m h => (hm.1 m h).1, hm.2⟩

/-! ## Other declarations -/

theorem at_associatedValuesOf (ps : List Place) :
    Gives scope (associatedValuesOf ps) fun vs => ∀ v ∈ vs, v.At scope.site := by
  induction ps with
  | nil => exact Gives.pure fun v hv => absurd hv List.not_mem_nil
  | cons q ps ih =>
    refine Gives.skip fun t => Gives.bind (at_declarationOf scope q none) fun d hd => ?_
    exact Gives.bind ih fun vs hvs => Gives.pure (List.forall_mem_cons.2 ⟨hd, hvs⟩)

theorem sited_enumOf : Gives scope (enumOf p comment?) fun e => (Symbol.enum e).SitedAt scope.site := by
  refine Gives.read (Gives.bind (at_declarationOf scope p comment?) fun d hd => ?_)
  extract_lets places withValues
  have enum : ∀ values : List Variable, (∀ v ∈ values, v.At scope.site) →
      Gives scope (withValues values) fun e => (Symbol.enum e).SitedAt scope.site := by
    intro values hv
    have named : ∀ q ∈ places, Gives scope (do
        let n ← nameOf q
        return ({ scope.declaration n.1 n.2 n.2 none with
          value := enumeratorValue q, enumName := d.name } : Enumerator)) fun e => e.At scope.site :=
      fun q _ => Gives.skip fun n => Gives.pure (at_declaration scope _ _ _ _)
    refine Gives.bind (gives_mapM named) fun enumerators he => Gives.pure ?_
    exact List.forall_mem_cons.2 ⟨hd, List.forall_mem_append.2
      ⟨List.forall_mem_map.2 he, List.forall_mem_map.2 hv⟩⟩
  split
  · exact Gives.bind (at_associatedValuesOf scope _) enum
  · exact enum [] fun v hv => absurd hv List.not_mem_nil

theorem at_faultConstantsBelow (fault? : Option String) :
    Gives scope (faultConstantsBelow p fault? comment?) fun cs => ∀ c ∈ cs, c.At scope.site :=
  Gives.read (Gives.pure (List.forall_mem_map.2 fun _ _ => at_declaration scope _ _ _ _))

theorem sited_faultOf :
    Gives scope (faultOf p comment?) fun f => (Symbol.fault f).SitedAt scope.site := by
  refine Gives.bind (at_declarationOf scope p comment?) fun d hd => ?_
  dsimp only
  split
  · exact Gives.bind (at_faultConstantsBelow scope _ _ _) fun cs hcs =>
      Gives.pure (List.forall_mem_cons.2 ⟨hd, List.forall_mem_map.2 hcs⟩)
  · exact Gives.pure (List.forall_mem_singleton.2 hd)

theorem sited_methodsOf (ps : List (List Tree × Place)) :
    Gives scope (methodsOf ps) fun fs => ∀ f ∈ fs, (Symbol.function f).SitedAt scope.site := by
  induction ps with
  | nil => exact Gives.pure fun f hf => absurd hf List.not_mem_nil
  | cons q ps ih =>
    unfold methodsOf
    split
    · refine Gives.bind (sited_functionOf scope _ _) fun f hf => ?_
      exact Gives.bind ih fun fs hfs => Gives.pure (List.forall_mem_cons.2 ⟨hf, hfs⟩)
    · exact ih

theorem sited_interfaceOf :
    Gives scope (interfaceOf p comment?) fun i => (Symbol.interface i).SitedAt scope.site := by
  refine Gives.bind (at_declarationOf scope p comment?) fun d hd => ?_
  dsimp only
  split
  · refine Gives.bind (sited_methodsOf scope _) fun fs hfs => Gives.pure ?_
    refine List.forall_mem_cons.2 ⟨hd, fun e he => ?_⟩
    obtain ⟨f, hf, inside⟩ := List.mem_flatMap.1 he
    have method : (Symbol.function f).SitedAt scope.site := Table.forall_values_ofList hfs f hf
    exact method e inside
  · exact Gives.pure (List.forall_mem_singleton.2 hd)

theorem at_distinctOf : Gives scope (distinctOf p comment?) fun d => d.At scope.site :=
  Gives.bind (at_declarationOf scope p comment?) fun _ hd => Gives.skip fun _ => Gives.pure hd

theorem at_aliasOf : Gives scope (aliasOf p comment?) fun a => a.At scope.site := by
  refine Gives.bind (at_declarationOf scope p comment?) fun d hd => Gives.skip fun type? => ?_
  split
  · exact Gives.pure hd
  · split
    · exact Gives.pure hd
    · exact Gives.pure hd

end Outline

/-! ## Modules -/

/-- The module is the one of the site, named by its path, and all of its declarations are made there. -/
structure Module.MadeAt (m : Module) (site : Site) : Prop where
  named : m.name = m.modulePath.text
  path : m.modulePath = site.path
  doc : m.doc = site.doc
  children : ∀ s ∈ m.children, s.SitedAt site

namespace OutlineState

/-- The modules of the unit stand under their names, and their declarations are made in them and in the
document that is read. -/
structure Sited (s : OutlineState) (doc : DocId) : Prop where
  own : s.scope.doc = doc
  path : s.scope.path.Storable
  keyed : s.unit.modules.KeyedBy (·.name)
  modules : ∀ m ∈ s.unit.modules.values, m.modulePath.Storable ∧ m.MadeAt ⟨m.modulePath, doc⟩

section Steps

variable {s : OutlineState} {doc : DocId}

theorem Sited.modifyModule (h : s.Sited doc) {f : Module → Module} (name : ∀ m, (f m).name = m.name)
    (hf : ∀ m, m.MadeAt s.scope.site → (f m).MadeAt s.scope.site) : (s.modifyModule f).Sited doc := by
  refine ⟨h.own, h.path, h.keyed.modify _ name, fun m hm => ?_⟩
  obtain ⟨key, found⟩ := Table.mem_values_iff.1 hm
  have found : (s.unit.modules.modify s.scope.path.text f).get? key = some m := found
  rw [Table.get?_modify] at found
  split at found
  next here =>
    obtain ⟨n, hn, rfl⟩ := Option.map_eq_some_iff.1 found
    obtain ⟨storable, made⟩ := h.modules n (Table.mem_values_iff.2 ⟨key, hn⟩)
    have stands : n.name = key := h.keyed key n hn
    -- The module of the scope has the scope's path, which its name tells.
    have path : n.modulePath = s.scope.path :=
      calc n.modulePath
        _ = ModulePath.parse n.modulePath.text := storable.symm
        _ = ModulePath.parse s.scope.path.text := by rw [← made.named, stands, here]
        _ = s.scope.path := h.path
    have site : (⟨n.modulePath, doc⟩ : Site) = s.scope.site := by rw [Scope.site, path, h.own]
    rw [site] at made
    have after := hf n made
    have site : (⟨(f n).modulePath, doc⟩ : Site) = s.scope.site := by rw [Scope.site, after.path, ← h.own]; rfl
    rw [site]
    exact ⟨after.path ▸ h.path, after⟩
  next => exact h.modules m (Table.mem_values_iff.2 ⟨key, found⟩)

theorem Sited.extendRegion (h : s.Sited doc) (stop : Nat) : (s.extendRegion stop).Sited doc :=
  h.modifyModule (fun _ => rfl) fun _ hm => ⟨hm.named, hm.path, hm.doc, hm.children⟩

/-- What a builder yields is put into the module. -/
theorem Sited.build {α : Type} {builder : Outline α} {add : α → Module → Module} {P : α → Prop}
    (h : s.Sited doc) (gives : Outline.Gives s.scope builder P)
    (frame : ∀ a m, (add a m).toDeclaration = m.toDeclaration)
    (hadd : ∀ a m, P a → (∀ c ∈ m.children, c.SitedAt s.scope.site) →
      ∀ c ∈ (add a m).children, c.SitedAt s.scope.site) : (s.build builder add).Sited doc := by
  have built : Sited { s with pending := (builder.result s.scope s.pending).2 } doc :=
    ⟨h.own, h.path, h.keyed, h.modules⟩
  refine built.modifyModule (fun m => congrArg Declaration.name (frame _ m)) fun m hm => ?_
  refine ⟨?_, ?_, ?_, hadd _ m (gives s.pending) hm.children⟩
  · rw [frame]
    exact hm.named
  · rw [frame]
    exact hm.path
  · rw [frame]
    exact hm.doc

/-- A module that is declared again is left as it is. -/
theorem Sited.register (h : s.Sited doc) {m : Module} (path : m.modulePath.Storable)
    (fresh : m.MadeAt ⟨m.modulePath, doc⟩) (nothing : ∀ k : Module, k.merge m = k) :
    ∀ n ∈ (s.unit.register m).modules.values,
      n.modulePath.Storable ∧ n.MadeAt ⟨n.modulePath, doc⟩ :=
  SourceUnit.forall_register h.modules ⟨path, fresh⟩ fun k _ hk => (nothing k).symm ▸ hk

theorem Sited.openModule (h : s.Sited doc) : s.openModule.Sited doc := by
  rw [OutlineState.openModule]
  split
  · exact h
  · refine ⟨h.own, h.path, SourceUnit.keyed_register h.keyed _, h.register ?_ ?_ ?_⟩
    · exact h.path
    · exact ⟨rfl, rfl, h.own, fun _ hc => absurd hc List.not_mem_nil⟩
    · exact fun k => k.merge_ofPath _ _ _ _ none [] false []

theorem Sited.declareModule (h : s.Sited doc) {p : Place}
    (path : ∀ q ∈ p.child? .modulePath, (ModulePath.parse q.tree.compactText).Storable)
    (comment? : Option DocComment) : (s.declareModule p comment?).Sited doc := by
  unfold OutlineState.declareModule
  split
  · exact h
  next q found =>
    dsimp only
    split
    · exact h
    · refine ⟨h.own, path q found, SourceUnit.keyed_register h.keyed _, h.register ?_ ?_ ?_⟩
      · exact path q found
      · exact ⟨rfl, rfl, h.own, fun _ hc => absurd hc List.not_mem_nil⟩
      · exact fun k => k.merge_ofPath _ _ _ _ _ _ _ _

theorem Sited.declare (h : s.Sited doc) (kind : NodeKind) (p : Place) (comment? : Option DocComment) :
    (s.declare kind p comment?).Sited doc := by
  refine declare_induct (P := fun t => t.Sited doc) h fun declares => Sited.extendRegion ?_ p.stop
  refine h.build ?_ declares.toDeclaration_add fun a m new old => declares.forall_children old new
  intro q
  cases declares with
  | function => exact List.forall_mem_singleton.2 (Outline.sited_functionOf s.scope p comment? q)
  | struct => exact List.forall_mem_singleton.2 (Outline.sited_structOf s.scope p comment? q)
  | bitstruct => exact List.forall_mem_singleton.2 (Outline.sited_bitstructOf s.scope p comment? q)
  | enum => exact List.forall_mem_singleton.2 (Outline.sited_enumOf s.scope p comment? q)
  | fault => exact List.forall_mem_singleton.2 (Outline.sited_faultOf s.scope p comment? q)
  | faultConstants =>
    exact List.forall_mem_map.2 fun c hc =>
      List.forall_mem_singleton.2 (Outline.at_faultConstantsBelow s.scope p comment? none q c hc)
  | distinct =>
    exact List.forall_mem_singleton.2 (List.forall_mem_singleton.2 (Outline.at_distinctOf s.scope p comment? q))
  | aliased =>
    exact List.forall_mem_singleton.2 (List.forall_mem_singleton.2 (Outline.at_aliasOf s.scope p comment? q))
  | interface => exact List.forall_mem_singleton.2 (Outline.sited_interfaceOf s.scope p comment? q)
  | globals =>
    exact List.forall_mem_map.2 fun v hv =>
      List.forall_mem_singleton.2 (Outline.at_variablesOf s.scope p comment? q v hv)

theorem Sited.step (h : s.Sited doc) (previous : List Tree) {p : Place}
    (paths : ∀ q ∈ p.childrenOf .modulePath, (ModulePath.parse q.tree.compactText).Storable) :
    (s.step previous p).Sited doc := by
  have imports : (s.openModule.modifyModule (·.addImports (importsOf p))).Sited doc := by
    refine h.openModule.modifyModule (fun m => m.name_addImports _) fun m hm => ?_
    obtain ⟨imports, same⟩ := m.addImports_eq (importsOf p)
    rw [same]
    exact ⟨hm.named, hm.path, hm.doc, hm.children⟩
  unfold OutlineState.step
  split
  · exact h
  · exact h
  · refine h.declareModule (fun q found => ?_) _
    have found : p.children.find? (·.isNode .modulePath) = some q := found
    have node := List.find?_some found
    exact paths q (List.mem_filter.2 ⟨List.mem_of_find?_eq_some found, node⟩)
  · exact imports.extendRegion p.stop
  · exact h.openModule.declare _ p _

end Steps

end OutlineState

/-- What is read from a text is made in its module and in the document of the text. -/
theorem sited_outlineOfText (doc : DocId) (text : String) :
    (outlineOfText doc text).1.Sited ∧ ∀ m ∈ (outlineOfText doc text).1.modules.values, m.InDoc doc := by
  let root : Place := ⟨0, (Parse.ofString text).tree⟩
  have read : ∀ (parts : List (List Tree × Place)) (s : OutlineState), s.Sited doc →
      (∀ part ∈ parts, part.2.descendants ⊆ root.descendants) →
      (parts.foldl (fun s part => s.step part.1 part.2) s).Sited doc := by
    intro parts
    induction parts with
    | nil => exact fun s hs _ => hs
    | cons part parts ih =>
      intro s hs below
      refine ih _ (hs.step part.1 fun q hq => ?_) fun q hq => below q (List.mem_cons_of_mem _ hq)
      obtain ⟨child, path⟩ := List.mem_filter.1 hq
      exact Parse.storable_path text (below part List.mem_cons_self
        (Place.descendants_subset child (Place.mem_descendants_self q))) path
  have file : (OutlineState.start doc (.ofString text)).scope.path.Storable := by
    dsimp only [OutlineState.start]
    rw [ModulePath.Storable, ModulePath.text_parse_nameOfFile]
  have start : (OutlineState.start doc (.ofString text)).Sited doc :=
    ⟨rfl, file, Table.keyedBy_empty, fun _ hm => absurd hm List.not_mem_nil⟩
  have parts := read (placesWithPrevious 0 [] root.tree.children) _ start fun part hp =>
    List.Subset.trans (Outline.placesWithPrevious_subset hp) (Place.descendants_of_children root)
  have done := parts.openModule.extendRegion (LineTable.ofString text).byteSize
  refine ⟨⟨done.keyed, fun m hm => ?_⟩, fun m hm => ?_⟩
  · obtain ⟨storable, made⟩ := done.modules m hm
    refine ⟨made.named, storable, fun s hs => ?_⟩
    have sited := made.children s hs
    have site : (⟨m.modulePath, s.doc⟩ : Site) = ⟨m.modulePath, doc⟩ := congrArg _ sited.declaration.doc
    rw [site]
    exact sited
  · obtain ⟨-, made⟩ := done.modules m hm
    exact ⟨made.doc, fun s hs => (made.children s hs).declaration.doc⟩

end C3Lens
