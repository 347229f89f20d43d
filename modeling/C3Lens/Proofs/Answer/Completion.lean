import C3Lens.Answer.Completion
import C3Lens.Proofs.Cursor.Word
import C3Lens.Proofs.Lookup.Behind

/-!
# Completions behind a dot

Behind the dots of a word the parts of the base are offered, and the functions that the index lists below
the hosts (`mem_completionsBehindDot_iff`). A name there is resolved by a step, which goes through the same
base and hosts. So names that are offered resolve (`resolves_of_offered`), and names that a step finds are
offered (`offered_of_step?`), except where the two differ:

* Labels are taken as they are. An inline member without a name is offered under an empty label
  (`offered_without_name`), and others may be reserved or have characters that no word has, so the theorem
  asks for a label that is read as a name. A method of an interface that was declared with a type in front
  is offered without it, and found with it only.
* The search for what is below the name of a type also finds functions of modules that are called so.
* An enum offers its enumerators only, and methods are offered if the index has them right below the host;
  a step finds associated values too, and methods in private modules (`not_offered_behind_enum`).
* Functions without a name of their own are found under other names than they are offered.
-/

namespace C3Lens

/-! ## Items -/

namespace Completion

variable {start : String} {cs : List Completion} {i : Completion} {s : Symbol}

@[simp] theorem kind_ofSymbol (s : Symbol) : (ofSymbol s).kind = s.kind := by
  cases s <;> rfl

theorem mem_of_mem_select (h : i ∈ select start cs) : i ∈ cs :=
  List.mem_of_mem_filter
    ((mem_of_mem_keepFirst (fun k c => k.label == c.label && k.kind == c.kind) h).resolve_left List.not_mem_nil)

/-- Each candidate that begins with `start` is offered, or another one of its label. -/
theorem exists_mem_select (h : i ∈ cs) (starts : i.label.startsWith start = true) :
    ∃ k ∈ select start cs, k.label = i.label := by
  have found : ∃ k ∈ select start cs, (k.label == i.label && k.kind == i.kind) = true :=
    exists_mem_keepFirst (fun k c : Completion => k.label == c.label && k.kind == c.kind)
      (by rw [beq_self_eq_true, beq_self_eq_true, Bool.and_self]) (.inr (List.mem_filter.2 ⟨h, starts⟩))
  obtain ⟨k, hk, same⟩ := found
  rw [Bool.and_eq_true, beq_iff_eq] at same
  exact ⟨k, hk, same.1⟩

end Completion

/-! ## Candidates -/

namespace Viewpoint

variable {v : Viewpoint} {r b t : Reached} {start name host : String} {path : ModulePath} {s : Symbol}
  {i : Completion} {word : Word}

/-- The members and associated values that a declaration offers, as far as the access goes. -/
def partsOf (b : Reached) : List Completion :=
  (if b.access.readsMembers then membersOf b.symbol else []) ++
  (if b.access.members then [] else associatedValuesOf b.symbol)

/-- The entry is one of those below the host that are offered as its methods, and it leads to the symbol. -/
structure Lists (v : Viewpoint) (start host : String) (path : ModulePath) (l : SymbolLocation) (s : Symbol) :
    Prop where
  searched : l ∈ v.workspace.names.search (path.qualify (host ++ "." ++ start ++ "*"))
  kind : l.kind = .function
  leads : v.workspace.symbolAt? l = some s

theorem mem_methodsOf_iff :
    i ∈ v.methodsOf start s ↔
      ∃ host path l m, methodHost? s = some (host, path) ∧ v.Lists start host path l m ∧ i = .ofSymbol m := by
  rw [methodsOf]
  cases type : methodHost? s with
  | none => simp
  | some found =>
    obtain ⟨host, path⟩ := found
    simp only [List.mem_map, List.mem_filterMap, List.mem_filter, beq_iff_eq, Option.some.injEq, Prod.mk.injEq]
    constructor
    · rintro ⟨m, ⟨l, ⟨searched, kind⟩, leads⟩, rfl⟩
      exact ⟨host, path, l, m, ⟨rfl, rfl⟩, ⟨searched, kind, leads⟩, rfl⟩
    · rintro ⟨_, _, l, m, ⟨rfl, rfl⟩, lists, rfl⟩
      exact ⟨m, ⟨l, ⟨lists.searched, lists.kind⟩, lists.leads⟩, rfl⟩

theorem mem_distinctMethodsOf_iff :
    i ∈ v.distinctMethodsOf start r ↔
      (r.symbol.kind = .distinct ∧ r.access.isValue = true ∧ r.access.methods = true) ∧
        i ∈ v.methodsOf start r.symbol := by
  simp only [distinctMethodsOf, List.mem_ite_nil_right, Bool.and_eq_true, beq_iff_eq, and_assoc]

theorem mem_partsOf_iff :
    i ∈ partsOf b ↔ b.access.readsMembers = true ∧ i ∈ membersOf b.symbol ∨
      ¬ b.access.members = true ∧ i ∈ associatedValuesOf b.symbol := by
  rw [partsOf, List.mem_append, List.mem_ite_nil_right, List.mem_ite_nil_left]

theorem mem_offersOf_iff :
    i ∈ v.offersOf start b ↔ i ∈ partsOf b ∨ b.access.methods = true ∧ i ∈ v.methodsOf start b.symbol := by
  rw [offersOf, List.mem_append, List.mem_ite_nil_right]
  rfl

/-- What the base offers may stand behind the last dot of a word. -/
theorem mem_of_mem_offersOf (parent : word.parent?.bind v.parent? = some r) (base : v.Base r b)
    (offered : i ∈ v.offersOf word.start b) : i ∈ v.completionsBehindDot word := by
  obtain ⟨d, followed, again⟩ := base
  rw [completionsBehindDot, parent, Option.bind_some, followed]
  refine List.mem_append_right _ ?_
  rw [again]
  exact offered

/-- What may stand behind the last dot of a word are the parts of the base and what is listed for the
hosts. -/
theorem mem_completionsBehindDot_iff (parent : word.parent?.bind v.parent? = some r) :
    i ∈ v.completionsBehindDot word ↔
      (∃ b, v.Base r b ∧ i ∈ partsOf b) ∨
        ∃ host path l s, v.Hosts r host path ∧ v.Lists word.start host path l s ∧ i = .ofSymbol s := by
  constructor
  · intro offered
    rw [completionsBehindDot, parent, Option.bind_some] at offered
    split at offered
    · cases offered
    next d followed =>
    rcases List.mem_append.1 offered with own | offered
    · obtain ⟨⟨kind, value, methods⟩, listed⟩ := mem_distinctMethodsOf_iff.1 own
      obtain ⟨host, path, l, m, type, lists, rfl⟩ := mem_methodsOf_iff.1 listed
      exact .inr ⟨host, path, l, m, .distinct followed kind value methods type, lists, rfl⟩
    split at offered
    next b again =>
      have base : v.Base r b := ⟨d, followed, again⟩
      rcases mem_offersOf_iff.1 offered with part | ⟨methods, listed⟩
      · exact .inl ⟨b, base, part⟩
      · obtain ⟨host, path, l, m, type, lists, rfl⟩ := mem_methodsOf_iff.1 listed
        exact .inr ⟨host, path, l, m, .base base methods type, lists, rfl⟩
    · cases offered
  · rintro (⟨b, base, part⟩ | ⟨host, path, l, s, hosts, lists, rfl⟩)
    · exact mem_of_mem_offersOf parent base (mem_offersOf_iff.2 (.inl part))
    have listed : ∀ {k : Symbol}, methodHost? k = some (host, path) →
        Completion.ofSymbol s ∈ v.methodsOf word.start k :=
      fun type => mem_methodsOf_iff.2 ⟨host, path, l, s, type, lists, rfl⟩
    cases hosts with
    | distinct followed kind value methods type =>
      rw [completionsBehindDot, parent, Option.bind_some, followed]
      exact List.mem_append_left _ (mem_distinctMethodsOf_iff.2 ⟨⟨kind, value, methods⟩, listed type⟩)
    | base base methods type =>
      exact mem_of_mem_offersOf parent base (mem_offersOf_iff.2 (.inr ⟨methods, listed type⟩))

/-! ## Offered names resolve -/

theorem isSome_map_find? {α β : Type} {as : List α} {a : α} (nameOf : α → String) (f : α → β) (h : a ∈ as) :
    ((as.find? fun b => nameOf b == nameOf a).map f).isSome = true := by
  rw [Option.isSome_map, List.find?_isSome]
  exact ⟨a, h, beq_self_eq_true _⟩

/-- A declaration has the members that it offers, except for methods of interfaces that were declared with
a type in front of the name. -/
theorem isSome_ownMember?_of_mem (named : s.Named) (offered : i ∈ membersOf s) :
    (ownMember? i.label s).isSome = true ∨
      ∃ f owner, i = .ofSymbol (.interfaceMethod f owner) ∧ f.shortName ≠ f.name := by
  cases s with
  | enum e =>
    obtain ⟨x, hx, rfl⟩ := List.mem_map.1 offered
    left
    show ((e.enumerator? x.name).map (Symbol.enumerator · e) <|> _).isSome = true
    rw [isSome_orElse, Bool.or_eq_true]
    exact .inl (isSome_map_find? (fun r : Enumerator => r.name) (Symbol.enumerator · e) hx)
  | enumerator _ e =>
    obtain ⟨x, hx, rfl⟩ := List.mem_map.1 offered
    exact .inl (isSome_map_find? (fun x : Variable => x.name) Symbol.variable hx)
  | fault f =>
    obtain ⟨x, hx, rfl⟩ := List.mem_map.1 offered
    exact .inl (isSome_map_find? (fun x : FaultConstant => x.name) Symbol.faultConstant hx)
  | aggregate a =>
    obtain ⟨x, hx, rfl⟩ := List.mem_map.1 offered
    exact .inl (isSome_map_find? (fun x : Member => x.name) Symbol.member hx)
  | bitstruct b =>
    obtain ⟨x, hx, rfl⟩ := List.mem_map.1 offered
    exact .inl (isSome_map_find? (fun x : Member => x.name) Symbol.member hx)
  | interface k =>
    obtain ⟨f, hf, rfl⟩ := List.mem_map.1 offered
    by_cases same : f.shortName = f.name
    · left
      show ((k.methods.get? f.shortName).map (Symbol.interfaceMethod · k)).isSome = true
      rw [same, Table.KeyedBy.get?_of_mem named hf]
      rfl
    · exact .inr ⟨f, k, rfl, same⟩
  | _ => cases offered

theorem isSome_associatedValue?_of_mem (offered : i ∈ associatedValuesOf s) :
    (associatedValue? i.label s).isSome = true := by
  cases s with
  | enum e =>
    obtain ⟨x, hx, rfl⟩ := List.mem_map.1 offered
    exact isSome_map_find? (fun x : Variable => x.name) Symbol.variable hx
  | enumerator _ e =>
    obtain ⟨x, hx, rfl⟩ := List.mem_map.1 offered
    exact isSome_map_find? (fun x : Variable => x.name) Symbol.variable hx
  | _ => cases offered

theorem isSome_part?_of_mem (named : b.symbol.Named) (offered : i ∈ partsOf b) :
    (part? i.label b).isSome = true ∨
      ∃ f owner, i = .ofSymbol (.interfaceMethod f owner) ∧ f.shortName ≠ f.name := by
  rw [part?, isSome_orElse, Bool.or_eq_true]
  rcases mem_partsOf_iff.1 offered with ⟨reads, own⟩ | ⟨noMembers, value⟩
  · rw [if_pos reads]
    exact (isSome_ownMember?_of_mem named own).imp_left .inl
  · rw [if_neg noMembers]
    exact .inl (.inr (isSome_associatedValue?_of_mem value))

/-- What is listed under the name of a method and leads to a function is found by a step. -/
theorem Named.isSome_step?_of_lists (h : v.Named) (whole : NameQuery.Whole name) (hosts : v.Hosts r host path)
    {l : SymbolLocation} (lists : v.Lists start host path l s)
    (key : l.key = NameQuery.path (path.qualify (host ++ "." ++ name))) (kind : s.kind = .function) :
    (v.step? r name).isSome = true := by
  have searched := lists.searched
  rw [ModulePath.qualify_append,
    NameIndex.mem_search_star_iff h.workspace.orderly.distinct h.workspace.keyed] at searched
  exact isSome_step?_of_method hosts (h.isSome_method? whole searched.1 key lists.leads kind)

/-! ## Found names are offered -/

theorem exists_offer_of_find? {α : Type} {as : List α} {nameOf : α → String} {name : String}
    (symbol : α → Symbol) (label : ∀ a, (Completion.ofSymbol (symbol a)).label = nameOf a)
    (found : (as.find? fun a => nameOf a == name).map symbol = some s) :
    ∃ i ∈ as.map fun a => Completion.ofSymbol (symbol a), i.label = name := by
  obtain ⟨a, ha, rfl⟩ := Option.map_eq_some_iff.1 found
  have same := List.find?_some ha
  exact ⟨_, List.mem_map.2 ⟨a, List.mem_of_find?_eq_some ha, rfl⟩, (label a).trans (beq_iff_eq.1 same)⟩

/-- A declaration offers the members that it has, except for the associated values of an enum. -/
theorem exists_offer_of_ownMember? (whole : NameQuery.Whole name) {k : Symbol} (named : k.Named)
    (found : ownMember? name k = some s) :
    (∃ i ∈ membersOf k, i.label = name) ∨
      ∃ e x, k = .enum e ∧ e.enumerator? name = none ∧ e.value? name = some x ∧ s = .variable x := by
  cases k with
  | enum e =>
    rcases (Option.orElse_eq_some _ _ _).1 found with enumerator | ⟨none, value⟩
    · exact .inl (exists_offer_of_find? (Symbol.enumerator · e) (fun _ => rfl) enumerator)
    · obtain ⟨x, has, rfl⟩ := Option.map_eq_some_iff.1 value
      exact .inr ⟨e, x, rfl, Option.map_eq_none_iff.1 none, has, rfl⟩
  | enumerator _ e => exact .inl (exists_offer_of_find? Symbol.variable (fun _ => rfl) found)
  | fault f => exact .inl (exists_offer_of_find? Symbol.faultConstant (fun _ => rfl) found)
  | aggregate a => exact .inl (exists_offer_of_find? Symbol.member (fun _ => rfl) found)
  | bitstruct b => exact .inl (exists_offer_of_find? Symbol.member (fun _ => rfl) found)
  | interface o =>
    obtain ⟨f, has, rfl⟩ := Option.map_eq_some_iff.1 found
    have called : f.name = name := named name f has
    refine .inl ⟨.ofSymbol (.interfaceMethod f o), ?_, ?_⟩
    · exact List.mem_map.2 ⟨f, Table.mem_values_iff.2 ⟨name, has⟩, rfl⟩
    · show f.shortName = name
      rw [Function.shortName_of_notMem fun dot => (whole.chars _ (called ▸ dot)).1 rfl, called]
  | _ => cases found

theorem exists_offer_of_associatedValue? {k : Symbol} (found : associatedValue? name k = some s) :
    ∃ i ∈ associatedValuesOf k, i.label = name := by
  cases k with
  | enum e => exact exists_offer_of_find? Symbol.variable (fun _ => rfl) found
  | enumerator _ e => exact exists_offer_of_find? Symbol.variable (fun _ => rfl) found
  | _ => cases found

theorem exists_offer_of_part? (whole : NameQuery.Whole name) (named : b.symbol.Named)
    (found : part? name b = some s) :
    (∃ i ∈ partsOf b, i.label = name) ∨
      ∃ e x, b.symbol = .enum e ∧ b.access.readsMembers = true ∧ e.enumerator? name = none ∧
        e.value? name = some x ∧ s = .variable x := by
  rcases (Option.orElse_eq_some _ _ _).1 found with own | ⟨-, value⟩
  · split at own
    next reads =>
      rcases exists_offer_of_ownMember? whole named own with ⟨i, offered, label⟩ | ⟨e, x, type, others⟩
      · exact .inl ⟨i, mem_partsOf_iff.2 (.inl ⟨reads, offered⟩), label⟩
      · exact .inr ⟨e, x, type, reads, others⟩
    next => cases own
  · split at value
    next => cases value
    next noMembers =>
      obtain ⟨i, offered, label⟩ := exists_offer_of_associatedValue? value
      exact .inl ⟨i, mem_partsOf_iff.2 (.inr ⟨noMembers, offered⟩), label⟩

/-- The index has a function of the name right below the host, and it leads to the symbol. -/
def Indexed (v : Viewpoint) (host : String) (path : ModulePath) (name : String) (s : Symbol) : Prop :=
  ∃ l ∈ v.workspace.names.entriesAt (NameQuery.segments (path.qualify host) ++ [name]),
    l.kind = .function ∧ v.workspace.symbolAt? l = some s

theorem Named.exists_lists (h : v.Named) (indexed : v.Indexed host path name s) :
    ∃ l, v.Lists "" host path l s := by
  obtain ⟨l, entry, kind, leads⟩ := indexed
  refine ⟨l, ?_, kind, leads⟩
  have query : path.qualify (host ++ "." ++ "" ++ "*") = path.qualify host ++ "." ++ "*" := by
    rw [ModulePath.qualify_append, String.append_empty, ModulePath.qualify_append]
  have key := h.workspace.keyed _ l entry
  rw [query, NameIndex.mem_search_star_iff h.workspace.orderly.distinct h.workspace.keyed, NameQuery.parse_star,
    NameQuery.segments_dot, List.dropLast_concat, List.getLast?_concat]
  exact ⟨Trie.mem_all_of_mem_valuesAt entry, name, [], key, List.nil_prefix⟩

end Viewpoint

namespace Workspace

variable {w : Workspace} {word : Word} {i : Completion}

/-- In every reachable workspace, what is offered behind a dot resolves there if its label can be read as a
name. Exceptions are methods of interfaces that have more in their names than they are offered under, and
entries below a host that do not stand under the name of a method or do not lead to a function. -/
theorem resolves_of_offered (h : Reachable (fun _ a => a.ReadsNamed) w) (c : Cursor)
    (access : word.access ≠ []) (offered : i ∈ (w.seenFrom c).completions word) (written : i.label ≠ "")
    (parts : ∀ ch ∈ i.label.toList, isWordPart ch = true) (reserved : isReserved i.label = false)
    (range : Range) :
    ((w.seenFrom c).resolve? (word.withHead ⟨i.label, range⟩)).isSome = true ∨
      (∃ f owner, i = .ofSymbol (.interfaceMethod f owner) ∧ f.shortName ≠ f.name) ∨
      ∃ r host path l s, word.parent?.bind (w.seenFrom c).parent? = some r ∧
        (w.seenFrom c).Hosts r host path ∧ (w.seenFrom c).Lists word.start host path l s ∧ i = .ofSymbol s ∧
        ¬ (l.key = NameQuery.path (path.qualify (host ++ "." ++ i.label)) ∧ s.kind = .function) := by
  have named := (named_of_reachable h).seenFrom c
  have candidate := Completion.mem_of_mem_select offered
  rw [List.isEmpty_eq_false_iff.2 access, Bool.not_false, if_pos rfl] at candidate
  have isName : (word.withHead ⟨i.label, range⟩).isName = true := by
    show i.label.toList.head?.any isWordPart = true
    cases chars : i.label.toList with
    | nil => exact absurd (String.toList_eq_nil_iff.1 chars) written
    | cons ch _ => exact parts ch (chars ▸ List.mem_cons_self)
  have whole : NameQuery.Whole i.label := ⟨written, fun ch hc => plain_of_isWordPart (parts ch hc)⟩
  cases parent : word.parent?.bind (w.seenFrom c).parent? with
  | none =>
    rw [Viewpoint.completionsBehindDot, parent] at candidate
    cases candidate
  | some r =>
    rw [Viewpoint.resolve?_of_parent? parent isName reserved, Option.isSome_map]
    rcases (Viewpoint.mem_completionsBehindDot_iff parent).1 candidate with
      ⟨b, base, part⟩ | ⟨host, path, l, s, hosts, lists, rfl⟩
    · rcases Viewpoint.isSome_part?_of_mem (named.base (named.parent parent) base) part with found | method
      · exact .inl (Viewpoint.isSome_step?_of_part base found)
      · exact .inr (.inl method)
    · by_cases direct : l.key = NameQuery.path (path.qualify (host ++ "." ++ (Completion.ofSymbol s).label)) ∧
          s.kind = .function
      · exact .inl (named.isSome_step?_of_lists whole hosts lists direct.1 direct.2)
      · exact .inr (.inr ⟨r, host, path, l, s, rfl, hosts, lists, rfl, direct⟩)

/-- A struct, a distinct type that shows its members, and a value behind which one is to be written. -/
def spotRead : List Action :=
  [.openDocument ⟨"file:///a.c3"⟩
    ("module app;\nstruct Point { int left; }\ndistinct Spot = inline Point;\n" ++
      "Spot p;\nfn void main() { p.; }") 1]

theorem reachable_spotRead : Reachable (fun _ a => a.ReadsNamed) (run spotRead) := by
  refine reachable_of_forall ?_
  simp [spotRead, Action.ReadsNamed]

set_option maxRecDepth 100000 in
/-- A step finds the member, and it is offered. -/
theorem view_spotRead :
    let w := run spotRead
    let v := w.viewpoint ⟨"file:///a.c3"⟩ ⟨4, 19⟩
    ∃ word r t i, w.word? ⟨"file:///a.c3"⟩ ⟨4, 19⟩ = some word ∧ word.access ≠ [] ∧ word.start = "" ∧
      word.parent?.bind v.parent? = some r ∧ v.step? r "left" = some t ∧ t.symbol.kind = .member ∧
      i ∈ v.completions word ∧ i.label = "left" ∧ i.kind = .member := by
  intro w v
  have checks : (w.word? ⟨"file:///a.c3"⟩ ⟨4, 19⟩).any (fun word =>
      !word.access.isEmpty && word.start == "" && ((word.parent?.bind v.parent?).any fun r =>
        (v.step? r "left").any fun t => t.symbol.kind == .member) &&
      (v.completions word).any fun i => i.label == "left" && i.kind == .member) = true := by
    decide +kernel
  simp only [Option.any_eq_true, List.any_eq_true, Bool.and_eq_true, beq_iff_eq, Bool.not_eq_true',
    List.isEmpty_eq_false_iff] at checks
  obtain ⟨word, there, ⟨⟨access, start⟩, r, parent, t, found, kind⟩, i, offered, label, kind'⟩ := checks
  exact ⟨word, r, t, i, there, access, start, parent, found, kind, offered, label, kind'⟩

theorem wordParts_left : ∀ ch ∈ "left".toList, isWordPart ch = true :=
  List.all_eq_true.1 (by decide)

/-- The member is offered behind the value of the distinct type, and it resolves. -/
theorem resolves_behind_spot :
    let w := run spotRead
    let v := w.viewpoint ⟨"file:///a.c3"⟩ ⟨4, 19⟩
    ∃ word i, w.word? ⟨"file:///a.c3"⟩ ⟨4, 19⟩ = some word ∧ i ∈ v.completions word ∧ i.label = "left" ∧
      (v.resolve? (word.withHead ⟨"left", .of 4 19 4 23⟩)).isSome = true := by
  intro w v
  obtain ⟨word, -, -, i, there, access, -, -, -, -, offered, label, kind⟩ := view_spotRead
  refine ⟨word, i, there, offered, label, ?_⟩
  have resolves := resolves_of_offered reachable_spotRead (w.cursor ⟨"file:///a.c3"⟩ ⟨4, 19⟩) access offered
    (by rw [label]; decide) (label ▸ wordParts_left) (by rw [label]; decide) (.of 4 19 4 23)
  rw [label] at resolves
  rcases resolves with found | ⟨f, owner, rfl, -⟩ | ⟨r, host, path, l, s, -, -, lists, rfl, -⟩
  · exact found
  · cases kind
  · rw [Completion.kind_ofSymbol] at kind
    rcases mem_of_symbolAt? lists.leads with ⟨m, rfl⟩ | ⟨m, -, child⟩
    · cases kind
    · cases s with
      | member k => exact (Module.mem_children_iff.1 child).elim
      | aggregate a => exact absurd kind (Symbol.kind_aggregate_ne (by decide) (by decide))
      | _ => cases kind

/-- A struct that inherits the members of another one without a name of its own for it. -/
def unnamedInline : List Action :=
  [.openDocument ⟨"file:///a.c3"⟩
    "module app;\nstruct Base { int a; }\nstruct Part { inline Base; }\nPart t;\nfn void main() { t.; }" 1]

set_option maxRecDepth 100000 in
/-- The inline member without a name is offered. -/
theorem offered_without_name :
    let w := run unnamedInline
    Reachable (fun _ a => a.ReadsNamed) w ∧
      ∃ word, w.word? ⟨"file:///a.c3"⟩ ⟨4, 19⟩ = some word ∧ word.access ≠ [] ∧
        ∃ i ∈ (w.viewpoint ⟨"file:///a.c3"⟩ ⟨4, 19⟩).completions word, i.label = "" := by
  intro w
  have reachable : Reachable (fun _ a => a.ReadsNamed) w := by
    refine reachable_of_forall ?_
    simp [unnamedInline, Action.ReadsNamed]
  have checks : (w.word? ⟨"file:///a.c3"⟩ ⟨4, 19⟩).any (fun word => !word.access.isEmpty &&
      ((w.viewpoint ⟨"file:///a.c3"⟩ ⟨4, 19⟩).completions word).any fun i => i.label == "") = true := by
    decide +kernel
  simp only [Option.any_eq_true, List.any_eq_true, Bool.and_eq_true, beq_iff_eq, Bool.not_eq_true',
    List.isEmpty_eq_false_iff] at checks
  obtain ⟨word, there, access, i, offered, label⟩ := checks
  exact ⟨reachable, word, there, access, i, offered, label⟩

/-- In every reachable workspace, a name that a step finds behind the parent of a word is offered where
nothing of it is written yet. Exceptions are the associated values of an enum, and methods that the index does
not have right below the host, that have no name of their own or whose names have more than it in front
although they are methods of no type. -/
theorem offered_of_step? (h : Reachable (fun _ a => a.ReadsNamed) w) (c : Cursor) (start : word.start = "")
    {r t : Reached} (parent : word.parent?.bind (w.seenFrom c).parent? = some r) {name : String}
    (whole : NameQuery.Whole name) (found : (w.seenFrom c).step? r name = some t) :
    (∃ i ∈ (w.seenFrom c).completions word, i.label = name) ∨
      (∃ b e x, (w.seenFrom c).Base r b ∧ b.symbol = .enum e ∧ b.access.readsMembers = true ∧
        e.enumerator? name = none ∧ e.value? name = some x ∧ t.symbol = .variable x) ∨
      ∃ host path f, (w.seenFrom c).Hosts r host path ∧
        (w.seenFrom c).method? host path name = some t.symbol ∧ t.symbol = .function f ∧
        (¬ (w.seenFrom c).Indexed host path name t.symbol ∨
          ¬ NameQuery.Whole f.shortName ∨ f.receiver? = none ∧ f.name ≠ name) := by
  have named := (named_of_reachable h).seenFrom c
  have access : word.access ≠ [] := by
    intro empty
    rw [Word.parent?, empty] at parent
    cases parent
  have offer : ∀ i ∈ (w.seenFrom c).completionsBehindDot word, i.label = name →
      ∃ i ∈ (w.seenFrom c).completions word, i.label = name := by
    intro i candidate label
    rw [Viewpoint.completions, List.isEmpty_eq_false_iff.2 access, Bool.not_false, if_pos rfl]
    have starts : i.label.startsWith word.start = true := by
      rw [start, String.startsWith_string_iff]
      exact List.nil_prefix
    obtain ⟨k, offered, same⟩ := Completion.exists_mem_select candidate starts
    exact ⟨k, offered, same.trans label⟩
  have candidates := fun i => Viewpoint.mem_completionsBehindDot_iff (i := i) parent
  rcases Viewpoint.found_of_step? found with ⟨b, base, part⟩ | ⟨host, path, hosts, method⟩
  · rcases Viewpoint.exists_offer_of_part? whole (named.base (named.parent parent) base) part with
      ⟨i, offered, label⟩ | ⟨e, x, type, reads, others⟩
    · exact .inl (offer i ((candidates i).2 (.inl ⟨b, base, offered⟩)) label)
    · exact .inr (.inl ⟨b, e, x, base, type, reads, others⟩)
  · obtain ⟨m, -, f, -, function⟩ := Viewpoint.mem_of_method? (Viewpoint.inside_seenFrom w c) method
    by_cases indexed : (w.seenFrom c).Indexed host path name t.symbol
    · obtain ⟨l, lists⟩ := named.exists_lists indexed
      rw [← start] at lists
      have offers : (Completion.ofSymbol t.symbol).label = name →
          ∃ i ∈ (w.seenFrom c).completions word, i.label = name :=
        offer _ ((candidates _).2 (.inr ⟨host, path, l, t.symbol, hosts, lists, rfl⟩))
      have called := (named.method? method).called whole
      rw [function] at offers called
      rcases called with called | nameless
      · cases receiver : f.receiver? with
        | some type =>
          refine .inl (offers ?_)
          show (if f.receiver?.isSome then f.shortName else f.name) = name
          rw [receiver]
          exact called
        | none =>
          by_cases same : f.name = name
          · refine .inl (offers ?_)
            show (if f.receiver?.isSome then f.shortName else f.name) = name
            rw [receiver]
            exact same
          · exact .inr (.inr ⟨host, path, f, hosts, method, function, .inr (.inr ⟨receiver, same⟩)⟩)
      · exact .inr (.inr ⟨host, path, f, hosts, method, function, .inr (.inl nameless)⟩)
    · exact .inr (.inr ⟨host, path, f, hosts, method, function, .inl indexed⟩)

/-- The member that is found behind the value of the distinct type is offered. -/
theorem offered_behind_spot :
    let w := run spotRead
    let v := w.viewpoint ⟨"file:///a.c3"⟩ ⟨4, 19⟩
    ∃ word r, w.word? ⟨"file:///a.c3"⟩ ⟨4, 19⟩ = some word ∧ word.parent?.bind v.parent? = some r ∧
      (v.step? r "left").isSome = true ∧ ∃ i ∈ v.completions word, i.label = "left" := by
  intro w v
  obtain ⟨word, r, t, -, there, -, start, parent, found, kind, -, -, -⟩ := view_spotRead
  have whole : NameQuery.Whole "left" :=
    ⟨by decide, fun ch hc => plain_of_isWordPart (wordParts_left ch hc)⟩
  refine ⟨word, r, there, parent, Option.isSome_iff_exists.2 ⟨t, found⟩, ?_⟩
  rcases offered_of_step? reachable_spotRead (w.cursor ⟨"file:///a.c3"⟩ ⟨4, 19⟩) start parent whole found with
    offered | ⟨b, e, x, -, -, -, -, -, value⟩ | ⟨host, path, f, -, -, function, -⟩
  · exact offered
  · rw [value] at kind
    cases kind
  · rw [function] at kind
    cases kind

/-- An enum of a private module, with an associated value and a method. -/
def privatePlanet : List Action :=
  [.openDocument ⟨"file:///a.c3"⟩
    ("module app @private;\nenum Planet : int (int mass) { EARTH(1), MARS(2) }\n" ++
      "fn void Planet.land(Planet* self) {}\nfn void main() { Planet.; }") 1]

set_option maxRecDepth 100000 in
/-- Steps from the enum find both, and only its enumerators are offered. -/
theorem not_offered_behind_enum :
    let w := run privatePlanet
    let v := w.viewpoint ⟨"file:///a.c3"⟩ ⟨3, 24⟩
    Reachable (fun _ a => a.ReadsNamed) w ∧
      ∃ word r, w.word? ⟨"file:///a.c3"⟩ ⟨3, 24⟩ = some word ∧ word.start = "" ∧
        word.parent?.bind v.parent? = some r ∧ (v.step? r "mass").isSome = true ∧
        (v.step? r "land").isSome = true ∧ (v.completions word).map (·.label) = ["EARTH", "MARS"] := by
  intro w v
  have reachable : Reachable (fun _ a => a.ReadsNamed) w := by
    refine reachable_of_forall ?_
    simp [privatePlanet, Action.ReadsNamed]
  have checks : (w.word? ⟨"file:///a.c3"⟩ ⟨3, 24⟩).any (fun word =>
      word.start == "" && (v.completions word).map (·.label) == ["EARTH", "MARS"] &&
        (word.parent?.bind v.parent?).any fun r =>
          (v.step? r "mass").isSome && (v.step? r "land").isSome) = true := by
    decide +kernel
  simp only [Option.any_eq_true, Bool.and_eq_true, beq_iff_eq] at checks
  obtain ⟨word, there, ⟨start, labels⟩, r, parent, mass, land⟩ := checks
  exact ⟨reachable, word, r, there, start, parent, mass, land, labels⟩

end Workspace

end C3Lens
