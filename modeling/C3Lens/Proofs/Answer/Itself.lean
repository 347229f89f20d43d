import C3Lens.Proofs.Answer.Declaration
import C3Lens.Proofs.Cursor.Word
import C3Lens.Proofs.Lookup.Unique
import C3Lens.Proofs.Syntax.Place

/-!
# Declarations that are found at their own names

A declaration of a document whose name nothing else has is found at every position of the name, where the
word at the cursor is the name and leads to it (`declaration?_of_offers`):

* The name is an identifier in the text, at the range that the declaration says. It is read as a word if no
  other word characters touch it and the cursor is not in front of a separator. Names that begin with `@` or
  `#` are none of word characters only.
* What is declared in the module itself is found by the name alone, since all modules of the document are
  visible in it. Parameters and local variables are found in their function.
* A method is found behind its receiver, if this leads to a declaration that has methods of its own
  (`Viewpoint.KnowsReceiver`). Reserved words lead nowhere, so a method of a built-in type is not found
  (`not_found_behind_builtin`), and a distinct type has methods for its values only.
* Declarations inside of others are compared with the cursor first. There nothing but the position counts, so
  the theorem asks for a position where none of them is recorded.
-/

namespace C3Lens

/-! ## Names in the text -/

/-- The name stands in the text between `front` and `behind`, and its range says so. -/
structure Document.Shows (d : Document) (name : String) (range : Range) (front behind : List Char) : Prop where
  text : d.text.toList = front ++ name.toList ++ behind
  range : range = ⟨d.position (utf8Length front), d.position (utf8Length (front ++ name.toList))⟩

/-- A function of a text that has a name of its own is named in the tree. -/
theorem Function.NamedIn.names {f : Function} {text : String} {lines : LineTable}
    (h : f.NamedIn (Parse.ofString text).root lines) (written : f.shortName ≠ "") :
    (Parse.ofString text).root.Names lines f.shortName f.nameRange := by
  obtain ⟨own, called, empty | names⟩ := h.own
  · have short : f.shortName = own := shortName_of_written called (by rw [empty]; exact List.not_mem_nil)
    exact absurd (short.trans empty) written
  · rw [shortName_of_written called (Parse.exists_of_names names).1.dot_notMem]
    exact names

/-- A declaration of a text that has a name is named in the tree. -/
theorem Symbol.NamedIn.names {s : Symbol} {text name : String} {lines : LineTable}
    (h : s.NamedIn (Parse.ofString text).root lines) (root : ∀ m, s ≠ .module m) (called : s.IsCalled name)
    (written : name ≠ "") : (Parse.ofString text).root.Names lines name s.nameRange := by
  cases s with
  | module m => exact absurd rfl (root m)
  | function f => exact called ▸ Function.NamedIn.names h (called.symm ▸ written)
  | interfaceMethod f owner => exact called ▸ Function.NamedIn.names h (called.symm ▸ written)
  | _ =>
    cases called
    exact Or.resolve_left h written

/-- The only qualifier in front of the head is the receiver, and it leads to a declaration of a module
that has the methods of types called so. -/
structure Viewpoint.KnowsReceiver (v : Viewpoint) (word : Word) (receiver : String) : Prop where
  written : word.access.map (·.text) = [receiver]
  leads : ∃ t r path, v.first? word receiver false = some t ∧ v.follow false ⟨t, .start⟩ = some r ∧
    r.access.methods = true ∧ methodHost? r.symbol = some (receiver, path) ∧
    ∃ n ∈ v.workspace.symbols.modules, r.symbol ∈ n.children

namespace Workspace

variable {w : Workspace} {doc : DocId} {d : Document} {u : SourceUnit} {m : Module} {p : Position}
  {word : Word} {name : String} {s : Symbol}

/-! ## Where a declaration is found -/

/-- What a declaration and the word at a position need for the word to lead to the declaration. -/
inductive Offers (w : Workspace) (doc : DocId) (p : Position) (m : Module) (word : Word) (name : String) :
    Symbol → Prop
  /-- A declaration of the module, but no method, is found by a word without qualifiers. -/
  | root {s : Symbol} : s ∈ m.children → s.name = name → word.access = [] → word.modules = [] →
      Offers w doc p m word name s
  /-- A parameter that has a name is found so where its function is the one at the position. -/
  | parameter {f : Function} {x : Variable} : w.moduleAt? doc p = some m → m.functionAt? p = some f →
      x ∈ f.parameters.values → (∀ index : Nat, x.name ≠ "$arg" ++ toString index) → word.access = [] →
      word.modules = [] → Offers w doc p m word name (.variable x)
  /-- A local variable is found so where, besides, its declaration starts before the position. -/
  | localVariable {f : Function} {x : Variable} : w.moduleAt? doc p = some m → m.functionAt? p = some f →
      x ∈ f.locals → x.range.start < p → word.access = [] → word.modules = [] →
      Offers w doc p m word name (.variable x)
  /-- A method is found behind its receiver. -/
  | method {f : Function} {receiver : String} : f ∈ m.functions → f.name = receiver ++ "." ++ name →
      (w.viewpoint doc p).KnowsReceiver word receiver → w.symbols.FunctionsNamed →
      Offers w doc p m word name (.function f)

/-- What can be found is named in the text. -/
theorem Offers.names (h : w.Offers doc p m word name s) {text : String} {lines : LineTable}
    (spelled : m.SpelledIn (Parse.ofString text).root lines) (called : s.IsCalled name) (written : name ≠ "") :
    (Parse.ofString text).root.Names lines name s.nameRange := by
  cases h with
  | root hs same =>
    refine Symbol.NamedIn.names (spelled.children s hs) ?_ called written
    rintro n rfl
    exact Module.mem_children_iff.1 hs
  | parameter _ function hx named =>
    have inside := spelled.children (.function _) (Module.mem_children_iff.2 (List.mem_of_find?_eq_some function))
    cases called
    refine Or.resolve_left (inside.parameters _ hx) ?_
    rintro ⟨index, same⟩
    exact named index same
  | localVariable _ function hx =>
    have inside := spelled.children (.function _) (Module.mem_children_iff.2 (List.mem_of_find?_eq_some function))
    cases called
    exact inside.locals _ hx
  | method hf =>
    exact Symbol.NamedIn.names (spelled.children _ (Module.mem_children_iff.2 hf)) (fun _ => Symbol.noConfusion)
      called written

/-- Where a module has the position, its functions may hold it. -/
theorem functionIn?_viewpoint {k : VisibleModule} (own : k.unit = doc)
    (module : w.moduleAt? doc p = some k.content) :
    (w.viewpoint doc p).functionIn? k = k.content.functionAt? p := by
  have path : (w.cursor doc p).modulePath = k.content.modulePath := by
    rw [cursor, module]
    rfl
  have isOwn : (w.viewpoint doc p).isOwn k = true := by
    rw [Viewpoint.isOwn, Bool.and_eq_true, beq_iff_eq, beq_iff_eq]
    exact ⟨own, path.symm⟩
  exact if_pos isOwn

/-- What has the position, finds what is bound there. -/
theorem isSome_findIn?_of_bound {k : VisibleModule} (own : k.unit = doc)
    (module : w.moduleAt? doc p = some k.content) {f : Function} (function : k.content.functionAt? p = some f)
    (found : (w.viewpoint doc p).localIn? name f ≠ none) :
    ((w.viewpoint doc p).findIn? name k).isSome = true := by
  obtain ⟨x, hx⟩ := Option.ne_none_iff_exists'.1 found
  rw [Viewpoint.findIn?, functionIn?_viewpoint own module, function, Option.bind_some, hx]
  rfl

/-- Where a word leads to the declaration, the word resolves to it. -/
theorem Offers.resolve? (h : w.Offers doc p m word name s) (named : w.Named) (outlined : w.Outlined)
    (unit : w.symbols.unit? doc = some u) (keyed : u.modules.KeyedBy (·.name)) (hm : m ∈ u.modules.values)
    (only : w.symbols.OnlyCalled name s) (reserved : isReserved name = false) (isName : word.isName = true)
    (text : word.text = name) (whole : NameQuery.Whole name) :
    (w.viewpoint doc p).resolve? word = some s := by
  have viewed := named.viewpoint doc p
  have inside := Viewpoint.inside_viewpoint w doc p
  have dot : '.' ∉ name.toList := fun dot => (whole.chars _ dot).1 rfl
  have reservedText : isReserved word.text = false := text.symm ▸ reserved
  have moduleNamed : m.Named :=
    named.modules m (List.mem_flatMap.2 ⟨u, Table.mem_values_iff.2 ⟨_, unit⟩, hm⟩)
  obtain ⟨k, hk, own, rfl⟩ := exists_visible (c := w.cursor doc p) outlined.keyed keyed unit hm rfl
  have plain : word.access = [] → word.modules = [] → ((w.viewpoint doc p).findIn? name k).isSome = true →
      (w.viewpoint doc p).resolve? word = some s := by
    intro access modules found
    rw [Viewpoint.resolve?_of_plain access modules isName reservedText, text]
    exact viewed.find?_of_only inside dot only reserved hk found
  cases h with
  | root hs same access modules =>
    refine plain access modules (Option.isSome_iff_ne_none.2 fun nothing => ?_)
    exact moduleNamed.child?_ne_none s hs (same ▸ ((Option.orElse_eq_none _ _).1 nothing).2)
  | @parameter f x module function hx _ access modules =>
    refine plain access modules (isSome_findIn?_of_bound own module function fun nothing => ?_)
    have same : x.name = name := only.called
    have found := (moduleNamed.functions f (List.mem_of_find?_eq_some function)).get?_of_mem hx
    rw [same, ((Option.orElse_eq_none _ _).1 nothing).1] at found
    cases found
  | localVariable module function hx before access modules =>
    refine plain access modules (isSome_findIn?_of_bound own module function fun nothing => ?_)
    have absent := List.find?_eq_none.1 ((Option.orElse_eq_none _ _).1 nothing).2 _ (List.mem_reverse.2 hx)
    rw [Bool.and_eq_true, not_and] at absent
    exact absent (beq_iff_eq.2 only.called) (decide_eq_true before)
  | method hf full knows functions =>
    obtain ⟨t, r, path, first, followed, methods, host, n, hn, hr⟩ := knows.leads
    rw [Viewpoint.resolve?_of_access knows.written isName reservedText first, text]
    exact Viewpoint.step?_of_only viewed inside whole only functions hn followed hr methods host full hk hf

/-- A declaration of a document that is the only one of its name is named in the text at its range. It is
found at each position of the range, where the name is read as a word that leads to it and no declaration
inside of another one is recorded. -/
theorem declaration?_of_offers (h : Reachable (fun _ a => a.ReadsNamed) w) (client : Reachable ClientAction w)
    (document : w.document? doc = some d) (unit : w.symbols.unit? doc = some u) (hm : m ∈ u.modules.values)
    (only : w.symbols.OnlyCalled name s) (written : name ≠ "") (reserved : isReserved name = false)
    (here : s.isNamedAt p = true) (read : w.word? doc p = some word) (offers : w.Offers doc p m word name s) :
    (∃ front behind, d.Shows name s.nameRange front behind) ∧
    ∀ front behind, d.Shows name s.nameRange front behind → StandsAlone front name.toList behind →
      (∀ c ∈ (d.behind p).head?, c ≠ '.' ∧ c ≠ ':') → w.declaredAt? doc p = none →
      w.declaration? doc p = some s := by
  have outlined := outlined_of_reachable client
  have named := named_of_reachable h
  have spelled := outlined.spelled document unit
  obtain ⟨parse, lines⟩ := outlined.read doc d document
  constructor
  · rw [parse] at spelled
    have names := offers.names (spelled.modules m hm) only.called written
    obtain ⟨-, front, behind, text, range⟩ := Parse.exists_of_names names
    exact ⟨front, behind, text, range⟩
  · intro front behind shows' alone off nothing
    have nonempty : name.toList ≠ [] := fun empty => written (String.toList_inj.1 empty)
    rw [Symbol.isNamedAt, shows'.range] at here
    have reads := (Word.reads_iff lines shows'.text nonempty here).2 ⟨alone, off⟩
    rw [String.ofList_toList] at reads
    obtain ⟨e, same, text⟩ := text_of_word? read
    rw [document] at same
    cases same
    have isName : word.isName = true := by
      rw [Word.isName, text]
      exact reads.2
    have whole : NameQuery.Whole name := ⟨written, fun c hc => plain_of_isWordPart (alone.parts c hc)⟩
    have resolved := offers.resolve? named outlined unit spelled.keyed hm only reserved isName
      (text.trans reads.1) whole
    rw [declaration?, read, Option.bind_some, meaning?, nothing, ite_self]
    exact resolved

/-- A text with a function that has a parameter. -/
def boundCount : List Action :=
  [.openDocument ⟨"file:///a.c3"⟩ "module app;\nfn void go(int count) {}" 1]

set_option maxRecDepth 100000 in
/-- The parameter is found at its name. -/
theorem declaration?_boundCount :
    ∃ s, (run boundCount).declaration? ⟨"file:///a.c3"⟩ ⟨1, 17⟩ = some s ∧ s.name = "count" := by
  have reachable : Reachable (fun _ a => a.ReadsNamed) (run boundCount) := by
    refine reachable_of_forall ?_
    simp [boundCount, Action.ReadsNamed]
  have client : Reachable ClientAction (run boundCount) :=
    Reachable.empty.act (a := .openDocument ⟨"file:///a.c3"⟩ "module app;\nfn void go(int count) {}" 1)
      (DocId.isClient_of_prefix (by decide))
  have checks : ((run boundCount).document? ⟨"file:///a.c3"⟩).any (fun d =>
      ((run boundCount).symbols.unit? ⟨"file:///a.c3"⟩).any fun u =>
      (u.moduleAt? ⟨1, 17⟩).any fun m => (m.functionAt? ⟨1, 17⟩).any fun f =>
      (f.parameters.get? "count").any fun x =>
      ((run boundCount).word? ⟨"file:///a.c3"⟩ ⟨1, 17⟩).any fun word =>
        d.text.toList == "module app;\nfn void go(int ".toList ++ "count".toList ++ ") {}".toList &&
        (d.behind ⟨1, 17⟩).head? == some 'u' && x.name == "count" &&
        x.nameRange == ⟨d.position (utf8Length "module app;\nfn void go(int ".toList),
          d.position (utf8Length ("module app;\nfn void go(int ".toList ++ "count".toList))⟩ &&
        x.nameRange.contains ⟨1, 17⟩ && word.access.isEmpty && word.modules.isEmpty) = true ∧
      (((run boundCount).symbols.modules.flatMap Module.allSymbols).filter fun t =>
        decide (t.IsCalled "count")).length = 1 ∧
      ((run boundCount).declaredAt? ⟨"file:///a.c3"⟩ ⟨1, 17⟩).isNone = true := by
    decide +kernel
  obtain ⟨checks, single, nothing⟩ := checks
  rw [Option.isNone_iff_eq_none] at nothing
  simp only [Option.any_eq_true, Bool.and_eq_true, beq_iff_eq, List.isEmpty_iff] at checks
  obtain ⟨d, document, u, unit, m, module, f, function, x, parameter, word, read,
    ⟨⟨⟨⟨⟨text, behind⟩, name⟩, range⟩, here⟩, access⟩, modules⟩ := checks
  have inUnit : m ∈ u.modules.values := SourceUnit.mem_modules_of_moduleAt? module
  have bound : x ∈ f.parameters.values := Table.mem_values_iff.2 ⟨_, parameter⟩
  have only : (run boundCount).symbols.OnlyCalled "count" (.variable x) :=
    SymbolStore.onlyCalled_of_length (List.mem_flatMap.2 ⟨u, Table.mem_values_iff.2 ⟨_, unit⟩, inUnit⟩)
      (Module.mem_allSymbols_of_variable
        (Module.mem_boundVariables_of_function (List.mem_of_find?_eq_some function) (.inl bound)))
      name single
  have at' : (run boundCount).moduleAt? ⟨"file:///a.c3"⟩ ⟨1, 17⟩ = some m := by
    rw [moduleAt?, unit]
    exact module
  have unnumbered : ∀ index : Nat, x.name ≠ "$arg" ++ toString index := by
    intro index same
    have first := congrArg (·.toList.head?) (name.symm.trans same)
    rw [String.toList_append] at first
    cases first
  have before : "module app;\nfn void go(int ".toList.getLast? = some ' ' := by decide
  have after : ") {}".toList.head? = some ')' := by decide
  have alone : StandsAlone "module app;\nfn void go(int ".toList "count".toList ") {}".toList := by
    refine ⟨List.all_eq_true.1 (by decide), ?_, ?_⟩
    · rw [before]
      rintro c ⟨⟩
      rfl
    · rw [after]
      rintro c ⟨⟩
      rfl
  have found := (declaration?_of_offers reachable client document unit inUnit only (by decide) (by decide) here
    read (.parameter at' function bound unnumbered access modules)).2 _ _ ⟨text, range⟩ alone
    (by rw [behind]; rintro c ⟨⟩; decide) nothing
  exact ⟨_, found, name⟩

/-- A text with a method of a type that is built in. -/
def builtinMethod : List Action :=
  [.openDocument ⟨"file:///a.c3"⟩ "module app;\nfn void int.half(int self) {}" 1]

set_option maxRecDepth 100000 in
/-- The method is the only declaration of its name, and its name does not lead to it: the receiver is a
reserved word. -/
theorem not_found_behind_builtin :
    let w := run builtinMethod
    Reachable (fun _ a => a.ReadsNamed) w ∧ Reachable ClientAction w ∧
    ∃ d u m s, w.document? ⟨"file:///a.c3"⟩ = some d ∧ w.symbols.unit? ⟨"file:///a.c3"⟩ = some u ∧
      m ∈ u.modules.values ∧ s ∈ m.children ∧ w.symbols.OnlyCalled "half" s ∧ isReserved "half" = false ∧
      s.isNamedAt ⟨1, 13⟩ = true ∧ w.declaration? ⟨"file:///a.c3"⟩ ⟨1, 13⟩ ≠ some s := by
  intro w
  have reachable : Reachable (fun _ a => a.ReadsNamed) w := by
    refine reachable_of_forall ?_
    simp [builtinMethod, Action.ReadsNamed]
  have client : Reachable ClientAction w :=
    Reachable.empty.act (a := .openDocument ⟨"file:///a.c3"⟩ "module app;\nfn void int.half(int self) {}" 1)
      (DocId.isClient_of_prefix (by decide))
  have checks : (w.document? ⟨"file:///a.c3"⟩).any (fun d =>
      (w.symbols.unit? ⟨"file:///a.c3"⟩).any fun u => (u.moduleAt? ⟨1, 13⟩).any fun m =>
      (m.functionAt? ⟨1, 13⟩).any fun f => f.shortName == "half" && f.nameRange.contains ⟨1, 13⟩) = true ∧
      ((w.symbols.modules.flatMap Module.allSymbols).filter fun t => decide (t.IsCalled "half")).length = 1 ∧
      (w.declaration? ⟨"file:///a.c3"⟩ ⟨1, 13⟩).isNone = true := by
    decide +kernel
  obtain ⟨checks, single, nothing⟩ := checks
  rw [Option.isNone_iff_eq_none] at nothing
  simp only [Option.any_eq_true, Bool.and_eq_true, beq_iff_eq] at checks
  obtain ⟨d, document, u, unit, m, module, f, function, name, here⟩ := checks
  have inUnit : m ∈ u.modules.values := SourceUnit.mem_modules_of_moduleAt? module
  have child : .function f ∈ m.children := Module.mem_children_iff.2 (List.mem_of_find?_eq_some function)
  refine ⟨reachable, client, d, u, m, .function f, document, unit, inUnit, child, ?_, by decide, here, ?_⟩
  · exact SymbolStore.onlyCalled_of_length (List.mem_flatMap.2 ⟨u, Table.mem_values_iff.2 ⟨_, unit⟩, inUnit⟩)
      (Module.mem_allSymbols_of_child child) name single
  · rw [nothing]
    exact (Option.some_ne_none _).symm

end Workspace

end C3Lens
