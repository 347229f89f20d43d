import C3Lens.Answer.Declaration
import C3Lens.Proofs.Cursor.Word
import C3Lens.Proofs.Lookup.Unique
import C3Lens.Proofs.Workspace.Spelling

/-!
# The declaration under the cursor and its name

A declaration under the cursor is called like the word there, if the word was resolved; only a
function declared without a name may be found under another one (`called_of_declaration?`). Before a
plain word is resolved, the declarations inside of others are compared with the cursor, and there
nothing but the position counts. An inline member without a name is among these, with the range of
its type. All other names are spelled there, except for members that a struct inherited from another
document, with their positions in that document: `lands_on_inherited` is a word `inline` that leads to
a member `x`.

Resolution refuses reserved words, the comparison with the cursor does not ask for the word. So for a reserved
word only declarations inside of others are found (`declaration?_of_reserved`); `finds_reserved_member` is one.
-/

namespace C3Lens

/-! ## Declarations inside of others -/

/-- The place spells the own name of the symbol; that of a method has the type in front. -/
def Symbol.SpelledIn (p : Place) (lines : LineTable) : Symbol → Prop
  | .function f | .interfaceMethod f _ => f.SpelledIn p lines
  | s => s.declaration.SpelledIn p lines

/-- The symbol is a member of a struct of the module into which members of others were put. -/
def Module.Inherits (m : Module) (s : Symbol) : Prop :=
  ∃ a ∈ m.structs.values, a.Inherits ∧ ∃ k ∈ a.members, s = .member k

theorem Module.SpelledIn.nested {m : Module} {p : Place} {lines : LineTable} {s : Symbol}
    (h : m.SpelledIn p lines) (inside : s ∈ m.nestedSymbols) :
    m.Inherits s ∨ s.SpelledIn p lines := by
  rcases mem_nestedSymbols_iff.1 inside with ⟨a, ha, k, hk, rfl⟩ | ⟨b, hb, k, hk, rfl⟩ |
    ⟨e, he, v, hv, rfl⟩ | ⟨f, hf, c, hc, rfl⟩ | ⟨i, hi, g, hg, rfl⟩
  · exact (h.structs a ha).imp (fun inherits => ⟨a, ha, inherits, k, hk, rfl⟩) fun members => members k hk
  · exact .inr (h.bitstructs b hb k hk)
  · exact .inr (h.enums e he v hv)
  · exact .inr (h.faults f hf c hc)
  · exact .inr (h.interfaces i hi g hg).spelled

namespace Workspace

variable {w : Workspace} {doc : DocId} {p : Position} {s : Symbol}

/-- Where declarations inside of others are looked for, the tree of the document spells their names. -/
theorem Outlined.nested {m : Module} (h : w.Outlined) (module : w.moduleAt? doc p = some m)
    (inside : s ∈ m.nestedSymbols) (there : (w.document? doc).isSome = true) :
    m.Inherits s ∨ ∃ d, w.document? doc = some d ∧ s.SpelledIn d.parse.root d.lines := by
  obtain ⟨d, found⟩ := Option.isSome_iff_exists.1 there
  obtain ⟨u, unit, module⟩ := Option.bind_eq_some_iff.1 module
  have named := ((h.spelled found unit).modules m (SourceUnit.mem_modules_of_moduleAt? module)).nested inside
  exact named.imp_right fun spelled => ⟨d, found, spelled⟩

/-! ## The word and the answer -/

/-- The text of a word stays when its module path is matched against imports. -/
theorem text_of_word? {word : Word} (h : w.word? doc p = some word) :
    ∃ d, w.document? doc = some d ∧ word.text = (Word.ofPosition d p).text := by
  obtain ⟨d, document, h⟩ := Option.bind_eq_some_iff.1 h
  refine ⟨d, document, ?_⟩
  dsimp only at h
  split at h
  · cases h
    rw [Word.withImportsOf]
    split
    · rfl
    · rfl
  · cases h
    rfl

/-- In every reachable workspace, a declaration under the cursor is called like the word there, or it
is a function without a name of its own, or the word is plain and the declaration is one inside of
another one of the module, with a name whose range holds the position. With ids of editors, such a
declaration is a member of a struct that inherits, or the document spells its name at this range. -/
theorem called_of_declaration? (h : Reachable (fun _ a => a.ReadsNamed) w)
    (found : w.declaration? doc p = some s) :
    ∃ word, w.word? doc p = some word ∧
      (s.IsCalled word.text ∨ s.Nameless ∨
        word.access = [] ∧ word.modules = [] ∧
          ∃ m, w.moduleAt? doc p = some m ∧ s ∈ m.nestedSymbols ∧ s.isNamedAt p = true ∧
            (Reachable ClientAction w →
              m.Inherits s ∨ ∃ d, w.document? doc = some d ∧ s.SpelledIn d.parse.root d.lines)) := by
  obtain ⟨word, there, meaning⟩ := Option.bind_eq_some_iff.1 found
  refine ⟨word, there, ?_⟩
  obtain ⟨d, document, text⟩ := text_of_word? there
  rcases (Option.orElse_eq_some _ _ _).1 meaning with declared | ⟨-, resolved⟩
  · split at declared
    next plain =>
      rw [Bool.and_eq_true, List.isEmpty_iff, List.isEmpty_iff] at plain
      obtain ⟨m, module, nested⟩ := Option.bind_eq_some_iff.1 declared
      have inside := List.mem_of_find?_eq_some nested
      refine .inr (.inr ⟨plain.1, plain.2, m, module, inside, List.find?_some nested, fun client => ?_⟩)
      exact (outlined_of_reachable client).nested module inside (Option.isSome_of_mem document)
    next => cases declared
  · obtain ⟨name, answers⟩ := ((named_of_reachable h).viewpoint doc p).resolve? resolved
    have whole : NameQuery.Whole word.text := by
      rw [Word.isName, text] at name
      rw [text]
      exact Word.whole_of_isName name
    exact (answers.called whole).imp_right .inl

/-- A struct and, in another document, a value of it whose member is read. -/
def memberRead : List Action :=
  [.openDocument ⟨"file:///a.c3"⟩ "module app;\nstruct Pair { int left; }" 1,
    .openDocument ⟨"file:///b.c3"⟩ "module app;\nPair both;\nfn void main() { both.left; }" 1]

set_option maxRecDepth 100000 in
/-- The member that is read is found, and it is called so. -/
theorem called_of_memberRead :
    ∃ s, (run memberRead).declaration? ⟨"file:///b.c3"⟩ ⟨2, 23⟩ = some s ∧ s.IsCalled "left" := by
  have reachable : Reachable (fun _ a => a.ReadsNamed) (run memberRead) := by
    refine reachable_of_forall ?_
    simp [memberRead, Action.ReadsNamed]
  have checks : (((run memberRead).declaration? ⟨"file:///b.c3"⟩ ⟨2, 23⟩).any (·.kind == .member) &&
      ((run memberRead).word? ⟨"file:///b.c3"⟩ ⟨2, 23⟩).any fun word =>
        word.text == "left" && !word.access.isEmpty) = true := by
    decide +kernel
  obtain ⟨member, left⟩ := Bool.and_eq_true_iff.1 checks
  obtain ⟨s, found, kind⟩ := (Option.any_eq_true _ _).1 member
  obtain ⟨word, there, called⟩ := called_of_declaration? reachable found
  rw [there, Option.any_some, Bool.and_eq_true, beq_iff_eq, Bool.not_eq_true'] at left
  refine ⟨s, found, ?_⟩
  rcases called with called | nameless | ⟨plain, -⟩
  · rwa [left.1] at called
  · cases s with
    | function => cases kind
    | interfaceMethod => cases kind
    | _ => cases nameless
  · rw [plain] at left
    cases left.2

/-- A struct and, in another document, a struct that inherits its members. -/
def inheritedMember : List Action :=
  [.openDocument ⟨"file:///a.c3"⟩ "module app;\nstruct S { int x; }" 1,
    .openDocument ⟨"file:///b.c3"⟩ "module app;\nstruct T { inline S s; int q; }" 1]

set_option maxRecDepth 100000 in
/-- The word `inline` leads to a member `x`, which stands at this position in the other document. -/
theorem lands_on_inherited :
    let w := run inheritedMember
    Reachable (fun _ a => a.ReadsNamed) w ∧
      ∃ s word, w.declaration? ⟨"file:///b.c3"⟩ ⟨1, 15⟩ = some s ∧ s.name = "x" ∧
        w.word? ⟨"file:///b.c3"⟩ ⟨1, 15⟩ = some word ∧ word.text = "inline" ∧ ¬ s.IsCalled word.text := by
  have checks : (((run inheritedMember).declaration? ⟨"file:///b.c3"⟩ ⟨1, 15⟩).any (fun s =>
        s.kind == .member && s.name == "x") &&
      ((run inheritedMember).word? ⟨"file:///b.c3"⟩ ⟨1, 15⟩).any (·.text == "inline")) = true := by
    decide +kernel
  obtain ⟨member, inline⟩ := Bool.and_eq_true_iff.1 checks
  obtain ⟨s, found, shown⟩ := (Option.any_eq_true _ _).1 member
  obtain ⟨word, there, text⟩ := (Option.any_eq_true _ _).1 inline
  rw [Bool.and_eq_true, beq_iff_eq, beq_iff_eq] at shown
  rw [beq_iff_eq] at text
  have reachable : Reachable (fun _ a => a.ReadsNamed) (run inheritedMember) := by
    refine reachable_of_forall ?_
    simp [inheritedMember, Action.ReadsNamed]
  refine ⟨reachable, s, word, found, shown.2, there, text, ?_⟩
  cases s with
  | member m =>
    intro called
    have same : "x" = "inline" := shown.2.symm.trans (called.trans text)
    exact absurd same (by decide)
  | aggregate a =>
    rw [Symbol.kind] at shown
    split at shown
    · cases shown.1
    · cases shown.1
  | _ => cases shown.1

/-! ## Reserved words

Resolution refuses them, so what is found for one comes from the comparison of positions. -/

/-- A declaration is found without the word exactly where one inside of others has its name. -/
theorem declaredAt?_eq_none_iff :
    w.declaredAt? doc p = none ↔
      ∀ m, w.moduleAt? doc p = some m → ∀ s ∈ m.nestedSymbols, s.isNamedAt p = false := by
  rw [declaredAt?]
  cases w.moduleAt? doc p with
  | none => simp
  | some m => simp

theorem mem_nestedSymbols_of_declaredAt? (found : w.declaredAt? doc p = some s) :
    ∃ m, w.moduleAt? doc p = some m ∧ s ∈ m.nestedSymbols ∧ s.isNamedAt p = true := by
  obtain ⟨m, module, nested⟩ := Option.bind_eq_some_iff.1 found
  exact ⟨m, module, List.mem_of_find?_eq_some nested, List.find?_some nested⟩

theorem declaration?_eq_declaredAt? {word : Word} (there : w.word? doc p = some word)
    (reserved : isReserved word.text = true) :
    w.declaration? doc p =
      if word.access.isEmpty && word.modules.isEmpty then w.declaredAt? doc p else none := by
  have refused : (w.viewpoint doc p).resolve? word = none := by
    rw [Viewpoint.resolve?, reserved, Bool.or_true, if_pos rfl]
  rw [declaration?, there, Option.bind_some, meaning?, refused]
  cases if word.access.isEmpty && word.modules.isEmpty then w.declaredAt? doc p else none <;> rfl

/-- For a reserved word nothing is found, unless the word is plain and the name of a declaration inside of
another one of the module is recorded at the position. What is found is such a declaration. With ids of
editors it is a member of a struct that inherits, or the document spells its name there. -/
theorem declaration?_of_reserved {word : Word} (there : w.word? doc p = some word)
    (reserved : isReserved word.text = true) :
    (w.declaration? doc p = none ↔ word.access = [] → word.modules = [] →
      ∀ m, w.moduleAt? doc p = some m → ∀ s ∈ m.nestedSymbols, s.isNamedAt p = false) ∧
    ∀ s, w.declaration? doc p = some s → word.access = [] ∧ word.modules = [] ∧
      ∃ m, w.moduleAt? doc p = some m ∧ s ∈ m.nestedSymbols ∧ s.isNamedAt p = true ∧
        (Reachable ClientAction w →
          m.Inherits s ∨ ∃ d, w.document? doc = some d ∧ s.SpelledIn d.parse.root d.lines) := by
  rw [declaration?_eq_declaredAt? there reserved]
  by_cases plain : word.access = [] ∧ word.modules = []
  · obtain ⟨access, modules⟩ := plain
    rw [access, modules, List.isEmpty_nil, Bool.and_true, if_pos rfl]
    refine ⟨declaredAt?_eq_none_iff.trans ⟨fun none _ _ => none, fun none => none rfl rfl⟩, fun s found => ?_⟩
    obtain ⟨m, module, inside, named⟩ := mem_nestedSymbols_of_declaredAt? found
    obtain ⟨d, document, -⟩ := text_of_word? there
    exact ⟨rfl, rfl, m, module, inside, named, fun client =>
      (outlined_of_reachable client).nested module inside (Option.isSome_of_mem document)⟩
  · have qualified : (word.access.isEmpty && word.modules.isEmpty) = false := by
      rw [Bool.eq_false_iff, Ne, Bool.and_eq_true, List.isEmpty_iff, List.isEmpty_iff]
      exact plain
    rw [qualified, if_neg Bool.false_ne_true]
    refine ⟨iff_of_true rfl fun access modules => absurd ⟨access, modules⟩ plain, fun s found => ?_⟩
    cases found

/-- A struct with a member that is called by a reserved word. -/
def reservedMember : List Action :=
  [.openDocument ⟨"file:///a.c3"⟩ "struct S{int try;}" 1]

set_option maxRecDepth 100000 in
/-- The type of the member is reserved as well, and for it nothing is found. -/
theorem declaration?_of_reserved_type :
    (run reservedMember).declaration? ⟨"file:///a.c3"⟩ ⟨0, 10⟩ = none := by
  have checks : (((run reservedMember).word? ⟨"file:///a.c3"⟩ ⟨0, 10⟩).any (isReserved ·.text) &&
      ((run reservedMember).moduleAt? ⟨"file:///a.c3"⟩ ⟨0, 10⟩).all fun m =>
        m.nestedSymbols.all fun s => !s.isNamedAt ⟨0, 10⟩) = true := by
    decide +kernel
  obtain ⟨word, elsewhere⟩ := Bool.and_eq_true_iff.1 checks
  obtain ⟨word, there, reserved⟩ := (Option.any_eq_true _ _).1 word
  refine (declaration?_of_reserved there reserved).1.2 fun _ _ m module s hs => ?_
  rw [module, Option.all_some, List.all_eq_true] at elsewhere
  simpa using elsewhere s hs

set_option maxRecDepth 100000 in
/-- For the reserved word that names the member, the member is found. -/
theorem finds_reserved_member :
    let w := run reservedMember
    Reachable ClientAction w ∧
      ∃ s word, w.word? ⟨"file:///a.c3"⟩ ⟨0, 14⟩ = some word ∧ isReserved word.text = true ∧
        w.declaration? ⟨"file:///a.c3"⟩ ⟨0, 14⟩ = some s ∧ s.name = "try" := by
  have checks : (((run reservedMember).declaration? ⟨"file:///a.c3"⟩ ⟨0, 14⟩).any (·.name == "try") &&
      ((run reservedMember).word? ⟨"file:///a.c3"⟩ ⟨0, 14⟩).any (isReserved ·.text)) = true := by
    decide +kernel
  obtain ⟨member, word⟩ := Bool.and_eq_true_iff.1 checks
  obtain ⟨s, found, name⟩ := (Option.any_eq_true _ _).1 member
  obtain ⟨word, there, reserved⟩ := (Option.any_eq_true _ _).1 word
  refine ⟨?_, s, word, there, reserved, found, beq_iff_eq.1 name⟩
  exact Reachable.empty.act (a := .openDocument ⟨"file:///a.c3"⟩ "struct S{int try;}" 1)
    (DocId.isClient_of_prefix (by decide))

end Workspace

end C3Lens
