import C3Lens.Lookup.Path
import C3Lens.Proofs.Table

/-!
# Members behind distinct types

A value of a distinct type is followed along the chain of distinct types to the struct at its end, as
long as there are less than `Viewpoint.mostSteps` of them. On the way each type overwrites the marks of
the one before, so whether members may be read in the end depends on the last distinct type only
(`followFor_of_chain`).

Results:
* `step?_of_chain`: a member is found behind a chain of inline types that is not too long; nothing is
  found behind a chain whose last type is not inline, or that is too long.
-/

namespace C3Lens

namespace Viewpoint

/-- Each of the distinct types has the next one as its base, and the last one has the struct. -/
def DistinctChain (v : Viewpoint) (s : Struct) : Distinct → List Distinct → Prop
  | d, [] => v.typeDeclaration? d.base = some (.aggregate s)
  | d, e :: ds => v.typeDeclaration? d.base = some (.distinct e) ∧ v.DistinctChain s e ds

/-- The last type of a chain. -/
def lastDistinct : Distinct → List Distinct → Distinct
  | d, [] => d
  | _, e :: ds => lastDistinct e ds

variable {v : Viewpoint} {s : Struct} {d : Distinct} {ds : List Distinct} {name : String}

theorem lastDistinct_mem (d : Distinct) (ds : List Distinct) : lastDistinct d ds ∈ d :: ds := by
  induction ds generalizing d with
  | nil => exact List.mem_singleton_self d
  | cons e ds ih => exact List.mem_cons_of_mem d (ih e)

theorem followFor_distinct (v : Viewpoint) (steps : Nat) (d : Distinct) (a : Access) :
    v.followFor false (steps + 1) ⟨.distinct d, a⟩ =
      (v.typeDeclaration? d.base).bind fun target =>
        v.followFor false steps ⟨target, a.afterStep (.distinct d) target⟩ := by
  rw [followFor, if_neg (by simp [stopsAt, hasOwnMembers])]
  cases found : v.typeDeclaration? d.base <;> simp [target?, found]

theorem followFor_aggregate (v : Viewpoint) (steps : Nat) (s : Struct) (a : Access) :
    v.followFor false (steps + 1) ⟨.aggregate s, a⟩ = some ⟨.aggregate s, a⟩ := by
  rw [followFor, if_pos (by simp [stopsAt, hasOwnMembers])]

theorem members_afterStep (a : Access) (source target : Symbol) :
    (a.afterStep source target).members = target.isType := by
  cases source with
  | distinct d => cases inline : d.isInline <;> simp [Access.afterStep, inline]
  | _ => rfl

theorem readsMembers_afterStep (a : Access) (d : Distinct) (s : Struct) :
    (a.afterStep (.distinct d) (.aggregate s)).readsMembers = d.isInline := by
  unfold Access.afterStep Access.readsMembers
  cases inline : d.isInline <;> simp [inline, Symbol.isType]

/-- Behind a chain stands its struct, whose members may be read if the last distinct type is inline. -/
theorem followFor_of_chain (h : v.DistinctChain s d ds) {steps : Nat} (enough : ds.length + 1 < steps)
    (a : Access) :
    ∃ b : Access, v.followFor false steps ⟨.distinct d, a⟩ = some ⟨.aggregate s, b⟩ ∧
      b.members = true ∧ b.readsMembers = (lastDistinct d ds).isInline := by
  obtain _ | steps := steps
  · omega
  rw [followFor_distinct]
  induction ds generalizing d a steps with
  | nil =>
    have base : v.typeDeclaration? d.base = some (.aggregate s) := h
    obtain _ | steps := steps
    · simp at enough
    rw [base, Option.bind_some, followFor_aggregate]
    exact ⟨_, rfl, members_afterStep a _ _, readsMembers_afterStep a d s⟩
  | cons e ds ih =>
    obtain ⟨base, rest⟩ := h
    obtain _ | steps := steps
    · simp at enough
    rw [base, Option.bind_some, followFor_distinct]
    exact ih rest _ _ (by simpa using enough)

/-- A chain that is too long is not followed to its end. -/
theorem followFor_eq_none_of_chain (h : v.DistinctChain s d ds) {steps : Nat}
    (few : steps ≤ ds.length + 1) (a : Access) : v.followFor false steps ⟨.distinct d, a⟩ = none := by
  obtain _ | steps := steps
  · rfl
  rw [followFor_distinct]
  induction ds generalizing d a steps with
  | nil =>
    have base : v.typeDeclaration? d.base = some (.aggregate s) := h
    obtain rfl : steps = 0 := by simpa using few
    rw [base]
    rfl
  | cons e ds ih =>
    obtain ⟨base, rest⟩ := h
    rw [base, Option.bind_some]
    obtain _ | steps := steps
    · rfl
    rw [followFor_distinct]
    exact ih rest _ _ (by simpa using few)

/-! ## A step behind a dot -/

/-- What stands for a distinct type is followed to it, and no further. -/
theorem follow_value {value : Reached} (isValue : value.symbol.isType = false)
    (declared : v.target? value.symbol = some (.distinct d)) :
    v.follow true value = some ⟨.distinct d, value.access.afterStep value.symbol (.distinct d)⟩ := by
  have goesOn : stopsAt true value.symbol = false := by
    cases symbol : value.symbol <;> rw [symbol] at isValue declared
    -- What has members of its own stands for nothing else.
    all_goals first
      | rfl
      | cases declared
      | cases isValue
  rw [follow, mostSteps, followFor, if_neg (by rw [goesOn]; exact Bool.false_ne_true), declared]
  exact if_pos rfl

/-- Where no method is found, a struct has its members, if the access lets them be read. -/
theorem memberOrMethod?_aggregate (noMethod : v.method? s.name s.modulePath name = none) {a : Access}
    (members : a.members = true) :
    v.memberOrMethod? ⟨.aggregate s, a⟩ name =
      if a.readsMembers then (s.member? name).map .member else none := by
  unfold memberOrMethod?
  rw [if_pos members]
  simp [ownMember?, methodHost?, noMethod]

/-- Where no method is found, a step behind a distinct type is one behind what it stands for. -/
theorem step?_of_follow {value : Reached} {a : Access}
    (first : v.follow true value = some ⟨.distinct d, a⟩)
    (noMethod : v.method? d.name d.modulePath name = none) :
    v.step? value name = (v.follow false ⟨.distinct d, a⟩).bind fun parent =>
      (v.memberOrMethod? parent name).bind fun found => some ⟨found, .ofMember found⟩ := by
  have noOwn : v.distinctMethod? ⟨.distinct d, a⟩ name = none := by
    simp [distinctMethod?, noMethod]
  simp [step?, first, noOwn]

/-- A chain that is too long hides all that is behind it. -/
theorem step?_of_long_chain {value : Reached} (isValue : value.symbol.isType = false)
    (declared : v.target? value.symbol = some (.distinct d)) (chain : v.DistinctChain s d ds)
    (noMethod : v.method? d.name d.modulePath name = none) (long : mostSteps ≤ (d :: ds).length) :
    v.step? value name = none := by
  rw [step?_of_follow (follow_value isValue declared) noMethod, follow,
    followFor_eq_none_of_chain chain long, Option.bind_none]

/-- Whether a chain that is not too long shows the members of the struct depends on its last type. -/
theorem step?_of_short_chain {value : Reached} (isValue : value.symbol.isType = false)
    (declared : v.target? value.symbol = some (.distinct d)) (chain : v.DistinctChain s d ds)
    (noOwnMethod : v.method? d.name d.modulePath name = none)
    (noMethod : v.method? s.name s.modulePath name = none) (short : (d :: ds).length < mostSteps) :
    v.step? value name =
      if (lastDistinct d ds).isInline then
        (s.member? name).map fun m => ⟨.member m, .ofMember (.member m)⟩
      else none := by
  obtain ⟨b, followed, members, reads⟩ := followFor_of_chain chain short
    (value.access.afterStep value.symbol (.distinct d))
  rw [step?_of_follow (follow_value isValue declared) noOwnMethod, follow, followed, Option.bind_some,
    memberOrMethod?_aggregate noMethod members, reads]
  cases (lastDistinct d ds).isInline <;> cases s.member? name <;> rfl

/-- A value whose type is a chain of distinct types ending in a struct has the member of the struct, if
the chain is not too long and all its types are inline, and nothing of the name, if the last type is not
inline or the chain is too long. -/
theorem step?_of_chain {value : Reached} (isValue : value.symbol.isType = false)
    (declared : v.target? value.symbol = some (.distinct d)) (chain : v.DistinctChain s d ds)
    {m : Member} (member : s.member? name = some m)
    (noMethods : ∀ e ∈ d :: ds, v.method? e.name e.modulePath name = none)
    (noMethod : v.method? s.name s.modulePath name = none) :
    ((∀ e ∈ d :: ds, e.isInline = true) → (d :: ds).length < mostSteps →
      v.step? value name = some ⟨.member m, .ofMember (.member m)⟩) ∧
    ((lastDistinct d ds).isInline = false ∨ mostSteps ≤ (d :: ds).length →
      v.step? value name = none) := by
  have noOwnMethod := noMethods d List.mem_cons_self
  constructor
  · intro inline short
    rw [step?_of_short_chain isValue declared chain noOwnMethod noMethod short,
      inline _ (lastDistinct_mem d ds), if_pos rfl, member]
    rfl
  · rcases Nat.lt_or_ge (d :: ds).length mostSteps with short | long
    · rintro (plain | long)
      · rw [step?_of_short_chain isValue declared chain noOwnMethod noMethod short, plain]
        rfl
      · omega
    · exact fun _ => step?_of_long_chain isValue declared chain noOwnMethod long

end Viewpoint

/-! ## Chains of any length -/

theorem NameIndex.search_empty (query : String) : empty.search query = [] := by
  have descend (path : List String) :
      empty.trie.descend? path = if path = [] then some .empty else none := by
    cases path <;> rfl
  unfold search
  split
  case h_1 path _ =>
    rw [descend]
    split <;> rfl
  all_goals
    rw [descend]
    split
    next top =>
      split at top
      · cases top
        rfl
      · cases top
    next => rfl

namespace ChainProject

/-- The document of the project. -/
def doc : DocId :=
  ⟨"file:///a.c3"⟩

/-- A declaration in the module of the project. -/
def declare (name : String) : Declaration :=
  ⟨name, ⟨["app"]⟩, doc, default, default, none⟩

/-- The name of the distinct type with the number. -/
def typeName (i : Nat) : String :=
  String.ofList ('D' :: List.replicate (i + 1) 'a')

/-- The member of the struct. -/
def field : Member :=
  ⟨declare "x", .builtin "int", none, false, false, none, "Target"⟩

/-- The struct at the end of the chain. -/
def target : Struct :=
  { declare "Target" with members := [field], isUnion := false, interfaces := [] }

/-- The distinct type with the number, of a chain of `n`; `inline` tells which ones are inline. -/
def chained (n : Nat) (inline : Nat → Bool) (i : Nat) : Distinct :=
  { declare (typeName i) with
    base := .user (if i + 1 = n then "Target" else typeName (i + 1)) "app"
    isInline := inline i }

theorem typeName_injective : Function.Injective typeName := by
  intro i j same
  have chars := String.ofList_injective same
  simpa using congrArg List.length chars

theorem member?_target : target.member? "x" = some field :=
  rfl

/-- The only module of the project. -/
def content (n : Nat) (inline : Nat → Bool) : Module :=
  { declare "app" with
    structs := ⟨[("Target", target)], by simp⟩
    distincts := ⟨(List.range n).map fun i => (typeName i, chained n inline i), by
      rw [List.map_map]
      exact (List.nodup_range).map typeName_injective⟩ }

/-- A project with a chain of `n` distinct types, seen from its module. -/
def view (n : Nat) (inline : Nat → Bool) : Viewpoint :=
  Workspace.viewpoint
    { symbols := ⟨⟨[(doc.text, ⟨doc, ⟨[("app", content n inline)], by simp⟩⟩)], by simp⟩, .empty⟩ }
    doc ⟨0, 0⟩

theorem modules_view (n : Nat) (inline : Nat → Bool) :
    (view n inline).modules = [⟨doc, content n inline, .document⟩] := by
  rfl

theorem typeName_ne_target (i : Nat) : typeName i ≠ "Target" := by
  intro same
  have chars : (typeName i).toList.head? = some 'T' := by rw [same]; rfl
  rw [typeName, String.toList_ofList] at chars
  cases chars

variable {n i : Nat} {inline : Nat → Bool}

theorem child?_typeName (inside : i < n) :
    (content n inline).child? (typeName i) = some (.distinct (chained n inline i)) := by
  have found : (content n inline).distincts.get? (typeName i) = some (chained n inline i) :=
    Table.mem_entries_iff.1 (List.mem_map.2 ⟨i, List.mem_range.2 inside, rfl⟩)
  have other : (content n inline).structs.get? (typeName i) = none := by
    rw [Table.get?_eq_none_iff]
    simpa [content, Table.names] using typeName_ne_target i
  unfold Module.child?
  rw [found, other]
  simp [content]

theorem child?_target : (content n inline).child? "Target" = some (.aggregate target) := by
  rfl

theorem typeDeclaration?_user {name : String} (named : name ≠ "") {s : Symbol}
    (child : (content n inline).child? name = some s) (isType : s.isType = true) :
    (view n inline).typeDeclaration? (.user name "app") = some s := by
  have indexed (query : String) : (view n inline).indexedType? query = none := by
    unfold Viewpoint.indexedType?
    rw [show (view n inline).workspace.names = .empty from rfl, NameIndex.search_empty]
    rfl
  unfold Viewpoint.typeDeclaration?
  rw [indexed, modules_view]
  simp [TypeRef.user, TypeRef.isNone, named, child, isType]

theorem typeDeclaration?_chained (next : i + 1 < n) :
    (view n inline).typeDeclaration? (chained n inline i).base =
      some (.distinct (chained n inline (i + 1))) := by
  rw [chained, if_neg (Nat.ne_of_lt next)]
  exact typeDeclaration?_user (by simp [typeName]) (child?_typeName next) rfl

theorem typeDeclaration?_last (last : i + 1 = n) :
    (view n inline).typeDeclaration? (chained n inline i).base = some (.aggregate target) := by
  rw [chained, if_pos last]
  exact typeDeclaration?_user (by simp) child?_target rfl

/-- The types of the project form a chain. -/
theorem chain_view (n : Nat) (inline : Nat → Bool) (i rest : Nat) (length : i + rest + 1 = n) :
    (view n inline).DistinctChain target (chained n inline i)
      ((List.range' (i + 1) rest).map (chained n inline)) := by
  induction rest generalizing i with
  | zero => exact typeDeclaration?_last length
  | succ rest ih =>
    exact ⟨typeDeclaration?_chained (by omega), ih (i + 1) (by omega)⟩

/-- The project has no methods. -/
theorem method?_view (type : String) (path : ModulePath) (name : String) :
    (view n inline).method? type path name = none := by
  have indexed (query : String) : (view n inline).workspace.names.search query = [] :=
    NameIndex.search_empty query
  have only : ∀ m ∈ (view n inline).workspace.modulesAt path ++ (view n inline).modules.map (·.content),
      m = content n inline := by
    intro m hm
    rcases List.mem_append.1 hm with there | there
    · exact List.mem_singleton.1 (List.mem_of_mem_filter there)
    · exact List.mem_singleton.1 there
  unfold Viewpoint.method?
  dsimp only
  rw [indexed, List.filterMap_nil, List.find?_nil]
  refine Option.map_eq_none_iff.2 (List.findSome?_eq_none_iff.2 fun m hm => ?_)
  rw [only m hm]
  rfl

/-- A value of the first type. -/
def value : Reached :=
  ⟨.variable { declare "value" with type := .user (typeName 0) "app", parameter? := none, isConstant := false },
    .start⟩

theorem target?_value (some : 0 < n) :
    (view n inline).target? value.symbol = Option.some (.distinct (chained n inline 0)) :=
  typeDeclaration?_user (by simp [typeName]) (child?_typeName some) rfl

/-- The member is found behind two inline types, and not behind an inline one and a plain one. -/
theorem step?_of_two :
    (view 2 fun _ => true).step? value "x" = some ⟨.member field, .ofMember (.member field)⟩ ∧
      (view 2 fun i => i == 0).step? value "x" = none := by
  constructor
  · have applied := Viewpoint.step?_of_chain rfl (target?_value (by decide))
      (chain_view 2 (fun _ => true) 0 1 rfl) member?_target (fun _ _ => method?_view ..) (method?_view ..)
    exact applied.1 (by simp [chained]) (by decide)
  · have applied := Viewpoint.step?_of_chain rfl (target?_value (by decide))
      (chain_view 2 (fun i => i == 0) 0 1 rfl) member?_target (fun _ _ => method?_view ..)
      (method?_view ..)
    exact applied.2 (.inl rfl)

/-- A hundred inline distinct types are too many: the member behind them is not found. -/
theorem nothing_behind_hundred :
    let v := view 100 fun _ => true
    let type := chained 100 fun _ => true
    let further := (List.range' 1 99).map type
    v.target? value.symbol = some (.distinct (type 0)) ∧ v.DistinctChain target (type 0) further ∧
      (∀ e ∈ type 0 :: further, e.isInline = true ∧ v.method? e.name e.modulePath "x" = none) ∧
      target.member? "x" = some field ∧ v.method? target.name target.modulePath "x" = none ∧
      v.step? value "x" = none := by
  have declared : (view 100 fun _ => true).target? value.symbol = _ := target?_value (by decide)
  have chain := chain_view 100 (fun _ => true) 0 99 rfl
  refine ⟨declared, chain, fun e he => ⟨?_, method?_view ..⟩, member?_target, method?_view .., ?_⟩
  · rcases List.mem_cons.1 he with rfl | later
    · rfl
    · obtain ⟨i, -, rfl⟩ := List.mem_map.1 later
      rfl
  · exact Viewpoint.step?_of_long_chain rfl declared chain (method?_view ..) (by simp [Viewpoint.mostSteps])

end ChainProject

end C3Lens
