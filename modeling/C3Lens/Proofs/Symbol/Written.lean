import C3Lens.Proofs.Symbol.Types
import C3Lens.Proofs.Table
import C3Lens.Symbol.Decode
import C3Lens.Symbol.Encode

/-!
# Written symbols are read back

A symbol can be stored if its coordinates and sizes are of 32 bits and if the paths in it are read back
from their texts (`Storable`). Such a symbol is read back from what is written of it
(`Module.ofJson?_toJson`).

A record is read field by field: of the members of the record those under the name of the field decide
(`Json.required_of_filter` and its kin), and of what is written for other fields none is
(`Json.filter_ifSome`, `Declaration.filter_fields`).
-/

namespace C3Lens

namespace Json

/-! ## Fields of a record -/

variable {α : Type} {ms : Members} {name : String}

@[simp] theorem filter_ifSome (field name : String) (write : α → Json) (a? : Option α) :
    (ifSome field write a?).filter (·.1 == name) = if field = name then ifSome field write a? else [] := by
  cases a? with
  | none => simp [ifSome]
  | some a => by_cases same : field = name <;> simp [ifSome, same]

@[simp] theorem filter_omitIf (isEmpty : Bool) (field name : String) (write : α → Json) (a : α) :
    (omitIf isEmpty field write a).filter (·.1 == name) =
      if field = name then omitIf isEmpty field write a else [] := by
  cases isEmpty with
  | true => simp [omitIf]
  | false => by_cases same : field = name <;> simp [omitIf, same]

theorem required_of_filter (j : Json) (h : ms.filter (·.1 == name) = [(name, j)])
    (read : Json → Option α) : ms.required name read = read j := by
  rw [Members.required, Members.find?, h]
  rfl

theorem orElse_of_filter (j : Json) (h : ms.filter (·.1 == name) = [(name, j)])
    (read : Json → Option α) (default : α) : ms.orElse name read default = read j := by
  rw [Members.orElse, Members.find?, h]
  rfl

/-- A field that is left out where it is empty. -/
theorem orElse_of_filter_omitIf {β : Type} (isEmpty : Bool) (write : β → Json) (b : β)
    {read : Json → Option α} {a default : α} (empty : isEmpty = true → a = default)
    (back : isEmpty = false → read (write b) = some a)
    (h : ms.filter (·.1 == name) = omitIf isEmpty name write b) : ms.orElse name read default = some a := by
  rw [Members.orElse, Members.find?, h]
  cases isEmpty with
  | true => simp [omitIf, empty]
  | false => simp [omitIf, back]

/-- A field that is left out where it has no value. -/
theorem optional_of_filter_ifSome (write : α → Json) (a? : Option α) {read : Json → Option α}
    (back : ∀ a ∈ a?, (write a).isNull = false ∧ read (write a) = some a)
    (h : ms.filter (·.1 == name) = ifSome name write a?) : ms.optional name read = some a? := by
  rw [Members.optional, Members.find?, h]
  cases a? with
  | none => rfl
  | some a => simp [ifSome, back a rfl]

/-- None of the members has one of the names. -/
def Members.Lack (ms : Members) (names : List String) : Prop :=
  ∀ m ∈ ms, m.1 ∉ names

theorem Members.Lack.filter {names : List String} (h : ms.Lack names) (mem : name ∈ names) :
    ms.filter (·.1 == name) = [] :=
  List.filter_eq_nil_iff.2 fun m hm same => h m hm (beq_iff_eq.1 same ▸ mem)

variable {names : List String}

@[simp] theorem lack_nil : Members.Lack [] names :=
  fun _ hm => absurd hm List.not_mem_nil

@[simp] theorem lack_cons {m : String × Json} : Members.Lack (m :: ms) names ↔ m.1 ∉ names ∧ ms.Lack names :=
  List.forall_mem_cons

@[simp] theorem lack_append {ns : Members} :
    Members.Lack (ms ++ ns) names ↔ ms.Lack names ∧ ns.Lack names :=
  List.forall_mem_append

@[simp] theorem lack_ifSome {write : α → Json} {a? : Option α} (h : name ∉ names) :
    (ifSome name write a?).Lack names := by
  cases a? with
  | none => exact lack_nil
  | some a => exact lack_cons.2 ⟨h, lack_nil⟩

@[simp] theorem lack_omitIf {isEmpty : Bool} {write : α → Json} {a : α} (h : name ∉ names) :
    (omitIf isEmpty name write a).Lack names := by
  cases isEmpty with
  | true => exact lack_nil
  | false => exact lack_cons.2 ⟨h, lack_nil⟩

/-! ## Lists and tables -/

theorem itemsOf?_list {read : Json → Option α} {write : α → Json} {as : List α}
    (back : ∀ a ∈ as, read (write a) = some a) : itemsOf? read (list write as) = some as := by
  show (as.map write).mapM read = some as
  induction as with
  | nil => rfl
  | cons a as ih => simp [back a, ih fun b hb => back b (List.mem_cons_of_mem _ hb)]

end Json

theorem Table.ofList_entries {α : Type} (t : Table α) : ofList t.entries = t := by
  obtain ⟨es, nodup⟩ := t
  suffices all : ∀ (es : List (String × α)) (t : Table α), ((t.entries ++ es).map Prod.fst).Nodup →
      (es.foldl (fun t e => t.insert e.1 e.2) t).entries = t.entries ++ es from
    ext_entries (all es .empty nodup)
  intro es
  induction es with
  | nil => exact fun t _ => (List.append_nil _).symm
  | cons e es ih =>
    intro t distinct
    have new : e.1 ∉ t.names := by
      rw [List.map_append, List.map_cons] at distinct
      exact fun old => (List.nodup_append.1 distinct).2.2 _ old _ List.mem_cons_self rfl
    have front : (t.insert e.1 e.2).entries = t.entries ++ [e] := entries_insert_of_notMem new e.2
    rw [List.foldl_cons, ih _ (by rw [front, List.append_assoc]; exact distinct), front, List.append_assoc]
    rfl

theorem Table.ofJson?_toJson {α : Type} {read : Json → Option α} {write : α → Json} {t : Table α}
    (back : ∀ a ∈ t.values, read (write a) = some a) : ofJson? read (t.toJson write) = some t := by
  have entries : (t.entries.map fun e => (e.1, write e.2)).mapM
      (fun m => (read m.2).map fun a => (m.1, a)) = some t.entries := by
    have each : ∀ e ∈ t.entries, read (write e.2) = some e.2 := fun e he =>
      back e.2 (List.mem_map_of_mem he)
    generalize t.entries = es at each
    induction es with
    | nil => rfl
    | cons e es ih => simp [each e, ih fun f hf => each f (List.mem_cons_of_mem _ hf)]
  show (Option.map _ _) = _
  rw [show Json.membersOf? read (t.toJson write) = some t.entries from entries, Option.map_some,
    ofList_entries]

/-- A list that is left out where it is empty. -/
theorem orElse_of_filter_listField {α : Type} {ms : Json.Members} {name : String} {read : Json → Option α}
    (write : α → Json) (as : List α) (back : ∀ a ∈ as, read (write a) = some a)
    (h : ms.filter (·.1 == name) = listField name write as) :
    ms.orElse name (Json.itemsOf? read) [] = some as :=
  Json.orElse_of_filter_omitIf _ _ _ List.isEmpty_iff.1 (fun _ => Json.itemsOf?_list back) h

theorem textsOf?_of_filter {ms : Json.Members} {name : String} (texts : List String)
    (h : ms.filter (·.1 == name) = listField name .string texts) : textsOf? ms name = some texts :=
  orElse_of_filter_listField _ _ (fun _ _ => rfl) h

theorem flagOf?_of_filter {ms : Json.Members} {name : String} (b : Bool)
    (h : ms.filter (·.1 == name) = [(name, .bool b)]) : flagOf? ms name = some b :=
  Json.orElse_of_filter _ h _ _

theorem tableOf?_of_filter {α : Type} {ms : Json.Members} {name : String} {read : Json → Option α}
    (write : α → Json) (t : Table α) (back : ∀ a ∈ t.values, read (write a) = some a)
    (h : ms.filter (·.1 == name) = t.field name write) : tableOf? ms name read = some t :=
  Json.orElse_of_filter_omitIf _ _ _ (fun none => Table.ext_entries (List.isEmpty_iff.1 none))
    (fun _ => Table.ofJson?_toJson back) h

/-! ## What all symbols have in common -/

/-- Whether the path is read back from its text. -/
def ModulePath.Storable (p : ModulePath) : Prop :=
  .parse p.text = p

/-- Whether the coordinates are of 32 bits. -/
structure Position.Storable (p : Position) : Prop where
  line : p.line ≤ mostCoordinate
  character : p.character ≤ mostCoordinate

/-- Whether both ends can be stored. -/
structure Range.Storable (r : Range) : Prop where
  start : r.start.Storable
  stop : r.stop.Storable

/-- Whether path and ranges can be stored. -/
structure Declaration.Storable (d : Declaration) : Prop where
  path : d.modulePath.Storable
  nameRange : d.nameRange.Storable
  range : d.range.Storable

theorem coordinate?_nat {n : Nat} (h : n ≤ mostCoordinate) : coordinate? (.nat n) = some n := by
  simp [coordinate?, Json.nat, Json.natUpTo?, h]

theorem Range.ofJson?_toJson {r : Range} (h : r.Storable) : ofJson? r.toJson = some r := by
  simp [ofJson?, toJson, Position.toJson, coordinates?, coordinate?_nat h.start.line,
    coordinate?_nat h.start.character, coordinate?_nat h.stop.line, coordinate?_nat h.stop.character,
    Range.of]

theorem ModulePath.ofJson?_string {p : ModulePath} (h : p.Storable) : ofJson? (.string p.text) = some p :=
  congrArg some h

theorem DocComment.ofJson?_toJson (d : DocComment) : ofJson? d.toJson = some d := by
  rw [ofJson?, toJson]
  show (Json.Members.required _ _ _).bind _ = _
  rw [Json.required_of_filter (.string d.body),
    Json.orElse_of_filter_omitIf d.contracts.isEmpty (Json.list Contract.toJson) d.contracts
      List.isEmpty_iff.1 fun _ => Json.itemsOf?_list fun _ _ => rfl]
  · rfl
  all_goals simp [listField]

namespace Declaration

/-- The names of the fields common to all symbols. -/
def fieldNames : List String :=
  ["name", "module", "doc_id", "id_range", "doc_range", "doc_comment"]

@[simp] theorem filter_fields {name : String} (h : name ∉ fieldNames) (d : Declaration) :
    d.fields.filter (·.1 == name) = [] := by
  simp only [fieldNames, List.mem_cons, List.not_mem_nil, not_or, or_false] at h
  simp [fields, Ne.symm h.1, Ne.symm h.2.1, Ne.symm h.2.2.1, Ne.symm h.2.2.2.1, Ne.symm h.2.2.2.2.1,
    Ne.symm h.2.2.2.2.2]

/-- The common fields are read back, whatever stands behind them under other names. -/
theorem ofMembers?_fields {d : Declaration} (h : d.Storable) {more : Json.Members}
    (others : more.Lack fieldNames) : ofMembers? (d.fields ++ more) = some d := by
  have own : ∀ name ∈ fieldNames, (d.fields ++ more).filter (·.1 == name) = d.fields.filter (·.1 == name) :=
    fun name mem => by rw [List.filter_append, others.filter mem, List.append_nil]
  rw [ofMembers?, Json.required_of_filter (.string d.name),
    Json.required_of_filter (.string d.modulePath.text),
    Json.required_of_filter (.string d.doc.text),
    Json.required_of_filter (d.nameRange.toJson), Json.required_of_filter (d.range.toJson),
    Json.optional_of_filter_ifSome DocComment.toJson d.comment? fun c _ => ⟨rfl, c.ofJson?_toJson⟩,
    ModulePath.ofJson?_string h.path, Range.ofJson?_toJson h.nameRange, Range.ofJson?_toJson h.range]
  · rfl
  all_goals
    rw [own _ (by simp [fieldNames])]
    simp [fields]

end Declaration

/-! ## Types and variables -/

/-- Whether the marks of the type and of its arguments can be stored. -/
def TypeRef.Storable (t : TypeRef) : Prop :=
  ∀ u ∈ t.parts, u.pointers ≤ mostPointers ∧ ∀ n ∈ u.size?, n ≤ mostCoordinate

/-- Whether declaration and type can be stored. -/
structure Variable.Storable (v : Variable) : Prop where
  declaration : v.toDeclaration.Storable
  type : v.type.Storable

mutual

theorem TypeRef.ofJson?_toJson : (t : TypeRef) → t.Storable → ofJson? t.toJson = some t
  | ⟨name, isBuiltin, pointers, isOptional, isGenericParameter, arguments, isCollection, size?,
      moduleName⟩, h => by
    have own := h _ (by rw [parts_eq]; exact List.mem_cons_self)
    have nested : ofItems? (listToJson arguments) = some arguments :=
      ofItems?_listToJson arguments fun u hu => h u (by rw [parts_eq]; exact List.mem_cons_of_mem _ hu)
    have marks : Json.natUpTo? mostPointers (.nat pointers) = some pointers := by
      simp [Json.nat, Json.natUpTo?, own.1]
    rw [toJson, ofJson?, TypeRef.ofMembers?, Json.required_of_filter (.string name),
      flagOf?_of_filter isBuiltin, Json.orElse_of_filter (.nat pointers), flagOf?_of_filter isOptional,
      flagOf?_of_filter isGenericParameter,
      Json.orElse_of_filter_omitIf arguments.isEmpty .array (listToJson arguments) List.isEmpty_iff.1
        fun some => by simp [Json.omitIf, some, argumentsIn?, listOfJson?, nested],
      flagOf?_of_filter isCollection,
      Json.optional_of_filter_ifSome .nat size? fun n hn => ⟨rfl, coordinate?_nat (own.2 n hn)⟩,
      Json.orElse_of_filter (.string moduleName), marks]
    · rfl
    all_goals simp

theorem TypeRef.ofItems?_listToJson : (ts : List TypeRef) →
    (∀ u ∈ partsOfList ts, u.pointers ≤ mostPointers ∧ ∀ n ∈ u.size?, n ≤ mostCoordinate) →
    ofItems? (listToJson ts) = some ts
  | [], _ => rfl
  | t :: ts, h => by
    have first := TypeRef.ofJson?_toJson t fun u hu => h u (List.mem_append_left _ hu)
    have others := TypeRef.ofItems?_listToJson ts fun u hu => h u (List.mem_append_right _ hu)
    rw [listToJson, ofItems?, first, others]
    rfl

end

theorem ParameterInfo.ofJson?_toJson (p : ParameterInfo) : ofJson? p.toJson = some p := by
  obtain ⟨isVariadic, default?⟩ := p
  cases default? with
  | none => rfl
  | some text => rfl

theorem Variable.ofJson?_toJson {v : Variable} (h : v.Storable) : ofJson? v.toJson = some v := by
  rw [toJson, ofJson?]
  show (Declaration.ofMembers? _).bind _ = _
  rw [List.append_assoc, List.append_assoc, Declaration.ofMembers?_fields h.declaration,
    Json.required_of_filter v.type.toJson, TypeRef.ofJson?_toJson _ h.type,
    Json.optional_of_filter_ifSome ParameterInfo.toJson v.parameter? fun p _ => ⟨rfl, p.ofJson?_toJson⟩,
    flagOf?_of_filter v.isConstant]
  · rfl
  all_goals simp [Declaration.fieldNames]

/-! ## Functions -/

/-- Whether the function, its parameters and local variables can be stored. -/
structure Function.Storable (f : Function) : Prop where
  declaration : f.toDeclaration.Storable
  returns : f.returns.Storable
  parameters : ∀ v ∈ f.parameters.values, v.Storable
  locals : ∀ v ∈ f.locals, v.Storable

theorem FunctionKind.ofJson?_toJson (k : FunctionKind) : ofJson? k.toJson = some k := by
  cases k with
  | free => rfl
  | method => rfl
  | macroDef => rfl

theorem Function.ofJson?_toJson {f : Function} (h : f.Storable) : ofJson? f.toJson = some f := by
  rw [toJson, ofJson?]
  show (Declaration.ofMembers? _).bind _ = _
  simp only [List.append_assoc]
  rw [Declaration.ofMembers?_fields h.declaration, Json.required_of_filter (f.kind.toJson),
    FunctionKind.ofJson?_toJson, Json.required_of_filter (f.returns.toJson),
    TypeRef.ofJson?_toJson _ h.returns,
    tableOf?_of_filter Variable.toJson f.parameters fun v hv => Variable.ofJson?_toJson (h.parameters v hv),
    Json.optional_of_filter_ifSome .string f.receiver? fun _ _ => ⟨rfl, rfl⟩,
    orElse_of_filter_listField Variable.toJson f.locals fun v hv => Variable.ofJson?_toJson (h.locals v hv)]
  · rfl
  all_goals simp [Declaration.fieldNames, Table.field, listField]

/-! ## Structs and members -/

mutual

/-- Whether the member and its body can be stored. -/
def Member.Storable : Member → Prop
  | ⟨d, type, bits?, _, _, body?, _⟩ =>
    d.Storable ∧ type.Storable ∧ (∀ b ∈ bits?, b.1 ≤ mostCoordinate ∧ b.2 ≤ mostCoordinate) ∧
      Member.StorableBody body?

/-- Whether a body can be stored, if there is one. -/
def Member.StorableBody : Option (Aggregate Member) → Prop
  | none => True
  | some ⟨d, members, _, _⟩ => d.Storable ∧ Member.StorableList members

/-- Whether members can be stored. -/
def Member.StorableList : List Member → Prop
  | [] => True
  | m :: ms => Member.Storable m ∧ Member.StorableList ms

end

/-- Whether the struct and its members can be stored. -/
structure Aggregate.Storable (s : Struct) : Prop where
  declaration : s.toDeclaration.Storable
  members : Member.StorableList s.members

namespace Member

theorem storableList_iff {ms : List Member} : StorableList ms ↔ ∀ m ∈ ms, m.Storable := by
  induction ms with
  | nil => simp [StorableList]
  | cons m ms ih => rw [StorableList, ih, List.forall_mem_cons]

theorem bodyField_eq (body? : Option Struct) :
    bodyField body? = Json.ifSome "substruct" Aggregate.toJson body? := by
  cases body? with
  | none => rfl
  | some s => rfl

theorem bodyIn?_of_filter {ms : Json.Members} (body? : Option Struct)
    (back : ∀ s ∈ body?, structOfJson? s.toJson = some s)
    (h : ms.filter (·.1 == "substruct") = Json.ifSome "substruct" Aggregate.toJson body?) :
    bodyIn? ms = body? := by
  have first : bodyIn? ms = (ms.filter (·.1 == "substruct")).head?.bind fun m => structOfJson? m.2 := by
    clear h
    induction ms with
    | nil => rfl
    | cons m ms ih =>
      rw [bodyIn?]
      by_cases same : m.1 = "substruct"
      · simp [same]
      · simp [same, ih]
  rw [first, h]
  cases body? with
  | none => rfl
  | some s => exact back s rfl

theorem membersIn?_of_filter {ms : Json.Members} (j : Json)
    (h : ms.filter (·.1 == "members") = [("members", j)]) : membersIn? ms = listOfJson? j := by
  have first : membersIn? ms = (ms.filter (·.1 == "members")).head?.bind fun m => listOfJson? m.2 := by
    clear h
    induction ms with
    | nil => rfl
    | cons m ms ih =>
      rw [membersIn?]
      by_cases same : m.1 = "members"
      · simp [same]
      · simp [same, ih]
  rw [first, h]
  rfl

theorem coordinates?_pair {b : Nat × Nat} (h : b.1 ≤ mostCoordinate ∧ b.2 ≤ mostCoordinate) :
    coordinates? (.array [.nat b.1, .nat b.2]) = some b := by
  simp [coordinates?, coordinate?_nat h.1, coordinate?_nat h.2]

theorem structOfJson?_of_list {s : Struct} (h : s.toDeclaration.Storable)
    (members : ofItems? (listToJson s.members) = some s.members) : structOfJson? s.toJson = some s := by
  rw [Aggregate.toJson, structOfJson?, Aggregate.ofMembers?, interfacesField]
  simp only [List.append_assoc]
  rw [Declaration.ofMembers?_fields h,
    Json.required_of_filter (.array (listToJson s.members)),
    membersIn?_of_filter (.array (listToJson s.members)), listOfJson?, members,
    flagOf?_of_filter s.isUnion, textsOf?_of_filter s.interfaces]
  · rfl
  all_goals simp [Declaration.fieldNames, listField]

mutual

theorem ofJson?_toJson : (m : Member) → m.Storable → ofJson? m.toJson = some m
  | ⟨d, type, bits?, awaits, expanded, body?, owner⟩, h => by
    obtain ⟨hd, htype, hbits, hbody⟩ := h
    rw [toJson, ofJson?, Member.ofMembers?, bodyField_eq]
    simp only [List.append_assoc]
    rw [Declaration.ofMembers?_fields hd, Json.required_of_filter type.toJson,
      TypeRef.ofJson?_toJson _ htype,
      Json.optional_of_filter_ifSome (fun b : Nat × Nat => .array [.nat b.1, .nat b.2]) bits?
        fun b hb => ⟨rfl, coordinates?_pair (hbits b hb)⟩,
      flagOf?_of_filter awaits, flagOf?_of_filter expanded,
      bodyIn?_of_filter body? (structOfJson?_toJson body? hbody),
      Json.optional_of_filter_ifSome Aggregate.toJson body? fun _ hs => ⟨rfl, hs⟩,
      Json.orElse_of_filter_omitIf (owner == "") .string owner beq_iff_eq.1 fun _ => rfl]
    · rfl
    all_goals simp [Declaration.fieldNames]

theorem structOfJson?_toJson : (body? : Option (Aggregate Member)) → StorableBody body? →
    ∀ s ∈ body?, structOfJson? s.toJson = some s
  | none, _ => fun s hs => nomatch hs
  | some ⟨d, members, isUnion, interfaces⟩, h => fun s hs => by
    cases hs
    exact structOfJson?_of_list h.1 (ofItems?_listToJson members h.2)

theorem ofItems?_listToJson : (ms : List Member) → StorableList ms → ofItems? (listToJson ms) = some ms
  | [], _ => rfl
  | m :: ms, h => by
    rw [listToJson, ofItems?, ofJson?_toJson m h.1, ofItems?_listToJson ms h.2]
    rfl

end

end Member

/-- Whether the bitstruct and its members can be stored. -/
structure Bitstruct.Storable (b : Bitstruct) : Prop where
  declaration : b.toDeclaration.Storable
  backing : b.backing.Storable
  members : Member.StorableList b.members

theorem Bitstruct.ofJson?_toJson {b : Bitstruct} (h : b.Storable) : ofJson? b.toJson = some b := by
  rw [toJson, ofJson?, interfacesField]
  show (Declaration.ofMembers? _).bind _ = _
  simp only [List.append_assoc]
  rw [Declaration.ofMembers?_fields h.declaration, Json.required_of_filter (b.backing.toJson),
    TypeRef.ofJson?_toJson _ h.backing,
    Json.required_of_filter (.array (Member.listToJson b.members)), Member.listOfJson?,
    Member.ofItems?_listToJson _ h.members, textsOf?_of_filter b.interfaces]
  · rfl
  all_goals simp [Declaration.fieldNames, listField]

/-! ## Enums and faults -/

/-- Whether the enum, its enumerators and associated values can be stored. -/
structure Enum.Storable (e : Enum) : Prop where
  declaration : e.toDeclaration.Storable
  enumerators : ∀ v ∈ e.enumerators, v.toDeclaration.Storable
  values : ∀ v ∈ e.values, v.Storable

theorem Enumerator.ofJson?_toJson {v : Enumerator} (h : v.toDeclaration.Storable) :
    ofJson? v.toJson = some v := by
  rw [toJson, ofJson?]
  show (Declaration.ofMembers? _).bind _ = _
  rw [Declaration.ofMembers?_fields h, Json.orElse_of_filter (.string v.value),
    Json.required_of_filter (.string v.enumName)]
  · rfl
  all_goals simp [Declaration.fieldNames]

theorem Enum.ofJson?_toJson {e : Enum} (h : e.Storable) : ofJson? e.toJson = some e := by
  rw [toJson, ofJson?, interfacesField]
  show (Declaration.ofMembers? _).bind _ = _
  simp only [List.append_assoc]
  rw [Declaration.ofMembers?_fields h.declaration, Json.orElse_of_filter (.string e.backing),
    Json.required_of_filter (.list Enumerator.toJson e.enumerators),
    Json.itemsOf?_list fun v hv => Enumerator.ofJson?_toJson (h.enumerators v hv),
    orElse_of_filter_listField Variable.toJson e.values fun v hv => Variable.ofJson?_toJson (h.values v hv),
    textsOf?_of_filter e.interfaces]
  · rfl
  all_goals simp [Declaration.fieldNames, listField]

/-- Whether the fault and its values can be stored. -/
structure Fault.Storable (f : Fault) : Prop where
  declaration : f.toDeclaration.Storable
  constants : ∀ c ∈ f.constants, c.toDeclaration.Storable

theorem FaultConstant.ofJson?_toJson {c : FaultConstant} (h : c.toDeclaration.Storable) :
    ofJson? c.toJson = some c := by
  rw [toJson, ofJson?]
  show (Declaration.ofMembers? _).bind _ = _
  rw [Declaration.ofMembers?_fields h,
    Json.optional_of_filter_ifSome .string c.fault? fun _ _ => ⟨rfl, rfl⟩]
  · rfl
  all_goals simp [Declaration.fieldNames]

theorem Fault.ofJson?_toJson {f : Fault} (h : f.Storable) : ofJson? f.toJson = some f := by
  rw [toJson, ofJson?]
  show (Declaration.ofMembers? _).bind _ = _
  rw [Declaration.ofMembers?_fields h.declaration, Json.orElse_of_filter (.string f.backing),
    Json.required_of_filter (.list FaultConstant.toJson f.constants),
    Json.itemsOf?_list fun c hc => FaultConstant.ofJson?_toJson (h.constants c hc)]
  · rfl
  all_goals simp [Declaration.fieldNames]

/-! ## Aliases, distinct types and interfaces -/

/-- Whether the alias and the type it stands for can be stored. -/
structure Alias.Storable (a : Alias) : Prop where
  declaration : a.toDeclaration.Storable
  type : ∀ t ∈ a.type?, t.Storable

theorem AliasTarget.ofJson?_toJson {target : AliasTarget} (h : ∀ t, target = .type t → t.Storable) :
    ofJson? target.toJson = some target := by
  cases target with
  | symbol path => rfl
  | type t => simp [toJson, ofJson?, TypeRef.ofJson?_toJson t (h t rfl)]

theorem Alias.ofJson?_toJson {a : Alias} (h : a.Storable) : ofJson? a.toJson = some a := by
  have stands : ∀ t, a.target = .type t → t.Storable := fun t ht =>
    h.type t (by rw [Alias.type?, ht]; rfl)
  rw [toJson, ofJson?]
  show (Declaration.ofMembers? _).bind _ = _
  rw [Declaration.ofMembers?_fields h.declaration, Json.required_of_filter (a.target.toJson),
    AliasTarget.ofJson?_toJson stands]
  · rfl
  all_goals simp [Declaration.fieldNames]

/-- Whether the distinct type and its base can be stored. -/
structure Distinct.Storable (d : Distinct) : Prop where
  declaration : d.toDeclaration.Storable
  base : d.base.Storable

theorem Distinct.ofJson?_toJson {d : Distinct} (h : d.Storable) : ofJson? d.toJson = some d := by
  rw [toJson, ofJson?]
  show (Declaration.ofMembers? _).bind _ = _
  rw [Declaration.ofMembers?_fields h.declaration, Json.required_of_filter (d.base.toJson),
    TypeRef.ofJson?_toJson _ h.base, flagOf?_of_filter d.isInline]
  · rfl
  all_goals simp [Declaration.fieldNames]

/-- Whether the interface and its methods can be stored. -/
structure Interface.Storable (i : Interface) : Prop where
  declaration : i.toDeclaration.Storable
  methods : ∀ f ∈ i.methods.values, f.Storable

theorem Interface.ofJson?_toJson {i : Interface} (h : i.Storable) : ofJson? i.toJson = some i := by
  rw [toJson, ofJson?]
  show (Declaration.ofMembers? _).bind _ = _
  rw [Declaration.ofMembers?_fields h.declaration,
    Json.required_of_filter (i.methods.toJson Function.toJson),
    Table.ofJson?_toJson fun f hf => Function.ofJson?_toJson (h.methods f hf)]
  · rfl
  all_goals simp [Declaration.fieldNames]

/-! ## Modules -/

/-- Whether the module and all that it holds can be stored. -/
structure Module.Storable (m : Module) : Prop where
  declaration : m.toDeclaration.Storable
  imports : ∀ p ∈ m.imports, p.Storable
  globals : ∀ v ∈ m.globals.values, v.Storable
  enums : ∀ e ∈ m.enums.values, e.Storable
  faults : ∀ f ∈ m.faults.values, f.Storable
  faultConstants : ∀ c ∈ m.faultConstants.values, c.toDeclaration.Storable
  structs : ∀ s ∈ m.structs.values, Aggregate.Storable s
  bitstructs : ∀ b ∈ m.bitstructs.values, b.Storable
  aliases : ∀ a ∈ m.aliases.values, a.Storable
  distincts : ∀ d ∈ m.distincts.values, d.Storable
  interfaces : ∀ i ∈ m.interfaces.values, i.Storable
  functions : ∀ f ∈ m.functions, f.Storable

/-- A module is read back. -/
theorem Module.ofJson?_toJson {m : Module} (h : m.Storable) : ofJson? m.toJson = some m := by
  rw [toJson]
  simp only [List.append_assoc]
  rw [ofJson?]
  show (Declaration.ofMembers? _).bind _ = _
  rw [Declaration.ofMembers?_fields h.declaration,
    orElse_of_filter_listField (fun p : ModulePath => .string p.text) m.imports
      fun p hp => ModulePath.ofJson?_string (h.imports p hp),
    textsOf?_of_filter m.genericParameters, flagOf?_of_filter m.isPrivate,
    textsOf?_of_filter m.attributes,
    tableOf?_of_filter Variable.toJson m.globals fun v hv => Variable.ofJson?_toJson (h.globals v hv),
    tableOf?_of_filter Enum.toJson m.enums fun e he => Enum.ofJson?_toJson (h.enums e he),
    tableOf?_of_filter Fault.toJson m.faults fun f hf => Fault.ofJson?_toJson (h.faults f hf),
    tableOf?_of_filter FaultConstant.toJson m.faultConstants
      fun c hc => FaultConstant.ofJson?_toJson (h.faultConstants c hc),
    tableOf?_of_filter Aggregate.toJson m.structs
      fun s hs => Member.structOfJson?_of_list (h.structs s hs).declaration
        (Member.ofItems?_listToJson _ (h.structs s hs).members),
    tableOf?_of_filter Bitstruct.toJson m.bitstructs
      fun b hb => Bitstruct.ofJson?_toJson (h.bitstructs b hb),
    tableOf?_of_filter Alias.toJson m.aliases fun a ha => Alias.ofJson?_toJson (h.aliases a ha),
    tableOf?_of_filter Distinct.toJson m.distincts fun d hd => Distinct.ofJson?_toJson (h.distincts d hd),
    tableOf?_of_filter Interface.toJson m.interfaces
      fun i hi => Interface.ofJson?_toJson (h.interfaces i hi),
    orElse_of_filter_listField Function.toJson m.functions
      fun f hf => Function.ofJson?_toJson (h.functions f hf)]
  · rfl
  all_goals simp only [Declaration.fieldNames, Table.field, listField, List.cons_append, List.nil_append,
    List.append_nil, List.filter_append, List.filter_cons_of_neg, List.filter_cons_of_pos,
    Declaration.filter_fields, Json.filter_omitIf, Json.lack_cons, Json.lack_append, Json.lack_omitIf,
    List.mem_cons, List.not_mem_nil, or_self, and_self, not_false_eq_true, Bool.false_eq_true,
    String.reduceEq, String.reduceBEq, BEq.rfl, ↓reduceIte]

end C3Lens
