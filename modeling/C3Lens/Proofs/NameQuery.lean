import Mathlib.Data.List.Basic
import C3Lens.Proofs.Text.Blank
import C3Lens.Workspace.NameIndex

/-!
# Qualified names as queries

A name is cut at `::` and `.`, and a query may end with a star or a separator. A name that has none
of these and no blanks is `Whole`: cut off behind a separator it comes out as it stands, as the last
name of an exact query (`parse_append`, `exists_path_dot`, `exists_path_colons`). Behind three
colons it keeps the third one.
-/

namespace C3Lens

namespace ModulePath

theorem splitColons_of_notMem {cs : List Char} (h : ':' ∉ cs) (current : List Char) :
    splitColons current cs = [String.ofList (current.reverse ++ cs)] := by
  fun_induction splitColons current cs with
  | case1 current => rw [List.append_nil]
  | case2 current c => rw [List.reverse_cons]
  | case3 current c d cs colons ih => exact absurd (colons.1 ▸ List.mem_cons_self) h
  | case4 current c d cs colons ih =>
    rw [ih fun hc => h (List.mem_cons_of_mem _ hc), List.reverse_cons, List.append_assoc,
      List.singleton_append]

/-- What has no colon stays at the end of the last part. -/
theorem exists_splitColons_append {name : List Char} (h : ':' ∉ name) (pre current : List Char) :
    ∃ parts front, splitColons current pre = parts ++ [String.ofList front] ∧
      splitColons current (pre ++ name) = parts ++ [String.ofList (front ++ name)] := by
  fun_induction splitColons current pre with
  | case1 current => exact ⟨[], current.reverse, rfl, splitColons_of_notMem h current⟩
  | case2 current c =>
    refine ⟨[], (c :: current).reverse, rfl, ?_⟩
    cases name with
    | nil => rw [List.append_nil, List.append_nil, List.nil_append, splitColons]
    | cons d name =>
      have single : ¬ (c = ':' ∧ d = ':') := fun colons => h (colons.2 ▸ List.mem_cons_self)
      rw [List.singleton_append, splitColons, if_neg single, splitColons_of_notMem h, List.nil_append]
  | case3 current c d pre colons ih =>
    obtain ⟨parts, front, before, rest⟩ := ih
    refine ⟨String.ofList current.reverse :: parts, front, ?_, ?_⟩
    · rw [before, List.cons_append]
    · rw [List.cons_append, List.cons_append, splitColons, if_pos colons, rest, List.cons_append]
  | case4 current c d pre colons ih =>
    obtain ⟨parts, front, before, rest⟩ := ih
    refine ⟨parts, front, before, ?_⟩
    rw [List.cons_append, List.cons_append, splitColons, if_neg colons]
    exact rest

/-- Behind two colons another part begins, with one of them where there are three. -/
theorem exists_splitColons_colons {name : List Char} (h : ':' ∉ name) (pre current : List Char) :
    ∃ parts, splitColons current (pre ++ ':' :: ':' :: name) = parts ++ [String.ofList name] ∨
      splitColons current (pre ++ ':' :: ':' :: name) = parts ++ [String.ofList (':' :: name)] := by
  have here : ∀ current : List Char,
      splitColons current (':' :: ':' :: name) = [String.ofList current.reverse, String.ofList name] := by
    intro current
    rw [splitColons, if_pos ⟨rfl, rfl⟩, splitColons_of_notMem h, List.reverse_nil, List.nil_append]
  fun_induction splitColons current pre with
  | case1 current => exact ⟨[String.ofList current.reverse], .inl (here current)⟩
  | case2 current c =>
    rw [List.singleton_append, splitColons]
    split
    · refine ⟨[String.ofList current.reverse], .inr ?_⟩
      cases name with
      | nil => rfl
      | cons d name =>
        have single : ¬ (':' = ':' ∧ d = ':') := fun colons => h (colons.2 ▸ List.mem_cons_self)
        rw [splitColons, if_neg single, splitColons_of_notMem h]
        rfl
    · exact ⟨[String.ofList (c :: current).reverse], .inl (here _)⟩
  | case3 current c d pre colons ih =>
    rw [List.cons_append, List.cons_append, splitColons, if_pos colons]
    obtain ⟨parts, rest | rest⟩ := ih
    · exact ⟨String.ofList current.reverse :: parts, .inl (congrArg _ rest)⟩
    · exact ⟨String.ofList current.reverse :: parts, .inr (congrArg _ rest)⟩
  | case4 current c d pre colons ih =>
    rw [List.cons_append, List.cons_append, splitColons, if_neg colons]
    exact ih

theorem qualify_append (p : ModulePath) (s t : String) : p.qualify (s ++ t) = p.qualify s ++ t := by
  rw [qualify, qualify]
  split
  · rfl
  · rw [String.append_assoc, String.append_assoc, String.append_assoc]

end ModulePath

namespace NameQuery

/-- A name that no query cuts or changes. -/
structure Whole (name : String) : Prop where
  nonempty : name ≠ ""
  chars : ∀ c ∈ name.toList, c ≠ '.' ∧ c ≠ ':' ∧ c ≠ '*' ∧ Text.isSpace c = false

variable {name : String}

/-- What ends with a whole name is asked for itself. -/
theorem parse_append (whole : Whole name) (pre : String) :
    parse (pre ++ name) = .exact (path (pre ++ name)) := by
  have star : Text.beforeEnd? "*" (pre ++ name) = none :=
    Text.beforeEnd?_append_eq_none rfl whole.nonempty fun hc => (whole.chars _ hc).2.2.1 rfl
  have colons : Text.beforeEnd? "::" (pre ++ name) = none :=
    Text.beforeEnd?_append_eq_none rfl whole.nonempty fun hc => (whole.chars _ hc).2.1 rfl
  have dot : Text.beforeEnd? "." (pre ++ name) = none :=
    Text.beforeEnd?_append_eq_none rfl whole.nonempty fun hc => (whole.chars _ hc).1 rfl
  rw [parse, star, colons, dot]
  rfl

/-- The last name of a path comes from the last part between colons. -/
theorem exists_path {s last : String} {parts : List String} {front : List (List Char)}
    (split : ModulePath.splitColons [] s.toList = parts ++ [last]) {found : String}
    (cut : last.toList.splitOn '.' = front ++ [found.toList]) (nonempty : found ≠ "")
    (blanks : ∀ c ∈ found.toList, Text.isSpace c = false) :
    ∃ names, path s = names ++ [found] := by
  have kept : [found].filter (· != "") = [found] := by
    simp only [List.filter_cons, bne_iff_ne, ne_eq, nonempty, not_false_eq_true, if_true, List.filter_nil]
  rw [path, segments, split, List.flatMap_append, List.flatMap_singleton, cut, List.map_append,
    List.map_append, List.map_append, List.map_singleton, List.map_singleton, String.ofList_toList,
    Text.trim_of_forall blanks, ← List.append_assoc, List.filter_append, kept]
  exact ⟨_, rfl⟩

theorem Whole.splitOn_eq (whole : Whole name) : name.toList.splitOn '.' = [] ++ [name.toList] :=
  List.splitOn_eq_singleton fun hc => (whole.chars _ hc).1 rfl

theorem Whole.notMem_colon (whole : Whole name) : ':' ∉ name.toList :=
  fun hc => (whole.chars _ hc).2.1 rfl

theorem Whole.blanks (whole : Whole name) : ∀ c ∈ name.toList, Text.isSpace c = false :=
  fun c hc => (whole.chars c hc).2.2.2

theorem path_whole (whole : Whole name) : ∃ names, path name = names ++ [name] := by
  have split := ModulePath.splitColons_of_notMem whole.notMem_colon []
  rw [List.reverse_nil, List.nil_append, String.ofList_toList, ← List.nil_append [name]] at split
  exact exists_path split whole.splitOn_eq whole.nonempty whole.blanks

theorem exists_path_dot (whole : Whole name) (pre : String) :
    ∃ names, path (pre ++ "." ++ name) = names ++ [name] := by
  have noColon : ':' ∉ '.' :: name.toList := by
    simp only [List.mem_cons, not_or]
    exact ⟨by decide, whole.notMem_colon⟩
  obtain ⟨parts, front, -, split⟩ := ModulePath.exists_splitColons_append noColon pre.toList []
  have chars : (pre ++ "." ++ name).toList = pre.toList ++ '.' :: name.toList := by
    rw [String.toList_append, String.toList_append, List.append_assoc]
    rfl
  have cut : (String.ofList (front ++ '.' :: name.toList)).toList.splitOn '.' =
      front.splitOn '.' ++ [name.toList] := by
    rw [String.toList_ofList]
    have dots := List.splitOnP_append_cons (p := (· == '.')) front name.toList (beq_self_eq_true '.')
    exact dots.trans (congrArg _ whole.splitOn_eq)
  rw [← chars] at split
  exact exists_path split cut whole.nonempty whole.blanks

theorem exists_path_colons (whole : Whole name) (pre : String) :
    ∃ names, path (pre ++ "::" ++ name) = names ++ [name] ∨
      path (pre ++ "::" ++ name) = names ++ [":" ++ name] := by
  have chars : (pre ++ "::" ++ name).toList = pre.toList ++ ':' :: ':' :: name.toList := by
    rw [String.toList_append, String.toList_append, List.append_assoc]
    rfl
  obtain ⟨parts, split | split⟩ :=
    ModulePath.exists_splitColons_colons whole.notMem_colon pre.toList []
  · rw [← chars, String.ofList_toList] at split
    obtain ⟨names, path⟩ := exists_path split whole.splitOn_eq whole.nonempty whole.blanks
    exact ⟨names, .inl path⟩
  · have third : String.ofList (':' :: name.toList) = ":" ++ name := by
      rw [← String.toList_inj, String.toList_ofList, String.toList_append]
      rfl
    have member : ∀ c ∈ (":" ++ name).toList, c = ':' ∨ c ∈ name.toList := by
      intro c hc
      rw [String.toList_append] at hc
      exact List.mem_cons.1 hc
    have cut : (":" ++ name).toList.splitOn '.' = [] ++ [(":" ++ name).toList] := by
      refine List.splitOn_eq_singleton fun hc => ?_
      rcases member _ hc with colon | hc
      · exact absurd colon (by decide)
      · exact (whole.chars _ hc).1 rfl
    have nonempty : ":" ++ name ≠ "" := by
      intro empty
      have none := congrArg String.toList empty
      rw [String.toList_append] at none
      cases none
    have blanks : ∀ c ∈ (":" ++ name).toList, Text.isSpace c = false := by
      intro c hc
      rcases member c hc with rfl | hc
      · decide
      · exact whole.blanks c hc
    rw [← chars, third] at split
    obtain ⟨names, path⟩ := exists_path split cut nonempty blanks
    exact ⟨names, .inr path⟩

/-- A query that ends with a star asks for beginnings. -/
theorem parse_star (pre : String) :
    parse (pre ++ "*") = .beginning (segments pre).dropLast ((segments pre).getLast?.getD "") := by
  rw [parse, Text.beforeEnd?_append]

/-- Two colons in front of a name add nothing to its path. -/
theorem path_colons (s : String) : path ("::" ++ s) = path s := by
  have chars : ("::" ++ s).toList = ':' :: ':' :: s.toList := String.toList_append
  have split : ModulePath.splitColons [] ("::" ++ s).toList = "" :: ModulePath.splitColons [] s.toList := by
    rw [chars, ModulePath.splitColons, if_pos ⟨rfl, rfl⟩]
    rfl
  rw [path, segments, split, List.flatMap_cons, List.map_append, List.filter_append]
  rfl

/-- The path of a qualified name. -/
theorem path_qualify (p : ModulePath) (s : String) : path (p.text ++ "::" ++ s) = path (p.qualify s) := by
  rw [ModulePath.qualify]
  split
  next empty =>
    have none : p.text = "" := by
      rw [ModulePath.text, List.isEmpty_iff.1 empty]
      rfl
    rw [none, String.empty_append, path_colons]
  next => rfl

/-- Behind a dot the last segment begins. -/
theorem segments_dot (s : String) : segments (s ++ ".") = segments s ++ [""] := by
  have noColon : ':' ∉ ['.'] := by decide
  obtain ⟨parts, front, before, split⟩ := ModulePath.exists_splitColons_append noColon s.toList []
  have chars : (s ++ ".").toList = s.toList ++ ['.'] := String.toList_append
  have dots : (front ++ ['.']).splitOn '.' = front.splitOn '.' ++ [[]] :=
    List.splitOnP_append_cons (p := (· == '.')) front [] (beq_self_eq_true '.')
  rw [segments, segments, chars, split, before, List.flatMap_append, List.flatMap_append, List.flatMap_singleton,
    List.flatMap_singleton, String.toList_ofList, String.toList_ofList, dots]
  simp only [List.map_append, List.append_assoc]
  rfl

end NameQuery

end C3Lens
