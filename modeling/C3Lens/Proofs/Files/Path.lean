import Mathlib.Data.String.Basic
import C3Lens.Files.Path
import C3Lens.Files.Tree

/-!
# Paths and their components

A path is told by its components: two texts name the same path if and only if both or neither begin at the
root and their components are the same (`same_iff_components`), and a name that is joined to an absolute path
is its last component (`components_join`). The components are what stands between the slashes; a text is split
at a character as the list of its characters is (`Text.splitOn_singleton`), so texts that are joined with a
character between them and do not hold it are got back by splitting (`Text.splitOn_intercalate`).

In a tree whose entries have names that a file can have, a walk from an absolute path without double
dots comes to such paths only (`FileTree.isPlain_of_mem_sources`).
-/

/-! ## Texts split at a character -/

namespace C3Lens.Text

open String in
/-- The loop of the splitter: `l` lies before the part that is being read, `m` is what has been read
of it, and `r` is the rest. -/
theorem splitOnAux_singleton (sep : Char) (l m r : List Char) (seen : List String) :
    splitOnAux (ofList (l ++ m ++ r)) (ofList [sep]) ⟨utf8Len l⟩ ⟨utf8Len l + utf8Len m⟩ 0 seen =
      seen.reverse ++ (List.splitOnPPrepend (· == sep) r m.reverse).map ofList := by
  unfold splitOnAux
  have ended : Pos.Raw.atEnd (ofList (l ++ m ++ r)) ⟨utf8Len l + utf8Len m⟩ = true ↔ r = [] := by
    rw [← utf8Len_append]
    exact atEnd_of_valid (l ++ m) r
  cases r with
  | nil =>
    rw [if_pos (ended.2 rfl), List.reverse_cons, List.splitOnPPrepend_nil, List.reverse_reverse]
    have part := extract_of_valid l m []
    rw [part]
    rfl
  | cons c r =>
    have here : Pos.Raw.get (ofList (l ++ m ++ c :: r)) ⟨utf8Len l + utf8Len m⟩ = c := by
      rw [← utf8Len_append]
      exact get_of_valid (l ++ m) (c :: r)
    have next : Pos.Raw.next (ofList (l ++ m ++ c :: r)) ⟨utf8Len l + utf8Len m⟩ =
        ⟨utf8Len l + utf8Len m + c.utf8Size⟩ := by
      rw [← utf8Len_append]
      exact next_of_valid (l ++ m) c r
    have mark : Pos.Raw.get (ofList [sep]) 0 = sep := get_of_valid [] [sep]
    have behind : Pos.Raw.next (ofList [sep]) 0 = ⟨sep.utf8Size⟩ := by
      have := next_of_valid [] sep []
      simpa using this
    have whole : Pos.Raw.atEnd (ofList [sep]) ⟨sep.utf8Size⟩ = true := by
      have := (atEnd_of_valid [sep] []).2 rfl
      simpa using this
    rw [if_neg (fun h => List.cons_ne_nil _ _ (ended.1 h)), here, mark, List.splitOnPPrepend_cons_eq_if]
    by_cases same : c = sep
    · subst same
      have part := extract_of_valid l m (c :: r)
      have rest := splitOnAux_singleton c (l ++ m ++ [c]) [] r (ofList m :: seen)
      have text : l ++ m ++ [c] ++ [] ++ r = l ++ m ++ c :: r := by simp
      have place : utf8Len (l ++ m ++ [c]) = utf8Len l + utf8Len m + c.utf8Size := by
        simp [Nat.add_assoc]
      rw [text, utf8Len_nil, Nat.add_zero, place] at rest
      rw [if_pos (beq_self_eq_true c), if_pos (beq_self_eq_true c)]
      dsimp only
      rw [next, behind, if_pos whole]
      have start : Pos.Raw.unoffsetBy ⟨utf8Len l + utf8Len m + c.utf8Size⟩ ⟨c.utf8Size⟩ =
          ⟨utf8Len l + utf8Len m⟩ := by simp [Pos.Raw.unoffsetBy]
      rw [start, part, rest, List.reverse_cons, List.append_assoc, List.reverse_reverse]
      rfl
    · have rest := splitOnAux_singleton sep l (m ++ [c]) r seen
      have text : l ++ (m ++ [c]) ++ r = l ++ m ++ c :: r := by simp
      have place : utf8Len (m ++ [c]) = utf8Len m + c.utf8Size := by simp
      rw [text, place, ← Nat.add_assoc, List.reverse_append, List.reverse_singleton,
        List.singleton_append] at rest
      have start : Pos.Raw.unoffsetBy ⟨utf8Len l + utf8Len m⟩ 0 = ⟨utf8Len l + utf8Len m⟩ := by
        simp [Pos.Raw.unoffsetBy]
      rw [if_neg (by simpa using same), if_neg (by simpa using same), start, next, rest]

/-- Splitting a text is splitting the list of its characters. -/
theorem splitOn_singleton (s : String) (sep : Char) :
    s.splitOn (String.ofList [sep]) = (s.toList.splitOn sep).map String.ofList := by
  have whole := splitOnAux_singleton sep [] [] s.toList []
  rw [List.append_nil, List.nil_append, String.ofList_toList] at whole
  have nonempty : (String.ofList [sep] == "") = false := by
    rw [beq_eq_false_iff_ne, Ne, ← String.toList_inj]
    simp
  rw [String.splitOn, nonempty, if_neg Bool.false_ne_true]
  exact whole

/-- No part holds the character at which a list was split. -/
theorem notMem_of_mem_splitOn {sep : Char} {cs part : List Char} (h : part ∈ cs.splitOn sep) :
    sep ∉ part := by
  induction cs generalizing part with
  | nil =>
    rw [List.splitOn_nil, List.mem_singleton] at h
    subst h
    exact List.not_mem_nil
  | cons c cs ih =>
    rw [List.splitOn_cons_eq_if_modifyHead] at h
    split at h
    next =>
      rcases List.mem_cons.1 h with rfl | h
      · exact List.not_mem_nil
      · exact ih h
    next other =>
      obtain ⟨first, rest, eq⟩ := List.exists_cons_of_ne_nil (List.splitOn_ne_nil sep cs)
      rw [eq] at h ih
      rcases List.mem_cons.1 h with rfl | h
      · rintro (_ | ⟨_, inside⟩)
        · exact other (beq_self_eq_true sep)
        · exact ih List.mem_cons_self inside
      · exact ih (List.mem_cons_of_mem _ h)

/-- Joined texts are got back by splitting. -/
theorem splitOn_intercalate (sep : Char) {parts : List String} (apart : ∀ part ∈ parts, sep ∉ part.toList)
    (some : parts ≠ []) :
    ((String.ofList [sep]).intercalate parts).splitOn (String.ofList [sep]) = parts := by
  rw [splitOn_singleton, String.toList_intercalate, String.toList_ofList, List.splitOn_intercalate,
    List.map_map]
  · exact List.map_id'' (fun part => String.ofList_toList) parts
  · simpa using apart
  · simpa using some

end C3Lens.Text

namespace C3Lens.Path

variable {path : String}

theorem slash_eq : "/" = String.ofList ['/'] := rfl

theorem parts_eq (path : String) : parts path = (path.toList.splitOn '/').map String.ofList := by
  rw [parts, slash_eq, Text.splitOn_singleton]

theorem isAbsolute_iff : isAbsolute path = true ↔ ∃ cs, path.toList = '/' :: cs := by
  rw [isAbsolute, String.startsWith_string_iff]
  show ['/'] <+: path.toList ↔ _
  constructor
  · rintro ⟨cs, eq⟩
    exact ⟨cs, eq.symm⟩
  · rintro ⟨cs, eq⟩
    exact ⟨cs, eq.symm⟩

/-- Whether a text can be a component of a path. -/
def IsName (name : String) : Prop :=
  name ≠ "" ∧ name ≠ "." ∧ '/' ∉ name.toList

instance (name : String) : Decidable (IsName name) :=
  inferInstanceAs (Decidable (_ ∧ _ ∧ _))

/-- Whether a part of a path counts. -/
def counts (part : String) : Bool :=
  part != "" && part != "."

theorem counts_of_isName {name : String} (h : IsName name) : counts name = true := by
  simp [counts, h.1, h.2.1]

theorem parts_of_isName {name : String} (h : IsName name) : parts name = [name] := by
  rw [parts_eq, List.splitOn_eq_singleton h.2.2, List.map_singleton, String.ofList_toList]

theorem parts_of_absolute (h : isAbsolute path = true) :
    ∃ rest, rest ≠ [] ∧ parts path = "" :: rest := by
  obtain ⟨cs, eq⟩ := isAbsolute_iff.1 h
  refine ⟨(cs.splitOn '/').map String.ofList, by simp, ?_⟩
  have split := List.splitOn_append_cons_self (a := '/') [] cs
  rw [parts_eq, eq]
  rw [List.nil_append, List.splitOn_nil] at split
  rw [split]
  rfl

theorem components_of_absolute (h : isAbsolute path = true) :
    components path = (parts path).filter counts := by
  obtain ⟨rest, -, eq⟩ := parts_of_absolute h
  rw [components, eq]
  rfl

/-- No part of a path holds a slash. -/
theorem notMem_of_mem_parts {part : String} (h : part ∈ parts path) : '/' ∉ part.toList := by
  rw [parts_eq] at h
  obtain ⟨cs, hc, rfl⟩ := List.mem_map.1 h
  rw [String.toList_ofList]
  exact Text.notMem_of_mem_splitOn hc

theorem isName_of_mem_filter {name : String} (member : name ∈ (parts path).filter counts) : IsName name := by
  rw [List.mem_filter] at member
  obtain ⟨part, counted⟩ := member
  simp only [counts, Bool.and_eq_true, bne_iff_ne] at counted
  exact ⟨counted.1, counted.2, notMem_of_mem_parts part⟩

theorem isName_of_mem_components (h : isAbsolute path = true) {name : String}
    (member : name ∈ components path) : IsName name := by
  rw [components_of_absolute h] at member
  exact isName_of_mem_filter member

/-- Whether a path begins at the root and takes no step up. -/
def IsPlain (path : String) : Prop :=
  isAbsolute path = true ∧ ".." ∉ components path

instance (path : String) : Decidable (IsPlain path) :=
  inferInstanceAs (Decidable (_ ∧ _))

/-! ## The path of components -/

/-- The absolute path with the given components. -/
def ofComponents (names : List String) : String :=
  "/" ++ "/".intercalate names

theorem normalize_of_absolute (h : isAbsolute path = true) :
    normalize path = ofComponents (components path) := by
  rw [normalize, if_pos h, ofComponents]

theorem isAbsolute_ofComponents (names : List String) : isAbsolute (ofComponents names) = true := by
  rw [isAbsolute_iff, ofComponents, String.toList_append]
  exact ⟨_, rfl⟩

theorem ofComponents_eq_intercalate {names : List String} (some : names ≠ []) :
    ofComponents names = "/".intercalate ("" :: names) := by
  obtain ⟨name, rest, rfl⟩ := List.exists_cons_of_ne_nil some
  rw [ofComponents, ← String.toList_inj, String.toList_append, String.toList_intercalate,
    String.toList_intercalate]
  rfl

theorem parts_ofComponents {names : List String} (h : ∀ name ∈ names, IsName name) :
    parts (ofComponents names) = "" :: if names = [] then [""] else names := by
  by_cases none : names = []
  · subst none
    rw [parts_eq]
    rfl
  · rw [if_neg none, parts, ofComponents_eq_intercalate none, slash_eq]
    refine Text.splitOn_intercalate '/' ?_ (List.cons_ne_nil _ _)
    rintro part (_ | ⟨_, hp⟩)
    · exact List.not_mem_nil
    · exact (h part hp).2.2

theorem components_ofComponents {names : List String} (h : ∀ name ∈ names, IsName name) :
    components (ofComponents names) = names := by
  rw [components_of_absolute (isAbsolute_ofComponents names), parts_ofComponents h]
  by_cases none : names = []
  · rw [if_pos none, none]
    rfl
  · rw [if_neg none, List.filter_cons_of_neg (by decide)]
    exact List.filter_eq_self.2 fun name hn => counts_of_isName (h name hn)

/-- The components of a path are names, but for a dot at the start of a relative path. -/
theorem exists_names (path : String) : ∃ names, (∀ name ∈ names, IsName name) ∧
    (components path = names ∨ isAbsolute path = false ∧ components path = "." :: names) := by
  refine ⟨(parts path).filter counts, fun name => isName_of_mem_filter, ?_⟩
  by_cases dot : ((parts path).head? == some ".") = true
  · refine .inr ⟨?_, by rw [components, if_pos dot]; rfl⟩
    rw [Bool.eq_false_iff]
    intro absolute
    obtain ⟨rest, -, eq⟩ := parts_of_absolute absolute
    rw [eq, List.head?_cons] at dot
    exact absurd dot (by decide)
  · exact .inl (by rw [components, if_neg dot]; rfl)

/-- Names that are joined make a relative path, also with a dot in front of them. -/
theorem components_intercalate {names cs : List String} (h : ∀ name ∈ names, IsName name)
    (all : cs = names ∨ cs = "." :: names) (some : cs ≠ []) :
    isAbsolute ("/".intercalate cs) = false ∧ components ("/".intercalate cs) = cs := by
  have apart : ∀ part ∈ cs, part ≠ "" ∧ '/' ∉ part.toList := by
    rcases all with rfl | rfl
    · exact fun part hp => ⟨(h part hp).1, (h part hp).2.2⟩
    · exact List.forall_mem_cons.2 ⟨by decide, fun part hp => ⟨(h part hp).1, (h part hp).2.2⟩⟩
  have split : parts ("/".intercalate cs) = cs := by
    rw [parts, slash_eq]
    exact Text.splitOn_intercalate '/' (fun part hp => (apart part hp).2) some
  constructor
  · rw [Bool.eq_false_iff]
    intro absolute
    obtain ⟨rest, -, eq⟩ := parts_of_absolute absolute
    rw [split] at eq
    exact (apart "" (eq ▸ List.mem_cons_self)).1 rfl
  · have kept : names.filter counts = names :=
      List.filter_eq_self.2 fun name hn => counts_of_isName (h name hn)
    rw [components, split]
    rcases all with rfl | rfl
    · have other : ¬(cs.head? == Option.some ".") = true := by
        obtain ⟨first, rest, rfl⟩ := List.exists_cons_of_ne_nil some
        rw [List.head?_cons, beq_iff_eq]
        exact fun eq => (h first List.mem_cons_self).2.1 (Option.some.inj eq)
      rw [if_neg other]
      exact kept
    · exact congrArg ("." :: ·) kept

/-- The normal form of a path has its components. -/
theorem normalize_spec (path : String) :
    isAbsolute (normalize path) = isAbsolute path ∧ components (normalize path) = components path := by
  obtain ⟨names, all, cases⟩ := exists_names path
  cases absolute : isAbsolute path with
  | true =>
    rw [normalize_of_absolute absolute]
    refine ⟨isAbsolute_ofComponents _, components_ofComponents ?_⟩
    exact fun name => isName_of_mem_components absolute
  | false =>
    rw [normalize, absolute, if_neg Bool.false_ne_true, String.empty_append]
    by_cases none : components path = []
    · have whole : parts "" = [""] := by
        rw [parts_eq]
        rfl
      rw [none, String.intercalate_nil, components, whole]
      decide
    · exact components_intercalate all (cases.imp_right And.right) none

/-- Two texts name the same path if both or neither begin at the root and their components are the same. -/
theorem same_iff_components {path other : String} :
    same path other = true ↔ isAbsolute path = isAbsolute other ∧ components path = components other := by
  rw [same, beq_iff_eq]
  constructor
  · intro eq
    obtain ⟨root, names⟩ := normalize_spec path
    obtain ⟨root', names'⟩ := normalize_spec other
    exact ⟨by rw [← root, eq, root'], by rw [← names, eq, names']⟩
  · rintro ⟨root, names⟩
    rw [normalize, root, names, normalize]

/-- Absolute paths are the same if their components are. -/
theorem same_iff {other : String} (h : isAbsolute path = true) (ho : isAbsolute other = true) :
    same path other = true ↔ components path = components other := by
  rw [same_iff_components, h, ho]
  exact and_iff_right rfl

/-! ## Joining a name -/

/-- A slash behind an absolute path does not count. -/
theorem components_append_slash (h : isAbsolute path = true) :
    isAbsolute (path ++ "/") = true ∧ components (path ++ "/") = components path := by
  obtain ⟨cs, eq⟩ := isAbsolute_iff.1 h
  have absolute : isAbsolute (path ++ "/") = true := by
    rw [isAbsolute_iff, String.toList_append, eq]
    exact ⟨_, rfl⟩
  have all : parts (path ++ "/") = parts path ++ [""] := by
    rw [parts_eq, String.toList_append, show "/".toList = '/' :: [] from rfl,
      List.splitOn_append_cons_self, List.map_append, ← parts_eq]
    rfl
  refine ⟨absolute, ?_⟩
  rw [components_of_absolute absolute, components_of_absolute h, all, List.filter_append]
  exact List.append_nil _

theorem endsWith_slash_iff (s : String) : s.endsWith "/" = true ↔ ∃ front, s.toList = front ++ ['/'] := by
  have slice : s.toSlice.endsWith "/" = true ↔ "/".toList <:+ s.toSlice.copy.toList :=
    String.Slice.endsWith_string_iff
  rw [String.copy_toSlice] at slice
  refine slice.trans ⟨?_, ?_⟩
  · rintro ⟨front, eq⟩
    exact ⟨front, eq.symm⟩
  · rintro ⟨front, eq⟩
    exact ⟨front, eq.symm⟩

theorem IsName.relative {name : String} (h : IsName name) : isAbsolute name = false := by
  rw [Bool.eq_false_iff]
  intro absolute
  obtain ⟨cs, eq⟩ := isAbsolute_iff.1 absolute
  exact h.2.2 (eq ▸ List.mem_cons_self)

theorem join_root {name : String} (h : IsName name) : join "/" name = "/" ++ name := by
  have closed : ("/" : String).endsWith "/" = true := (endsWith_slash_iff "/").2 ⟨[], rfl⟩
  rw [join, h.relative, closed, Bool.or_true]
  rfl

/-- A name is joined to an absolute path behind a slash. -/
theorem toList_join {base name : String} (h : isAbsolute base = true) (hn : IsName name) :
    ∃ front, (join base name).toList = front ++ '/' :: name.toList ∧
      (base.toList = front ∨ base.toList = front ++ ['/']) := by
  have nonempty : (base == "") = false := by
    rw [beq_eq_false_iff_ne]
    rintro rfl
    obtain ⟨cs, eq⟩ := isAbsolute_iff.1 h
    cases eq
  rw [join, hn.relative, if_neg Bool.false_ne_true, nonempty, Bool.false_or]
  by_cases closed : base.endsWith "/" = true
  · rw [if_pos closed, String.toList_append]
    obtain ⟨front, eq⟩ := (endsWith_slash_iff base).1 closed
    exact ⟨front, by rw [eq, List.append_assoc]; rfl, .inr eq⟩
  · rw [if_neg closed, String.toList_append, String.toList_append, List.append_assoc]
    exact ⟨base.toList, rfl, .inl rfl⟩

theorem isAbsolute_join {base name : String} (h : isAbsolute base = true) (hn : IsName name) :
    isAbsolute (join base name) = true := by
  obtain ⟨front, joined, begins⟩ := toList_join h hn
  obtain ⟨cs, eq⟩ := isAbsolute_iff.1 h
  rw [isAbsolute_iff, joined]
  cases front with
  | nil => exact ⟨name.toList, rfl⟩
  | cons c front =>
    have slash : c = '/' := by
      rcases begins with begins | begins
      · exact (List.cons.inj (begins.symm.trans eq)).1
      · exact (List.cons.inj (begins.symm.trans eq)).1
    exact ⟨_, by rw [slash]; rfl⟩

/-- A name that is joined to an absolute path is its last component. -/
theorem components_join {base name : String} (h : isAbsolute base = true) (hn : IsName name) :
    components (join base name) = components base ++ [name] := by
  obtain ⟨front, joined, begins⟩ := toList_join h hn
  have all : parts (join base name) = (front.splitOn '/').map String.ofList ++ [name] := by
    rw [parts_eq, joined, List.splitOn_append_cons_self, List.map_append, ← parts_eq, parts_of_isName hn]
  have before : (parts base).filter counts = ((front.splitOn '/').map String.ofList).filter counts := by
    rcases begins with begins | begins
    · rw [parts_eq, begins]
    · rw [parts_eq, begins, List.splitOn_append_cons_self, List.map_append, List.filter_append]
      exact List.append_nil _
  have last : [name].filter counts = [name] := List.filter_cons_of_pos (counts_of_isName hn)
  rw [components_of_absolute (isAbsolute_join h hn), components_of_absolute h, all, List.filter_append,
    ← before, last]

theorem IsPlain.join {base name : String} (h : IsPlain base) (hn : IsName name) (up : name ≠ "..") :
    IsPlain (join base name) := by
  refine ⟨isAbsolute_join h.1 hn, ?_⟩
  rw [components_join h.1 hn, List.mem_append, List.mem_singleton]
  exact fun inside => inside.elim h.2 fun same => up same.symm

end C3Lens.Path

/-! ## The paths of a walk -/

namespace C3Lens

namespace FileNode

mutual

/-- All entries below a node have names that a file can have. -/
def WellNamed : FileNode → Prop
  | .file _ => True
  | .folder entries => WellNamedEntries entries

/-- All entries, and those below them, have names that a file can have. -/
def WellNamedEntries : List (String × FileNode) → Prop
  | [] => True
  | (name, node) :: entries =>
    (Path.IsName name ∧ name ≠ "..") ∧ WellNamed node ∧ WellNamedEntries entries

end

theorem WellNamedEntries.of_lookup {entries : List (String × FileNode)} (h : WellNamedEntries entries)
    {name : String} {node : FileNode} (found : entries.lookup name = some node) : node.WellNamed := by
  induction entries with
  | nil => cases found
  | cons e entries ih =>
    obtain ⟨key, below⟩ := e
    rw [List.lookup_cons] at found
    split at found
    · cases found
      exact h.2.1
    · exact ih h.2.2 found

/-- A node below one with good names has good names. -/
theorem WellNamed.descend? {names : List String} {node below : FileNode} (h : node.WellNamed)
    (found : descend? names node = some below) : below.WellNamed := by
  induction names generalizing node with
  | nil =>
    cases found
    exact h
  | cons name names ih =>
    cases node with
    | file bytes => cases found
    | folder entries =>
      rw [FileNode.descend?] at found
      split at found
      next next hn => exact ih (WellNamedEntries.of_lookup h hn) found
      next => cases found

mutual

theorem isPlain_of_mem_walk {path : String} (plain : Path.IsPlain path) :
    (node : FileNode) → node.WellNamed → ∀ p ∈ node.walk path, Path.IsPlain p
  | .file _, _, p, hp => by
    rw [walk, List.mem_singleton] at hp
    exact hp ▸ plain
  | .folder entries, h, p, hp => isPlain_of_mem_walkEntries plain entries h p hp

theorem isPlain_of_mem_walkEntries {path : String} (plain : Path.IsPlain path) :
    (entries : List (String × FileNode)) → WellNamedEntries entries →
      ∀ p ∈ walkEntries path entries, Path.IsPlain p
  | [], _, p, hp => by
    rw [walkEntries] at hp
    cases hp
  | (name, node) :: entries, h, p, hp => by
    rw [walkEntries, List.mem_append] at hp
    obtain ⟨⟨named, up⟩, here, behind⟩ := h
    rcases hp with hp | hp
    · exact isPlain_of_mem_walk (plain.join named up) node here p hp
    · exact isPlain_of_mem_walkEntries plain entries behind p hp

end

end FileNode

namespace FileTree

/-- All entries of a tree have names that a file can have. -/
def WellNamed (t : FileTree) : Prop :=
  t.root.WellNamed

theorem WellNamed.node {t : FileTree} (h : t.WellNamed) {path : String} {node : FileNode}
    (found : t.node path = .ok node) : node.WellNamed := by
  rw [FileTree.node] at found
  cases names : t.names path with
  | error e =>
    rw [names] at found
    cases found
  | ok ns =>
    rw [names] at found
    dsimp only [Bind.bind, Except.bind] at found
    split at found
    next node' here =>
      cases found
      exact FileNode.WellNamed.descend? h here
    next => cases found

/-- The sources that a walk finds have absolute paths without double dots. -/
theorem isPlain_of_mem_sources {t : FileTree} (h : t.WellNamed) {path : String} (plain : Path.IsPlain path)
    {paths : List String} (found : t.sources path = .ok paths) : ∀ p ∈ paths, Path.IsPlain p := by
  rw [sources] at found
  cases here : t.node path with
  | error e =>
    rw [here] at found
    cases found
  | ok node =>
    rw [here] at found
    cases found
    intro p hp
    exact FileNode.isPlain_of_mem_walk plain node (h.node here) p (List.mem_filter.1 hp).1

end FileTree

end C3Lens
