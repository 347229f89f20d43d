import C3Lens.Files.Tree
import C3Lens.Proofs.Table
import C3Lens.Proofs.Text.Utf8

/-!
# Reading what was written

A file is put where no folder is, so all folders stay and keep their entries (`FileNode.descend?_put`),
and a path that was followed before is followed afterwards (`FileTree.follow_of_keeps`). So the file is
found under the path that it was written to (`FileTree.bytes_write`).
-/

namespace C3Lens

namespace FileNode

theorem lookup_setEntry (name other : String) (node : FileNode) (entries : List (String × FileNode)) :
    (setEntry name node entries).lookup other = if other = name then some node else entries.lookup other := by
  induction entries with
  | nil =>
    rw [setEntry, Table.lookup_cons_eq_ite]
  | cons e entries ih =>
    rw [setEntry]
    split
    next here =>
      rw [Table.lookup_cons_eq_ite, Table.lookup_cons_eq_ite e, here]
      by_cases same : other = name
      · rw [if_pos same, if_pos same]
      · rw [if_neg same, if_neg same, if_neg same]
    next other' =>
      split
      · rw [Table.lookup_cons_eq_ite]
      · rw [Table.lookup_cons_eq_ite, ih, Table.lookup_cons_eq_ite e]
        by_cases first : other = e.1
        · rw [if_pos first, if_pos first, if_neg fun same => other' (first.symm.trans same)]
        · rw [if_neg first, if_neg first]

/-- What was put at the end of names is found there. -/
theorem descend?_put_self (node : FileNode) (names : List String) (here : Option FileNode) :
    descend? names (put node names here) = some node := by
  induction names generalizing here with
  | nil => rfl
  | cons name names ih =>
    unfold put
    rw [descend?, lookup_setEntry, if_pos rfl]
    exact ih _

theorem descend?_append (names names' : List String) (node : FileNode) :
    descend? (names ++ names') node = (descend? names node).bind (descend? names') := by
  induction names generalizing node with
  | nil => rfl
  | cons name names ih =>
    cases node with
    | file bytes => rfl
    | folder entries =>
      rw [List.cons_append, descend?, descend?]
      cases entries.lookup name with
      | none => rfl
      | some below => exact ih below

/-- Where something is put in the place of no folder, all folders stay and keep their entries. -/
theorem descend?_put {target names : List String} {node root : FileNode}
    {entries : List (String × FileNode)} (free : ∀ es, descend? target root ≠ some (.folder es))
    (found : descend? names root = some (.folder entries)) :
    ∃ entries', descend? names (put node target (some root)) = some (.folder entries') ∧
      ∀ name, (entries.lookup name).isSome → (entries'.lookup name).isSome := by
  induction target generalizing names root with
  | nil =>
    cases root with
    | folder es => exact absurd rfl (free es)
    | file bytes =>
      cases names with
      | nil => cases found
      | cons name names => cases found
  | cons first target ih =>
    cases root with
    | file bytes =>
      cases names with
      | nil => cases found
      | cons name names => cases found
    | folder here =>
      rw [put]
      cases names with
      | nil =>
        cases found
        refine ⟨_, rfl, fun name there => ?_⟩
        rw [lookup_setEntry]
        split
        · rfl
        · exact there
      | cons name names =>
        rw [descend?] at found
        rw [descend?, lookup_setEntry]
        by_cases same : name = first
        · subst same
          rw [if_pos rfl]
          cases below : here.lookup name with
          | none =>
            rw [below] at found
            cases found
          | some child =>
            rw [below] at found
            refine ih (fun es => ?_) found
            have outside := free es
            rwa [descend?, below] at outside
        · rw [if_neg same]
          exact ⟨entries, found, fun _ there => there⟩

end FileNode

namespace FileTree

variable {t t' : FileTree}

/-- All folders of the first tree are in the second one, with entries of the same names. -/
def Keeps (t t' : FileTree) : Prop :=
  ∀ names entries, t.root.descend? names = some (.folder entries) →
    ∃ entries', t'.root.descend? names = some (.folder entries') ∧
      ∀ name, (entries.lookup name).isSome → (entries'.lookup name).isSome

theorem entry_of_keeps {entries entries' : List (String × FileNode)} {name : String} {node : FileNode}
    (kept : ∀ name, (entries.lookup name).isSome → (entries'.lookup name).isSome)
    (found : entry entries name = .ok (some node)) : ∃ node', entry entries' name = .ok (some node') := by
  rw [entry] at found ⊢
  split at found
  · cases found
  next fits =>
    have there : entries.lookup name = some node := Except.ok.inj found
    obtain ⟨node', there'⟩ := Option.isSome_iff_exists.1 (kept name (by rw [there]; rfl))
    exact ⟨node', by rw [if_neg fits, there']⟩

theorem follow_of_keeps (keeps : t.Keeps t') {above parts names : List String}
    (h : t.follow above parts = .ok names) : t'.follow above parts = .ok names := by
  induction parts generalizing above with
  | nil => exact h
  | cons part parts ih =>
    rw [follow] at h ⊢
    cases here : t.root.descend? above.reverse with
    | none =>
      rw [here] at h
      cases h
    | some node =>
      cases node with
      | file bytes =>
        rw [here] at h
        cases h
      | folder entries =>
        obtain ⟨entries', there, kept⟩ := keeps _ _ here
        rw [here] at h
        rw [there]
        dsimp only at h ⊢
        split at h
        next stays =>
          rw [if_pos stays]
          exact ih h
        next moves =>
          rw [if_neg moves]
          split at h
          next up =>
            rw [if_pos up]
            exact ih h
          next down =>
            rw [if_neg down]
            cases found : entry entries part with
            | error e =>
              rw [found] at h
              cases h
            | ok below =>
              cases below with
              | none =>
                rw [found] at h
                cases h
              | some node =>
                obtain ⟨node', found'⟩ := entry_of_keeps kept found
                rw [found] at h
                rw [found']
                exact ih h

theorem follow_append (t : FileTree) (above parts parts' : List String) :
    t.follow above (parts ++ parts') = (t.follow above parts).bind (t.follow · parts') := by
  induction parts generalizing above with
  | nil => rfl
  | cons part parts ih =>
    rw [List.cons_append, follow, follow]
    cases t.root.descend? above.reverse with
    | none => rfl
    | some node =>
      cases node with
      | file bytes => rfl
      | folder entries =>
        dsimp only
        split
        · exact ih above
        split
        · exact ih above.tail
        cases entry entries part with
        | error e => rfl
        | ok below =>
          cases below with
          | none => rfl
          | some node => exact ih _

/-- The empty part of a path leads nowhere else. -/
theorem eq_of_follow_empty {above names : List String} (h : t.follow above [""] = .ok names) :
    names = above := by
  rw [follow] at h
  cases here : t.root.descend? above.reverse with
  | none =>
    rw [here] at h
    cases h
  | some node =>
    cases node with
    | file bytes =>
      rw [here] at h
      cases h
    | folder entries =>
      rw [here] at h
      exact (Except.ok.inj h).symm

/-- A place in a folder is found behind names that lead to the folder. -/
theorem exists_of_vacancy? {path : String} {v : Vacancy} (h : t.vacancy? path = .ok (some v)) :
    ∃ parts above entries, partsOf path = .ok parts ∧
      parts.reverse.dropWhile (· == "") = v.name :: above ∧ (v.name ≠ "." ∧ v.name ≠ "..") ∧
      t.follow [] (above.reverse ++ [""]) = .ok v.folder.reverse ∧
      t.root.descend? v.folder = some (.folder entries) ∧ entry entries v.name = .ok v.taken? ∧
      v.forFolder = (parts.reverse.head? == some "") := by
  rw [vacancy?] at h
  cases split : partsOf path with
  | error e =>
    rw [split] at h
    cases h
  | ok parts =>
    rw [split] at h
    dsimp only [Bind.bind, Except.bind] at h
    cases last : parts.reverse.dropWhile (· == "") with
    | nil =>
      rw [last] at h
      cases h
    | cons name above =>
      rw [last] at h
      dsimp only at h
      cases way : t.follow [] (above.reverse ++ [""]) with
      | error e =>
        rw [way] at h
        cases h
      | ok folder =>
        rw [way] at h
        dsimp only at h
        split at h
        next => cases h
        next named =>
          split at h
          next entries stands =>
            cases here : entry entries name with
            | error e =>
              rw [here] at h
              cases h
            | ok taken? =>
              rw [here] at h
              cases h
              simp only [Bool.or_eq_true, beq_iff_eq, not_or] at named
              exact ⟨parts, above, entries, rfl, last, named, by rw [way, List.reverse_reverse], stands,
                here, rfl⟩
          next => cases h

/-- A file is put behind names that lead to a folder, and in the place of no folder. -/
theorem exists_of_write {path : String} {bytes : List UInt8} (h : t.write path bytes = .ok t') :
    ∃ parts name folder entries, partsOf path = .ok (parts ++ [name]) ∧
      (name ≠ "" ∧ name ≠ "." ∧ name ≠ "..") ∧ t.follow [] parts = .ok folder ∧
      t.root.descend? folder.reverse = some (.folder entries) ∧
      name.utf8ByteSize ≤ longestName ∧ (∀ es, entries.lookup name ≠ some (.folder es)) ∧
      t' = ⟨.put (.file bytes) (folder.reverse ++ [name]) (some t.root)⟩ := by
  rw [write] at h
  cases vacant : t.vacancy? path with
  | error e =>
    rw [vacant] at h
    cases h
  | ok v? =>
    rw [vacant] at h
    dsimp only [Bind.bind, Except.bind] at h
    cases v? with
    | none => cases h
    | some v =>
      dsimp only at h
      split at h
      next => cases h
      next free =>
        obtain ⟨parts, above, entries, split, last, named, way, stands, here, forFolder⟩ :=
          exists_of_vacancy? vacant
        rw [Bool.or_eq_true, not_or, forFolder] at free
        obtain ⟨noSlash, noFolder⟩ := free
        cases ends : parts.reverse with
        | nil =>
          rw [ends] at last
          cases last
        | cons name behind =>
          have some : name ≠ "" := by
            rintro rfl
            rw [ends] at noSlash
            exact noSlash rfl
          rw [ends, List.dropWhile_cons_of_neg (by simp [some])] at last
          obtain ⟨rfl, rfl⟩ := List.cons.inj last
          rw [List.reverse_eq_cons_iff] at ends
          rw [follow_append] at way
          cases above : t.follow [] behind.reverse with
          | error e =>
            rw [above] at way
            cases way
          | ok folder =>
            rw [above] at way
            have same := eq_of_follow_empty way
            rw [entry] at here
            split at here
            next => cases here
            next fits =>
              refine ⟨behind.reverse, v.name, folder, entries, by rw [split, ends], ⟨some, named⟩, above, ?_,
                Nat.not_lt.1 fits, fun es found => ?_, ?_⟩
              · rw [← same, List.reverse_reverse]
                exact stands
              · rw [← Except.ok.inj here, found] at noFolder
                exact noFolder rfl
              · rw [← Except.ok.inj h, ← same, List.reverse_reverse]
                rfl

/-- A file is found where it was written to. -/
theorem bytes_write {path : String} {bytes : List UInt8} (h : t.write path bytes = .ok t') :
    t'.bytes path = .ok bytes := by
  obtain ⟨parts, name, folder, entries, split, ⟨some, here, up⟩, above, stands, fits, free, same⟩ :=
    exists_of_write h
  have target : ∀ es, t.root.descend? (folder.reverse ++ [name]) ≠ .some (.folder es) := by
    intro es
    rw [FileNode.descend?_append, stands, Option.bind_some, FileNode.descend?]
    cases found : entries.lookup name with
    | none => exact nofun
    | some node =>
      have outside := free es
      rw [found] at outside
      exact outside
  have keeps : t.Keeps t' := by
    rw [same]
    exact fun _ _ found => FileNode.descend?_put target found
  have found : t'.root.descend? (folder.reverse ++ [name]) = .some (.file bytes) := by
    rw [same]
    exact FileNode.descend?_put_self _ _ _
  obtain ⟨entries', stands', -⟩ := keeps _ _ stands
  have last : t'.follow folder [name] = .ok (name :: folder) := by
    rw [FileNode.descend?_append, stands', Option.bind_some, FileNode.descend?] at found
    rw [follow, stands']
    dsimp only
    rw [if_neg (by simp [some, here]), if_neg (by simp [up]), entry, if_neg (Nat.not_lt.2 fits)]
    cases lookup : entries'.lookup name with
    | none =>
      rw [lookup] at found
      cases found
    | some node => rfl
  have names : t'.names path = .ok (folder.reverse ++ [name]) := by
    rw [FileTree.names, split]
    dsimp only [Bind.bind, Except.bind]
    rw [follow_append, follow_of_keeps keeps above]
    dsimp only [Except.bind]
    rw [last]
    exact congrArg Except.ok List.reverse_cons
  rw [FileTree.bytes, node, names]
  dsimp only [Bind.bind, Except.bind]
  rw [found]
  rfl

theorem text_write {path text : String} (h : t.write path (Utf8.encode text) = .ok t') :
    t'.text path = .ok text := by
  rw [FileTree.text, bytes_write h]
  dsimp only [Bind.bind, Except.bind]
  rw [Utf8.decode?_encode]
  rfl

end FileTree

end C3Lens
