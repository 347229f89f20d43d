import C3Lens.Proofs.Table
import C3Lens.Trie

/-!
# Tries as multisets and as multimaps

A trie is seen in two ways: through all its values, in which their paths do not count, and
through the values at one path.

* `all_insert_perm`, `all_remove`, `countWhere_eq`: all values.
* `valuesAt_insert`, `valuesAt_remove`: the values at a path. The second needs that the names
  of the nodes below a node are distinct (`Distinct`), which both operations keep.
* `filter_all_descend`: where every value has its path as a key (`KeyedFrom`), the values below a
  path are those of all values whose keys go on behind the path.

Both operations keep a trie without dead branches (`pruned_insert`, `pruned_remove`).
-/

namespace C3Lens.Trie

variable {α : Type}

/-! ## All values -/

@[simp] theorem all_empty : (empty : Trie α).all = [] := by
  simp [empty, all, allOfList]

theorem allOfList_updateChild_perm {name : String} {a : α} {f : Trie α → Trie α}
    (hf : ∀ t, (f t).all.Perm (a :: t.all)) (cs : List (String × Trie α)) :
    (allOfList (updateChild name f cs)).Perm (a :: allOfList cs) := by
  induction cs with
  | nil => simpa [updateChild, allOfList] using hf empty
  | cons c cs ih =>
    obtain ⟨key, c⟩ := c
    rw [updateChild]
    split
    · simp only [allOfList]
      exact (hf c).append_right _
    · simp only [allOfList]
      exact (ih.append_left _).trans List.perm_middle

theorem all_insert_perm (path : List String) (a : α) (t : Trie α) :
    (insert path a t).all.Perm (a :: t.all) := by
  induction path generalizing t with
  | nil =>
    obtain ⟨vs, cs⟩ := t
    simp only [insert, all, List.append_assoc]
    exact List.perm_middle
  | cons name path ih =>
    obtain ⟨vs, cs⟩ := t
    simp only [insert, all]
    exact ((allOfList_updateChild_perm ih cs).append_left vs).trans List.perm_middle

theorem all_eq_nil_of_isEmpty {t : Trie α} (h : t.isEmpty = true) : t.all = [] := by
  obtain ⟨vs, cs⟩ := t
  rw [isEmpty, Bool.and_eq_true, List.isEmpty_iff, List.isEmpty_iff] at h
  rw [h.1, h.2]
  rfl

mutual

theorem all_remove (p : α → Bool) (t : Trie α) : (remove p t).all = t.all.filter fun a => !p a := by
  obtain ⟨vs, cs⟩ := t
  rw [remove, all, all, List.filter_append, allOfList_removeInList p cs]

theorem allOfList_removeInList (p : α → Bool) (cs : List (String × Trie α)) :
    allOfList (removeInList p cs) = (allOfList cs).filter fun a => !p a := by
  match cs with
  | [] => rfl
  | (name, c) :: cs =>
    rw [removeInList, allOfList, List.filter_append, ← all_remove p c, ← allOfList_removeInList p cs]
    split
    next h => rw [all_eq_nil_of_isEmpty h, List.nil_append]
    next => rw [allOfList]

end

mutual

theorem countWhere_eq (p : α → Bool) (t : Trie α) : t.countWhere p = t.all.countP p := by
  obtain ⟨vs, cs⟩ := t
  rw [countWhere, all, List.countP_append, countWhereInList_eq p cs]

theorem countWhereInList_eq (p : α → Bool) (cs : List (String × Trie α)) :
    countWhereInList p cs = (allOfList cs).countP p := by
  match cs with
  | [] => rfl
  | (name, c) :: cs =>
    rw [countWhereInList, allOfList, List.countP_append, countWhere_eq p c, countWhereInList_eq p cs]

end

/-! ## Distinct names -/

mutual

/-- Below each node the names of the nodes are distinct. -/
def Distinct : Trie α → Prop
  | node _ cs => (cs.map Prod.fst).Nodup ∧ DistinctInList cs

/-- The same for nodes side by side. -/
def DistinctInList : List (String × Trie α) → Prop
  | [] => True
  | (_, c) :: cs => Distinct c ∧ DistinctInList cs

end

theorem distinct_empty : (empty : Trie α).Distinct := by
  simp [empty, Distinct, DistinctInList]

theorem names_updateChild (name : String) (f : Trie α → Trie α) (cs : List (String × Trie α)) :
    (updateChild name f cs).map Prod.fst =
      if name ∈ cs.map Prod.fst then cs.map Prod.fst else cs.map Prod.fst ++ [name] := by
  induction cs with
  | nil => rfl
  | cons c cs ih =>
    rw [updateChild]
    by_cases h : c.1 = name
    · simp [h]
    · have hne : ¬ name = c.1 := fun eq => h eq.symm
      rw [if_neg h, List.map_cons, ih, List.map_cons]
      by_cases hm : name ∈ cs.map Prod.fst
      · rw [if_pos hm, if_pos (List.mem_cons_of_mem _ hm)]
      · rw [if_neg hm, if_neg (by rw [List.mem_cons, not_or]; exact ⟨hne, hm⟩)]
        rfl

theorem distinctInList_updateChild {name : String} {f : Trie α → Trie α}
    (hf : ∀ t, Distinct t → Distinct (f t)) {cs : List (String × Trie α)} (h : DistinctInList cs) :
    DistinctInList (updateChild name f cs) := by
  induction cs with
  | nil => exact ⟨hf _ distinct_empty, trivial⟩
  | cons c cs ih =>
    obtain ⟨key, c⟩ := c
    rw [updateChild]
    split
    · exact ⟨hf _ h.1, h.2⟩
    · exact ⟨h.1, ih h.2⟩

theorem distinct_insert (path : List String) (a : α) {t : Trie α} (h : t.Distinct) :
    (insert path a t).Distinct := by
  induction path generalizing t with
  | nil =>
    obtain ⟨vs, cs⟩ := t
    exact h
  | cons name path ih =>
    obtain ⟨vs, cs⟩ := t
    refine ⟨?_, distinctInList_updateChild (fun _ => ih) h.2⟩
    rw [names_updateChild]
    split
    next => exact h.1
    next hn => exact List.nodup_append.2 ⟨h.1, List.nodup_singleton name, by grind⟩

theorem names_removeInList (p : α → Bool) (cs : List (String × Trie α)) :
    ((removeInList p cs).map Prod.fst).Sublist (cs.map Prod.fst) := by
  induction cs with
  | nil => exact List.Sublist.slnil
  | cons c cs ih =>
    rw [removeInList]
    split
    · exact ih.cons _
    · exact ih.cons_cons _

mutual

theorem distinct_remove (p : α → Bool) {t : Trie α} (h : t.Distinct) : (remove p t).Distinct := by
  match t with
  | node vs cs => exact ⟨h.1.sublist (names_removeInList p cs), distinctInList_removeInList p h.2⟩

theorem distinctInList_removeInList (p : α → Bool) {cs : List (String × Trie α)}
    (h : DistinctInList cs) : DistinctInList (removeInList p cs) := by
  match cs with
  | [] => trivial
  | (name, c) :: cs =>
    rw [removeInList]
    split
    · exact distinctInList_removeInList p h.2
    · exact ⟨distinct_remove p h.1, distinctInList_removeInList p h.2⟩

end

/-! ## Dead branches -/

/-- The first trie is a node of the second, and not its root. -/
inductive IsBelow : Trie α → Trie α → Prop
  | child {name : String} {c : Trie α} {vs : List α} {cs : List (String × Trie α)} (mem : (name, c) ∈ cs) :
    IsBelow c (node vs cs)
  | deeper {name : String} {s c : Trie α} {vs : List α} {cs : List (String × Trie α)} (mem : (name, c) ∈ cs) :
    IsBelow s c → IsBelow s (node vs cs)

/-- Every node but the root leads to a value. -/
def Pruned (t : Trie α) : Prop :=
  ∀ s : Trie α, s.IsBelow t → s.all ≠ []

theorem pruned_node_iff {vs : List α} {cs : List (String × Trie α)} :
    (node vs cs).Pruned ↔ ∀ e ∈ cs, e.2.all ≠ [] ∧ e.2.Pruned := by
  constructor
  · exact fun h e mem => ⟨h e.2 (.child mem), fun s below => h s (.deeper mem below)⟩
  · intro h s below
    cases below with
    | child mem => exact (h _ mem).1
    | deeper mem below => exact (h _ mem).2 s below

theorem pruned_empty : (empty : Trie α).Pruned :=
  pruned_node_iff.2 nofun

/-- Without dead branches a trie has values unless it has nothing at all. -/
theorem Pruned.all_ne_nil {t : Trie α} (h : t.Pruned) (some : t.isEmpty = false) : t.all ≠ [] := by
  obtain ⟨vs, cs⟩ := t
  intro none
  obtain ⟨here, below⟩ := List.append_eq_nil_iff.1 (none : vs ++ allOfList cs = [])
  cases cs with
  | nil =>
    rw [here] at some
    cases some
  | cons e cs => exact (pruned_node_iff.1 h e List.mem_cons_self).1 (List.append_eq_nil_iff.1 below).1

theorem mem_updateChild {name : String} {f : Trie α → Trie α} {cs : List (String × Trie α)} {e : String × Trie α}
    (mem : e ∈ updateChild name f cs) : e ∈ cs ∨ ∃ c, e.2 = f c ∧ ((name, c) ∈ cs ∨ c = empty) := by
  induction cs with
  | nil =>
    rw [updateChild, List.mem_singleton] at mem
    exact .inr ⟨empty, congrArg Prod.snd mem, .inr rfl⟩
  | cons d cs ih =>
    obtain ⟨key, d⟩ := d
    rw [updateChild] at mem
    split at mem
    next same =>
      rcases List.mem_cons.1 mem with rfl | later
      · exact .inr ⟨d, rfl, .inl (same ▸ List.mem_cons_self)⟩
      · exact .inl (List.mem_cons_of_mem _ later)
    next =>
      rcases List.mem_cons.1 mem with rfl | later
      · exact .inl List.mem_cons_self
      · exact (ih later).imp (List.mem_cons_of_mem _) fun ⟨c, changed, found⟩ =>
          ⟨c, changed, found.imp_left (List.mem_cons_of_mem _)⟩

theorem all_insert_ne_nil (path : List String) (a : α) (t : Trie α) : (insert path a t).all ≠ [] := by
  intro none
  have perm := all_insert_perm path a t
  rw [none] at perm
  exact List.cons_ne_nil _ _ perm.nil_eq.symm

theorem pruned_insert (path : List String) (a : α) {t : Trie α} (h : t.Pruned) : (insert path a t).Pruned := by
  induction path generalizing t with
  | nil =>
    obtain ⟨vs, cs⟩ := t
    exact pruned_node_iff.2 (pruned_node_iff.1 h)
  | cons name path ih =>
    obtain ⟨vs, cs⟩ := t
    have before := pruned_node_iff.1 h
    refine pruned_node_iff.2 fun e mem => ?_
    obtain old | ⟨c, changed, found⟩ := mem_updateChild mem
    · exact before e old
    · have pruned : c.Pruned := by
        rcases found with there | rfl
        · exact (before _ there).2
        · exact pruned_empty
      rw [changed]
      exact ⟨all_insert_ne_nil path a c, ih pruned⟩

mutual

/-- Whatever the trie was like, removing leaves no dead branches. -/
theorem pruned_remove (p : α → Bool) (t : Trie α) : (remove p t).Pruned := by
  match t with
  | node vs cs => exact pruned_node_iff.2 (pruned_removeInList p cs)

theorem pruned_removeInList (p : α → Bool) (cs : List (String × Trie α)) :
    ∀ e ∈ removeInList p cs, e.2.all ≠ [] ∧ e.2.Pruned := by
  match cs with
  | [] => exact nofun
  | (name, c) :: cs =>
    have pruned := pruned_remove p c
    rw [removeInList]
    split
    next => exact pruned_removeInList p cs
    next kept =>
      exact List.forall_mem_cons.2 ⟨⟨pruned.all_ne_nil (Bool.eq_false_iff.2 kept), pruned⟩, pruned_removeInList p cs⟩

end

/-! ## The values at a path -/

/-- The values at a path; there are none where the path leads nowhere. -/
def valuesAt (path : List String) (t : Trie α) : List α :=
  ((t.descend? path).map values).getD []

@[simp] theorem valuesAt_nil (vs : List α) (cs : List (String × Trie α)) :
    (node vs cs).valuesAt [] = vs := rfl

theorem valuesAt_cons (name : String) (path : List String) (vs : List α)
    (cs : List (String × Trie α)) :
    (node vs cs).valuesAt (name :: path) = ((cs.lookup name).map (valuesAt path)).getD [] := by
  rw [valuesAt, descend?]
  cases cs.lookup name <;> rfl

@[simp] theorem valuesAt_empty (path : List String) : (empty : Trie α).valuesAt path = [] := by
  cases path <;> rfl

theorem lookup_updateChild (name key : String) (f : Trie α → Trie α) (cs : List (String × Trie α)) :
    (updateChild name f cs).lookup key =
      if key = name then some (f ((cs.lookup name).getD empty)) else cs.lookup key := by
  induction cs with
  | nil =>
    rw [updateChild, Table.lookup_cons_eq_ite]
    rfl
  | cons c cs ih =>
    rw [updateChild, Table.lookup_cons_eq_ite c cs name]
    by_cases h : c.1 = name
    · rw [if_pos h, if_pos h.symm, Table.lookup_cons_eq_ite, Table.lookup_cons_eq_ite, h]
      by_cases hk : key = name
      · rw [if_pos hk, if_pos hk]
        rfl
      · rw [if_neg hk, if_neg hk, if_neg hk]
    · rw [if_neg h, if_neg (Ne.symm h), Table.lookup_cons_eq_ite, Table.lookup_cons_eq_ite, ih]
      by_cases hk : key = c.1
      · rw [if_pos hk, if_pos hk, hk, if_neg h]
      · rw [if_neg hk, if_neg hk]

theorem valuesAt_insert (path at' : List String) (a : α) (t : Trie α) :
    (insert path a t).valuesAt at' =
      if at' = path then t.valuesAt at' ++ [a] else t.valuesAt at' := by
  induction path generalizing t at' with
  | nil =>
    obtain ⟨vs, cs⟩ := t
    cases at' with
    | nil => simp [insert]
    | cons key rest => simp [insert, valuesAt_cons]
  | cons name path ih =>
    obtain ⟨vs, cs⟩ := t
    cases at' with
    | nil => simp [insert]
    | cons key rest =>
      rw [insert, valuesAt_cons, valuesAt_cons, lookup_updateChild]
      by_cases hk : key = name
      · subst hk
        rw [if_pos rfl, Option.map_some, Option.getD_some, ih]
        cases cs.lookup key <;> simp
      · rw [if_neg hk, if_neg (fun eq => hk (List.cons.inj eq).1)]

theorem valuesAt_of_isEmpty {t : Trie α} (h : t.isEmpty = true) (path : List String) :
    t.valuesAt path = [] := by
  obtain ⟨vs, cs⟩ := t
  rw [isEmpty, Bool.and_eq_true, List.isEmpty_iff, List.isEmpty_iff] at h
  rw [h.1, h.2]
  exact valuesAt_empty path

/-- Of nodes with distinct names, removal cuts off the one of a name or leaves what it keeps. -/
theorem lookup_removeInList (p : α → Bool) (key : String) {cs : List (String × Trie α)}
    (h : (cs.map Prod.fst).Nodup) :
    (removeInList p cs).lookup key =
      (cs.lookup key).bind fun c => if (remove p c).isEmpty then none else some (remove p c) := by
  induction cs with
  | nil => rfl
  | cons c cs ih =>
    obtain ⟨name, c⟩ := c
    rw [List.map_cons, List.nodup_cons] at h
    rw [removeInList, Table.lookup_cons_eq_ite]
    by_cases hk : key = name
    · subst hk
      have absent : (removeInList p cs).lookup key = none := by
        rw [List.lookup_eq_none_iff]
        intro e he
        have member := (names_removeInList p cs).subset (List.mem_map_of_mem he)
        exact bne_iff_ne.2 fun eq => h.1 (eq ▸ member)
      rw [if_pos rfl, Option.bind_some]
      split
      · exact absent
      · exact List.lookup_cons_self
    · rw [if_neg hk, ← ih h.2]
      split
      · rfl
      · rw [Table.lookup_cons_eq_ite, if_neg hk]

theorem distinct_of_lookup {key : String} {c : Trie α} {cs : List (String × Trie α)}
    (h : DistinctInList cs) (found : cs.lookup key = some c) : c.Distinct := by
  induction cs with
  | nil => cases found
  | cons e cs ih =>
    obtain ⟨name, d⟩ := e
    rw [Table.lookup_cons_eq_ite] at found
    split at found
    · cases found
      exact h.1
    · exact ih h.2 found

theorem valuesAt_remove (p : α → Bool) (path : List String) {t : Trie α} (h : t.Distinct) :
    (remove p t).valuesAt path = (t.valuesAt path).filter fun a => !p a := by
  induction path generalizing t with
  | nil =>
    obtain ⟨vs, cs⟩ := t
    rfl
  | cons name path ih =>
    obtain ⟨vs, cs⟩ := t
    rw [remove, valuesAt_cons, valuesAt_cons, lookup_removeInList p name h.1]
    cases found : cs.lookup name with
    | none => rfl
    | some c =>
      have below := ih (distinct_of_lookup h.2 found)
      rw [Option.bind_some, Option.map_some, Option.getD_some, ← below]
      split
      next cut => rw [valuesAt_of_isEmpty cut, Option.map_none, Option.getD_none]
      next => rfl

/-! ## The values below a path -/

theorem mem_allOfList {a : α} {cs : List (String × Trie α)} :
    a ∈ allOfList cs ↔ ∃ name c, (name, c) ∈ cs ∧ a ∈ c.all := by
  induction cs with
  | nil => simp [allOfList]
  | cons e cs ih =>
    obtain ⟨key, d⟩ := e
    rw [allOfList, List.mem_append, ih]
    constructor
    · rintro (here | ⟨name, c, hc, ha⟩)
      · exact ⟨key, d, List.mem_cons_self, here⟩
      · exact ⟨name, c, List.mem_cons_of_mem _ hc, ha⟩
    · rintro ⟨name, c, hc, ha⟩
      rcases List.mem_cons.1 hc with same | hc
      · cases same
        exact .inl ha
      · exact .inr ⟨name, c, hc, ha⟩

/-- What stands at a path is in the trie. -/
theorem mem_all_of_mem_valuesAt {a : α} {path : List String} {t : Trie α} (ha : a ∈ t.valuesAt path) :
    a ∈ t.all := by
  induction path generalizing t with
  | nil =>
    obtain ⟨vs, cs⟩ := t
    exact List.mem_append_left _ ha
  | cons name path ih =>
    obtain ⟨vs, cs⟩ := t
    rw [valuesAt_cons] at ha
    cases found : cs.lookup name with
    | none =>
      rw [found] at ha
      cases ha
    | some c =>
      rw [found] at ha
      obtain ⟨before, after, rfl, -⟩ := List.lookup_eq_some_iff.1 found
      refine List.mem_append_right vs (mem_allOfList.2 ⟨name, c, ?_, ih ha⟩)
      exact List.mem_append_right _ List.mem_cons_self

theorem mem_iff_lookup {name : String} {c : Trie α} {cs : List (String × Trie α)}
    (distinct : (cs.map Prod.fst).Nodup) : (name, c) ∈ cs ↔ cs.lookup name = some c :=
  @Table.mem_entries_iff _ ⟨cs, distinct⟩ name c

mutual

/-- What is in the trie stands at some path. -/
theorem exists_mem_valuesAt {a : α} {t : Trie α} (distinct : t.Distinct) (ha : a ∈ t.all) :
    ∃ path, a ∈ t.valuesAt path := by
  match t with
  | node vs cs =>
    rcases List.mem_append.1 ha with here | below
    · exact ⟨[], here⟩
    · obtain ⟨name, c, hc, path, there⟩ := exists_mem_valuesAt_of_allOfList distinct.2 below
      refine ⟨name :: path, ?_⟩
      rw [valuesAt_cons, (mem_iff_lookup distinct.1).1 hc]
      exact there

/-- The same for nodes side by side. -/
theorem exists_mem_valuesAt_of_allOfList {a : α} {cs : List (String × Trie α)} (distinct : DistinctInList cs)
    (ha : a ∈ allOfList cs) : ∃ name c, (name, c) ∈ cs ∧ ∃ path, a ∈ c.valuesAt path := by
  match cs with
  | [] => cases ha
  | (name, c) :: cs =>
    rcases List.mem_append.1 ha with here | there
    · exact ⟨name, c, List.mem_cons_self, exists_mem_valuesAt distinct.1 here⟩
    · obtain ⟨name, c, hc, path, below⟩ := exists_mem_valuesAt_of_allOfList distinct.2 there
      exact ⟨name, c, List.mem_cons_of_mem _ hc, path, below⟩

end

section Keyed

variable {key : α → List String} {base : List String}

/-- Of every value in the trie the key is its path behind `base`. -/
def KeyedFrom (key : α → List String) (base : List String) (t : Trie α) : Prop :=
  ∀ path, ∀ a ∈ t.valuesAt path, key a = base ++ path

theorem KeyedFrom.child {vs : List α} {cs : List (String × Trie α)} (h : (node vs cs).KeyedFrom key base)
    (distinct : (cs.map Prod.fst).Nodup) {name : String} {c : Trie α} (hc : (name, c) ∈ cs) :
    c.KeyedFrom key (base ++ [name]) := by
  intro path a ha
  rw [List.append_assoc, List.singleton_append]
  refine h (name :: path) a ?_
  rw [valuesAt_cons, (mem_iff_lookup distinct).1 hc]
  exact ha

mutual

theorem prefix_of_mem_all {base : List String} {t : Trie α} (distinct : t.Distinct)
    (h : t.KeyedFrom key base) {a : α} (ha : a ∈ t.all) : base <+: key a := by
  match t with
  | node vs cs =>
    rcases List.mem_append.1 ha with here | below
    · exact ⟨[], (h [] a here).symm⟩
    · obtain ⟨name, more⟩ := prefix_of_mem_allOfList distinct.2 (fun name c hc => h.child distinct.1 hc) below
      exact (List.prefix_append base [name]).trans more

/-- Below a node the key begins with the name of one of the nodes there. -/
theorem prefix_of_mem_allOfList {base : List String} {cs : List (String × Trie α)} (distinct : DistinctInList cs)
    (h : ∀ name c, (name, c) ∈ cs → c.KeyedFrom key (base ++ [name])) {a : α} (ha : a ∈ allOfList cs) :
    ∃ name, base ++ [name] <+: key a := by
  match cs with
  | [] => cases ha
  | (name, c) :: cs =>
    rcases List.mem_append.1 ha with here | there
    · exact ⟨name, prefix_of_mem_all distinct.1 (h name c List.mem_cons_self) here⟩
    · exact prefix_of_mem_allOfList distinct.2 (fun name c hc => h name c (List.mem_cons_of_mem _ hc)) there

end

/-- Of what is below nodes side by side, a property that only asks for the next name keeps whole
nodes. -/
theorem filter_allOfList {p : α → Bool} {q : String → Bool} {cs : List (String × Trie α)}
    (h : ∀ name c, (name, c) ∈ cs → ∀ a ∈ c.all, p a = q name) :
    (allOfList cs).filter p = (cs.filter (q ·.1)).flatMap (·.2.all) := by
  induction cs with
  | nil => rfl
  | cons e cs ih =>
    obtain ⟨name, c⟩ := e
    have here := h name c List.mem_cons_self
    rw [allOfList, List.filter_append, ih fun name c hc => h name c (List.mem_cons_of_mem _ hc),
      List.filter_cons]
    cases keeps : q name with
    | true =>
      have all : c.all.filter p = c.all := List.filter_eq_self.2 fun a ha => (here a ha).trans keeps
      rw [all]
      rfl
    | false =>
      have none : c.all.filter p = [] :=
        List.filter_eq_nil_iff.2 fun a ha => Bool.eq_false_iff.1 ((here a ha).trans keeps)
      rw [none]
      rfl

/-- A property of values whose keys go on keeps nothing of the node itself. -/
theorem filter_all_node {p : α → Bool} {vs : List α} {cs : List (String × Trie α)}
    (h : (node vs cs).KeyedFrom key base) (longer : ∀ a, p a = true → key a ≠ base) :
    (node vs cs).all.filter p = (allOfList cs).filter p := by
  have ends : vs.filter p = [] := List.filter_eq_nil_iff.2 fun a ha more =>
    longer a more ((h [] a ha).trans (List.append_nil base))
  rw [all, List.filter_append, ends, List.nil_append]

/-- The values whose keys go on with a name that satisfies `q` are those below such names. -/
theorem filter_all_children {p : α → Bool} {q : String → Bool} {t : Trie α} (distinct : t.Distinct)
    (h : t.KeyedFrom key base)
    (hp : ∀ a, p a = true ↔ ∃ next rest, key a = base ++ next :: rest ∧ q next = true) :
    t.all.filter p = (t.children.filter (q ·.1)).flatMap (·.2.all) := by
  obtain ⟨vs, cs⟩ := t
  have longer : ∀ a, p a = true → key a ≠ base := by
    intro a more
    obtain ⟨next, rest, whole, -⟩ := (hp a).1 more
    simp [whole]
  rw [filter_all_node h longer]
  refine filter_allOfList fun name c hc a ha => ?_
  have below := distinct_of_lookup distinct.2 ((mem_iff_lookup distinct.1).1 hc)
  obtain ⟨rest, whole⟩ := prefix_of_mem_all below (h.child distinct.1 hc) ha
  rw [List.append_assoc, List.singleton_append] at whole
  rw [Bool.eq_iff_iff, hp a]
  constructor
  · rintro ⟨next, rest', whole', keeps⟩
    cases List.append_cancel_left (whole.trans whole')
    exact keeps
  · exact fun keeps => ⟨name, rest, whole.symm, keeps⟩

/-- A property that asks for one name keeps nothing below the other names. -/
theorem filter_allOfList_lookup {p : α → Bool} {name : String} {cs : List (String × Trie α)}
    (distinct : (cs.map Prod.fst).Nodup)
    (other : ∀ key c, (key, c) ∈ cs → key ≠ name → ∀ a ∈ c.all, p a = false) :
    (allOfList cs).filter p = ((cs.lookup name).map fun c => c.all.filter p).getD [] := by
  have dropped : ∀ {ds : List (String × Trie α)}, (∀ e ∈ ds, e ∈ cs) → name ∉ ds.map Prod.fst →
      (allOfList ds).filter p = [] := by
    intro ds sub absent
    refine List.filter_eq_nil_iff.2 fun a ha => ?_
    obtain ⟨key, c, hc, below⟩ := mem_allOfList.1 ha
    have ne : key ≠ name := fun same => absent (List.mem_map.2 ⟨(key, c), hc, same⟩)
    exact Bool.eq_false_iff.1 (other key c (sub _ hc) ne a below)
  induction cs with
  | nil => rfl
  | cons e cs ih =>
    obtain ⟨key, c⟩ := e
    rw [List.map_cons, List.nodup_cons] at distinct
    rw [allOfList, List.filter_append, Table.lookup_cons_eq_ite]
    by_cases same : name = key
    · subst same
      rw [if_pos rfl, dropped (fun e he => List.mem_cons_of_mem _ he) distinct.1, List.append_nil]
      rfl
    · have none : c.all.filter p = [] := List.filter_eq_nil_iff.2 fun a ha =>
        Bool.eq_false_iff.1 (other key c List.mem_cons_self (Ne.symm same) a ha)
      rw [if_neg same, none, List.nil_append]
      exact ih distinct.2 (fun key c hc => other key c (List.mem_cons_of_mem _ hc))
        fun sub => dropped fun e he => List.mem_cons_of_mem _ (sub e he)

/-- The values whose keys go on behind a path, with a name that satisfies `q`, are those below such
names at the node that the path leads to. -/
theorem filter_all_descend {p : α → Bool} {q : String → Bool} (path : List String) {base : List String}
    {t : Trie α} (distinct : t.Distinct) (h : t.KeyedFrom key base)
    (hp : ∀ a, p a = true ↔ ∃ next rest, key a = base ++ path ++ next :: rest ∧ q next = true) :
    t.all.filter p =
      ((t.descend? path).map fun s => (s.children.filter (q ·.1)).flatMap (·.2.all)).getD [] := by
  induction path generalizing base t with
  | nil =>
    rw [List.append_nil] at hp
    exact filter_all_children distinct h hp
  | cons name path ih =>
    obtain ⟨vs, cs⟩ := t
    have longer : ∀ a, p a = true → key a ≠ base := by
      intro a more
      obtain ⟨next, rest, whole, -⟩ := (hp a).1 more
      simp [whole]
    have other : ∀ key c, (key, c) ∈ cs → key ≠ name → ∀ a ∈ c.all, p a = false := by
      intro key c hc ne a ha
      refine Bool.eq_false_iff.2 fun keeps => ne ?_
      have below := distinct_of_lookup distinct.2 ((mem_iff_lookup distinct.1).1 hc)
      obtain ⟨rest, whole⟩ := prefix_of_mem_all below (h.child distinct.1 hc) ha
      obtain ⟨next, rest', whole', -⟩ := (hp a).1 keeps
      rw [← whole, List.append_assoc, List.append_assoc] at whole'
      exact (List.cons.inj (List.append_cancel_left whole')).1
    rw [filter_all_node h longer, filter_allOfList_lookup distinct.1 other, descend?]
    cases found : cs.lookup name with
    | none => rfl
    | some c =>
      have hc := h.child distinct.1 ((mem_iff_lookup distinct.1).2 found)
      rw [Option.map_some, Option.getD_some]
      refine ih (distinct_of_lookup distinct.2 found) hc fun a => ?_
      rw [hp a, List.append_assoc base [name], List.singleton_append]

end Keyed

end C3Lens.Trie
