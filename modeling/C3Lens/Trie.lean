/-!
# Tries

A trie keeps values under paths of names. A path may have any number of values, in the order
of their insertion. Branches without values are cut off when values are removed.
-/

namespace C3Lens

/-- A trie node: the values of the path that leads to it, and the nodes below. -/
inductive Trie (α : Type) where
  | node (values : List α) (children : List (String × Trie α))

namespace Trie

variable {α : Type}

/-- The trie without values. -/
def empty : Trie α :=
  node [] []

instance : Inhabited (Trie α) := ⟨empty⟩

/-- The values at the node itself. -/
def values : Trie α → List α
  | node vs _ => vs

/-- The nodes directly below. -/
def children : Trie α → List (String × Trie α)
  | node _ cs => cs

/-- Whether the node has neither values nor nodes below. -/
def isEmpty : Trie α → Bool
  | node vs cs => vs.isEmpty && cs.isEmpty

/-- Changes the child of the name; a new one comes last. -/
def updateChild (name : String) (f : Trie α → Trie α) :
    List (String × Trie α) → List (String × Trie α)
  | [] => [(name, f empty)]
  | c :: cs => if c.1 = name then (c.1, f c.2) :: cs else c :: updateChild name f cs

/-- Adds a value behind those of its path. -/
def insert : List String → α → Trie α → Trie α
  | [], a, node vs cs => node (vs ++ [a]) cs
  | name :: path, a, node vs cs => node vs (updateChild name (insert path a) cs)

/-- The node that a path leads to. -/
def descend? : List String → Trie α → Option (Trie α)
  | [], t => some t
  | name :: path, node _ cs =>
    match cs.lookup name with
    | some c => descend? path c
    | none => none

mutual

/-- The values at the node and below. -/
def all : Trie α → List α
  | node vs cs => vs ++ allOfList cs

/-- The values of nodes side by side. -/
def allOfList : List (String × Trie α) → List α
  | [] => []
  | (_, c) :: cs => all c ++ allOfList cs

end

mutual

/-- Removes the values that satisfy `p`, and the branches that become empty. -/
def remove (p : α → Bool) : Trie α → Trie α
  | node vs cs => node (vs.filter fun a => !p a) (removeInList p cs)

/-- The same for nodes side by side. -/
def removeInList (p : α → Bool) : List (String × Trie α) → List (String × Trie α)
  | [] => []
  | (name, c) :: cs =>
    if (remove p c).isEmpty then removeInList p cs else (name, remove p c) :: removeInList p cs

end

mutual

/-- Number of values that satisfy `p`. -/
def countWhere (p : α → Bool) : Trie α → Nat
  | node vs cs => vs.countP p + countWhereInList p cs

/-- The same for nodes side by side. -/
def countWhereInList (p : α → Bool) : List (String × Trie α) → Nat
  | [] => 0
  | (_, c) :: cs => countWhere p c + countWhereInList p cs

end

end Trie

end C3Lens
