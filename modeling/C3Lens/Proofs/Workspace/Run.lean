import Mathlib.Data.List.Induction
import C3Lens.Proofs.Outline.Unit
import C3Lens.Workspace.Basic

/-!
# Runs of a workspace

Everything that changes a workspace is an `Action`. A workspace is reachable if actions lead to it
from the empty one, each of them allowed in the state in which it is done; `Reachable.induct` is
the way to prove an invariant of all of them.
-/

namespace C3Lens

/-- What can be done to a workspace. To load a file or a folder is to load the list of its source
files. -/
inductive Action where
  | openDocument (doc : DocId) (text : String) (version : Int)
  | indexDocument (doc : DocId) (text : String)
  | changeDocument (doc : DocId) (edits : List Edit) (version : Int)
  | refresh (doc : DocId)
  | closeDocument (doc : DocId)
  | deleteDocument (doc : DocId)
  | deleteUnder (directory : String)
  | renameDocument (old new : DocId)
  | renameUnder (old new : String)
  | loadFiles (files : FileTree) (paths : List String)
  | setVersion (files : FileTree) (version : String) (root? cache? : Option String)
  | setReports (reports : Table (List Diagnostic))

namespace Workspace

/-- The workspace after an action. -/
def act (w : Workspace) : Action → Workspace
  | .openDocument doc text version => w.openDocument doc text version
  | .indexDocument doc text => w.indexDocument doc text
  | .changeDocument doc edits version => w.changeDocument doc edits version
  | .refresh doc => w.refresh doc
  | .closeDocument doc => w.closeDocument doc
  | .deleteDocument doc => w.deleteDocument doc
  | .deleteUnder directory => w.deleteUnder directory
  | .renameDocument old new => w.renameDocument old new
  | .renameUnder old new => w.renameUnder old new
  | .loadFiles files paths => (Workspace.loadFiles files paths w).1
  | .setVersion files version root? cache? => (w.setVersion files version root? cache?).1
  | .setReports reports => (w.setReports reports).1

/-- The workspace after actions in order, from the empty one on. -/
def run (actions : List Action) : Workspace :=
  actions.foldl act empty

/-- The workspaces that allowed actions reach from the empty one. -/
inductive Reachable (allowed : Workspace → Action → Prop) : Workspace → Prop where
  | empty : Reachable allowed empty
  | act {w : Workspace} {a : Action} : Reachable allowed w → allowed w a → Reachable allowed (w.act a)

/-- What the empty workspace has and every allowed action keeps, every reachable workspace has. -/
theorem Reachable.induct {allowed : Workspace → Action → Prop} {w : Workspace}
    (h : Reachable allowed w) {P : Workspace → Prop} (start : P Workspace.empty)
    (step : ∀ w a, P w → allowed w a → P (w.act a)) : P w := by
  induction h with
  | empty => exact start
  | act _ ok ih => exact step _ _ ih ok

theorem run_concat (actions : List Action) (a : Action) :
    run (actions ++ [a]) = (run actions).act a := by
  rw [run, List.foldl_append, List.foldl_cons, List.foldl_nil, run]

/-- A run of actions that are allowed in all states reaches its end. -/
theorem reachable_of_forall {allowed : Action → Prop} {actions : List Action}
    (h : ∀ a ∈ actions, allowed a) : Reachable (fun _ a => allowed a) (run actions) := by
  induction actions using List.reverseRecOn with
  | nil => exact .empty
  | append_singleton actions a ih =>
    rw [run_concat]
    exact (ih fun b hb => h b (List.mem_append_left _ hb)).act
      (h a (List.mem_append_right _ (List.mem_singleton_self a)))

/-- Every run reaches its end. -/
theorem reachable_run (actions : List Action) : Reachable (fun _ _ => True) (run actions) :=
  reachable_of_forall fun _ _ => trivial

/-! ## Actions made of others -/

/-- What every refresh of a document with a changed text keeps, loading files keeps. -/
theorem loadFiles_induct {P : Workspace → Prop} {files : FileTree} {paths : List String}
    {w : Workspace} (start : P w)
    (step : ∀ w, P w → ∀ path ∈ paths, ∀ text, P (w.indexDocument (DocId.ofPath path) text)) :
    P (Workspace.loadFiles files paths w).1 := by
  induction paths generalizing w with
  | nil => exact start
  | cons path paths ih =>
    have rest : ∀ w, P w → P (Workspace.loadFiles files paths w).1 := fun w hw =>
      ih hw fun w hw path hp => step w hw path (List.mem_cons_of_mem _ hp)
    unfold Workspace.loadFiles
    split
    next w' loaded =>
      refine rest w' ?_
      rw [loadFile] at loaded
      split at loaded
      · cases loaded
        exact start
      · cases text : files.text path with
        | error e =>
          rw [text] at loaded
          cases loaded
        | ok t =>
          rw [text] at loaded
          cases loaded
          exact step w start path List.mem_cons_self t
    next => exact rest w start

/-- What forgetting a document of a directory keeps, forgetting the directory keeps. -/
theorem deleteUnder_induct {P : Workspace → Prop} {w : Workspace} {directory : String} (start : P w)
    (step : ∀ w', P w' → ∀ doc ∈ w.docsUnder directory, P (w'.deleteDocument doc)) :
    P (w.deleteUnder directory) :=
  List.foldlRecOn _ _ start step

/-- What moving a document of a directory keeps, renaming the directory keeps. -/
theorem renameUnder_induct {P : Workspace → Prop} {w : Workspace} {old new : String} (start : P w)
    (step : ∀ w', P w' → ∀ doc ∈ w.docsUnder (Text.trimRight (· == '/') old),
      P (w'.renameDocument doc ⟨Text.trimRight (· == '/') new ++
        (Text.afterStart? (Text.trimRight (· == '/') old) doc.text).getD ""⟩)) :
    P (w.renameUnder old new) :=
  List.foldlRecOn _ _ start step

/-- What putting and reading documents, closing, deleting and moving them, loading a library and taking
reports of the compiler keep, every action keeps. -/
theorem act_keeps {P : Workspace → Prop} {w : Workspace} {a : Action}
    (put : ∀ w d, d.parse = Parse.ofString d.text → d.lines = LineTable.ofString d.text → P w →
      P (w.setDocument d))
    (refresh : ∀ w doc, P w → P (w.refresh doc)) (close : ∀ w doc, P w → P (w.closeDocument doc))
    (forget : ∀ w doc, P w → P (w.deleteDocument doc)) (move : ∀ w old new, P w → P (w.renameDocument old new))
    (load : ∀ w files version root? cache?, a = .setVersion files version root? cache? → P w →
      P (w.setVersion files version root? cache?).1)
    (report : ∀ w reports, P w → P (w.setReports reports).1) (h : P w) : P (w.act a) := by
  have index : ∀ (w : Workspace) doc text, P w → P (w.indexDocument doc text) := by
    intro w doc text h
    rw [indexDocument]
    split
    · exact h
    · exact refresh _ _ (put w _ rfl rfl h)
  cases a with
  | openDocument doc text version => exact refresh _ _ (put w _ rfl rfl h)
  | indexDocument doc text => exact index w doc text h
  | changeDocument doc edits version =>
    rw [act, changeDocument]
    split
    · exact h
    · exact refresh _ _ (put w _ rfl rfl h)
  | refresh doc => exact refresh w doc h
  | closeDocument doc => exact close w doc h
  | deleteDocument doc => exact forget w doc h
  | deleteUnder directory => exact deleteUnder_induct h fun w h doc _ => forget w doc h
  | renameDocument old new => exact move w old new h
  | renameUnder old new => exact renameUnder_induct h fun w h doc _ => move w doc _ h
  | loadFiles files paths => exact loadFiles_induct h fun w hw path _ text => index w _ text hw
  | setVersion files version root? cache? => exact load w files version root? cache? rfl h
  | setReports reports => exact report w reports h

/-- A document with a known id is refreshed by putting it in its own place first. -/
theorem setDocument_of_document? {w : Workspace} {doc : DocId} {d : Document}
    (h : w.document? doc = some d) (id : d.id = doc) : w.setDocument d = w := by
  rw [setDocument, id, Table.insert_get? h]

/-- Refreshing a document that is there. -/
theorem refresh_of_document? {w : Workspace} {doc : DocId} {d : Document}
    (h : w.document? doc = some d) :
    w.refresh doc =
      { w with
        names := (w.names.clear doc).insertUnit (outline doc d.lines d.parse.tree).1
        symbols := w.symbols.register (outline doc d.lines d.parse.tree).1
          (outline doc d.lines d.parse.tree).2 } := by
  rw [refresh, h]

/-- Refreshing a document that was just put in its place. -/
theorem refresh_setDocument (w : Workspace) (d : Document) :
    (w.setDocument d).refresh d.id =
      { w with
        documents := w.documents.insert d.id.text d
        names := (w.names.clear d.id).insertUnit (outline d.id d.lines d.parse.tree).1
        symbols := w.symbols.register (outline d.id d.lines d.parse.tree).1
          (outline d.id d.lines d.parse.tree).2 } := by
  have found : (w.setDocument d).document? d.id = some d := Table.get?_insert_self _ _ _
  rw [refresh_of_document? found]
  rfl

/-! ## Moved documents -/

section Moves

variable {w : Workspace} {old new : DocId}

theorem unit?_renameDocument {u : SourceUnit} (unit : w.symbols.unit? old = some u) :
    (w.renameDocument old new).symbols.unit? new = some (u.setDoc new) := by
  show (w.symbols.rename old new).unit? new = _
  rw [SymbolStore.rename, unit]
  exact Table.get?_insert_self _ _ _

theorem names_renameDocument {u : SourceUnit} (unit : w.symbols.unit? old = some u) :
    (w.renameDocument old new).names = (w.names.clear old).insertUnit (u.setDoc new) := by
  have contains : w.symbols.contains old = true :=
    Table.contains_iff.2 (Table.mem_names_iff.2 ⟨u, unit⟩)
  have moved : (w.symbols.rename old new).unit? new = some (u.setDoc new) := unit?_renameDocument unit
  rw [renameDocument]
  dsimp only
  rw [contains, if_pos rfl, moved]
  rfl

theorem names_renameDocument_of_none (unit : w.symbols.unit? old = none) :
    (w.renameDocument old new).names = w.names.clear old := by
  have contains : w.symbols.contains old = false := by
    rw [← Bool.not_eq_true, SymbolStore.contains, Table.contains_iff]
    exact Table.get?_eq_none_iff.1 unit
  rw [renameDocument]
  dsimp only
  rw [contains, if_neg Bool.false_ne_true]

end Moves

/-! ## Actions on symbols and names -/

/-- What reading a text, forgetting a document, moving one and loading a library keep of the symbols
and the names, every action keeps. -/
theorem act_induct {P : SymbolStore → NameIndex → Prop}
    (read : ∀ s names doc lines tree, P s names →
      P (s.register (outline doc lines tree).1 (outline doc lines tree).2)
        ((names.clear doc).insertUnit (outline doc lines tree).1))
    (forget : ∀ s names doc, P s names → P (s.delete doc) (names.clear doc))
    (move : ∀ (w : Workspace) old new, P w.symbols w.names →
      P (w.renameDocument old new).symbols (w.renameDocument old new).names)
    (load : ∀ s names (l : Library.Loaded), P s names →
      P (s.register l.unit l.pending) (names.insertUnit l.unit))
    {w : Workspace} (h : P w.symbols w.names) (a : Action) : P (w.act a).symbols (w.act a).names := by
  refine act_keeps (P := fun w => P w.symbols w.names) (fun _ _ _ _ h => h) ?_ (fun _ _ h => h)
    (fun w doc h => forget _ _ doc h) move ?_ (fun _ _ h => h) h
  · intro w doc h
    rw [Workspace.refresh]
    split
    · exact h
    · exact read _ _ doc _ _ h
  · intro w files version root? cache? _ h
    have dropped : P w.dropLibrary.symbols w.dropLibrary.names := by
      rw [dropLibrary]
      split
      · exact h
      next doc _ => exact forget _ _ doc h
    exact load _ _ _ dropped

end Workspace

end C3Lens
