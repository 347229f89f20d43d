import Mathlib.Data.List.Induction
import C3Lens.Proofs.Table
import C3Lens.Service.Notice

/-!
# Problems that the editor shows

The editor shows for each file what was announced last about its URL (`shown`); the service keeps
one table with the reports of the last round of the compiler. Documents that were deleted or moved
lose or change their place in that table.

* `shown_is_reported`: if the editor shows problems of a file, there is a report in the table under
  a name that leads to the URL of the file, and the next round that has no such name clears them;
  or a deletion or a move took that report away (`TakenAway`).
* `stale_after_deletion`: in the second case the problems stay as they are, because nothing is
  announced when a report is taken away and no later round knows that it has been there.

**Names and URLs.** A name is said to lead to a URL rather than to be one: the file `../b.c3` that
the compiler reports has `file:///ws/../b.c3` for its name, and its problems are announced at
`file:///b.c3`.
-/

namespace C3Lens

/-! ## What is shown -/

/-- The problems that an announcement tells about a URL. -/
def Announcement.about? (uri : String) : Announcement → Option (List Problem)
  | .problems url found => if url.text = uri then some found else none
  | _ => none

/-- All that was told about a URL, in order. -/
def told (uri : String) (said : List Announcement) : List (List Problem) :=
  said.filterMap (·.about? uri)

/-- What the editor shows at a URL: what was told about it last. -/
def shown (uri : String) (said : List Announcement) : List Problem :=
  (told uri said).getLast?.getD []

theorem told_append (uri : String) (said more : List Announcement) :
    told uri (said ++ more) = told uri said ++ told uri more :=
  List.filterMap_append

theorem shown_append_of_silent {uri : String} {more : List Announcement} (h : told uri more = [])
    (said : List Announcement) : shown uri (said ++ more) = shown uri said := by
  rw [shown, told_append, h, List.append_nil, shown]

theorem shown_append_of_told {uri : String} {more : List Announcement} (h : told uri more ≠ [])
    (said : List Announcement) : shown uri (said ++ more) = shown uri more := by
  rw [shown, told_append, List.getLast?_append_of_ne_nil _ h, shown]

/-- What was told to be empty every time is shown as empty. -/
theorem shown_eq_nil {uri : String} {said : List Announcement} (h : ∀ found ∈ told uri said, found = []) :
    shown uri said = [] := by
  rw [shown]
  cases last : (told uri said).getLast? with
  | none => rfl
  | some found => exact h found (List.mem_of_getLast? last)

/-- The name of a document leads to a URL. -/
def LeadsTo (uri name : String) : Prop :=
  (DocId.url? ⟨name⟩).map Url.text = some uri

instance (uri name : String) : Decidable (LeadsTo uri name) :=
  inferInstanceAs (Decidable (_ = _))

namespace Service

/-! ## One round -/

section Round

variable {uri : String}

theorem told_announceNone (uri : String) (docs : List DocId) :
    ∀ found ∈ told uri (announceNone docs), found = [] := by
  intro found h
  obtain ⟨a, ha, about⟩ := List.mem_filterMap.1 h
  obtain ⟨url, -, rfl⟩ := List.mem_map.1 ha
  rw [Announcement.about?] at about
  split at about
  · exact (Option.some_inj.1 about).symm
  · cases about

theorem told_announceNone_eq_nil_iff {docs : List DocId} :
    told uri (announceNone docs) = [] ↔ ∀ doc ∈ docs, ¬ LeadsTo uri doc.text := by
  induction docs with
  | nil => simp [told, announceNone]
  | cons doc docs ih =>
    rw [List.forall_mem_cons, ← ih, LeadsTo]
    cases url : doc.url? with
    | none => simp [told, announceNone, url]
    | some u => by_cases here : u.text = uri <;> simp [told, announceNone, url, here, Announcement.about?]

theorem told_announceAll_eq_nil_iff {w : Workspace} {reports : Table (List Diagnostic)} :
    told uri (announceAll w reports) = [] ↔ ∀ name ∈ reports.names, ¬ LeadsTo uri name := by
  rw [announceAll, Table.names]
  induction reports.entries with
  | nil => simp [told]
  | cons e es ih =>
    rw [List.map_cons, List.forall_mem_cons, ← ih, LeadsTo]
    cases url : DocId.url? ⟨e.1⟩ with
    | none => simp [told, url]
    | some u => by_cases here : u.text = uri <;> simp [told, url, here, Announcement.about?]

/-- Takes over a report of the compiler and announces it. -/
def publish (s : Service) (reports : Table (List Diagnostic)) : Service × List Announcement :=
  let (w, cleared) := s.workspace.setReports reports
  ({ s with workspace := w }, announceAll s.workspace reports ++ announceNone cleared)

/-- A check whose output can be used publishes its report. -/
theorem takeReport_eq_publish {s : Service} {root output : String} {report : Report}
    (h : Report.parse output = .ok report) :
    s.takeReport root output = s.publish (report.byDocument root) := by
  rw [takeReport, h]
  rfl

/-- To forget all reports is to publish none. -/
theorem clearReports_eq_publish (s : Service) : s.clearReports = s.publish .empty :=
  rfl

/-- A round says something about the URLs of its own names and of those of the round before. -/
theorem told_publish_eq_nil_iff {s : Service} {reports : Table (List Diagnostic)} :
    told uri (s.publish reports).2 = [] ↔
      (∀ name ∈ reports.names, ¬ LeadsTo uri name) ∧
        ∀ name ∈ s.workspace.reports.names, ¬ LeadsTo uri name := by
  show told uri (announceAll s.workspace reports ++ announceNone _) = [] ↔ _
  rw [told_append, List.append_eq_nil_iff, told_announceAll_eq_nil_iff, told_announceNone_eq_nil_iff]
  refine and_congr_right fun fresh => ⟨fun cleared name old leads => ?_, fun old doc hd => ?_⟩
  · refine cleared ⟨name⟩ ?_ leads
    refine List.mem_map_of_mem (List.mem_filter.2 ⟨old, ?_⟩)
    rw [Bool.not_eq_true', Bool.eq_false_iff, Ne, Table.contains_iff]
    exact fun again => fresh name again leads
  · obtain ⟨name, hn, rfl⟩ := List.mem_map.1 hd
    exact old name (List.mem_filter.1 hn).1

/-- A round shows nothing at URLs that none of its names leads to. -/
theorem shown_publish_eq_nil {s : Service} {reports : Table (List Diagnostic)}
    (h : ∀ name ∈ reports.names, ¬ LeadsTo uri name) : shown uri (s.publish reports).2 = [] := by
  refine shown_eq_nil fun found hf => ?_
  have hf : found ∈ told uri (announceAll s.workspace reports ++ announceNone _) := hf
  rw [told_append, told_announceAll_eq_nil_iff.2 h] at hf
  exact told_announceNone _ _ found hf

end Round

/-! ## Rounds, deletions and moves -/

/-- What changes the table of reports. -/
inductive ReportStep where
  /-- A round of the compiler with its report. -/
  | round (reports : Table (List Diagnostic))
  | clear
  | deleteDocument (doc : DocId)
  | deleteUnder (directory : String)
  | renameDocument (old new : DocId)
  | renameUnder (old new : String)

/-- Whether a step is about files instead of reports. -/
def ReportStep.OnFiles : ReportStep → Prop
  | .round _ | .clear => False
  | _ => True

/-- The service after a step, and what it announces. -/
def take (s : Service) : ReportStep → Service × List Announcement
  | .round reports => s.publish reports
  | .clear => s.clearReports
  | .deleteDocument doc => (s.mapWorkspace (·.deleteDocument doc), [])
  | .deleteUnder directory => (s.mapWorkspace (·.deleteUnder directory), [])
  | .renameDocument old new => (s.mapWorkspace (·.renameDocument old new), [])
  | .renameUnder old new => (s.mapWorkspace (·.renameUnder old new), [])

/-- A step is silent and about files, or publishes reports. -/
theorem take_cases (s : Service) (step : ReportStep) :
    (step.OnFiles ∧ (s.take step).2 = []) ∨ ∃ reports, s.take step = s.publish reports := by
  cases step with
  | round reports => exact .inr ⟨reports, rfl⟩
  | clear => exact .inr ⟨.empty, rfl⟩
  | deleteDocument | deleteUnder | renameDocument | renameUnder => exact .inl ⟨trivial, rfl⟩

/-- The service after steps in order, and all that it announces. -/
def takeAll (s : Service) (steps : List ReportStep) : Service × List Announcement :=
  steps.foldl (fun r step => ((r.1.take step).1, r.2 ++ (r.1.take step).2)) (s, [])

theorem takeAll_concat (s : Service) (steps : List ReportStep) (step : ReportStep) :
    s.takeAll (steps ++ [step]) = (((s.takeAll steps).1.take step).1,
      (s.takeAll steps).2 ++ ((s.takeAll steps).1.take step).2) := by
  rw [takeAll, List.foldl_append]
  rfl

/-- Some report of the service is about a URL. -/
def Reports (s : Service) (uri : String) : Prop :=
  ∃ name ∈ s.workspace.reports.names, LeadsTo uri name

instance (s : Service) (uri : String) : Decidable (s.Reports uri) :=
  inferInstanceAs (Decidable (∃ name ∈ s.workspace.reports.names, LeadsTo uri name))

theorem not_reports_iff {s : Service} {uri : String} :
    ¬ s.Reports uri ↔ ∀ name ∈ s.workspace.reports.names, ¬ LeadsTo uri name := by
  simp [Reports]

/-- A deletion or a move took the last report about a URL away, and nothing was told about the URL
since then. -/
def TakenAway (s : Service) (steps : List ReportStep) (uri : String) : Prop :=
  ∃ before step since, steps = before ++ step :: since ∧ step.OnFiles ∧
    (s.takeAll before).1.Reports uri ∧ ¬ (s.takeAll (before ++ [step])).1.Reports uri ∧
    told uri (s.takeAll steps).2 = told uri (s.takeAll before).2

theorem TakenAway.concat {s : Service} {steps : List ReportStep} {uri : String}
    (h : TakenAway s steps uri) {step : ReportStep}
    (silent : told uri ((s.takeAll steps).1.take step).2 = []) : TakenAway s (steps ++ [step]) uri := by
  obtain ⟨before, taking, since, rfl, onFiles, reported, taken, quiet⟩ := h
  refine ⟨before, taking, since ++ [step], by simp, onFiles, reported, taken, ?_⟩
  rw [takeAll_concat, told_append, silent, List.append_nil, quiet]

/-- One step keeps the problems that are shown among those that are reported, or takes the report
away. -/
theorem reports_or_takenAway_step {s : Service} {steps : List ReportStep} {uri : String}
    (ih : shown uri (s.takeAll steps).2 ≠ [] → (s.takeAll steps).1.Reports uri ∨ TakenAway s steps uri)
    (step : ReportStep) (h : shown uri (s.takeAll (steps ++ [step])).2 ≠ []) :
    (s.takeAll (steps ++ [step])).1.Reports uri ∨ TakenAway s (steps ++ [step]) uri := by
  have after := s.takeAll_concat steps step
  rw [after] at h ⊢
  rcases (s.takeAll steps).1.take_cases step with ⟨onFiles, quiet⟩ | ⟨reports, published⟩
  · have silent : told uri ((s.takeAll steps).1.take step).2 = [] := by rw [quiet]; rfl
    rw [shown_append_of_silent silent] at h
    rcases ih h with reported | taken
    · by_cases still : ((s.takeAll steps).1.take step).1.Reports uri
      · exact .inl still
      · refine .inr ⟨steps, step, [], rfl, onFiles, reported, by rwa [after], ?_⟩
        rw [after, told_append, silent, List.append_nil]
    · exact .inr (taken.concat silent)
  · rw [published] at h ⊢
    by_cases fresh : ∀ name ∈ reports.names, ¬ LeadsTo uri name
    · by_cases silent : told uri ((s.takeAll steps).1.publish reports).2 = []
      · rw [shown_append_of_silent silent] at h
        rcases ih h with reported | taken
        · exact absurd reported (not_reports_iff.2 (told_publish_eq_nil_iff.1 silent).2)
        · exact .inr (taken.concat (by rwa [published]))
      · rw [shown_append_of_told silent] at h
        exact absurd (shown_publish_eq_nil fresh) h
    · exact .inl (not_not.1 fun none => fresh (not_reports_iff.1 none))

theorem reports_or_takenAway (s : Service) (steps : List ReportStep) (uri : String)
    (h : shown uri (s.takeAll steps).2 ≠ []) :
    (s.takeAll steps).1.Reports uri ∨ TakenAway s steps uri := by
  induction steps using List.reverseRecOn with
  | nil => exact absurd rfl h
  | append_singleton steps step ih => exact reports_or_takenAway_step ih step h

/-- A round clears what is shown at the URL of a report that it does not have any more. -/
theorem shown_round {s : Service} {steps : List ReportStep} {uri : String}
    (reported : (s.takeAll steps).1.Reports uri) {reports : Table (List Diagnostic)}
    (fresh : ∀ name ∈ reports.names, ¬ LeadsTo uri name) :
    shown uri (s.takeAll (steps ++ [.round reports])).2 = [] := by
  have told : told uri ((s.takeAll steps).1.publish reports).2 ≠ [] := fun silent =>
    not_reports_iff.2 (told_publish_eq_nil_iff.1 silent).2 reported
  rw [takeAll_concat]
  exact (shown_append_of_told told _).trans (shown_publish_eq_nil fresh)

/-- If the editor shows problems of a file, there is a report about its URL, which the next round
without one clears, or a deletion or a move took the report away. -/
theorem shown_is_reported (s : Service) (steps : List ReportStep) (uri : String)
    (h : shown uri (s.takeAll steps).2 ≠ []) :
    ((s.takeAll steps).1.Reports uri ∧
      ∀ reports : Table (List Diagnostic), (∀ name ∈ reports.names, ¬ LeadsTo uri name) →
        shown uri (s.takeAll (steps ++ [.round reports])).2 = []) ∨
      TakenAway s steps uri :=
  (reports_or_takenAway s steps uri h).imp_left fun reported =>
    ⟨reported, fun _ fresh => shown_round reported fresh⟩

/-- A problem of a file. -/
def oneProblem : Table (List Diagnostic) :=
  .ofList [("file:///a.c3", [⟨"a.c3", 0, none, .error, "unexpected end"⟩])]

/-- A problem that is shown after a round is reported, for no file was deleted or moved. -/
theorem reported_after_round :
    let s := takeAll { host := {} } [.round oneProblem]
    shown "file:///a.c3" s.2 ≠ [] ∧ s.1.Reports "file:///a.c3" ∧
      shown "file:///a.c3" (takeAll { host := {} } ([.round oneProblem] ++ [.round .empty])).2 = [] := by
  intro s
  have visible : shown "file:///a.c3" s.2 ≠ [] := by decide +kernel
  refine ⟨visible, ?_⟩
  rcases shown_is_reported { host := {} } [.round oneProblem] "file:///a.c3" visible with
    reported | ⟨before, step, since, eq, onFiles, -⟩
  · exact ⟨reported.1, reported.2 .empty fun _ h => nomatch h⟩
  · have member : step ∈ [ReportStep.round oneProblem] := by simp [eq]
    rw [List.mem_singleton.1 member] at onFiles
    exact onFiles.elim

/-- The problem of a file that was deleted stays, for no later round knows about it. -/
theorem stale_after_deletion :
    let steps : List ReportStep := [.round oneProblem, .deleteDocument ⟨"file:///a.c3"⟩]
    let s := takeAll { host := {} } steps
    shown "file:///a.c3" s.2 ≠ [] ∧ ¬ s.1.Reports "file:///a.c3" ∧
      shown "file:///a.c3" (takeAll { host := {} } (steps ++ [.round .empty])).2 ≠ [] := by
  decide +kernel

end Service

end C3Lens
