import SchemaPress.Proofs.Config.Projects
import SchemaPress.Proofs.Generation.Project

/-!
# Running all projects

A run takes the projects in the order of their names, one `Turn` after the other, until it is
stopped at a checkpoint between two of them.  `Turns` says what a run does, step by step, and
`run_turns` that the summary and the error of a run are made from its turns.  From that it follows
that every project is accounted for (`Turns.accounts`).
-/

namespace SchemaPress

/-! ### The order of projects -/

namespace Generator

open FileTree

variable {g : Generator} {c : Config} {projects : List (String × Project)} {s s' : Session}

theorem map_fst_ordered (c : Config) : (ordered c).map (·.1) = c.projectNames := by
  unfold ordered
  rw [List.map_filterMap]
  have hsome : ∀ name ∈ c.projectNames,
      Option.map Prod.fst ((c.project? name).map (name, ·)) = some name := by
    intro name hname
    obtain ⟨project, hproject⟩ := Config.exists_project? hname
    rw [hproject]
    rfl
  rw [List.filterMap_congr hsome, List.filterMap_some]

/-- `ordered c` is `c.projects`, if the names are strictly increasing already. -/
theorem ordered_of_pairwise (h : (c.projects.map (·.1)).Pairwise (· < ·)) :
    ordered c = c.projects := by
  have hnodup : (c.projects.map (·.1)).Nodup := h.imp fun hlt => String.ne_of_lt hlt
  have hsome : ∀ p ∈ c.projects, (c.project? p.1).map (p.1, ·) = some p := by
    intro p hp
    rw [Config.project?_of_mem hnodup hp]
    rfl
  unfold ordered
  rw [Config.projectNames_of_pairwise h, List.filterMap_map]
  exact (List.filterMap_congr hsome).trans List.filterMap_some

theorem nodup_ordered (h : (c.projects.map (·.1)).Nodup) : ((ordered c).map (·.1)).Nodup := by
  rw [map_fst_ordered]
  exact c.perm_projectNames.nodup_iff.2 h

theorem project?_of_mem_ordered {p : String × Project} (h : p ∈ ordered c) :
    c.project? p.1 = some p.2 := by
  obtain ⟨name, -, hp⟩ := List.mem_filterMap.1 h
  obtain ⟨project, hproject, rfl⟩ := Option.map_eq_some_iff.1 hp
  exact hproject

theorem mem_of_mem_ordered {p : String × Project} (h : p ∈ ordered c) : p ∈ c.projects :=
  Config.mem_of_project? (project?_of_mem_ordered h)

/-! ### Turns -/

/-- A project of a run, with its result and its error. -/
structure Turn where
  name : String
  project : Project
  result : ProjectResult
  error : Option Error

/-- The event at the end of the turn. -/
def Turn.event (turn : Turn) : Log.Event :=
  match turn.error with
  | some e => failureEvent turn.name e
  | none => successEvent turn.result

/-- The session `s` with one more event. -/
def logged (s : Session) (event : Log.Event) : Session :=
  { s with log := s.log ++ [event] }

@[simp] theorem files_logged (s : Session) (event : Log.Event) : (logged s event).files = s.files :=
  rfl

/-- A turn starts with the files that there are at its checkpoint. -/
theorem files_logged_of_go {s s₁ : Session} (go : Job.checkpoint.run.run s = (.ok (), s₁))
    (event : Log.Event) : (logged s₁ event).files = s.files := by
  rw [files_logged, Job.run_checkpoint_eq_ok go]

/-- `Turns g projects s turns stop s'`: the `projects` take `turns` one after the other, from `s` to
`s'`, until there are none left, or the checkpoint before one of them gives the error `stop`. -/
inductive Turns (g : Generator) :
    List (String × Project) → Session → List Turn → Option Error → Session → Prop
  | done (s : Session) : Turns g [] s [] none s
  | stopped {name : String} {project : Project} {rest : List (String × Project)} {s s' : Session}
      {e : Error} (stop : Job.checkpoint.run.run s = (.error e, s')) :
      Turns g ((name, project) :: rest) s [] (some e) s'
  | turn (turn : Turn) {rest : List (String × Project)} {s s₁ s₂ s' : Session}
      {turns : List Turn} {stop : Option Error}
      (go : Job.checkpoint.run.run s = (.ok (), s₁))
      (generate : (g.generateProject turn.name turn.project).run
        (logged s₁ (startEvent turn.name)) = ((turn.result, turn.error), s₂))
      (next : Turns g rest (logged s₂ turn.event) turns stop s') :
      Turns g ((turn.name, turn.project) :: rest) s (turn :: turns) stop s'

/-- The projects without an error and the names of the others. -/
def summaryOf (turns : List Turn) : Summary where
  projects := (turns.filter (·.error.isNone)).map (·.result)
  failed := (turns.filter (·.error.isSome)).map (·.name)

/-- The errors of the turns, and `stop`. -/
def errorsOf (turns : List Turn) (stop : Option Error) : List Error :=
  turns.filterMap (·.error) ++ stop.toList

theorem run_runProjects_cons (g : Generator) (name : String) (project : Project)
    (rest : List (String × Project)) (s : Session) :
    (g.runProjects ((name, project) :: rest)).run s =
      match Job.checkpoint.run.run s with
      | (.error e, s') => (({}, [e]), s')
      | (.ok (), s₁) =>
        match (g.generateProject name project).run (logged s₁ (startEvent name)) with
        | ((_, some e), s₂) =>
          match (g.runProjects rest).run (logged s₂ (failureEvent name e)) with
          | ((summary, errors), s') =>
            (({ summary with failed := name :: summary.failed }, e :: errors), s')
        | ((result, none), s₂) =>
          match (g.runProjects rest).run (logged s₂ (successEvent result)) with
          | ((summary, errors), s') =>
            (({ summary with projects := result :: summary.projects }, errors), s') := by
  rw [runProjects, StateT.run_bind]
  rcases Job.checkpoint.run.run s with ⟨e | u, s₁⟩
  · rfl
  cases u
  dsimp only
  show (report (startEvent name) >>= _).run s₁ = _
  rw [StateT.run_bind]
  show (g.generateProject name project >>= _).run (logged s₁ (startEvent name)) = _
  rw [StateT.run_bind]
  rcases (g.generateProject name project).run (logged s₁ (startEvent name)) with
    ⟨⟨result, _ | e⟩, s₂⟩
  · rfl
  · rfl

/-- **`runProjects` takes `Turns`**, with `summaryOf` and `errorsOf` for its result. -/
theorem runProjects_turns (g : Generator) (projects : List (String × Project)) (s : Session) :
    ∃ turns stop, g.Turns projects s turns stop ((g.runProjects projects).run s).2 ∧
      ((g.runProjects projects).run s).1 = (summaryOf turns, errorsOf turns stop) := by
  induction projects generalizing s with
  | nil => exact ⟨[], none, .done s, rfl⟩
  | cons p rest ih =>
    obtain ⟨name, project⟩ := p
    rw [run_runProjects_cons]
    rcases hgo : Job.checkpoint.run.run s with ⟨e | ⟨⟩, s₁⟩
    · exact ⟨[], some e, .stopped hgo, rfl⟩
    dsimp only
    rcases hgenerate : (g.generateProject name project).run (logged s₁ (startEvent name)) with
      ⟨⟨result, error⟩, s₂⟩
    obtain ⟨turns, stop, hturns, hsummary⟩ :=
      ih (logged s₂ (Turn.event ⟨name, project, result, error⟩))
    refine ⟨⟨name, project, result, error⟩ :: turns, stop, ?_⟩
    cases error with
    | none =>
      dsimp only
      dsimp only [Turn.event] at hturns hsummary
      rcases hrest : (g.runProjects rest).run (logged s₂ (successEvent result)) with
        ⟨⟨summary, errors⟩, s'⟩
      rw [hrest] at hturns hsummary
      obtain ⟨rfl, rfl⟩ := Prod.mk.inj hsummary
      exact ⟨.turn ⟨name, project, _, _⟩ hgo hgenerate hturns, rfl⟩
    | some e =>
      dsimp only
      dsimp only [Turn.event] at hturns hsummary
      rcases hrest : (g.runProjects rest).run (logged s₂ (failureEvent name e)) with
        ⟨⟨summary, errors⟩, s'⟩
      rw [hrest] at hturns hsummary
      obtain ⟨rfl, rfl⟩ := Prod.mk.inj hsummary
      exact ⟨.turn ⟨name, project, _, _⟩ hgo hgenerate hturns, rfl⟩

/-- The error of a run: none, or all errors joined. -/
def joinedError (errors : List Error) : Option Error :=
  if errors.isEmpty then none else some (.joined errors)

theorem joinedError_eq_none_iff {errors : List Error} :
    joinedError errors = none ↔ errors = [] := by
  cases errors <;> simp [joinedError]

theorem run_turns (g : Generator) (c : Config) (s : Session) :
    ∃ turns stop, g.Turns (ordered c) s turns stop ((g.run c).run s).2 ∧
      ((g.run c).run s).1 = (summaryOf turns, joinedError (errorsOf turns stop)) := by
  obtain ⟨turns, stop, hturns, hsummary⟩ := runProjects_turns g (ordered c) s
  refine ⟨turns, stop, ?_⟩
  have hrun : (g.run c).run s =
      match (g.runProjects (ordered c)).run s with
      | ((summary, errors), s') => ((summary, joinedError errors), s') := rfl
  rw [hrun]
  rcases h : (g.runProjects (ordered c)).run s with ⟨⟨summary, errors⟩, s'⟩
  rw [h] at hturns hsummary
  obtain ⟨rfl, rfl⟩ := Prod.mk.inj hsummary
  exact ⟨hturns, rfl⟩

/-! ### Accounting -/

variable {turns : List Turn} {stop : Option Error}

/-- The turns are those of the first projects, and of all of them if `stop = none`. -/
theorem Turns.exists_rest (h : g.Turns projects s turns stop s') :
    ∃ rest, turns.map (fun turn => (turn.name, turn.project)) ++ rest = projects ∧
      (stop = none → rest = []) := by
  induction h with
  | done s => exact ⟨[], rfl, fun _ => rfl⟩
  | stopped _ => exact ⟨_, rfl, fun h => by cases h⟩
  | turn turn _ _ _ ih =>
    obtain ⟨rest, hrest, hall⟩ := ih
    exact ⟨rest, congrArg (List.cons (turn.name, turn.project)) hrest, hall⟩

/-- `stop` is the cancellation. -/
theorem Turns.stop_eq (h : g.Turns projects s turns stop s') :
    ∀ e, stop = some e → e = .cancelled := by
  induction h with
  | done _ => simp
  | @stopped _ _ _ s s' e hstop =>
    rintro _ ⟨⟩
    rw [Job.run_checkpoint] at hstop
    split at hstop <;> cases hstop
    rfl
  | turn _ _ _ _ ih => exact ih

theorem name_generateProject (g : Generator) (name : String) (project : Project) (s : Session) :
    ((g.generateProject name project).run s).1.1.name = name := by
  rw [run_generateProject]
  split
  · rfl
  · dsimp only
    split <;> rfl

/-- The result and the error of a turn are those of `generateProject` in some session. -/
theorem Turns.exists_session (h : g.Turns projects s turns stop s') :
    ∀ turn ∈ turns, ∃ s₁, ((g.generateProject turn.name turn.project).run s₁).1 =
      (turn.result, turn.error) := by
  induction h with
  | done _ => simp
  | stopped _ => simp
  | turn turn _ generate _ ih =>
    intro other hother
    rcases List.mem_cons.1 hother with rfl | hother
    · exact ⟨_, congrArg Prod.fst generate⟩
    · exact ih other hother

theorem Turns.name_result (h : g.Turns projects s turns stop s') :
    ∀ turn ∈ turns, turn.result.name = turn.name := by
  intro turn hturn
  obtain ⟨s₁, hgenerate⟩ := h.exists_session turn hturn
  have hname := name_generateProject g turn.name turn.project s₁
  rwa [hgenerate] at hname

theorem outputPath_generateProject (g : Generator) (name : String) (project : Project)
    (s : Session) :
    ((g.generateProject name project).run s).1.1.outputPath = project.outputPath := by
  rw [run_generateProject]
  split
  · rfl
  · dsimp only
    split <;> rfl

theorem Turns.outputPath_result (h : g.Turns projects s turns stop s') :
    ∀ turn ∈ turns, turn.result.outputPath = turn.project.outputPath := by
  intro turn hturn
  obtain ⟨s₁, hgenerate⟩ := h.exists_session turn hturn
  have hpath := outputPath_generateProject g turn.name turn.project s₁
  rwa [hgenerate] at hpath

/-- The project of a turn is the one that `c` has under its name. -/
theorem Turns.project?_eq (h : g.Turns (ordered c) s turns stop s') :
    ∀ turn ∈ turns, c.project? turn.name = some turn.project := by
  intro turn hturn
  obtain ⟨rest, hrest, -⟩ := h.exists_rest
  refine @project?_of_mem_ordered c (turn.name, turn.project) ?_
  rw [← hrest]
  exact List.mem_append_left _ (List.mem_map.2 ⟨turn, hturn, rfl⟩)

/-- The turns of a run, its summary and its error account for all projects of `c`. -/
structure Accounts (c : Config) (turns : List Turn) (stop : Option Error) (summary : Summary)
    (error : Option Error) : Prop where
  /-- `c.projectNames` are the names in the order of their bytes. -/
  ordered : c.projectNames.Perm (c.projects.map (·.1)) ∧ c.projectNames.Pairwise BytesBefore
  /-- The turns are those of the first names, and of all of them if `stop = none`. -/
  in_order : ∃ rest, turns.map (·.name) ++ rest = c.projectNames ∧ (stop = none → rest = [])
  cancelled : ∀ e, stop = some e → e = .cancelled
  /-- Every turn is in one of the two lists. -/
  together : (summary.projects.map (·.name) ++ summary.failed).Perm (turns.map (·.name))
  disjoint : List.Disjoint (summary.projects.map (·.name)) summary.failed
  /-- The projects without an error, and the names of the others, each in order. -/
  projects : summary.projects = (turns.filter (·.error.isNone)).map (·.result) ∧
    (summary.projects.map (·.name)).Pairwise BytesBefore
  failed : summary.failed = (turns.filter (·.error.isSome)).map (·.name) ∧
    summary.failed.Pairwise BytesBefore
  /-- There is an error exactly if a project has failed or the run was stopped. -/
  error_iff : error = none ↔ summary.failed = [] ∧ stop = none
  error_eq : error ≠ none → error = some (.joined (turns.filterMap (·.error) ++ stop.toList))

/-- The names in the results of a part of the turns. -/
theorem map_name_filter_result (hnames : ∀ turn ∈ turns, turn.result.name = turn.name)
    (p : Turn → Bool) :
    ((turns.filter p).map (·.result)).map (·.name) = (turns.filter p).map (·.name) := by
  rw [List.map_map]
  exact List.map_congr_left fun turn hturn => hnames turn (List.mem_filter.1 hturn).1

/-- **The turns of `ordered c`, `summaryOf` and `errorsOf` account for all projects of `c`.** -/
theorem Turns.accounts (hnames : (c.projects.map (·.1)).Nodup)
    (h : g.Turns (ordered c) s turns stop s') :
    Accounts c turns stop (summaryOf turns) (joinedError (errorsOf turns stop)) := by
  have hsorted := Config.pairwise_projectNames hnames
  have horder : ∃ rest, turns.map (·.name) ++ rest = c.projectNames ∧
      (stop = none → rest = []) := by
    obtain ⟨rest, hrest, hall⟩ := h.exists_rest
    refine ⟨rest.map (·.1), ?_, fun hstop => by rw [hall hstop]; rfl⟩
    rw [← map_fst_ordered, ← hrest, List.map_append, List.map_map]
    rfl
  have hturns : (turns.map (·.name)).Pairwise (· < ·) := by
    obtain ⟨rest, hrest, -⟩ := horder
    rw [← hrest] at hsorted
    exact (List.pairwise_append.1 hsorted).1
  have hlist (p : Turn → Bool) : ((turns.filter p).map (·.name)).Pairwise BytesBefore :=
    (hturns.sublist (List.filter_sublist.map _)).imp bytesBefore_of_lt
  have hprojects : (summaryOf turns).projects.map (·.name) =
      (turns.filter (·.error.isNone)).map (·.name) :=
    map_name_filter_result h.name_result _
  have htogether : ((summaryOf turns).projects.map (·.name) ++ (summaryOf turns).failed).Perm
      (turns.map (·.name)) := by
    have hfailed : turns.filter (·.error.isSome) = turns.filter fun turn => !turn.error.isNone :=
      List.filter_congr fun turn _ => by simp
    rw [hprojects, summaryOf, hfailed, ← List.map_append]
    exact (List.filter_append_perm _ turns).map _
  refine ⟨⟨c.perm_projectNames, hsorted.imp bytesBefore_of_lt⟩, horder, h.stop_eq, htogether, ?_,
    ⟨rfl, ?_⟩, ⟨rfl, hlist _⟩, ?_, ?_⟩
  · have hnodup := htogether.nodup_iff.2 (hturns.imp fun hab => String.ne_of_lt hab)
    exact fun name hname hname' => (List.nodup_append.1 hnodup).2.2 name hname name hname' rfl
  · rw [hprojects]
    exact hlist _
  · have hfailed : turns.filterMap (·.error) = [] ↔ (summaryOf turns).failed = [] := by
      simp [summaryOf, List.filterMap_eq_nil_iff]
    rw [joinedError_eq_none_iff, errorsOf, List.append_eq_nil_iff, hfailed,
      Option.toList_eq_nil_iff]
  · intro herror
    rw [joinedError, if_neg]
    · rfl
    · intro hempty
      exact herror (if_pos hempty)

/-! ### Two projects -/

/-- A project that reads `input` and writes to the directory `output`. -/
def fileProject (input output : String) : Project where
  input := { target := input }
  output := { target := output }

/-- A configuration with the projects `a` and `b`. -/
def pairConfig (first second : Project) : Config where
  log := { level := "info" }
  projects := [("a", first), ("b", second)]

theorem nodup_pairConfig (first second : Project) :
    ((pairConfig first second).projects.map (·.1)).Nodup := by
  show ["a", "b"].Nodup
  decide

theorem ordered_pairConfig (first second : Project) :
    ordered (pairConfig first second) = [("a", first), ("b", second)] := by
  refine ordered_of_pairwise ?_
  show ["a", "b"].Pairwise (· < ·)
  decide

end Generator

end SchemaPress
