import SchemaPress.Prompt
import SchemaPress.Proofs.Config.Projects
import SchemaPress.Proofs.Session

/-!
# Selecting projects

To select projects is to restrict a configuration: those that are named stay as they are, and
nothing else changes (`mem_projectNames_select`, `project?_select`).  So it does not matter in which
order one selects, and to select all is to select nothing.  What a terminal brings back are places
among the names, in any order, with repetitions and beyond the ends; the configuration that is
selected with them has the projects at those places that exist (`IsPicked`).
-/

namespace SchemaPress.Config

variable {c : Config} {name : String}

/-! ### Restricting -/

theorem mem_projectNames : name ∈ c.projectNames ↔ name ∈ c.projects.map (·.1) :=
  c.perm_projectNames.mem_iff

theorem mem_projectNames_select {chosen : List String} :
    name ∈ (c.select chosen).projectNames ↔ name ∈ c.projectNames ∧ name ∈ chosen := by
  simp only [mem_projectNames, select, List.mem_map, List.mem_filter, List.contains_iff_mem]
  constructor
  · rintro ⟨p, ⟨hp, hchosen⟩, rfl⟩
    exact ⟨⟨p, hp, rfl⟩, hchosen⟩
  · rintro ⟨⟨p, hp, rfl⟩, hchosen⟩
    exact ⟨p, ⟨hp, hchosen⟩, rfl⟩

/-- `select` keeps the project of a chosen name. -/
theorem project?_select {chosen : List String} (h : name ∈ chosen) :
    (c.select chosen).project? name = c.project? name := by
  unfold project? select
  dsimp only
  induction c.projects with
  | nil => rfl
  | cons p rest ih =>
    rw [List.filter_cons, List.lookup_cons]
    by_cases hchosen : p.1 ∈ chosen
    · rw [if_pos (List.contains_iff_mem.2 hchosen), List.lookup_cons, ih]
    · -- What is left out has another name.
      have hne : name ≠ p.1 := fun heq => hchosen (heq ▸ h)
      rw [if_neg (fun hmem => hchosen (List.contains_iff_mem.1 hmem)), beq_false_of_ne hne, ih]

/-- Two selections commute. -/
theorem select_comm (c : Config) (a b : List String) :
    (c.select a).select b = (c.select b).select a := by
  simp only [select, List.filter_filter, Bool.and_comm]

/-- The selection of `c.projectNames` is `c`. -/
theorem select_projectNames (c : Config) : c.select c.projectNames = c := by
  have hall : (c.projects.filter fun p => c.projectNames.contains p.1) = c.projects := by
    rw [List.filter_eq_self]
    intro p hp
    rw [List.contains_iff_mem, mem_projectNames]
    exact List.mem_map_of_mem hp
  rw [select, hall]

theorem nodup_select (h : (c.projects.map (·.1)).Nodup) (chosen : List String) :
    ((c.select chosen).projects.map (·.1)).Nodup :=
  h.sublist (List.filter_sublist.map _)

/-! ### Picking -/

/-- `optionsAt` gives `options[place]` for each picked place that there is, and passes over all
others. -/
theorem mem_optionsAt {options : List String} {picked : List Int} :
    name ∈ Prompt.optionsAt options picked ↔
      ∃ place : Nat, (place : Int) ∈ picked ∧ options[place]? = some name := by
  rw [Prompt.optionsAt, List.mem_filterMap]
  constructor
  · rintro ⟨i, hi, hname⟩
    split_ifs at hname with hneg
    refine ⟨i.toNat, ?_, hname⟩
    rwa [Int.toNat_of_nonneg (Int.not_lt.1 hneg)]
  · rintro ⟨place, hplace, hname⟩
    refine ⟨place, hplace, ?_⟩
    rwa [if_neg (Int.not_lt.2 (Int.natCast_nonneg place)), Int.toNat_natCast]

/-- `selectProjects` gives `optionsAt names picked`, and does not ask if there are no names. -/
theorem run_selectProjects (t : Terminal) (names : List String) {s s' : Session}
    {picked : List Int}
    (h : (t.select (Prompt.projectsQuestion names)).run.run s = (.ok picked, s')) :
    (Prompt.selectProjects t names).run.run s =
      (.ok (Prompt.optionsAt names picked), if names.isEmpty then s else s') := by
  cases names with
  | nil =>
    -- The terminal is not asked, and no place it could answer with exists.
    have hnone : Prompt.optionsAt [] picked = [] := by
      rw [List.eq_nil_iff_forall_not_mem]
      intro name hname
      obtain ⟨place, -, hplace⟩ := mem_optionsAt.1 hname
      cases hplace
    rw [hnone]
    rfl
  | cons first rest =>
    unfold Prompt.selectProjects
    rw [List.isEmpty_cons, if_neg Bool.false_ne_true]
    show (t.select _ >>= fun picked => pure (Prompt.optionsAt _ picked)).run.run s = _
    rw [Job.run_bind, h]
    rfl

/-- `d` is `c` restricted to the names at the places `picked` of `c.projectNames`. -/
structure IsPicked (c : Config) (picked : List Int) (d : Config) : Prop where
  log_eq : d.log = c.log
  /-- The names are strictly increasing in the order of their bytes. -/
  names_order : d.projectNames.Pairwise BytesBefore
  names_nodup : d.projectNames.Nodup
  /-- They are the `c.projectNames[place]` with `place ∈ picked`. -/
  mem_names_iff : ∀ name, name ∈ d.projectNames ↔
    ∃ place : Nat, (place : Int) ∈ picked ∧ c.projectNames[place]? = some name
  /-- Each of them has its project of `c`. -/
  project?_eq : ∀ name ∈ d.projectNames, ∃ project,
    d.project? name = some project ∧ c.project? name = some project
  project?_eq_none : ∀ name, name ∉ d.projectNames → d.project? name = none

theorem isPicked_select (hnames : (c.projects.map (·.1)).Nodup) (picked : List Int) :
    IsPicked c picked (c.select (Prompt.optionsAt c.projectNames picked)) := by
  have hdistinct := nodup_select hnames (Prompt.optionsAt c.projectNames picked)
  exact {
    log_eq := rfl
    names_order := (pairwise_projectNames hdistinct).imp bytesBefore_of_lt
    names_nodup := (perm_projectNames _).nodup_iff.2 hdistinct
    mem_names_iff := fun name => by
      rw [mem_projectNames_select, mem_optionsAt, and_iff_right_iff_imp]
      rintro ⟨place, -, hplace⟩
      exact List.mem_of_getElem? hplace
    project?_eq := fun name hname => by
      obtain ⟨hmem, hchosen⟩ := mem_projectNames_select.1 hname
      obtain ⟨project, hproject⟩ := exists_project? hmem
      rw [project?_select hchosen]
      exact ⟨project, hproject, hproject⟩
    project?_eq_none := fun name hname => by
      rw [← Option.not_isSome_iff_eq_none, Option.isSome_iff_exists]
      rintro ⟨project, hproject⟩
      exact hname (mem_projectNames.2 (List.mem_map_of_mem (mem_of_project? hproject))) }

/-- **Selection is restriction.**  If the names of `c` are distinct, what is `picked` at the
terminal gives the configuration with `IsPicked c picked`.  Selections commute, and the selection of
all names is `c`. -/
theorem select_picked (c : Config) :
    ((c.projects.map (·.1)).Nodup → ∀ (t : Terminal) (s s' : Session) (picked : List Int),
      (t.select (Prompt.projectsQuestion c.projectNames)).run.run s = (.ok picked, s') →
      ∃ chosen, (Prompt.selectProjects t c.projectNames).run.run s =
          (.ok chosen, if c.projectNames.isEmpty then s else s') ∧
        IsPicked c picked (c.select chosen)) ∧
    (∀ a b, (c.select a).select b = (c.select b).select a) ∧
    c.select c.projectNames = c := by
  refine ⟨fun hnames t s s' picked hpicked => ?_, c.select_comm, c.select_projectNames⟩
  exact ⟨_, run_selectProjects t _ hpicked, isPicked_select hnames picked⟩

/-- A configuration with the projects `admin`, `api` and `web`. -/
def threeProjects : Config where
  projects :=
    [("admin", { input := { target := "admin.json" } }), ("api", {}),
      ("web", { input := { target := "web.json" } })]

/-- A terminal that picks the places `2, -1, 0, 7, 2`. -/
def restlessTerminal : Terminal where
  confirm _ := pure false
  select _ := pure [2, -1, 0, 7, 2]

/-- Of three projects, the places `2, -1, 0, 7, 2` pick the first and the last. -/
theorem select_picked_restless :
    (threeProjects.projects.map (·.1)).Nodup ∧
    (Prompt.selectProjects restlessTerminal threeProjects.projectNames).run.run {} =
      (.ok ["web", "admin", "web"], {}) ∧
    IsPicked threeProjects [2, -1, 0, 7, 2] (threeProjects.select ["web", "admin", "web"]) ∧
    (threeProjects.select ["web", "admin", "web"]).projectNames = ["admin", "web"] := by
  have hdistinct : (threeProjects.projects.map (·.1)).Nodup := by decide
  have hanswer : (restlessTerminal.select
      (Prompt.projectsQuestion threeProjects.projectNames)).run.run {} =
        (.ok [2, -1, 0, 7, 2], {}) := rfl
  have hnames : threeProjects.projectNames = ["admin", "api", "web"] :=
    projectNames_of_pairwise (by decide)
  have hrun : (Prompt.selectProjects restlessTerminal threeProjects.projectNames).run.run {} =
      (.ok ["web", "admin", "web"], {}) := by
    rw [hnames]
    rfl
  obtain ⟨chosen, hchosen, hpicked⟩ :=
    (select_picked threeProjects).1 hdistinct restlessTerminal _ _ _ hanswer
  rw [hrun] at hchosen
  obtain rfl := Except.ok.inj (Prod.mk.inj hchosen).1
  exact ⟨hdistinct, hrun, hpicked, projectNames_of_pairwise (by decide)⟩

end SchemaPress.Config
