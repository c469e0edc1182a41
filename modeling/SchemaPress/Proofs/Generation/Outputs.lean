import SchemaPress.Proofs.Generation.Run
import SchemaPress.Proofs.Generation.Touched
import SchemaPress.Proofs.Page.Layout

/-!
# No output is lost

If projects share no file (`Unshared`), then after a run the file of each project that was generated
is exactly what is built from its input (`run_keeps_outputs`).

What generating a project does to the files is told by `Touched`.  It does not disturb a project
that is `UpToDate`, as long as their paths do not meet (`UpToDate.of_touched`), so a project stays
up to date during all turns behind its own (`UpToDate.of_turns`).

Nothing in a configuration keeps two projects from writing to the same directory.  Then what the
first one has written is lost without an error (`run_loses_output`).
-/

namespace SchemaPress

open FileTree

namespace Generator

/-! ### Projects that are up to date -/

/-- `g.load` fails on a file that cannot be read. -/
def LoadsFiles (g : Generator) : Prop :=
  ∀ location document s s', (g.load (some ⟨.file, location⟩)).run.run s = (.ok document, s') →
    ∃ content, s.files.readAbsolute location = .ok content

/-- `g.buildProject` gives `out` in every session without a limit that has the files `t`. -/
def BuildsFrom (g : Generator) (project : Project) (t : FileTree) (out : BuildOutput) : Prop :=
  ∀ s : Session, s.passes = none → s.files = t → g.Builds project s out

/-- The input of the project can be read, if it is a file. -/
def Readable (project : Project) (t : FileTree) : Prop :=
  ∀ path ∈ project.inputPath? t, ∃ content, t.read path = .ok content

/-- The output of the project is what `g` builds from its input. -/
structure UpToDate (g : Generator) (project : Project) (t : FileTree) : Prop where
  input : Readable project t
  output : ∃ out, g.BuildsFrom project t out ∧
    t.read project.outputPath = .ok out.content.toUTF8

section

variable {g : Generator} {project : Project} {t t' : FileTree} {s s' : Session}
  {out : BuildOutput} {other : String}

theorem LoadsFiles.readable (hloads : g.LoadsFiles)
    (h : (g.buildProject project).run.run s = (.ok out, s')) : Readable project s.files := by
  intro path hpath
  unfold Project.inputPath? at hpath
  split at hpath
  · rename_i location hsource
    cases hpath
    have hrun : g.buildProject project = g.build { source := some ⟨.file, location⟩ } := by
      rw [buildProject, hsource]
      rfl
    rw [hrun] at h
    obtain ⟨_, s₁, hgo, h⟩ := Job.run_bind_eq_ok h
    obtain ⟨document, s₂, hload, -⟩ := Job.run_bind_eq_ok h
    have hread := hloads location document s₁ s₂ (Job.run_within_eq_ok hload)
    rwa [Job.run_checkpoint_eq_ok hgo] at hread
  · cases hpath

/-- What `g` builds in `s` it builds from all files with the same `view`. -/
theorem Steady.buildsFrom (hsteady : g.Steady) (h : g.Builds project s out)
    (hview : project.view t = project.view s.files) : g.BuildsFrom project t out := by
  intro s₀ hpasses hfiles
  have hsame : project.view s.files = project.view s₀.files := by rw [hfiles, hview]
  rcases (hsteady.buildProject project).result s s₀ hpasses hsame with hresult | ⟨e, he, -⟩
  · exact hresult.symm.trans h
  · exact absurd (h.symm.trans he) (by simp)

section

variable (hwell : t.WellFormed) (htouched : Touched t other t')
  (hmeet : ∀ path ∈ project.inputPath? t, ¬ t.Meet path other)

include hwell htouched hmeet

/-- `Touched` keeps an input `Readable` that does not `Meet` the path. -/
theorem Readable.of_touched (h : Readable project t) : Readable project t' := by
  intro path hpath
  rw [project.inputPath?_eq_of_home htouched.filled.home] at hpath
  obtain ⟨content, hcontent⟩ := h path hpath
  exact ⟨content, htouched.read_eq hwell hcontent (hmeet path hpath)⟩

/-- `Touched` keeps the `view` of a project whose input does not `Meet` the path. -/
theorem Readable.view_eq (h : Readable project t) : project.view t' = project.view t := by
  rw [project.view_eq_map, project.view_eq_map,
    project.inputPath?_eq_of_home htouched.filled.home]
  cases hpath : project.inputPath? t with
  | none => rw [Option.map_none, Option.map_none]
  | some path =>
    obtain ⟨content, hread⟩ := h path hpath
    rw [Option.map_some, Option.map_some, hread,
      htouched.read_eq hwell hread (hmeet path hpath)]

/-- **`Touched` keeps a project `UpToDate`** whose paths do not `Meet` the one that is written. -/
theorem UpToDate.of_touched (h : g.UpToDate project t) (hsteady : g.Steady)
    (houtput : ¬ t.Meet project.outputPath other) : g.UpToDate project t' := by
  obtain ⟨out, hbuilds, hread⟩ := h.output
  refine ⟨h.input.of_touched hwell htouched hmeet, out, ?_, ?_⟩
  · exact hsteady.buildsFrom (hbuilds { files := t } rfl rfl)
      (h.input.view_eq hwell htouched hmeet)
  · exact htouched.read_eq hwell hread houtput

end

/-- **If `generateProject` succeeds, the output is what `buildProject` gave**: it was there already,
or it was stored. -/
theorem exists_build_of_generateProject (hsteady : g.Steady) (hconfirmer : g.ConfirmerKeepsFiles)
    (hwell : s.files.WellFormed) {name : String} {result : ProjectResult}
    (h : (g.generateProject name project).run s = ((result, none), s')) :
    ∃ out s₁, (g.buildProject project).run.run s = (.ok out, s₁) ∧
      (result.models = out.models.length ∧ result.skipped = out.skipped) ∧
      s'.files.read project.outputPath = .ok out.content.toUTF8 := by
  have hfiles := (hsteady.buildProject project).files s
  rcases hbuild : (g.buildProject project).run.run s with ⟨e | out, s₁⟩
  · rw [run_generateProject, hbuild] at h
    cases h
  · rw [hbuild] at hfiles
    refine ⟨out, s₁, rfl, ?_, ?_⟩
    · rw [run_generateProject, hbuild] at h
      dsimp only at h
      split at h
      · cases h
      · cases h
        exact ⟨rfl, rfl⟩
    · obtain ⟨outcome, houtcome, hreports⟩ :=
        generateProject_outcome hconfirmer (hfiles.symm ▸ hwell) hbuild
      rw [h] at houtcome hreports
      dsimp only at houtcome hreports
      cases outcome with
      | error e => cases hreports.of_error e rfl
      | ok written =>
        cases written with
        | false =>
          obtain ⟨rfl, hread⟩ := houtcome.of_false
          exact hread
        | true => exact houtcome.of_true.2.1.read_eq

/-- **If `generateProject` succeeds, the project is `UpToDate`**, provided that its input does not
`Meet` its output. -/
theorem upToDate_of_generateProject (hsteady : g.Steady) (hloads : g.LoadsFiles)
    (hconfirmer : g.ConfirmerKeepsFiles) (hwell : s.files.WellFormed) {name : String}
    {result : ProjectResult}
    (h : (g.generateProject name project).run s = ((result, none), s'))
    (hmeet : ∀ path ∈ project.inputPath? s.files, ¬ s.files.Meet path project.outputPath) :
    g.UpToDate project s'.files := by
  have htouched := generateProject_touched hsteady hconfirmer hwell h
  obtain ⟨out, s₁, hbuild, -, hread⟩ := exists_build_of_generateProject hsteady hconfirmer hwell h
  have hinput := hloads.readable hbuild
  refine ⟨hinput.of_touched hwell htouched hmeet, out, ?_, hread⟩
  exact hsteady.buildsFrom (congrArg Prod.fst hbuild) (hinput.view_eq hwell htouched hmeet)

end

/-! ### Projects that share no file -/

/-- The output of a project meets neither the output of another one nor the input of any. -/
structure Unshared (t : FileTree) (projects : List (String × Project)) : Prop where
  outputs : ∀ p ∈ projects, ∀ q ∈ projects, p.1 ≠ q.1 →
    ¬ t.Meet p.2.outputPath q.2.outputPath
  inputs : ∀ p ∈ projects, ∀ q ∈ projects, ∀ path ∈ p.2.inputPath? t,
    ¬ t.Meet path q.2.outputPath

section

variable {g : Generator} {t t' : FileTree} {projects more : List (String × Project)}
  {project : Project} {s s' : Session} {turns : List Turn} {stop : Option Error}

theorem Unshared.of_filled (h : Unshared t projects) (hfilled : Filled t t') :
    Unshared t' projects where
  outputs p hp q hq hne hmeet := h.outputs p hp q hq hne (hmeet.of_filled hfilled)
  inputs p hp q hq path hpath hmeet := by
    rw [p.2.inputPath?_eq_of_home hfilled.home] at hpath
    exact h.inputs p hp q hq path hpath (hmeet.of_filled hfilled)

theorem Unshared.of_subset (h : Unshared t more) (hsubset : ∀ p ∈ projects, p ∈ more) :
    Unshared t projects where
  outputs p hp q hq := h.outputs p (hsubset p hp) q (hsubset q hq)
  inputs p hp q hq := h.inputs p (hsubset p hp) q (hsubset q hq)

/-- **Turns of other projects keep a project `UpToDate`**, if their outputs do not `Meet` its paths.
-/
theorem UpToDate.of_turns (hturns : g.Turns projects s turns stop s')
    (h : g.UpToDate project s.files) (hsteady : g.Steady) (hconfirmer : g.ConfirmerKeepsFiles)
    (hwell : s.files.WellFormed)
    (hinput : ∀ p ∈ projects, ∀ path ∈ project.inputPath? s.files,
      ¬ s.files.Meet path p.2.outputPath)
    (houtput : ∀ p ∈ projects, ¬ s.files.Meet project.outputPath p.2.outputPath) :
    g.UpToDate project s'.files := by
  induction hturns with
  | done _ => exact h
  | @stopped _ _ _ s s' e hstop =>
    have hfiles := (Job.Quiet.checkpoint s).1
    rw [hstop] at hfiles
    exact hfiles ▸ h
  | @turn turn rest s s₁ s₂ s' turns stop go generate next ih =>
    have hfiles := files_logged_of_go go (startEvent turn.name)
    rw [← hfiles] at h hwell hinput houtput
    rw [files_logged] at ih
    have htouched := generateProject_touched hsteady hconfirmer hwell generate
    have hhead : (turn.name, turn.project) ∈ (turn.name, turn.project) :: rest :=
      List.mem_cons_self
    -- What does not meet before the turn does not meet behind it, either.
    refine ih ?_ (htouched.wellFormed hwell) ?_ ?_
    · exact h.of_touched hwell htouched (hinput (turn.name, turn.project) hhead) hsteady
        (houtput (turn.name, turn.project) hhead)
    · intro p hp path hpath hmeet
      rw [project.inputPath?_eq_of_home htouched.filled.home] at hpath
      exact hinput p (List.mem_cons_of_mem _ hp) path hpath (hmeet.of_filled htouched.filled)
    · intro p hp hmeet
      exact houtput p (List.mem_cons_of_mem _ hp) (hmeet.of_filled htouched.filled)

/-- **After the turns of `Unshared` projects, those without an error are `UpToDate`.** -/
theorem Turns.upToDate (hsteady : g.Steady) (hloads : g.LoadsFiles)
    (hconfirmer : g.ConfirmerKeepsFiles) (hwell : s.files.WellFormed)
    (hnames : (projects.map (·.1)).Nodup) (hunshared : Unshared s.files projects)
    (hturns : g.Turns projects s turns stop s') :
    ∀ turn ∈ turns, turn.error = none → g.UpToDate turn.project s'.files := by
  induction hturns with
  | done _ => simp
  | stopped _ => simp
  | @turn turn rest s s₁ s₂ s' turns stop go generate next ih =>
    have hfiles := files_logged_of_go go (startEvent turn.name)
    rw [← hfiles] at hwell hunshared
    rw [files_logged] at ih
    have htouched := generateProject_touched hsteady hconfirmer hwell generate
    have hhead : (turn.name, turn.project) ∈ (turn.name, turn.project) :: rest :=
      List.mem_cons_self
    have hlater : Unshared s₂.files ((turn.name, turn.project) :: rest) :=
      hunshared.of_filled htouched.filled
    obtain ⟨hnew, hrest⟩ := List.nodup_cons.1 hnames
    intro other hother herror
    rcases List.mem_cons.1 hother with rfl | hother
    · -- Up to date after its own turn, a project stays so during the turns behind it.
      rw [herror] at generate
      have hdone := upToDate_of_generateProject hsteady hloads hconfirmer hwell generate
        (hunshared.inputs (other.name, other.project) hhead (other.name, other.project) hhead)
      refine .of_turns next hdone hsteady hconfirmer (htouched.wellFormed hwell) ?_ ?_
      · intro p hp
        exact hlater.inputs (other.name, other.project) hhead p (List.mem_cons_of_mem _ hp)
      · intro p hp
        refine hlater.outputs (other.name, other.project) hhead p (List.mem_cons_of_mem _ hp) ?_
        exact fun hname => hnew (List.mem_map.2 ⟨p, hp, hname.symm⟩)
    · exact ih (htouched.wellFormed hwell) hrest
        (hlater.of_subset fun p hp => List.mem_cons_of_mem _ hp) other hother herror

end

/-! ### Runs -/

/-- **No output is lost in a run.**  If the projects are `Unshared`, then after `g.run c` the output
of every project in the summary is what `g` builds from its input. -/
theorem run_keeps_outputs {c : Config} (hnames : (c.projects.map (·.1)).Nodup) {g : Generator}
    (hsteady : g.Steady) (hloads : g.LoadsFiles) (hconfirmer : g.ConfirmerKeepsFiles)
    {s : Session} (hwell : s.files.WellFormed) (hunshared : Unshared s.files c.projects) :
    ∀ result ∈ ((g.run c).run s).1.1.projects, ∃ project out,
      c.project? result.name = some project ∧ result.outputPath = project.outputPath ∧
      g.Builds project { ((g.run c).run s).2 with passes := none } out ∧
      ((g.run c).run s).2.files.read result.outputPath = .ok out.content.toUTF8 := by
  obtain ⟨turns, stop, hturns, hrun⟩ := run_turns g c s
  rw [hrun]
  intro result hresult
  obtain ⟨turn, hturn, rfl⟩ := List.mem_map.1 hresult
  obtain ⟨hturn, herror⟩ := List.mem_filter.1 hturn
  have hupToDate := hturns.upToDate hsteady hloads hconfirmer hwell (nodup_ordered hnames)
    (hunshared.of_subset fun p => mem_of_mem_ordered)
  obtain ⟨out, hbuilds, hread⟩ :=
    (hupToDate turn hturn (Option.isNone_iff_eq_none.1 herror)).output
  refine ⟨turn.project, out, ?_, hturns.outputPath_result turn hturn, ?_, ?_⟩
  · rw [hturns.name_result turn hturn, hturns.project?_eq turn hturn]
  · exact hbuilds _ rfl rfl
  · rw [hturns.outputPath_result turn hturn, hread]

end Generator

/-! ### The loader of the program -/

theorem OpenApi.Loader.readable_of_load (l : Loader) {location : String} {document : Document}
    {s s' : Session} (h : (l.load (some ⟨.file, location⟩)).run.run s = (.ok document, s')) :
    ∃ content, s.files.readAbsolute location = .ok content := by
  obtain ⟨_, s₁, hgo, h⟩ := Job.run_bind_eq_ok h
  obtain ⟨bytes, s₂, hfetch, -⟩ := Job.run_bind_eq_ok h
  unfold fetch fetchFile at hfetch
  dsimp only at hfetch
  split at hfetch
  · cases hfetch
  · obtain ⟨_, s₃, hgo', hfetch⟩ := Job.run_bind_eq_ok hfetch
    obtain ⟨s₄, _, hget, hfetch⟩ := Job.run_bind_eq_ok hfetch
    cases hget
    have hread := (Job.run_within_ofExcept_eq_ok hfetch).1
    rw [Job.run_checkpoint_eq_ok hgo', Job.run_checkpoint_eq_ok hgo] at hread
    exact ⟨bytes, hread⟩

/-- The generator of the program satisfies `LoadsFiles`. -/
theorem Command.generator_loadsFiles (s : Surroundings) (o : GenerateOptions) :
    (Command.generator s o).LoadsFiles :=
  fun _ _ _ _ h => OpenApi.Loader.readable_of_load _ h

namespace Generator

/-! ### Two projects -/

/-- A renderer that writes the name of each model. -/
def nameRenderer : Renderer where
  name := "name"
  render _ m := pure m.name

/-- A generator that reads one model from any document, with the location as its name. -/
def locationGenerator : Generator where
  load := OpenApi.Loader.load {}
  read document := pure { models := [{ name := document.location }] }
  registry := ⟨[nameRenderer]⟩
  pipeline := ["name"]
  layout := ⟨Layout.standardParts, []⟩

theorem steady_locationGenerator : locationGenerator.Steady where
  load := OpenApi.Loader.steady_load {}
  read _ := (Job.closed_steady _).pure _
  render := by
    intro r hr honorRequired m
    rw [List.mem_singleton.1 hr]
    exact (Job.closed_steady _).pure _

/-- Two projects with a document each, and the output directories `first` and `second`. -/
def outputsConfig (first second : String) : Config :=
  pairConfig (fileProject "a.json" first) (fileProject "b.json" second)

/-- A session with both documents. -/
def outputsSession : Session where
  files :=
    { entries := [
        (["a.json"], .file "{}".toUTF8 readable),
        (["b.json"], .file "{}".toUTF8 readable)] }

theorem wellFormed_outputsSession : outputsSession.files.WellFormed := by
  refine wellFormed_of_entries ?_ rfl
  intro e he _
  simp only [outputsSession, List.mem_cons, List.not_mem_nil, or_false] at he
  rcases he with rfl | rfl <;> rfl

theorem get?_outputsSession_ne_link (names : List String) (target : String) :
    outputsSession.files.get? names ≠ some (.link target) := by
  refine get?_ne_link (fun e he target => ?_) names target
  simp only [outputsSession, List.mem_cons, List.not_mem_nil, or_false] at he
  rcases he with rfl | rfl <;> simp

theorem unshared_outputsConfig :
    Unshared outputsSession.files (outputsConfig "out" "out/deep").projects := by
  have houtputs : ∀ p ∈ (outputsConfig "out" "out/deep").projects,
      ∀ q ∈ (outputsConfig "out" "out/deep").projects, p.1 ≠ q.1 →
        outputsSession.files.placeOf p.2.outputPath ≠
          outputsSession.files.placeOf q.2.outputPath := by
    decide +kernel
  have hinputs : ∀ p ∈ (outputsConfig "out" "out/deep").projects,
      ∀ q ∈ (outputsConfig "out" "out/deep").projects,
      ∀ path ∈ p.2.inputPath? outputsSession.files,
        outputsSession.files.placeOf path ≠ outputsSession.files.placeOf q.2.outputPath := by
    decide +kernel
  refine ⟨fun p hp q hq hne hmeet => ?_, fun p hp q hq path hpath hmeet => ?_⟩
  · exact houtputs p hp q hq hne (hmeet.placeOf_eq get?_outputsSession_ne_link)
  · exact hinputs p hp q hq path hpath (hmeet.placeOf_eq get?_outputsSession_ne_link)

theorem run_keeps_outputs_outputsConfig :
    ((locationGenerator.run (outputsConfig "out" "out/deep")).run outputsSession).1.1.projects.map
        (·.name) = ["a", "b"] ∧
      ∀ result ∈ ((locationGenerator.run (outputsConfig "out" "out/deep")).run
          outputsSession).1.1.projects, ∃ project out,
        (outputsConfig "out" "out/deep").project? result.name = some project ∧
        result.outputPath = project.outputPath ∧
        locationGenerator.Builds project
          { ((locationGenerator.run (outputsConfig "out" "out/deep")).run outputsSession).2 with
            passes := none } out ∧
        ((locationGenerator.run (outputsConfig "out" "out/deep")).run outputsSession).2.files.read
          result.outputPath = .ok out.content.toUTF8 := by
  refine ⟨?_, run_keeps_outputs (nodup_pairConfig _ _) steady_locationGenerator
    (fun _ _ _ _ h => OpenApi.Loader.readable_of_load _ h) (fun _ h => nomatch h)
    wellFormed_outputsSession unshared_outputsConfig⟩
  unfold run
  rw [outputsConfig, ordered_pairConfig]
  decide +kernel

theorem exists_builds {g : Generator} {project : Project} {s : Session} {content : String}
    (h : ((g.buildProject project).run.run s).1.toOption.map (·.content) = some content) :
    ∃ out, g.Builds project s out ∧ out.content = content := by
  unfold Builds
  cases hrun : ((g.buildProject project).run.run s).1 with
  | error e =>
    rw [hrun] at h
    cases h
  | ok out =>
    rw [hrun] at h
    exact ⟨out, rfl, Option.some.inj h⟩

/-- Two projects that write to `out` and `./out` are generated without an error, and the output of
the first one is lost. -/
theorem run_loses_output :
    (outputsConfig "out" "./out").validate = .ok () ∧ locationGenerator.check = false ∧
      (∀ p ∈ (outputsConfig "out" "./out").projects, ∀ q ∈ (outputsConfig "out" "./out").projects,
        ∀ path ∈ p.2.inputPath? outputsSession.files,
          ¬ outputsSession.files.Meet path q.2.outputPath) ∧
      ((locationGenerator.run (outputsConfig "out" "./out")).run outputsSession).1.2.isNone = true ∧
      ∃ result ∈ ((locationGenerator.run (outputsConfig "out" "./out")).run
          outputsSession).1.1.projects, ∃ project out,
        (outputsConfig "out" "./out").project? result.name = some project ∧
        locationGenerator.Builds project
          { ((locationGenerator.run (outputsConfig "out" "./out")).run outputsSession).2 with
            passes := none } out ∧
        ((locationGenerator.run (outputsConfig "out" "./out")).run outputsSession).2.files.read
          result.outputPath ≠ .ok out.content.toUTF8 := by
  have hplaces : ∀ p ∈ (outputsConfig "out" "./out").projects,
      ∀ q ∈ (outputsConfig "out" "./out").projects, ∀ path ∈ p.2.inputPath? outputsSession.files,
        outputsSession.files.placeOf path ≠ outputsSession.files.placeOf q.2.outputPath := by
    decide +kernel
  have hresult : ∃ result ∈ ((locationGenerator.run (outputsConfig "out" "./out")).run
      outputsSession).1.1.projects, result.name = "a" ∧ result.outputPath = "out/models.ts" := by
    unfold run
    rw [outputsConfig, ordered_pairConfig]
    decide +kernel
  have hbuild : ((locationGenerator.buildProject (fileProject "a.json" "out")).run.run
      { ((locationGenerator.run (outputsConfig "out" "./out")).run outputsSession).2 with
        passes := none }).1.toOption.map (·.content) = some "\na.json\n\n" := by
    unfold run
    rw [outputsConfig, ordered_pairConfig]
    decide +kernel
  have hread : (((locationGenerator.run (outputsConfig "out" "./out")).run
      outputsSession).2.files.read "out/models.ts").toOption.map (·.data) =
        some "\nb.json\n\n".toUTF8.data := by
    unfold run
    rw [outputsConfig, ordered_pairConfig]
    decide +kernel
  refine ⟨by decide +kernel, rfl, fun p hp q hq path hpath hmeet => ?_, ?_, ?_⟩
  · exact hplaces p hp q hq path hpath (hmeet.placeOf_eq get?_outputsSession_ne_link)
  · unfold run
    rw [outputsConfig, ordered_pairConfig]
    decide +kernel
  · obtain ⟨result, hmem, hname, hpath⟩ := hresult
    obtain ⟨out, hout, hcontent⟩ := exists_builds hbuild
    refine ⟨result, hmem, fileProject "a.json" "out", out, ?_, hout, ?_⟩
    · rw [hname]
      rfl
    · intro hsame
      rw [hpath] at hsame
      rw [hsame, hcontent] at hread
      exact absurd hread (by decide +kernel)

end Generator

end SchemaPress
