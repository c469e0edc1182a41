import SchemaPress.Proofs.Generation.Outputs

/-!
# Generating a project again

A project that was generated is not written a second time, and nobody is asked about it, whatever is
said about overwriting.  Checking a project tells whether generating it would write anything
(`generateProject_idempotent`).

Both rest on one fact: nothing is written exactly if the file is already what is built
(`unwritten_iff`).  Neither the checking nor the one who is asked has a part in that, and building
does not look at them.
-/

namespace SchemaPress

/-- The project with the given `output.overwrite`. -/
def Project.withOverwrite (p : Project) (overwrite : Option Bool) : Project :=
  { p with output := { p.output with overwrite } }

namespace Generator

open FileTree

variable {g : Generator} {name : String} {project : Project} {path : String} {content : ByteArray}
  {overwrite : Bool} {s s' : Session} {out : BuildOutput} {result : ProjectResult}

/-! ### Files that are there already -/

theorem run_writeOutput_of_same (h : s.files.read path = .ok content) :
    (g.writeOutput name path content overwrite).run.run s = (.ok false, s) := by
  unfold writeOutput
  rw [Job.run_bind, run_existing, h]
  dsimp only
  rw [if_pos (by simp)]
  rfl

/-- If `writeOutput` answers `false`, the file was there already. -/
theorem read_of_run_writeOutput_eq_false
    (h : (g.writeOutput name path content overwrite).run.run s = (.ok false, s')) :
    s.files.read path = .ok content := by
  obtain ⟨existing, s₁, hexisting, h⟩ := Job.run_bind_eq_ok h
  by_cases hsame : existing.any (·.data == content.data) = true
  · rw [run_existing] at hexisting
    split at hexisting
    · rename_i old hread
      cases hexisting
      have heq : old = content := by simpa [ByteArray.ext_iff] using hsame
      rw [hread, heq]
    · split_ifs at hexisting
      · cases hexisting
        cases hsame
      · cases hexisting
  · -- Each of the other ways ends with an error or with a file that is written.
    rw [if_neg hsame] at h
    by_cases hcheck : g.check = true
    · rw [if_pos hcheck] at h
      obtain ⟨_, _, hthrow, -⟩ := Job.run_bind_eq_ok h
      cases hthrow
    rw [if_neg hcheck] at h
    by_cases hask : (existing.isSome && !overwrite) = true
    · rw [if_pos hask] at h
      obtain ⟨_, _, -, h⟩ := Job.run_bind_eq_ok h
      obtain ⟨_, _, -, h⟩ := Job.run_bind_eq_ok h
      cases h
    · rw [if_neg hask] at h
      obtain ⟨_, _, -, h⟩ := Job.run_bind_eq_ok h
      cases h

/-- With `g.check`, `writeOutput` changes nothing and does not answer `true`. -/
theorem run_writeOutput_of_check (hcheck : g.check = true) (name path : String)
    (content : ByteArray) (overwrite : Bool) (s : Session) :
    ((g.writeOutput name path content overwrite).run.run s).2 = s ∧
      ((g.writeOutput name path content overwrite).run.run s).1 ≠ .ok true := by
  by_cases hsame : s.files.read path = .ok content
  · rw [run_writeOutput_of_same hsame]
    exact ⟨rfl, by simp⟩
  unfold writeOutput
  rw [Job.run_bind, run_existing]
  rcases hread : s.files.read path with e | old
  · dsimp only
    by_cases hmissing : e.fault.isMissing = true
    · rw [if_pos hmissing]
      dsimp only
      rw [if_neg (by simp), if_pos hcheck, Job.run_bind, Job.run_throw]
      exact ⟨rfl, by simp⟩
    · rw [if_neg hmissing]
      exact ⟨rfl, by simp⟩
  · have hother : ¬ (some old).any (·.data == content.data) = true := by
      intro h
      refine hsame (hread.trans (congrArg Except.ok ?_))
      simpa [ByteArray.ext_iff] using h
    dsimp only
    rw [if_neg hother, if_pos hcheck, Job.run_bind, Job.run_throw]
    exact ⟨rfl, by simp⟩

/-- **If the output is what `buildProject` gives, `generateProject` does nothing but build.** -/
theorem run_generateProject_of_same {s₁ : Session}
    (hbuild : (g.buildProject project).run.run s = (.ok out, s₁))
    (hread : s₁.files.read project.outputPath = .ok out.content.toUTF8) :
    (g.generateProject name project).run s =
      (({ emptyResult name project with models := out.models.length, skipped := out.skipped },
        none), s₁) := by
  rw [run_generateProject, hbuild]
  dsimp only
  rw [run_writeOutput_of_same hread]
  rfl

/-- **`generateProject` succeeds without writing exactly if the output is what `buildProject`
gives.** -/
theorem unwritten_iff :
    (((g.generateProject name project).run s).1.2 = none ∧
        ((g.generateProject name project).run s).1.1.written = false) ↔
      ∃ out s₁, (g.buildProject project).run.run s = (.ok out, s₁) ∧
        s₁.files.read project.outputPath = .ok out.content.toUTF8 := by
  constructor
  · rintro ⟨herror, hwritten⟩
    rw [run_generateProject] at herror hwritten
    rcases hbuild : (g.buildProject project).run.run s with ⟨e | out, s₁⟩
    · rw [hbuild] at herror
      cases herror
    · rw [hbuild] at herror hwritten
      dsimp only at herror hwritten
      rcases hwrite : (g.writeOutput name project.outputPath out.content.toUTF8
        project.output.mayOverwrite).run.run s₁ with ⟨e | written, s₂⟩
      · rw [hwrite] at herror
        cases herror
      · rw [hwrite] at hwritten
        obtain rfl : written = false := hwritten
        exact ⟨out, s₁, rfl, read_of_run_writeOutput_eq_false hwrite⟩
  · rintro ⟨out, s₁, hbuild, hread⟩
    rw [run_generateProject_of_same hbuild hread]
    exact ⟨rfl, rfl⟩

/-- With `g.check`, nothing is written. -/
theorem written_of_check (hcheck : g.check = true) (name : String) (project : Project)
    (s : Session) :
    ((g.generateProject name project).run s).1.1.written = false := by
  rw [run_generateProject]
  rcases (g.buildProject project).run.run s with ⟨e | out, s₁⟩
  · rfl
  · dsimp only
    have hwrite := (run_writeOutput_of_check hcheck name project.outputPath
      out.content.toUTF8 project.output.mayOverwrite s₁).2
    split
    · rfl
    · rename_i written s₂ hrun
      rw [hrun] at hwrite
      simpa using hwrite

/-- With `g.check`, no file changes. -/
theorem files_of_check (hsteady : g.Steady) (hcheck : g.check = true) :
    ((g.generateProject name project).run s).2.files = s.files := by
  have hfiles := (hsteady.buildProject project).files s
  rw [run_generateProject]
  rcases hbuild : (g.buildProject project).run.run s with ⟨e | out, s₁⟩
  · rwa [hbuild] at hfiles
  · rw [hbuild] at hfiles
    dsimp only
    have hwrite := (run_writeOutput_of_check hcheck name project.outputPath
      out.content.toUTF8 project.output.mayOverwrite s₁).1
    split <;>
    · rename_i hrun
      rw [hrun] at hwrite
      dsimp only at hwrite
      rw [hwrite, ← hfiles]

/-! ### Building again -/

/-- `g.load` does not depend on the files. -/
def Detached (g : Generator) : Prop :=
  ∀ source, Job.Steady (fun _ => ()) (g.load (some source))

/-- **What `g` builds in `s`, it builds from `t'`**, if `t'` is `s.files` after a path was `Touched`
that the input does not `Meet`. -/
theorem Steady.buildsFrom_of_touched {other : String} {t' : FileTree} (hsteady : g.Steady)
    (hloads : g.LoadsFiles ∨ g.Detached) (hwell : s.files.WellFormed)
    (htouched : Touched s.files other t')
    (hmeet : ∀ path ∈ project.inputPath? s.files, ¬ s.files.Meet path other)
    (hbuild : (g.buildProject project).run.run s = (.ok out, s')) :
    g.BuildsFrom project t' out := by
  rcases hloads with hloads | hdetached
  · exact hsteady.buildsFrom (congrArg Prod.fst hbuild)
      ((hloads.readable hbuild).view_eq hwell htouched hmeet)
  · have hbuilds := hsteady.buildProject_of_load fun source (_ : project.input.source = _) =>
      hdetached source
    intro s₀ hpasses _
    rcases hbuilds.result s s₀ hpasses rfl with hresult | ⟨e, he, -⟩
    · exact hresult.symm.trans (congrArg Prod.fst hbuild)
    · exact absurd ((congrArg Prod.fst hbuild).symm.trans he) (by simp)

/-- **`generateProject` is idempotent, and `check` tells what it would do.**  After it has
succeeded, it succeeds again without writing, for all values of `check`, `confirmer` and
`overwrite`; it does what `buildProject` does, so nobody is asked and no file changes.

From any session, `generateProject` with `check` succeeds exactly if it succeeds without writing
when it may overwrite; and with `check` no file changes. -/
theorem generateProject_idempotent (hsteady : g.Steady) (hloads : g.LoadsFiles ∨ g.Detached)
    (hconfirmer : g.ConfirmerKeepsFiles) (name : String) (project : Project) (s : Session) :
    (∀ result s', s.files.WellFormed →
      (∀ path ∈ project.inputPath? s.files, ¬ s.files.Meet path project.outputPath) →
      (g.generateProject name project).run s = ((result, none), s') →
      ∀ check confirmer overwrite (s₂ : Session), s₂.passes = none → s₂.files = s'.files →
        ({ g with check, confirmer }.generateProject name (project.withOverwrite overwrite)).run
            s₂ =
          (({ result with written := false }, none), ((g.buildProject project).run.run s₂).2) ∧
        ((g.buildProject project).run.run s₂).2.files = s₂.files) ∧
      (((({ g with check := true }.generateProject name project).run s).1.2 = none ↔
        (({ g with check := false }.generateProject name
          (project.withOverwrite (some true))).run s).1.2 = none ∧
        (({ g with check := false }.generateProject name
          (project.withOverwrite (some true))).run s).1.1.written = false) ∧
      (({ g with check := true }.generateProject name project).run s).2.files = s.files) := by
  refine ⟨?_, ?_, ?_⟩
  · intro result s' hwell hmeet hfirst check confirmer overwrite s₂ hpasses hfiles
    have htouched := generateProject_touched hsteady hconfirmer hwell hfirst
    obtain ⟨out, s₁, hbuild, ⟨hmodels, hskipped⟩, hread⟩ :=
      exists_build_of_generateProject hsteady hconfirmer hwell hfirst
    have hagain : ((g.buildProject project).run.run s₂).1 = .ok out :=
      hsteady.buildsFrom_of_touched hloads hwell htouched hmeet hbuild s₂ hpasses hfiles
    have hkeeps := (hsteady.buildProject project).files s₂
    refine ⟨?_, hkeeps⟩
    -- Building looks neither at the settings of the generator nor at those of the output.
    have hsame : ({ g with check, confirmer }.buildProject
        (project.withOverwrite overwrite)).run.run s₂ =
          (.ok out, ((g.buildProject project).run.run s₂).2) :=
      Prod.ext hagain rfl
    have hthere : ((g.buildProject project).run.run s₂).2.files.read
        (project.withOverwrite overwrite).outputPath = .ok out.content.toUTF8 := by
      rw [hkeeps, hfiles]
      exact hread
    have hname := name_generateProject g name project s
    have hpath := outputPath_generateProject g name project s
    rw [hfirst] at hname hpath
    rw [run_generateProject_of_same hsame hthere, ← hmodels, ← hskipped]
    obtain ⟨_, _, _, _, _⟩ := result
    subst hname hpath
    rfl
  · have hunwritten := written_of_check (g := { g with check := true }) rfl name project s
    rw [unwritten_iff]
    exact (and_iff_left hunwritten).symm.trans unwritten_iff
  · exact files_of_check ⟨hsteady.load, hsteady.read, hsteady.render⟩ rfl

/-- The output is written once, and then neither written nor asked about, although `overwrite` is
not set and the confirmer refuses. -/
theorem generateProject_idempotent_outputsSession :
    ∃ result s',
      (locationGenerator.generateProject "a" (fileProject "a.json" "out")).run outputsSession =
        ((result, none), s') ∧ result.written = true ∧
      ({ locationGenerator with confirmer := some fun _ _ => pure false }.generateProject "a"
          ((fileProject "a.json" "out").withOverwrite (some false))).run
          { s' with passes := none } =
        (({ result with written := false }, none),
          ((locationGenerator.buildProject (fileProject "a.json" "out")).run.run
            { s' with passes := none }).2) := by
  have hplaces : ∀ path ∈ (fileProject "a.json" "out").inputPath? outputsSession.files,
      outputsSession.files.placeOf path ≠
        outputsSession.files.placeOf (fileProject "a.json" "out").outputPath := by
    decide +kernel
  have herror : ((locationGenerator.generateProject "a" (fileProject "a.json" "out")).run
      outputsSession).1.2.isNone = true := by
    decide +kernel
  have hwritten : ((locationGenerator.generateProject "a" (fileProject "a.json" "out")).run
      outputsSession).1.1.written = true := by
    decide +kernel
  rcases hrun : (locationGenerator.generateProject "a" (fileProject "a.json" "out")).run
    outputsSession with ⟨⟨result, error⟩, s'⟩
  rw [hrun] at herror hwritten
  obtain rfl : error = none := Option.isNone_iff_eq_none.1 herror
  refine ⟨result, s', rfl, hwritten, ?_⟩
  have hagain := generateProject_idempotent steady_locationGenerator
    (.inl fun _ _ _ _ h => OpenApi.Loader.readable_of_load _ h) (fun _ h => nomatch h) "a"
    (fileProject "a.json" "out") outputsSession
  refine (hagain.1 result s' wellFormed_outputsSession ?_ hrun false _ (some false)
    { s' with passes := none } rfl rfl).1
  exact fun path hpath hmeet => hplaces path hpath (hmeet.placeOf_eq get?_outputsSession_ne_link)

end Generator

end SchemaPress
