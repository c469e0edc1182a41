import SchemaPress.Proofs.Files.Meeting
import SchemaPress.Proofs.Generation.Project
import SchemaPress.Proofs.Generation.Steady

/-!
# What generating a project does to the files

Generating a project does one of three things to the files, which `Touched` tells: nothing, some
directories are made, or its own file is stored (`generateProject_touched`).
-/

namespace SchemaPress

open FileTree

/-- What becomes of `t` while something is written to `path`: it stays, it has `Grown` because
`path` is `Obstructed`, or a file is `Stored` where there was a file or nothing. -/
inductive FileTree.Touched (t : FileTree) (path : String) : FileTree → Prop
  | kept : Touched t path t
  | grown {t' : FileTree} {place : List String} (obstructed : t.Obstructed path)
      (wellFormed : t'.WellFormed) (grown : Grown t t' place) : Touched t path t'
  | stored {t' : FileTree} {content : ByteArray} (stored : Stored t t' path content)
      (missing : ∀ e, t.read path = .error e → e.fault.isMissing = true) : Touched t path t'

namespace FileTree

variable {t t' : FileTree} {path other : String} {content : ByteArray}

theorem Stored.exists_placed (h : Stored t t' path content) :
    ∃ spot, Placed t t' spot ∧ t'.find true path = .ok (.taken spot (.file content readable)) := by
  obtain ⟨spot, hfind, hother⟩ := h.place
  exact ⟨spot, ⟨⟨content, readable, (reaches_of_find hfind).2⟩, hother⟩, hfind⟩

theorem Touched.wellFormed (h : Touched t path t') (hwell : t.WellFormed) : t'.WellFormed := by
  cases h with
  | kept => exact hwell
  | grown _ wellFormed _ => exact wellFormed
  | stored stored _ => exact stored.wellFormed

theorem Touched.filled (h : Touched t path t') : Filled t t' := by
  cases h with
  | kept => exact ⟨rfl, fun _ => .inl rfl⟩
  | grown _ _ grown => exact grown.filled
  | stored stored _ =>
    obtain ⟨spot, hplaced, -⟩ := stored.exists_placed
    exact hplaced.filled stored.home

/-- `Touched` keeps a file whose path does not `Meet` the one that is written. -/
theorem Touched.read_eq (h : Touched t other t') (hwell : t.WellFormed)
    (hread : t.read path = .ok content) (hmeet : ¬ t.Meet path other) :
    t'.read path = .ok content := by
  have hfilled := h.filled
  cases h with
  | kept => exact hread
  | grown _ _ grown => exact grown.read_eq hread
  | stored stored missing =>
    obtain ⟨spot, hplaced, hfind⟩ := stored.exists_placed
    exact hplaced.read_eq hwell stored.home hfind (Generator.find_ne_directory missing)
      (Generator.find_ne_error missing rfl) hread fun hmeet' => hmeet (hmeet'.of_filled hfilled)

end FileTree

namespace Generator

section

variable {g : Generator} {s s' : Session} {path : String}

/-- If `writeOutput` succeeds, there was a file at `path`, or nothing. -/
theorem missing_of_writeOutput {project : String} {content : ByteArray} {overwrite written : Bool}
    (h : (g.writeOutput project path content overwrite).run.run s = (.ok written, s')) :
    ∀ e, s.files.read path = .error e → e.fault.isMissing = true := by
  obtain ⟨existing, s₁, hexisting, -⟩ := Job.run_bind_eq_ok h
  exact (run_existing_eq_ok hexisting).2

theorem writeOutput_touched {rooted : Bool} {names : List String} (hwell : s.files.WellFormed)
    (hconfirmer : g.ConfirmerKeepsFiles) (hclean : Path.IsClean rooted (names ++ [outputFile]))
    (hpath : path = Path.ofNames rooted (names ++ [outputFile])) (project : String)
    (content : ByteArray) (overwrite : Bool) :
    Touched s.files path
      ((g.writeOutput project path content overwrite).run.run s).2.files := by
  have houtcome : WriteOutcome g project path content overwrite s _ _ :=
    writeOutput_outcome hwell hconfirmer hclean hpath
  have hsame {s' : Session} (hfiles : s'.files = s.files) : Touched s.files path s'.files :=
    hfiles ▸ .kept
  rcases hrun : (g.writeOutput project path content overwrite).run.run s with ⟨outcome, s'⟩
  rw [hrun] at houtcome
  dsimp only at houtcome ⊢
  cases houtcome with
  | same _ _ => exact .kept
  | kept _ _ => exact .kept
  | refused _ known run _ _ =>
    have hfiles := hconfirmer _ known project path s
    rw [run] at hfiles
    exact hsame hfiles
  | failed consent _ => exact hsame (consent.files_eq hconfirmer)
  | stored _ _ _ _ stored => exact .stored stored (missing_of_writeOutput hrun)
  | obstructed _ _ obstructed wellFormed grown _ _ => exact .grown obstructed wellFormed grown

/-- **`generateProject` touches `project.outputPath` only.** -/
theorem generateProject_touched (hsteady : g.Steady) (hconfirmer : g.ConfirmerKeepsFiles)
    (hwell : s.files.WellFormed) {name : String} {project : Project}
    {outcome : ProjectResult × Option Error}
    (h : (g.generateProject name project).run s = (outcome, s')) :
    Touched s.files project.outputPath s'.files := by
  obtain ⟨rooted, names, hclean, hpath⟩ := project.isClean_outputPath
  have hfiles := (hsteady.buildProject project).files s
  rw [run_generateProject] at h
  rcases hbuild : (g.buildProject project).run.run s with ⟨e | out, s₁⟩
  · rw [hbuild] at hfiles h
    cases h
    exact hfiles ▸ .kept
  · rw [hbuild] at hfiles h
    dsimp only at hfiles h
    rw [← hfiles] at hwell ⊢
    have htouched := writeOutput_touched hwell hconfirmer hclean hpath name out.content.toUTF8
      project.output.mayOverwrite
    rcases hwrite : (g.writeOutput name project.outputPath out.content.toUTF8
      project.output.mayOverwrite).run.run s₁ with ⟨e | written, s₂⟩
    all_goals
      rw [hwrite] at htouched h
      cases h
      exact htouched

end

end Generator

end SchemaPress
