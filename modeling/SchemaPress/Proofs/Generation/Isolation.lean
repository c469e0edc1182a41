import SchemaPress.Proofs.Generation.Run
import SchemaPress.Proofs.Generation.Touched

/-!
# Projects do not disturb each other

Projects that are `Separated` are generated as if each was alone (`run_isolates`).  The files a run
starts with are kept beside those of each turn: what has changed since then is said by `Evolved`,
and a project that is out of the way of these changes goes the same way on both
(`generateProject_agrees`), so that one more turn changes one more file
(`generateProject_evolved`).

Links may be on the way to what a project uses, as long as they lead somewhere; projects are
separated by the places that their paths lead to.  Where a link leads nowhere until another project
makes a directory, the projects are not isolated (`run_not_isolated_through_link`).

Two errors may come from elsewhere: the work was cancelled, or the names for drafts are used up.
-/

namespace SchemaPress

open FileTree Generator

/-! ### Errors that come from outside -/

/-- The error of `createDraft` if all names are in use. -/
def Error.isOutOfDrafts (e : Error) : Bool :=
  e.has fun
    | .file ⟨_, _, .inUse⟩ => true
    | _ => false

/-- An error that other projects can cause: the cancellation, or `isOutOfDrafts`. -/
def Error.IsForeign (e : Error) : Prop :=
  e.isCancelled = true ∨ e.isOutOfDrafts = true

theorem Error.isForeign_within {activity : String} {e : Error} :
    (Error.within activity e).IsForeign ↔ e.IsForeign := by
  rw [IsForeign, isCancelled_within, isOutOfDrafts, has]
  rfl

namespace Job

variable {α β : Type} {x : Job α} {s s₀ : Session}

/-- `x` has the same result in `s` and `s₀`, or fails in `s` with a foreign error. -/
def Agrees (x : Job α) (s s₀ : Session) : Prop :=
  (x.run.run s).1 = (x.run.run s₀).1 ∨ ∃ e, (x.run.run s).1 = .error e ∧ e.IsForeign

theorem Steady.agrees {γ : Type} {view : FileTree → γ} (h : Steady view x)
    (hpasses : s₀.passes = none) (hview : view s.files = view s₀.files) : x.Agrees s s₀ := by
  rcases h.result s s₀ hpasses hview with hsame | ⟨e, he, hcancelled⟩
  · exact .inl hsame
  · exact .inr ⟨e, he, .inl hcancelled⟩

theorem Agrees.within (h : x.Agrees s s₀) (activity : String) :
    (Job.within activity x).Agrees s s₀ := by
  unfold Agrees
  rw [run_within, run_within]
  rcases h with hsame | ⟨e, he, hforeign⟩
  · exact .inl (congrArg (Except.mapError _) hsame)
  · exact .inr ⟨_, congrArg (Except.mapError _) he, Error.isForeign_within.2 hforeign⟩

theorem Agrees.bind {f : α → Job β} (h : x.Agrees s s₀)
    (hf : ∀ a s₁ s₂, x.run.run s = (.ok a, s₁) → x.run.run s₀ = (.ok a, s₂) →
      (f a).Agrees s₁ s₂) : (x >>= f).Agrees s s₀ := by
  unfold Agrees at h ⊢
  rw [run_bind, run_bind]
  rcases hrun : x.run.run s with ⟨r, s₁⟩
  rcases hrun₀ : x.run.run s₀ with ⟨r₀, s₂⟩
  rw [hrun, hrun₀] at h
  dsimp only at h
  rcases h with rfl | ⟨e, rfl, hforeign⟩
  · cases r with
    | error e => exact .inl rfl
    | ok a => exact hf a s₁ s₂ hrun hrun₀
  · exact .inr ⟨e, rfl, hforeign⟩

end Job

/-! ### Places of outputs -/

/-- The `names` are `Settled` at `directory`, they make a clean path with `outputFile`, and there is
no link at `directory ++ [outputFile]`. -/
structure FileTree.Output (t : FileTree) (rooted : Bool) (names directory : List String) :
    Prop where
  clean : Path.IsClean rooted (names ++ [outputFile])
  settled : t.Settled rooted names directory
  no_link : ∀ target, t.get? (directory ++ [outputFile]) ≠ some (.link target)

namespace FileTree.Output

variable {t t' : FileTree} {rooted : Bool} {names directory : List String} {content : ByteArray}

theorem front (h : t.Output rooted names directory) : Path.IsClean rooted names :=
  h.clean.sublist (List.sublist_append_left _ _)

theorem settled_concat (h : t.Output rooted names directory) :
    t.Settled rooted (names ++ [outputFile]) (directory ++ [outputFile]) :=
  h.settled.concat plain_outputFile h.no_link

theorem lookup (h : t.Output rooted names directory) (hwell : t.WellFormed) :
    Lookup t (directory ++ [outputFile])
      (t.find true (Path.ofNames rooted (names ++ [outputFile]))) :=
  h.settled_concat.lookup hwell h.clean.isName

theorem evolved {outputs : List (List String)} (h : t.Output rooted names directory)
    (hevolved : Evolved t t' outputs) : t'.Output rooted names directory :=
  ⟨h.clean, hevolved.settled h.settled, fun target => hevolved.ne_link (h.no_link target)⟩

/-- `Output` rules out `Obstructed`, since the names after a `Gap` are short. -/
theorem not_obstructed (h : t.Output rooted names directory) :
    ¬ t.Obstructed (Path.ofNames rooted (names ++ [outputFile])) := by
  rintro ⟨first, after, hgap, n, hn, hlong⟩
  rw [Path.isRooted_ofNames h.clean.isName, Path.parent_ofNames h.clean,
    Path.names_ofNames h.front.isName] at hgap
  exact Nat.not_lt.2 (h.settled.short_of_gap hgap n hn) hlong

/-- If the output can be read or is missing, there is no directory in its place. -/
theorem get?_ne_directory (h : t.Output rooted names directory) (hwell : t.WellFormed)
    (hread : ∀ e, t.read (Path.ofNames rooted (names ++ [outputFile])) = .error e →
      e.fault.isMissing = true) :
    t.get? (directory ++ [outputFile]) ≠ some .directory := by
  intro hdirectory
  exact find_ne_directory hread _ ((h.lookup hwell).eq_of_entry hwell hdirectory)

/-- `Stored` at an `Output` is `Evolved` with the place of the output. -/
theorem evolved_of_stored (h : t.Output rooted names directory) (hwell : t.WellFormed)
    (hread : ∀ e, t.read (Path.ofNames rooted (names ++ [outputFile])) = .error e →
      e.fault.isMissing = true)
    (hstored : Stored t t' (Path.ofNames rooted (names ++ [outputFile])) content) :
    Evolved t t' [directory ++ [outputFile]] := by
  obtain ⟨spot, hfind, hother⟩ := hstored.place
  rw [find_ofNames h.clean.isName] at hfind
  obtain ⟨hreaches, hplace⟩ := reaches_of_locate hfind
  -- The path leads to the file now, and it has led there before.
  have hspot : spot = directory ++ [outputFile] := by
    have hplaced : Placed t t' spot := ⟨⟨content, readable, hplace⟩, hother⟩
    have hleads := hreaches.leadsTo.of_filled (hplaced.filled hstored.home)
    rw [start_eq_of_home hstored.home] at hleads
    exact h.settled.eq_of_leadsTo plain_outputFile h.no_link hleads
  subst hspot
  refine ⟨hstored.wellFormed, hstored.home, fun other => ?_⟩
  by_cases hhere : other = directory ++ [outputFile]
  · subst hhere
    exact .inr (.inr ⟨List.mem_singleton_self _, ⟨h.get?_ne_directory hwell hread, h.no_link⟩,
      content, readable, hplace⟩)
  · refine (hother other hhere).imp_right fun ⟨hnone, hdirectory, hway⟩ => .inl ?_
    exact ⟨hnone, hdirectory, _, List.mem_singleton_self _, hway⟩

theorem evolved_of_touched (h : t.Output rooted names directory) (hwell : t.WellFormed)
    (htouched : Touched t (Path.ofNames rooted (names ++ [outputFile])) t') :
    Evolved t t' [directory ++ [outputFile]] := by
  cases htouched with
  | kept => exact .refl hwell _
  | grown obstructed _ _ => exact absurd obstructed h.not_obstructed
  | stored stored missing => exact h.evolved_of_stored hwell missing stored

end FileTree.Output

/-- `path` is an `Output` path, and `place` is that of its file. -/
def FileTree.OutputAt (t : FileTree) (path : String) (place : List String) : Prop :=
  ∃ rooted names directory, path = Path.ofNames rooted (names ++ [outputFile]) ∧
    place = directory ++ [outputFile] ∧ t.Output rooted names directory

namespace Generator

/-- `directory` is there, and all `maxDrafts` names for drafts in it are in use. -/
structure DraftsInUse (t : FileTree) (directory : List String) : Prop where
  exists_directory : t.get? directory = some .directory
  used : ∀ n < maxDrafts, t.get? (directory ++ [draftName draftStem ".tmp" n]) ≠ none

section

variable {s : Session} {rooted : Bool} {names directory : List String}

theorem run_store_of_draftsInUse (h : s.files.Output rooted names directory)
    (hwell : s.files.WellFormed) (hused : DraftsInUse s.files directory) (content : ByteArray) :
    ∃ e, ((store (Path.ofNames rooted (names ++ [outputFile])) content).run.run s).1 = .error e ∧
      e.isOutOfDrafts = true := by
  obtain ⟨links, hwalk⟩ := h.settled.walk hwell hused.exists_directory
  rw [run_store, Path.parent_ofNames h.clean, hwalk.ensureDirectories h.front]
  dsimp only
  rw [createDraft_of_inUse hwalk h.front.isName areDraftNames hused.used]
  exact ⟨_, rfl, rfl⟩

/-- If the output can be read or is missing, its directory is there or there is a `Gap` with short
names. -/
theorem directory_or_gap (h : s.files.Output rooted names directory) (hwell : s.files.WellFormed)
    (hread : ∀ e, s.files.read (Path.ofNames rooted (names ++ [outputFile])) = .error e →
      e.fault.isMissing = true) :
    s.files.get? directory = some .directory ∨
      ∃ first after, s.files.Gap rooted names first after ∧
        ∀ n ∈ after, n.utf8ByteSize ≤ maxNameSize := by
  have hlookup := h.lookup hwell
  have hnotDirectory := find_ne_directory hread
  have hnotBlocked : s.files.find true (Path.ofNames rooted (names ++ [outputFile])) ≠
      .error .notDirectory := find_ne_error hread rfl
  -- The place is free, so the directory is there or nothing is from some name on.
  have hfree (hfree : s.files.Free (directory ++ [outputFile])) :
      s.files.get? directory = some .directory ∨
        ∃ first after, s.files.Gap rooted names first after ∧
          ∀ n ∈ after, n.utf8ByteSize ≤ maxNameSize := by
    have hway : directory <+: directory ++ [outputFile] := List.prefix_append _ _
    refine (hfree.way _ hway).imp_right fun hnone => ?_
    exact h.settled.gap hwell ⟨hnone, fun front hfront => hfree.way front (hfront.trans hway)⟩
  generalize s.files.find true (Path.ofNames rooted (names ++ [outputFile])) = found at *
  cases hlookup with
  | directory _ => exact absurd rfl (hnotDirectory _)
  | file h => exact .inl (hwell.parent _ _ _ h)
  | blocked _ _ _ => exact absurd rfl hnotBlocked
  | vacant h => exact hfree h
  | missing h => exact hfree h

/-- If the output can be read or is missing, `store` succeeds, unless `DraftsInUse`. -/
theorem run_store_of_output (h : s.files.Output rooted names directory)
    (hwell : s.files.WellFormed)
    (hread : ∀ e, s.files.read (Path.ofNames rooted (names ++ [outputFile])) = .error e →
      e.fault.isMissing = true)
    (hunused : ¬ DraftsInUse s.files directory) (content : ByteArray) :
    ((store (Path.ofNames rooted (names ++ [outputFile])) content).run.run s).1 = .ok () := by
  rcases directory_or_gap h hwell hread with hdirectory | ⟨first, after, hgap, hshort⟩
  · -- The directory is there, so nothing can fail but the search for a name for the draft.
    obtain ⟨links, hwalk⟩ := h.settled.walk hwell hdirectory
    have hlocate : s.files.find true (Path.ofNames rooted (names ++ [outputFile])) =
        s.files.locate true links directory [outputFile] := hwalk.find_concat h.clean.isName
    rcases run_store_of_made h.clean (hwalk.ensureDirectories h.front) hwell hwalk
        (fun place => hlocate ▸ find_ne_directory hread place)
        (hlocate ▸ find_ne_error hread rfl) content with
      ⟨e, e', hcreate, -⟩ | ⟨t', hrun, -⟩
    · refine absurd ⟨hdirectory, fun n hn hfree => ?_⟩ hunused
      obtain ⟨draft, hdraft⟩ := createDraft_isOk hwalk h.front.isName areDraftNames hn hfree
      rw [hdraft] at hcreate
      cases hcreate
    · rw [hrun]
  · -- It is made, and then all names in it are free.
    obtain ⟨t', hrun, -⟩ := run_store_of_gap hwell h.clean hgap hshort content
    rw [hrun]

end

/-! ### One project in two sessions -/

/-- The confirmer of `g` changes no file, and unless it is cancelled its answer depends on project
and path alone. -/
def ConfirmerSteady (g : Generator) : Prop :=
  ∀ confirmer, g.confirmer = some confirmer →
    ∀ project path, Job.Steady (fun _ => ()) (confirmer project path)

theorem ConfirmerSteady.keepsFiles {g : Generator} (h : g.ConfirmerSteady) :
    g.ConfirmerKeepsFiles :=
  fun confirmer hknown project path => (h confirmer hknown project path).files

section

variable {g : Generator} {s s₀ : Session} {outputs : List (List String)} {rooted : Bool}
  {names directory : List String}

theorem DraftsInUse.evolved (hused : DraftsInUse s₀.files directory)
    (h : Evolved s₀.files s.files outputs)
    (hapart : ∀ output ∈ outputs, Apart output (directory ++ [outputFile])) :
    DraftsInUse s.files directory := by
  refine ⟨?_, fun n hn hnone => ?_⟩
  · rcases h.get?_of_apart hapart (List.prefix_append directory _) with hsame | ⟨-, hnone, -⟩
    · rw [hsame, hused.exists_directory]
    · rw [hused.exists_directory] at hnone
      cases hnone
  · -- Nothing is ever removed, so a name that was in use still is.
    rcases h.entry (directory ++ [draftName draftStem ".tmp" n]) with
      hsame | ⟨-, hdirectory, -⟩ | ⟨-, -, content, mode, hfile⟩
    · exact hused.used n hn (hsame ▸ hnone)
    · rw [hnone] at hdirectory
      cases hdirectory
    · rw [hnone] at hfile
      cases hfile

theorem store_agrees (hwell : s₀.files.WellFormed) (h : Evolved s₀.files s.files outputs)
    (houtput : s₀.files.Output rooted names directory)
    (hapart : ∀ output ∈ outputs, Apart output (directory ++ [outputFile]))
    (hread : ∀ e, s₀.files.read (Path.ofNames rooted (names ++ [outputFile])) = .error e →
      e.fault.isMissing = true) (content : ByteArray) :
    (store (Path.ofNames rooted (names ++ [outputFile])) content).Agrees s s₀ := by
  have hsame := h.read_eq hwell houtput.clean.isName houtput.settled_concat hapart
  by_cases hused : DraftsInUse s.files directory
  · obtain ⟨e, he, hdrafts⟩ :=
      run_store_of_draftsInUse (houtput.evolved h) h.wellFormed hused content
    exact .inr ⟨e, he, .inr hdrafts⟩
  · -- What is in use was there at first or is new, so that more names were free at first.
    have hunused : ¬ DraftsInUse s₀.files directory := fun hused₀ =>
      hused (hused₀.evolved h hapart)
    left
    rw [run_store_of_output (houtput.evolved h) h.wellFormed (hsame ▸ hread) hused,
      run_store_of_output houtput hwell hread hunused]

theorem confirmOverwrite_agrees (hconfirmer : g.ConfirmerSteady) (hpasses : s₀.passes = none)
    (project path : String) : (g.confirmOverwrite project path).Agrees s s₀ := by
  unfold confirmOverwrite
  cases hknown : g.confirmer with
  | none => exact .inl rfl
  | some confirmer =>
    have hsteady := (hconfirmer confirmer hknown project path).within "confirm overwrite"
    refine (hsteady.agrees hpasses rfl).bind fun yes _ _ _ _ => ?_
    cases yes <;> exact .inl rfl

/-- `confirmOverwrite` changes no file. -/
theorem files_confirmOverwrite (hconfirmer : g.ConfirmerSteady) (project path : String)
    (s : Session) : ((g.confirmOverwrite project path).run.run s).2.files = s.files := by
  unfold confirmOverwrite
  cases hknown : g.confirmer with
  | none => rfl
  | some confirmer =>
    have hsteady := (hconfirmer confirmer hknown project path).within "confirm overwrite"
    refine (hsteady.bind fun yes _ _ => ?_).files s
    cases yes
    · exact (Job.closed_steady _).throw _
    · exact (Job.closed_steady _).pure _

theorem writeOutput_agrees (hconfirmer : g.ConfirmerSteady) (hpasses : s₀.passes = none)
    (hwell : s₀.files.WellFormed) (h : Evolved s₀.files s.files outputs)
    (houtput : s₀.files.Output rooted names directory)
    (hapart : ∀ output ∈ outputs, Apart output (directory ++ [outputFile]))
    (project : String) (content : ByteArray) (overwrite : Bool) :
    (g.writeOutput project (Path.ofNames rooted (names ++ [outputFile])) content
      overwrite).Agrees s s₀ := by
  have hsame := h.read_eq hwell houtput.clean.isName houtput.settled_concat hapart
  have hstore (s₁ s₂ : Session) (hfiles : s₁.files = s.files) (hfiles₀ : s₂.files = s₀.files)
      (hread : ∀ e, s₀.files.read (Path.ofNames rooted (names ++ [outputFile])) = .error e →
        e.fault.isMissing = true) :
      (store (Path.ofNames rooted (names ++ [outputFile])) content >>= fun _ =>
        (pure true : Job Bool)).Agrees s₁ s₂ := by
    rw [← hfiles, ← hfiles₀] at h
    rw [← hfiles₀] at hwell houtput hread
    exact (store_agrees hwell h houtput hapart hread content).bind fun _ _ _ _ _ => .inl rfl
  have hexisting : (existing? (Path.ofNames rooted (names ++ [outputFile]))).Agrees s s₀ := by
    unfold Job.Agrees
    rw [run_existing, run_existing, hsame]
    refine .inl ?_
    split
    · rfl
    · split_ifs <;> rfl
  refine hexisting.bind fun existing s₁ s₂ hrun hrun₀ => ?_
  obtain ⟨rfl, -⟩ := run_existing_eq_ok hrun
  obtain ⟨rfl, hread⟩ := run_existing_eq_ok hrun₀
  dsimp only
  -- The same file was found in both sessions, so both go on into the same branch.
  split
  · exact .inl rfl
  split
  · exact .inl rfl
  split
  · refine (confirmOverwrite_agrees hconfirmer hpasses project _).bind
      fun _ s₁ s₂ hconfirm hconfirm₀ => ?_
    have hfiles := files_confirmOverwrite hconfirmer project
      (Path.ofNames rooted (names ++ [outputFile]))
    refine hstore s₁ s₂ ?_ ?_ hread
    · exact (congrArg (fun r => r.2.files) hconfirm).symm.trans (hfiles _)
    · exact (congrArg (fun r => r.2.files) hconfirm₀).symm.trans (hfiles _)
  · exact hstore _ _ rfl rfl hread

/-- **`generateProject` gives the same in `s` and `s₀`**, or fails with a foreign error, if the
project has the same `view` and its output is `Apart` from all `outputs`. -/
theorem generateProject_agrees (hsteady : g.Steady) (hconfirmer : g.ConfirmerSteady)
    (hpasses : s₀.passes = none) (hwell : s₀.files.WellFormed)
    (h : Evolved s₀.files s.files outputs) (name : String) {project : Project}
    {place : List String} (hview : project.view s.files = project.view s₀.files)
    (houtput : s₀.files.OutputAt project.outputPath place)
    (hapart : ∀ output ∈ outputs, Apart output place) :
    ((g.generateProject name project).run s).1 = ((g.generateProject name project).run s₀).1 ∨
      ∃ e, ((g.generateProject name project).run s).1.2 = some e ∧ e.IsForeign := by
  obtain ⟨rooted, names, directory, hpath, rfl, houtput⟩ := houtput
  have hbuild := hsteady.buildProject project
  have hfiles := hbuild.files s
  have hfiles₀ := hbuild.files s₀
  have hpasses₀ := hbuild.passes s₀ hpasses
  have hagrees := hbuild.agrees hpasses hview
  unfold Job.Agrees at hagrees
  rw [run_generateProject, run_generateProject]
  rcases hrun : (g.buildProject project).run.run s with ⟨r, s₁⟩
  rcases hrun₀ : (g.buildProject project).run.run s₀ with ⟨r₀, s₂⟩
  rw [hrun] at hfiles
  rw [hrun₀] at hfiles₀ hpasses₀
  rw [hrun, hrun₀] at hagrees
  dsimp only at hfiles hfiles₀ hpasses₀ hagrees
  rcases hagrees with rfl | ⟨e, rfl, hforeign⟩
  · cases r with
    | error e => exact .inl rfl
    | ok out =>
      -- Building has changed no files, so what is known about them holds when they are written.
      rw [← hfiles, ← hfiles₀] at h
      rw [← hfiles₀] at hwell houtput
      rw [hpath]
      have hwrite := writeOutput_agrees hconfirmer hpasses₀ hwell h houtput hapart name
        out.content.toUTF8 project.output.mayOverwrite
      unfold Job.Agrees at hwrite
      dsimp only
      rcases hwritten : (g.writeOutput name (Path.ofNames rooted (names ++ [outputFile]))
        out.content.toUTF8 project.output.mayOverwrite).run.run s₁ with ⟨w, s₃⟩
      rcases hwritten₀ : (g.writeOutput name (Path.ofNames rooted (names ++ [outputFile]))
        out.content.toUTF8 project.output.mayOverwrite).run.run s₂ with ⟨w₀, s₄⟩
      rw [hwritten, hwritten₀] at hwrite
      dsimp only at hwrite
      rcases hwrite with rfl | ⟨e, rfl, hforeign⟩
      · cases w <;> exact .inl rfl
      · exact .inr ⟨_, rfl, Error.isForeign_within.2 hforeign⟩
  · exact .inr ⟨_, rfl, Error.isForeign_within.2 hforeign⟩

/-- **`generateProject` changes nothing but its output** and the way to it. -/
theorem generateProject_evolved {s' : Session} (hsteady : g.Steady)
    (hconfirmer : g.ConfirmerSteady) (hwell : s.files.WellFormed) {name : String}
    {project : Project} {place : List String} {outcome : ProjectResult × Option Error}
    (houtput : s.files.OutputAt project.outputPath place)
    (h : (g.generateProject name project).run s = (outcome, s')) :
    Evolved s.files s'.files [place] := by
  have htouched := generateProject_touched hsteady hconfirmer.keepsFiles hwell h
  obtain ⟨rooted, names, directory, hpath, rfl, houtput⟩ := houtput
  rw [hpath] at htouched
  exact houtput.evolved_of_touched hwell htouched

end

/-! ### Projects that are separated -/

end Generator

/-- The paths that the project writes and reads. -/
def Project.paths (project : Project) (t : FileTree) : List String :=
  project.outputPath :: (project.inputPath? t).toList

/-- Every path of the projects leads to a place, and the output of a project is `Apart` from all
places that the others write or read. -/
structure Separated (t : FileTree) (projects : List (String × Project))
    (place : String → List String) : Prop where
  output : ∀ p ∈ projects, t.OutputAt p.2.outputPath (place p.2.outputPath)
  input : ∀ p ∈ projects, ∀ path ∈ p.2.inputPath? t, t.Stands path (place path)
  apart : ∀ p ∈ projects, ∀ q ∈ projects, p.1 ≠ q.1 → ∀ path ∈ q.2.paths t,
    Apart (place p.2.outputPath) (place path)

section

variable {t t₀ : FileTree} {projects more : List (String × Project)}
  {place : String → List String} {outputs : List (List String)}

theorem Separated.of_subset (h : Separated t more place) (hsubset : ∀ p ∈ projects, p ∈ more) :
    Separated t projects place :=
  ⟨fun p hp => h.output p (hsubset p hp), fun p hp => h.input p (hsubset p hp),
    fun p hp q hq => h.apart p (hsubset p hp) q (hsubset q hq)⟩

/-- `Separated` at `placeOf`, if all places are `Direct`. -/
theorem Separated.of_direct (hwell : t.WellFormed)
    (hdirect : ∀ p ∈ projects, ∀ path ∈ p.2.paths t, t.Direct (t.placeOf path))
    (hapart : ∀ p ∈ projects, ∀ q ∈ projects, p.1 ≠ q.1 → ∀ path ∈ q.2.paths t,
      Apart (t.placeOf p.2.outputPath) (t.placeOf path)) :
    Separated t projects t.placeOf where
  output p hp := by
    have houtput := hdirect p hp _ List.mem_cons_self
    obtain ⟨rooted, names, hclean, hpath⟩ := p.2.isClean_outputPath
    have hplace := placeOf_concat t hclean plain_outputFile.ne_dots
    rw [hpath, hplace] at houtput
    refine ⟨rooted, names, _, hpath, by rw [hpath, hplace], hclean, ?_, ?_⟩
    · exact (houtput.of_prefix (List.prefix_append _ _)).settled hwell
        (hclean.sublist (List.sublist_append_left _ _))
    · exact houtput.no_link _ (List.prefix_refl _)
  input p hp path hpath := by
    have hinput := hdirect p hp path (List.mem_cons_of_mem _ (Option.mem_toList.2 hpath))
    obtain ⟨rooted, names, hclean, rfl⟩ := Project.isClean_inputPath? hpath
    left
    rw [Path.isRooted_ofNames hclean.isName, Path.names_ofNames hclean.isName]
    exact hinput.settled hwell hclean
  apart := hapart

/-- `Evolved` does not change the `view` of a project whose input is `Apart` from all `outputs`. -/
theorem FileTree.Evolved.view_eq (h : Evolved t₀ t outputs) (hwell : t₀.WellFormed)
    {project : Project} (hinput : ∀ path ∈ project.inputPath? t₀, t₀.Stands path (place path))
    (hapart : ∀ path ∈ project.inputPath? t₀, ∀ output ∈ outputs, Apart output (place path)) :
    project.view t = project.view t₀ := by
  rw [project.view_eq_map, project.view_eq_map, project.inputPath?_eq_of_home h.home]
  cases hpath : project.inputPath? t₀ with
  | none => rw [Option.map_none, Option.map_none]
  | some path =>
    obtain ⟨rooted, names, hclean, rfl⟩ := Project.isClean_inputPath? hpath
    rw [Option.map_some, Option.map_some,
      h.read_eq_of_stands hwell hclean.isName (hinput _ hpath) (hapart _ hpath)]

theorem FileTree.OutputAt.evolved {path : String} {names : List String}
    (h : t₀.OutputAt path names) (hevolved : Evolved t₀ t outputs) : t.OutputAt path names := by
  obtain ⟨rooted, front, directory, hpath, hnames, houtput⟩ := h
  exact ⟨rooted, front, directory, hpath, hnames, houtput.evolved hevolved⟩

end

namespace Generator

section

variable {g : Generator} {projects : List (String × Project)} {s s' s₀ : Session}
  {turns : List Turn} {stop : Option Error} {place : String → List String}
  {outputs : List (List String)}

/-- **Each turn gives what `generateProject` gives in `s₀`**, or fails with a foreign error, if all
projects are `Apart` from the `outputs` so far. -/
theorem Turns.isolated (hturns : g.Turns projects s turns stop s') (hsteady : g.Steady)
    (hconfirmer : g.ConfirmerSteady) (hpasses : s₀.passes = none) (hwell : s₀.files.WellFormed)
    (h : Evolved s₀.files s.files outputs) (hnames : (projects.map (·.1)).Nodup)
    (hseparated : Separated s₀.files projects place)
    (hapart : ∀ p ∈ projects, ∀ path ∈ p.2.paths s₀.files, ∀ output ∈ outputs,
      Apart output (place path)) :
    ∀ turn ∈ turns,
      (turn.result, turn.error) = ((g.generateProject turn.name turn.project).run s₀).1 ∨
        ∃ e, turn.error = some e ∧ e.IsForeign := by
  induction hturns generalizing outputs with
  | done => simp
  | stopped => simp
  | @turn turn rest s s₁ s₂ s' turns stop go generate next ih =>
    have hfiles := files_logged_of_go go (startEvent turn.name)
    rw [← hfiles] at h
    generalize logged s₁ (startEvent turn.name) = start at h generate
    have hmem : (turn.name, turn.project) ∈ (turn.name, turn.project) :: rest :=
      List.mem_cons_self
    have houtput := hseparated.output (turn.name, turn.project) hmem
    -- The file of this project is one more that the projects to come are out of the way of.
    have hnext : Evolved s₀.files s₂.files (place turn.project.outputPath :: outputs) :=
      h.trans (generateProject_evolved hsteady hconfirmer h.wellFormed (houtput.evolved h)
        generate)
    have hapart' : ∀ p ∈ rest, ∀ path ∈ p.2.paths s₀.files,
        ∀ output ∈ place turn.project.outputPath :: outputs, Apart output (place path) := by
      intro p hp path hpath output hout
      rcases List.mem_cons.1 hout with rfl | hout
      · refine hseparated.apart _ hmem p (List.mem_cons_of_mem _ hp) ?_ path hpath
        intro hname
        exact (List.nodup_cons.1 hnames).1 (List.mem_map.2 ⟨p, hp, hname.symm⟩)
      · exact hapart p (List.mem_cons_of_mem _ hp) path hpath output hout
    intro other hother
    rcases List.mem_cons.1 hother with rfl | hother
    · have hview : other.project.view start.files = other.project.view s₀.files := by
        refine h.view_eq hwell (hseparated.input (other.name, other.project) hmem) ?_
        intro path hpath
        exact hapart (other.name, other.project) hmem path
          (List.mem_cons_of_mem _ (Option.mem_toList.2 hpath))
      have hagrees := generateProject_agrees hsteady hconfirmer hpasses hwell h other.name hview
        houtput (hapart (other.name, other.project) hmem _ List.mem_cons_self)
      rwa [generate] at hagrees
    · exact ih hnext (List.nodup_cons.1 hnames).2
        (hseparated.of_subset fun p hp => List.mem_cons_of_mem _ hp) hapart' other hother

end

/-! ### Runs -/

/-- **A run accounts for all projects, and each is generated as if it was alone.**  `g.run c` takes
the turns of `ordered c`, and summary and error `Accounts` for them.  If generator and confirmer are
steady and the projects are `Separated`, then every turn gives what `g.generateProject` gives in the
first session without a limit, unless it was cancelled or `isOutOfDrafts`. -/
theorem run_isolates {c : Config} (hnames : (c.projects.map (·.1)).Nodup) (g : Generator)
    (s : Session) :
    ∃ turns stop, g.Turns (ordered c) s turns stop ((g.run c).run s).2 ∧
      Accounts c turns stop ((g.run c).run s).1.1 ((g.run c).run s).1.2 ∧
      (∀ turn ∈ turns, c.project? turn.name = some turn.project) ∧
      (g.Steady → g.ConfirmerSteady → s.files.WellFormed →
        (∃ place, Separated s.files c.projects place) →
        ∀ turn ∈ turns,
          (turn.result, turn.error) =
              ((g.generateProject turn.name turn.project).run { s with passes := none }).1 ∨
            ∃ e, turn.error = some e ∧ (e.isCancelled = true ∨ e.isOutOfDrafts = true)) := by
  obtain ⟨turns, stop, hturns, hrun⟩ := run_turns g c s
  rw [hrun]
  refine ⟨turns, stop, hturns, hturns.accounts hnames, hturns.project?_eq, ?_⟩
  rintro hsteady hconfirmer hwell ⟨place, hseparated⟩
  have hpasses : ({ s with passes := none } : Session).passes = none := rfl
  exact hturns.isolated hsteady hconfirmer hpasses hwell (.refl hwell []) (nodup_ordered hnames)
    (hseparated.of_subset fun p => mem_of_mem_ordered) (by simp)

/-! ### Two configurations -/

/-- A generator that reads no models from any document. -/
def plainGenerator : Generator where
  load := OpenApi.Loader.load {}
  read _ := pure {}
  registry := standardRegistry
  pipeline := standardPipeline
  layout := ⟨[.text "export {}\n"], []⟩

theorem steady_plainGenerator : plainGenerator.Steady where
  load := OpenApi.Loader.steady_load {}
  read _ := (Job.closed_steady _).pure _
  render := by
    intro r hr honorRequired m
    rcases List.mem_cons.1 hr with rfl | hr
    · exact ((Job.compositional_steady _).renderInterface _ _ _).1
    · rw [List.mem_singleton.1 hr]
      exact ((Job.compositional_steady _).renderValidator _ _ _).1

theorem confirmerSteady_plainGenerator : plainGenerator.ConfirmerSteady := by
  intro confirmer hknown
  cases hknown

/-- A session with a document and a directory. -/
def plainSession : Session where
  passes := some 100
  files := { entries := [(["in.json"], .file "{}".toUTF8 readable), (["out"], .directory)] }

/-- A session with a document and a link whose target does not exist. -/
def linkedSession : Session where
  files := { entries := [(["in.json"], .file "{}".toUTF8 readable), (["link"], .link "out")] }

/-- Two projects, of which the second one reads `input` and writes to `output`. -/
def plainConfig (input output : String) : Config :=
  pairConfig (fileProject "in.json" "out") (fileProject input output)

theorem wellFormed_plainSession : plainSession.files.WellFormed := by
  refine wellFormed_of_entries ?_ rfl
  intro e he _
  simp only [plainSession, List.mem_cons, List.not_mem_nil, or_false] at he
  rcases he with rfl | rfl <;> rfl

theorem separated_plainConfig :
    Separated plainSession.files (plainConfig "missing.json" "new/lib").projects
      plainSession.files.placeOf := by
  have hlinks : ∀ e ∈ plainSession.files.entries, ∀ target, e.2 ≠ .link target := by
    intro e he target
    simp only [plainSession, List.mem_cons, List.not_mem_nil, or_false] at he
    rcases he with rfl | rfl <;> simp
  have hshort : ∀ p ∈ (plainConfig "missing.json" "new/lib").projects,
      ∀ path ∈ p.2.paths plainSession.files, ∀ name ∈ plainSession.files.placeOf path,
        name.utf8ByteSize ≤ maxNameSize := by
    decide +kernel
  refine .of_direct wellFormed_plainSession
    (fun p hp path hpath => direct_of_entries hlinks (hshort p hp path hpath)) ?_
  decide +kernel

theorem run_isolates_plainConfig :
    ((plainGenerator.run (plainConfig "missing.json" "new/lib")).run plainSession).1.1.failed =
        ["b"] ∧
      ∃ turns stop,
        Accounts (plainConfig "missing.json" "new/lib") turns stop
          ((plainGenerator.run (plainConfig "missing.json" "new/lib")).run plainSession).1.1
          ((plainGenerator.run (plainConfig "missing.json" "new/lib")).run plainSession).1.2 ∧
        ∀ turn ∈ turns,
          (turn.result, turn.error) =
              ((plainGenerator.generateProject turn.name turn.project).run
                { plainSession with passes := none }).1 ∨
            ∃ e, turn.error = some e ∧ (e.isCancelled = true ∨ e.isOutOfDrafts = true) := by
  obtain ⟨turns, stop, -, haccounts, -, hisolated⟩ :=
    run_isolates (nodup_pairConfig _ _) plainGenerator plainSession
  refine ⟨?_, turns, stop, haccounts, ?_⟩
  · unfold run
    rw [plainConfig, ordered_pairConfig]
    decide +kernel
  · exact hisolated steady_plainGenerator confirmerSteady_plainGenerator wellFormed_plainSession
      ⟨_, separated_plainConfig⟩

/-- Through a link, project `b` writes below a directory that `a` makes, so it is generated, and
fails if it is alone. -/
theorem run_not_isolated_through_link :
    (∀ p ∈ (plainConfig "in.json" "link/lib").projects,
      ∀ q ∈ (plainConfig "in.json" "link/lib").projects, p.1 ≠ q.1 →
        ∀ path ∈ q.2.paths linkedSession.files,
          Apart (linkedSession.files.placeOf p.2.outputPath)
            (linkedSession.files.placeOf path)) ∧
      ((plainGenerator.run (plainConfig "in.json" "link/lib")).run
        linkedSession).1.1.projects.map (·.name) = ["a", "b"] ∧
      ((plainGenerator.generateProject "b" (fileProject "in.json" "link/lib")).run
        { linkedSession with passes := none }).1.2.isSome = true := by
  refine ⟨by decide +kernel, ?_, by decide +kernel⟩
  unfold run
  rw [plainConfig, ordered_pairConfig]
  decide +kernel

end Generator

end SchemaPress
