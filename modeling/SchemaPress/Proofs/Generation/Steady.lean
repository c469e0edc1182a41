import SchemaPress.Proofs.Generation.Build
import SchemaPress.Proofs.Path

/-!
# Building depends on the input alone

A generator is `Steady` if loading a source is `Steady source.view`, and reading and rendering
depend on no file at all.  Then `buildProject project` is `Steady project.view`
(`Generator.Steady.buildProject`): the project is built from nothing but the content of its input.
The parts of the program are steady with all options (`Generator.BuiltIn.steady`).
-/

namespace SchemaPress

open Job OpenApi

/-! ### What is seen of the files -/

/-- The content of the file at `source`; nothing if it is no file. -/
def OpenApi.Source.view (source : Source) (t : FileTree) : Option (Except FileError ByteArray) :=
  match source.kind with
  | .file => some (t.readAbsolute source.location)
  | _ => none

theorem OpenApi.Source.readAbsolute_eq {source : Source} (h : source.kind = .file)
    {t t' : FileTree} (hview : source.view t = source.view t') :
    t.readAbsolute source.location = t'.readAbsolute source.location := by
  unfold view at hview
  rw [h] at hview
  exact Option.some.inj hview

/-- `l.load (some source)` depends on the files by `source.view` only. -/
theorem OpenApi.Loader.steady_load (l : Loader) (source : Source) :
    Steady source.view (l.load (some source)) := by
  refine ((compositional_steady source.view).load l fun x hx hkind t t' hview => ?_).1
  obtain rfl := Option.some.inj hx
  exact source.readAbsolute_eq hkind hview

/-- The content of the input of the project. -/
def Project.view (project : Project) (t : FileTree) : Option (Except FileError ByteArray) :=
  match project.input.source with
  | .ok source => source.view t
  | .error _ => none

/-- The path of the file that the project reads, if it reads one. -/
def Project.inputPath? (project : Project) (t : FileTree) : Option String :=
  match project.input.source with
  | .ok ⟨.file, location⟩ => some (t.absolute location)
  | _ => none

theorem Project.view_eq_map (project : Project) (t : FileTree) :
    project.view t = (project.inputPath? t).map t.read := by
  unfold view inputPath?
  cases project.input.source with
  | error e => rfl
  | ok source =>
    obtain ⟨kind, location⟩ := source
    cases kind <;> rfl

theorem Project.inputPath?_eq_of_home (project : Project) {t t' : FileTree}
    (h : t'.home = t.home) : project.inputPath? t' = project.inputPath? t := by
  unfold inputPath? FileTree.absolute
  rw [h]

theorem Project.isClean_inputPath? {project : Project} {t : FileTree} {path : String}
    (h : path ∈ project.inputPath? t) :
    ∃ rooted names, Path.IsClean rooted names ∧ path = Path.ofNames rooted names := by
  unfold inputPath? at h
  split at h
  · cases h
    exact ⟨_, _, Path.cleanNames_isClean _, rfl⟩
  · cases h

namespace Generator

/-- `g.load` depends on the files by `source.view` only, and `g.read` and the renderers do not
depend on them. -/
structure Steady (g : Generator) : Prop where
  load : ∀ source, Job.Steady source.view (g.load (some source))
  read : ∀ document, Job.Steady (fun _ => ()) (g.read document)
  render : ∀ r ∈ g.registry.renderers, ∀ honorRequired m,
    Job.Steady (fun _ => ()) (r.render honorRequired m)

/-- `g.build` is steady in every view in which `g.load` is. -/
theorem Steady.build {γ : Type} {view : FileTree → γ} {g : Generator} (h : g.Steady)
    {source : Source} (hload : Job.Steady view (g.load (some source))) :
    Job.Steady view (g.build { source := some source }) := by
  have hload (x : Source) (hx : some source = some x) : Job.Steady view (g.load (some x)) ∧
      Returns (fun _ _ => True) (g.load (some x)) :=
    ⟨Option.some.inj hx ▸ hload, .anything _⟩
  have hread (document : Document) : Job.Steady view (g.read document) ∧
      Returns (fun _ _ => True) (g.read document) := ⟨(h.read document).anywhere, .anything _⟩
  have hrender (r : Renderer) (hr : r ∈ g.registry.renderers) (honorRequired : Bool) (m : Model) :
      Job.Steady view (r.render honorRequired m) ∧
        Returns (fun _ count => count = 1) (r.render honorRequired m) :=
    ⟨(h.render r hr honorRequired m).anywhere, .someCount _ 1⟩
  exact ((compositional_steady view).build hload hread hrender).1

theorem Steady.buildProject_of_load {γ : Type} {view : FileTree → γ} {g : Generator} (h : g.Steady)
    {project : Project} (hload : ∀ source, project.input.source = .ok source →
      Job.Steady view (g.load (some source))) :
    Job.Steady view (g.buildProject project) := by
  have hbuild (source : Source) (hsource : project.input.source = .ok source) :
      Job.Steady view (g.build { source := some source }) ∧
        Returns (fun _ _ => True) (g.build { source := some source }) :=
    ⟨h.build (hload source hsource), .anything _⟩
  exact ((compositional_steady view).buildProject hbuild).1

/-- **`g.buildProject project` depends on the files by `project.view` only.** -/
theorem Steady.buildProject {g : Generator} (h : g.Steady) (project : Project) :
    Job.Steady project.view (g.buildProject project) := by
  refine h.buildProject_of_load fun source hsource => ?_
  have hview : project.view = source.view := by
    funext t
    rw [Project.view, hsource]
  rw [hview]
  exact h.load source

theorem BuiltIn.steady {g : Generator} (h : g.BuiltIn) : g.Steady where
  load source := by
    obtain ⟨loader, hload⟩ := h.load
    rw [hload]
    exact loader.steady_load source
  read document := (h.read_composed (compositional_steady _) document).1
  render _ hr honorRequired m := (h.render_composed (compositional_steady _) hr honorRequired m).1

end Generator

end SchemaPress
