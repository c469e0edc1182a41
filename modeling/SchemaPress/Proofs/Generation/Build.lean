import SchemaPress.Command.Run
import SchemaPress.Proofs.Composition
import SchemaPress.Proofs.OpenApi.Reading
import SchemaPress.Proofs.Renderer.Registry

/-!
# Building along its parts

What the loader, the reader and the renderers are put together from is told once for every
`Compositional` property `P`, with the number of checks that they make.  From this and the parts of
a generator, `P` follows of `Generator.build` (`Compositional.build`): if the parts are quiet,
building is quiet (`Generator.Quiet.build`).  Whatever options they have, the parts of the program
are as stated (`Generator.BuiltIn`).
-/

namespace SchemaPress

open Job OpenApi

variable {Reads : String → Prop} {P : {α : Type} → (α → Nat → Prop) → Job α → Prop}

namespace Job.Compositional

/-! ### Loading, reading and rendering -/

theorem fetchFile (hP : Compositional Reads P) {location : String} (h : Reads location) :
    P (fun _ _ => True) (Loader.fetchFile location) := by
  unfold Loader.fetchFile
  dsimp only
  split
  · exact hP.throw_bind _ _
  · refine hP.bind hP.checkpoint fun _ _ _ => ?_
    exact hP.read (f := fun content => Job.within ("openapi loader: read " ++ location)
      (Job.ofExcept Error.file content)) h fun _ => hP.within (hP.anyhow (hP.ofExcept _ _)) _

theorem fetch (hP : Compositional Reads P) (l : Loader) {source : Source}
    (h : source.kind = .file → Reads source.location) :
    P (fun _ _ => True) (l.fetch source) := by
  obtain ⟨kind, location⟩ := source
  unfold Loader.fetch
  cases kind with
  | file => exact hP.fetchFile (h rfl)
  | bundle =>
    dsimp only
    split
    · unfold Loader.fetchBundled
      dsimp only
      split
      · exact hP.throw_bind _ _
      · refine hP.bind hP.checkpoint fun _ _ _ => ?_
        exact hP.within (hP.anyhow (hP.ofExcept _ _)) _
    · exact hP.throw _
  | url =>
    dsimp only
    split
    · unfold Loader.fetchUrl
      dsimp only
      split
      · exact hP.throw_bind _ _
      split
      · exact hP.throw_bind _ _
      refine hP.bind (hP.request _) fun _ _ _ => ?_
      split
      · exact hP.throw _
      · exact hP.anyhow (hP.ofExcept _ _)
    · exact hP.throw _
  | other name => exact hP.throw _

theorem load (hP : Compositional Reads P) (l : Loader) {source : Option Source}
    (h : ∀ x, source = some x → x.kind = .file → Reads x.location) :
    P (fun _ _ => True) (l.load source) := by
  unfold Loader.load
  split
  · exact hP.throw _
  · rename_i source
    refine hP.bind hP.checkpoint fun _ _ _ => ?_
    exact hP.bind (hP.fetch l (h source rfl)) fun _ _ _ => hP.anyhow (hP.ofExcept _ _)

/-- `readSchemas` makes one check for each entry. -/
theorem readSchemas (hP : Compositional Reads P) (options : ReaderOptions) (location : String)
    (anchors : Anchors) (entries : List Entry) :
    P (fun _ count => count = entries.length)
      (OpenApi.readSchemas options location anchors entries) := by
  induction entries with
  | nil => exact hP.pure rfl
  | cons entry rest ih =>
    refine hP.bind hP.checkpoint fun _ first hfirst => ?_
    refine hP.bind (hP.logAll _) fun _ logged hlogged => ?_
    split
    · exact hP.throw _
    · refine hP.bind ih fun more next hnext => hP.pure ?_
      rw [hfirst, hlogged, hnext, List.length_cons]
      omega

end Job.Compositional

/-- A document has `number` schemas, each key counted once. -/
def OpenApi.HasSchemas (document : Document) (number : Nat) : Prop :=
  ∃ tree children, parseTree document.raw = .ok tree ∧ schemas? tree = some (.mapping children) ∧
    number = (Node.entries tree.anchors (.mapping children)).length

namespace Job.Compositional

/-- `readModels` makes one check at the start and one for each schema. -/
theorem readModels (hP : Compositional Reads P) (options : ReaderOptions) (document : Document) :
    P (fun _ count => ∃ schemas, HasSchemas document schemas ∧ count = 1 + schemas)
      (OpenApi.readModels options document) := by
  refine hP.bind hP.checkpoint ?_
  rintro _ _ rfl
  dsimp only
  split
  · exact hP.throw_bind _ _
  split
  · rename_i tree htree
    have htaken : P (fun t count => t = tree ∧ count = 0) (Pure.pure tree : Job Tree) :=
      hP.pure ⟨rfl, rfl⟩
    refine hP.bind htaken ?_
    rintro t _ ⟨rfl, rfl⟩
    split
    · split
      · rename_i children hschemas
        refine hP.mono (hP.readSchemas _ _ _ _) fun _ count hcount => ?_
        refine ⟨count, ⟨t, children, htree, hschemas, hcount⟩, ?_⟩
        omega
      · exact hP.throw _
    · exact hP.throw_bind _ _
  · exact hP.throw_bind _ _

theorem renderInterface (hP : Compositional Reads P) (options : List TypeScript.InterfaceOption)
    (honorRequired : Bool) (m : Model) :
    P (fun _ count => count = 1) ((TypeScript.renderer options).render honorRequired m) :=
  hP.bind hP.checkpoint fun _ _ hfirst => hP.bind (hP.logAll _) fun _ _ hlogged =>
    hP.pure (by rw [hfirst, hlogged])

theorem renderValidator (hP : Compositional Reads P) (options : List Yup.ValidatorOption)
    (honorRequired : Bool) (m : Model) :
    P (fun _ count => count = 1) ((Yup.renderer options).render honorRequired m) :=
  hP.bind hP.checkpoint fun _ _ hfirst => hP.pure (by rw [hfirst])

/-! ### Building -/

variable {g : Generator} {input : BuildInput} {honorRequired : Bool} {renderers : List Renderer}

/-- `renderParts` makes one check for each renderer. -/
theorem renderParts (hP : Compositional Reads P) {m : Model}
    (h : ∀ r ∈ renderers, P (fun _ count => count = 1) (r.render honorRequired m)) :
    P (fun _ count => count = renderers.length)
      (Generator.renderParts honorRequired m renderers) := by
  induction renderers with
  | nil => exact hP.pure rfl
  | cons r rest ih =>
    refine hP.bind (hP.within (h r List.mem_cons_self) _) fun _ first hfirst => ?_
    refine hP.bind (ih fun x hx => h x (List.mem_cons_of_mem _ hx)) fun _ next hnext => hP.pure ?_
    rw [hfirst, hnext, List.length_cons]
    omega

/-- `renderBlocks` makes one check for each model and renderer. -/
theorem renderBlocks (hP : Compositional Reads P)
    (h : ∀ r ∈ renderers, ∀ m, P (fun _ count => count = 1) (r.render honorRequired m))
    (models : List Model) :
    P (fun _ count => count = renderers.length * models.length)
      (Generator.renderBlocks honorRequired renderers models) := by
  induction models with
  | nil => exact hP.pure rfl
  | cons m rest ih =>
    refine hP.bind (hP.renderParts fun r hr => h r hr m) fun _ first hfirst => ?_
    refine hP.bind ih fun _ next hnext => hP.pure ?_
    rw [hfirst, hnext, List.length_cons, Nat.mul_succ]
    omega

/-- `g.document` makes no check if `input.document` is given. -/
theorem document (hP : Compositional Reads P)
    (hload : ∀ source, input.source = some source → P (fun _ _ => True) (g.load (some source))) :
    P (fun d count => ∀ document, input.document = some document → d = document ∧ count = 0)
      (g.document input) := by
  unfold Generator.document
  split
  · rename_i document hdocument
    refine hP.pure fun other hother => ⟨?_, rfl⟩
    exact Option.some.inj (hdocument.symm.trans hother)
  · exact hP.throw _
  · rename_i source hdocument hsource
    refine hP.within (hP.mono (hload source hsource) fun _ _ _ other hother => ?_) _
    rw [hdocument] at hother
    cases hother

/-- **`P` of `g.build` from `P` of its parts.**  If `g.read document` makes `read` checks with
`reads document read`, then `g.build` makes `1 + read + g.pipeline.length * out.models.length` of
them for a document at hand. -/
theorem build (hP : Compositional Reads P) {reads : Document → Nat → Prop}
    (hload : ∀ source, input.source = some source → P (fun _ _ => True) (g.load (some source)))
    (hread : ∀ document, P (fun _ count => reads document count) (g.read document))
    (hrender : ∀ r ∈ g.registry.renderers, ∀ honorRequired m,
      P (fun _ count => count = 1) (r.render honorRequired m)) :
    P (fun out count => ∀ document, input.document = some document →
      ∃ read, reads document read ∧ count = 1 + read + g.pipeline.length * out.models.length)
      (g.build input) := by
  refine hP.bind hP.checkpoint fun _ begun hbegun => ?_
  refine hP.bind (hP.document hload) fun document loaded hloaded => ?_
  refine hP.bind (hP.within (hread document) _) fun result read hchecks => ?_
  refine hP.bind (hP.within (hP.ofExcept _ _) _) ?_
  rintro renderers _ ⟨hfound, rfl⟩
  have hrenderers : ∀ r ∈ renderers, ∀ m,
      P (fun _ count => count = 1) (r.render g.honorRequired m) :=
    fun r hr => hrender r (Registry.mem_of_resolve hfound r hr) _
  refine hP.bind (hP.renderBlocks hrenderers result.models) fun blocks rendered hrendered => ?_
  refine hP.bind (hP.within (hP.ofExcept _ _) _) ?_
  rintro content _ ⟨-, rfl⟩
  refine hP.pure fun given hgiven => ?_
  -- The checks of all parts, and as many renderers as the pipeline has names.
  obtain ⟨rfl, rfl⟩ := hloaded given hgiven
  have hlength : renderers.length = g.pipeline.length :=
    (Registry.forall₂_of_resolve hfound).length_eq.symm
  refine ⟨read, hchecks, ?_⟩
  show _ = _ + g.pipeline.length * result.models.length
  rw [hbegun, hrendered, hlength]
  omega

theorem buildProject (hP : Compositional Reads P) {project : Project}
    (hbuild : ∀ source, project.input.source = .ok source →
      P (fun _ _ => True) (g.build { source := some source })) :
    P (fun _ _ => True) (g.buildProject project) :=
  hP.bind (hP.ofExcept _ _) fun source _ hsource => hbuild source hsource.1

end Job.Compositional

/-! ### Generators -/

namespace Generator

variable {g : Generator}

/-- `g.load`, `g.read` and the renderers of `g.registry` are `Quiet`. -/
structure Quiet (g : Generator) : Prop where
  load : ∀ source, Job.Quiet (g.load source)
  read : ∀ document, Job.Quiet (g.read document)
  render : ∀ r ∈ g.registry.renderers, ∀ honorRequired m, Job.Quiet (r.render honorRequired m)

theorem Quiet.build (h : g.Quiet) (input : BuildInput) : Job.Quiet (g.build input) := by
  have hload (source : Source) : Job.Quiet (g.load (some source)) ∧
      Returns (fun _ _ => True) (g.load (some source)) := ⟨h.load _, .anything _⟩
  have hread (document : Document) : Job.Quiet (g.read document) ∧
      Returns (fun _ _ => True) (g.read document) := ⟨h.read document, .anything _⟩
  have hrender (r : Renderer) (hr : r ∈ g.registry.renderers) (honorRequired : Bool) (m : Model) :
      Job.Quiet (r.render honorRequired m) ∧
        Returns (fun _ count => count = 1) (r.render honorRequired m) :=
    ⟨h.render r hr honorRequired m, .someCount _ 1⟩
  exact (compositional_quiet.build (fun source _ => hload source) hread hrender).1

theorem Quiet.buildProject (h : g.Quiet) (project : Project) :
    Job.Quiet (g.buildProject project) := by
  have hbuild (source : Source) : Job.Quiet (g.build { source := some source }) ∧
      Returns (fun _ _ => True) (g.build { source := some source }) := ⟨h.build _, .anything _⟩
  exact (compositional_quiet.buildProject fun source _ => hbuild source).1

/-- `g` has the loader, the reader and the renderers of the program, with any options.  Pipeline,
layout and confirmer are arbitrary. -/
structure BuiltIn (g : Generator) : Prop where
  load : ∃ loader : Loader, g.load = loader.load
  read : ∃ options, g.read = readModels options
  render : ∀ r ∈ g.registry.renderers,
    (∃ options, r = TypeScript.renderer options) ∨ ∃ options, r = Yup.renderer options

theorem BuiltIn.render_composed (h : g.BuiltIn) (hP : Compositional Reads P) {r : Renderer}
    (hr : r ∈ g.registry.renderers) (honorRequired : Bool) (m : Model) :
    P (fun _ count => count = 1) (r.render honorRequired m) := by
  rcases h.render r hr with ⟨options, rfl⟩ | ⟨options, rfl⟩
  · exact hP.renderInterface _ _ _
  · exact hP.renderValidator _ _ _

theorem BuiltIn.read_composed (h : g.BuiltIn) (hP : Compositional Reads P) (document : Document) :
    P (fun _ count => ∃ schemas, HasSchemas document schemas ∧ count = 1 + schemas)
      (g.read document) := by
  obtain ⟨options, hread⟩ := h.read
  rw [hread]
  exact hP.readModels options document

theorem BuiltIn.load_composed (h : g.BuiltIn) (hP : Compositional Reads P)
    {source : Option Source} (hreads : ∀ x, source = some x → x.kind = .file → Reads x.location) :
    P (fun _ _ => True) (g.load source) := by
  obtain ⟨loader, hload⟩ := h.load
  rw [hload]
  exact hP.load loader hreads

theorem BuiltIn.quiet (h : g.BuiltIn) : g.Quiet where
  load _ := (h.load_composed compositional_quiet fun _ _ _ => trivial).1
  read document := (h.read_composed compositional_quiet document).1
  render _ hr honorRequired m := (h.render_composed compositional_quiet hr honorRequired m).1

end Generator

theorem Command.generator_builtIn (s : Surroundings) (o : GenerateOptions) :
    (Command.generator s o).BuiltIn where
  load := ⟨_, rfl⟩
  read := ⟨_, rfl⟩
  render := by
    intro r hr
    rcases List.mem_cons.1 hr with rfl | hr
    · exact .inl ⟨_, rfl⟩
    · exact .inr ⟨_, List.mem_singleton.1 hr⟩

end SchemaPress
