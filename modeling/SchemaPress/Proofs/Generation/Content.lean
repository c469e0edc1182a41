import SchemaPress.Proofs.Generation.Build
import SchemaPress.Proofs.Page.Layout
import SchemaPress.Proofs.Renderer.Agreement

/-!
# The content of a file

A file is built in stages: the names of the pipeline are looked up, the models are read, each
renderer writes each model, and what they wrote is laid out.  `Assembled` says what the stages of a
build that succeeds have done, and `build_content` that the content consists of these pieces and the
line ends between them and of nothing else, character by character.
-/

namespace SchemaPress

open Job OpenApi

/-! ### Writing models -/

/-- `renderers` write `parts` for the model `m`, from the session `s` to `s'`. -/
inductive WritesParts (honorRequired : Bool) (m : Model) :
    List Renderer → Session → List String → Session → Prop
  | nil (s : Session) : WritesParts honorRequired m [] s [] s
  | cons {r : Renderer} {renderers : List Renderer} {s s₁ s' : Session} {part : String}
      {parts : List String} (hpart : (r.render honorRequired m).run.run s = (.ok part, s₁))
      (hparts : WritesParts honorRequired m renderers s₁ parts s') :
      WritesParts honorRequired m (r :: renderers) s (part :: parts) s'

/-- `renderers` write one list of parts for each of `models`, from the session `s` to `s'`. -/
inductive WritesBlocks (honorRequired : Bool) (renderers : List Renderer) :
    List Model → Session → List (List String) → Session → Prop
  | nil (s : Session) : WritesBlocks honorRequired renderers [] s [] s
  | cons {m : Model} {models : List Model} {s s₁ s' : Session} {parts : List String}
      {blocks : List (List String)} (hparts : WritesParts honorRequired m renderers s parts s₁)
      (hblocks : WritesBlocks honorRequired renderers models s₁ blocks s') :
      WritesBlocks honorRequired renderers (m :: models) s (parts :: blocks) s'

variable {honorRequired : Bool} {m : Model} {renderers : List Renderer} {s s' : Session}

theorem writesParts_of_run {parts : List String}
    (h : (Generator.renderParts honorRequired m renderers).run.run s = (.ok parts, s')) :
    WritesParts honorRequired m renderers s parts s' := by
  induction renderers generalizing s parts with
  | nil =>
    cases h
    exact .nil _
  | cons r rest ih =>
    obtain ⟨part, s₁, hpart, h⟩ := run_bind_eq_ok h
    obtain ⟨more, s₂, hmore, h⟩ := run_bind_eq_ok h
    cases h
    exact .cons (run_within_eq_ok hpart) (ih hmore)

theorem writesBlocks_of_run {models : List Model} {blocks : List Block}
    (h : (Generator.renderBlocks honorRequired renderers models).run.run s = (.ok blocks, s')) :
    WritesBlocks honorRequired renderers models s (blocks.map (·.parts)) s' := by
  induction models generalizing s blocks with
  | nil =>
    cases h
    exact .nil _
  | cons m rest ih =>
    obtain ⟨parts, s₁, hparts, h⟩ := run_bind_eq_ok h
    obtain ⟨more, s₂, hmore, h⟩ := run_bind_eq_ok h
    cases h
    exact .cons (writesParts_of_run hparts) (ih hmore)

/-- `parts[i]` was written by `renderers[i]` in some session. -/
theorem WritesParts.getElem? {parts : List String}
    (h : WritesParts honorRequired m renderers s parts s') {i : Nat} {r : Renderer}
    (hr : renderers[i]? = some r) :
    ∃ part s₁ s₂, parts[i]? = some part ∧
      (r.render honorRequired m).run.run s₁ = (.ok part, s₂) := by
  induction h generalizing i with
  | nil => simp at hr
  | cons hpart _ ih =>
    cases i with
    | zero =>
      obtain rfl := Option.some.inj hr
      exact ⟨_, _, _, rfl, hpart⟩
    | succ i => exact ih hr

theorem WritesBlocks.getElem? {models : List Model} {blocks : List (List String)}
    (h : WritesBlocks honorRequired renderers models s blocks s') {j : Nat}
    (hm : models[j]? = some m) :
    ∃ parts s₁ s₂, blocks[j]? = some parts ∧
      WritesParts honorRequired m renderers s₁ parts s₂ := by
  induction h generalizing j with
  | nil => simp at hm
  | cons hparts _ ih =>
    cases j with
    | zero =>
      obtain rfl := Option.some.inj hm
      exact ⟨_, _, _, rfl, hparts⟩
    | succ j => exact ih hm

theorem WritesBlocks.length_eq {models : List Model} {blocks : List (List String)}
    (h : WritesBlocks honorRequired renderers models s blocks s') :
    blocks.length = models.length := by
  induction h with
  | nil => rfl
  | cons _ _ ih => exact congrArg (· + 1) ih

/-! ### Validators in a file -/

namespace Yup

/-- `validator` with `styleFor options`: the heading and every chain start with the library of
`options`. -/
theorem validator_styleFor (options : List ValidatorOption) (honorRequired : Bool) (m : Model) :
    validator (styleFor options honorRequired) m =
      heading m.name (ValidatorStyle.ofOptions options).library
        ++ String.join (m.properties.toList.map fun p =>
          TypeScript.propertyName p.name ++ ": " ++ (ValidatorStyle.ofOptions options).library
            ++ chain (entryRules (styleFor options honorRequired) p) ++ ",\n")
        ++ "\x7d);\n" := by
  rw [← library_styleFor options honorRequired]
  rfl

theorem eq_validator_of_run {options : List ValidatorOption} {part : String}
    (h : ((renderer options).render honorRequired m).run.run s = (.ok part, s')) :
    part = validator (styleFor options honorRequired) m := by
  obtain ⟨_, s₁, -, h⟩ := run_bind_eq_ok h
  cases h
  rfl

end Yup

/-! ### Building -/

namespace Generator

/-- What the stages of `g.build` have done: `g.read` gave the models, `renderers` are those of the
pipeline, and `blocks` are what they wrote. -/
structure Assembled (g : Generator) (input : BuildInput) (s : Session) (out : BuildOutput)
    (renderers : List Renderer) (blocks : List (List String)) (s' : Session) : Prop where
  pipeline : List.Forall₂ (fun name r => g.registry.find? name = some r) g.pipeline renderers
  written : ∃ document s₁ s₂ s₃, Job.checkpoint.run.run s = (.ok (), s₁) ∧
    (g.document input).run.run s₁ = (.ok document, s₂) ∧
    (g.read document).run.run s₂ = (.ok ⟨out.models, out.skipped⟩, s₃) ∧
    WritesBlocks g.honorRequired renderers out.models s₃ blocks s'
  block_each : blocks.length = out.models.length

variable {g : Generator} {input : BuildInput} {out : BuildOutput}

theorem preambles_eq (renderers : List Renderer) :
    preambles renderers = (renderers.filterMap (·.preamble)).filter (· ≠ "") := by
  unfold preambles
  refine List.filter_congr fun p _ => ?_
  rw [Bool.eq_iff_iff]
  simp

/-- If `g.build` succeeds, it is `Assembled`, and the layout gave its content. -/
theorem assembled_of_build (h : (g.build input).run.run s = (.ok out, s')) :
    ∃ renderers blocks, g.Assembled input s out renderers (blocks.map Block.parts) s' ∧
      g.layout.execute { preambles := preambles renderers, blocks } = .ok out.content := by
  obtain ⟨⟨⟩, s₁, hstart, h⟩ := run_bind_eq_ok h
  obtain ⟨document, s₂, hdocument, h⟩ := run_bind_eq_ok h
  obtain ⟨result, s₃, hread, h⟩ := run_bind_eq_ok h
  obtain ⟨renderers, s₄, hresolve, h⟩ := run_bind_eq_ok h
  obtain ⟨blocks, s₅, hblocks, h⟩ := run_bind_eq_ok h
  obtain ⟨content, s₆, hcontent, h⟩ := run_bind_eq_ok h
  cases h
  obtain ⟨hrenderers, rfl⟩ := run_within_ofExcept_eq_ok hresolve
  obtain ⟨htext, rfl⟩ := run_within_ofExcept_eq_ok hcontent
  have hwritten := writesBlocks_of_run hblocks
  refine ⟨renderers, blocks, ⟨Registry.forall₂_of_resolve hrenderers, ?_, ?_⟩, htext⟩
  · exact ⟨document, s₁, s₂, _, hstart, hdocument, run_within_eq_ok hread, hwritten⟩
  · exact hwritten.length_eq

/-- **What a file consists of.**  With the standard template and the lines `header`, the content is
`Layout.fileText` of the header, the non-empty preambles of the pipeline and the `blocks`: nothing
is escaped, and only line ends are added.

If `renderers[i]` is `Yup.renderer options`, the name that its preamble imports is the one that its
validators and their chains start with. -/
theorem build_content {header : List String} (hlayout : Layout.load { header } = .ok g.layout)
    (hbuild : (g.build input).run.run s = (.ok out, s')) :
    ∃ renderers blocks, g.Assembled input s out renderers blocks s' ∧
      out.content = Layout.fileText header
        ((renderers.filterMap (·.preamble)).filter (· ≠ "")) blocks ∧
      ∀ (i : Nat) options, renderers[i]? = some (Yup.renderer options) →
        ∃ library,
          "import * as " ++ library ++ " from 'yup';" ∈
            (renderers.filterMap (·.preamble)).filter (· ≠ "") ∧
          ∀ (j : Nat) (m : Model), out.models[j]? = some m → ∃ parts, blocks[j]? = some parts ∧
            parts[i]? = some
              ("export const " ++ m.name ++ "Validator = " ++ library ++ ".object().shape(\x7b\n"
                ++ String.join (m.properties.toList.map fun p =>
                  TypeScript.propertyName p.name ++ ": " ++ library
                    ++ Yup.chain (Yup.entryRules (Yup.styleFor options g.honorRequired) p)
                    ++ ",\n")
                ++ "\x7d);\n") := by
  obtain ⟨renderers, blocks, hassembled, hcontent⟩ := assembled_of_build hbuild
  refine ⟨renderers, blocks.map Block.parts, hassembled, ?_, fun i options hi => ?_⟩
  · rw [Layout.load_standard] at hlayout
    rw [← Except.ok.inj hlayout, Layout.execute_standard, preambles_eq] at hcontent
    exact (Except.ok.inj hcontent).symm
  · refine ⟨(Yup.ValidatorStyle.ofOptions options).library, ?_, fun j m hm => ?_⟩
    · refine List.mem_filter.2 ⟨?_, ?_⟩
      · exact List.mem_filterMap.2 ⟨_, List.mem_of_getElem? hi, rfl⟩
      · simp
    · obtain ⟨_, _, _, _, -, -, -, hblocks⟩ := hassembled.written
      obtain ⟨parts, _, _, hparts, hwritten⟩ := hblocks.getElem? hm
      obtain ⟨part, _, _, hpart, hrun⟩ := hwritten.getElem? hi
      refine ⟨parts, hparts, ?_⟩
      rw [hpart, Yup.eq_validator_of_run hrun, Yup.validator_styleFor]
      rfl

/-- A renderer that writes the characters that templates escape. -/
def markupRenderer : Renderer where
  name := "markup"
  preamble := some "<&>"
  render _ m := pure (r#"{{ ""# ++ m.name ++ r#"" }}"#)

/-- A generator with `markupRenderer` after the renderer for validators, and with two models. -/
def markupGenerator : Generator where
  load _ := throw .noInput
  read _ := pure { models := [oddModel, { name := "A<B>" }] }
  registry := ⟨[markupRenderer, Yup.renderer [.library " Y "]]⟩
  pipeline := [Yup.rendererName, "markup"]
  layout := ⟨Layout.standardParts, ["// <a & b>"]⟩

theorem build_content_markup :
    ∃ out blocks, (markupGenerator.build { document := some {} }).run.run {} = (.ok out, {}) ∧
      out.content =
        Layout.fileText ["// <a & b>"] ["import * as Y from 'yup';", "<&>"] blocks ∧
      blocks.length = 2 := by
  have hrun : ∃ out, (markupGenerator.build { document := some {} }).run.run {} =
      (.ok out, {}) ∧ out.models = [oddModel, { name := "A<B>" }] := ⟨_, rfl, rfl⟩
  obtain ⟨out, hbuild, hmodels⟩ := hrun
  obtain ⟨renderers, blocks, hassembled, hcontent, -⟩ :=
    build_content (Layout.load_standard ["// <a & b>"]) hbuild
  have hrenderers : renderers = [Yup.renderer [.library " Y "], markupRenderer] := by
    rcases hassembled.pipeline with _ | ⟨hyup, _ | ⟨hmarkup, ⟨⟩⟩⟩
    cases hyup
    cases hmarkup
    rfl
  have hpreambles : (renderers.filterMap (·.preamble)).filter (· ≠ "") =
      ["import * as Y from 'yup';", "<&>"] := by
    rw [hrenderers]
    decide +kernel
  refine ⟨out, blocks, hbuild, hpreambles ▸ hcontent, ?_⟩
  rw [hassembled.block_each, hmodels]
  rfl

end Generator

end SchemaPress
