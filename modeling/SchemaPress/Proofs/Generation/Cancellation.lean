import SchemaPress.Proofs.Checkpoints
import SchemaPress.Proofs.Generation.Content
import SchemaPress.Proofs.Generation.Project
import SchemaPress.Proofs.Generation.Steady
import SchemaPress.Proofs.OpenApi.Reading

/-!
# Cancelled work

`Generator.build` makes checks in the loader, before each entry that is read, and before each model
that is rendered.  Under a limit it fails with the cancellation or does what it does without one
(`Checks`), and for a document at hand the number of checks is
`2 + schemas + pipeline.length * models.length` (`BuiltIn.counted_build`).

`Generator.generateProject` writes behind the last of these checks.  There a limit is seen by the
confirmer alone:

* `limited_writeOutput`: `writeOutput` under a limit `n` is `writeOutput` with the confirmer under
  the limit `n`;
* `run_generateProject_limited`: so `generateProject` under a limit is `generateProject` without
  one, with the confirmer under what building has left of the limit;
* `files_generateProject_limited`: the files stay as they were or become what they become without a
  limit, if the confirmer is `ConfirmerConsistent`.
-/

namespace SchemaPress

open Job OpenApi

namespace Generator

variable {g : Generator} {input : BuildInput}

/-! ### Building -/

theorem BuiltIn.counted_load (h : g.BuiltIn) (source : Source) :
    Counted (fun _ _ => True) (g.load (some source)) :=
  h.load_composed compositional_counted fun _ _ _ => trivial

theorem BuiltIn.counted_build (h : g.BuiltIn) (input : BuildInput) :
    Counted (fun out count => ∀ document, input.document = some document →
      ∃ schemas, HasSchemas document schemas ∧
        count = 2 + schemas + g.pipeline.length * out.models.length) (g.build input) := by
  have hload (source : Source) (_ : input.source = some source) :
      Counted (fun _ _ => True) (g.load (some source)) := h.counted_load source
  have hbuild := compositional_counted.build hload (h.read_composed compositional_counted)
    fun r hr => h.render_composed compositional_counted hr
  refine hbuild.mono fun out count hcount document hdocument => ?_
  obtain ⟨read, ⟨schemas, hschemas, rfl⟩, hcount⟩ := hcount document hdocument
  refine ⟨schemas, hschemas, ?_⟩
  omega

theorem BuiltIn.counted_buildProject (h : g.BuiltIn) (project : Project) :
    Counted (fun _ _ => True) (g.buildProject project) :=
  compositional_counted.buildProject fun source _ =>
    compositional_counted.anyhow (h.counted_build { source := some source })

/-! ### Projects -/

/-- The generator `g` with a confirmer of which no more than `n` checks pass. -/
def limitedConfirmer (g : Generator) (n : Nat) : Generator :=
  { g with confirmer := g.confirmer.map fun confirmer project path =>
      (confirmer project path).limited n }

theorem unchecked_existing (path : String) : Unchecked (existing? path) := by
  intro s passes
  rw [run_existing, run_existing]
  dsimp only
  rcases s.files.read path with e | content
  · dsimp only
    split_ifs <;> rfl
  · rfl

/-- What `store` does depends on the files alone, and nothing else changes. -/
theorem run_store_eq (path : String) (content : ByteArray) (s : Session) :
    (store path content).run.run s =
      (((store path content).run.run { files := s.files }).1,
        { s with files := ((store path content).run.run { files := s.files }).2.files }) := by
  rw [run_store, run_store]
  dsimp only
  rcases s.files.ensureDirectories (Path.parent path) with ⟨files, e | _⟩
  · rfl
  · dsimp only
    rcases files.createDraft (Path.parent path) draftStem ".tmp" with e | ⟨drafted, draft⟩
    · rfl
    · dsimp only
      rcases publish drafted draft path content with e | stored <;> rfl

theorem unchecked_store (path : String) (content : ByteArray) : Unchecked (store path content) := by
  intro s passes
  rw [run_store_eq, run_store_eq path content s]

theorem limited_confirmOverwrite (g : Generator) (project path : String) (n : Nat) :
    (g.confirmOverwrite project path).limited n =
      (g.limitedConfirmer n).confirmOverwrite project path := by
  have hanswer (yes : Bool) : Unchecked
      (if !yes then throw (.within path (.output .declined)) else pure () : Job Unit) := by
    split
    · exact .throw _
    · exact .pure _
  unfold confirmOverwrite limitedConfirmer
  dsimp only
  cases g.confirmer with
  | none => rfl
  | some confirmer =>
    dsimp only [Option.map_some]
    rw [limited_bind _ hanswer, limited_within]

/-- **`writeOutput` makes no checks but those of the confirmer.** -/
theorem limited_writeOutput (g : Generator) (project path : String) (content : ByteArray)
    (overwrite : Bool) (n : Nat) :
    (g.writeOutput project path content overwrite).limited n =
      (g.limitedConfirmer n).writeOutput project path content overwrite := by
  have hstore : Unchecked (store path content >>= fun _ => pure true) :=
    (unchecked_store path content).bind fun _ => .pure true
  unfold writeOutput
  rw [(unchecked_existing path).limited_bind]
  refine congrArg (existing? path >>= ·) (funext fun existing => ?_)
  show Job.limited (ite _ _ _) n = ite _ _ _
  by_cases hsame : existing.any (·.data == content.data) = true
  · rw [if_pos hsame, if_pos hsame]
    exact (Unchecked.pure false).limited_eq n
  rw [if_neg hsame, if_neg hsame]
  show Job.limited (ite (g.check = true) _ _) n = ite (g.check = true) _ _
  by_cases hcheck : g.check = true
  · rw [if_pos hcheck, if_pos hcheck]
    exact (Unchecked.throw _).limited_eq n
  rw [if_neg hcheck, if_neg hcheck]
  -- The confirmer is in one branch only, and the branches without it are `Unchecked`.
  by_cases hask : (existing.isSome && !overwrite) = true
  · rw [if_pos hask, if_pos hask, limited_bind _ fun _ => hstore, limited_confirmOverwrite]
  · rw [if_neg hask, if_neg hask]
    exact hstore.limited_eq n

section

variable {name path : String} {project : Project} {content : ByteArray} {overwrite : Bool}
  {s s' : Session} {count n : Nat}

/-- If the checks of building pass, `g` does under the limit what it does without it, with a
confirmer under what is left of the limit. -/
theorem run_generateProject_limited (h : Checks (g.buildProject project) s count)
    (hn : count ≤ n) :
    ((g.limitedConfirmer (n - count)).generateProject name project).run s =
      (((g.generateProject name project).run (s.limited n)).1,
        { ((g.generateProject name project).run (s.limited n)).2 with passes := none }) := by
  have hpasses := h.passes
  have hsame : (g.limitedConfirmer (n - count)).buildProject project = g.buildProject project := rfl
  rw [run_generateProject, run_generateProject, hsame, h.passed n hn]
  rcases hbuild : (g.buildProject project).run.run s with ⟨e | out, s₁⟩
  · rw [hbuild] at hpasses
    dsimp only at hpasses ⊢
    rw [← hpasses]
    rfl
  · rw [hbuild] at hpasses
    dsimp only at hpasses ⊢
    rw [← limited_writeOutput, run_limited, hpasses]
    rcases (g.writeOutput name project.outputPath out.content.toUTF8
      project.output.mayOverwrite).run.run (s₁.limited (n - count)) with ⟨e | written, s₂⟩ <;> rfl

/-- If `g.buildProject` succeeds, `g.generateProject` ends where `g.writeOutput` ends. -/
theorem session_generateProject {out : BuildOutput}
    (hbuild : (g.buildProject project).run.run s = (.ok out, s')) :
    ((g.generateProject name project).run s).2 =
      ((g.writeOutput name project.outputPath out.content.toUTF8
        project.output.mayOverwrite).run.run s').2 := by
  rw [run_generateProject, hbuild]
  dsimp only
  rcases (g.writeOutput name project.outputPath out.content.toUTF8
    project.output.mayOverwrite).run.run s' with ⟨e | written, s₂⟩ <;> rfl

/-- If `g.buildProject` fails, `g.generateProject` changes no file. -/
theorem files_generateProject_of_error (h : g.BuiltIn) {e : Error}
    (hbuild : ((g.buildProject project).run.run s).1 = .error e) :
    ((g.generateProject name project).run s).2.files = s.files := by
  have hfiles := (h.quiet.buildProject project s).1
  rw [run_generateProject]
  rcases hrun : (g.buildProject project).run.run s with ⟨e' | out, s₁⟩
  · rwa [hrun] at hfiles
  · rw [hrun] at hbuild
    cases hbuild

theorem files_generateProject_of_lt (h : g.BuiltIn)
    (hchecks : Checks (g.buildProject project) s count) (hn : n < count) :
    ((g.generateProject name project).run (s.limited n)).2.files = s.files := by
  obtain ⟨e, he, -⟩ := hchecks.cancelled n hn
  exact files_generateProject_of_error h he

/-- Under every limit, the confirmer of `g` keeps all files and does not say yes, or it leaves the
files that it leaves without the limit and says yes exactly if it says yes without it. -/
def ConfirmerConsistent (g : Generator) : Prop :=
  ∀ confirmer, g.confirmer = some confirmer → ∀ project path (s : Session) n, s.passes = none →
    let limited := (confirmer project path).run.run (s.limited n)
    let free := (confirmer project path).run.run s
    (limited.2.files = s.files ∧ limited.1 ≠ .ok true) ∨
      (limited.2.files = free.2.files ∧ (limited.1 = .ok true ↔ free.1 = .ok true))

theorem files_store_eq (path : String) (content : ByteArray) (h : s.files = s'.files) :
    ((store path content >>= fun _ => pure true).run.run s).2.files =
      ((store path content >>= fun _ => pure true).run.run s').2.files := by
  rw [Job.run_bind, Job.run_bind, run_store_eq path content s, run_store_eq path content s', h]
  rcases (store path content).run.run { files := s'.files } with ⟨e | _, s₁⟩ <;> rfl

theorem files_confirm_limited (h : g.ConfirmerConsistent) (hs : s.passes = none) (n : Nat) :
    (((g.limitedConfirmer n).confirmOverwrite name path >>= fun _ =>
        store path content >>= fun _ => pure true).run.run s).2.files = s.files ∨
      (((g.limitedConfirmer n).confirmOverwrite name path >>= fun _ =>
          store path content >>= fun _ => pure true).run.run s).2.files =
        ((g.confirmOverwrite name path >>= fun _ =>
          store path content >>= fun _ => pure true).run.run s).2.files := by
  cases hknown : g.confirmer with
  | none =>
    left
    unfold confirmOverwrite limitedConfirmer
    rw [hknown]
    rfl
  | some confirmer =>
    have hknown' : (g.limitedConfirmer n).confirmer =
        some fun project path => (confirmer project path).limited n := by
      rw [limitedConfirmer, hknown]
      rfl
    have hconsistent := h confirmer hknown name path s n hs
    by_cases hyes : ((confirmer name path).run.run (s.limited n)).1 = .ok true
    · -- A yes under the limit is a yes without it, so the file is stored in both runs.
      rcases hconsistent with ⟨-, hno⟩ | ⟨hfiles, hsame⟩
      · exact absurd hyes hno
      · right
        rw [run_confirmOverwrite_bind_of_yes hknown' hyes,
          run_confirmOverwrite_bind_of_yes hknown (hsame.1 hyes)]
        exact files_store_eq path content hfiles
    · -- Without a yes nothing is stored, and the files are those that the confirmer leaves.
      rw [session_confirmOverwrite_bind_of_no hknown' hyes]
      rcases hconsistent with ⟨hfiles, -⟩ | ⟨hfiles, hsame⟩
      · exact .inl hfiles
      · right
        rw [session_confirmOverwrite_bind_of_no hknown (mt hsame.2 hyes)]
        exact hfiles

/-- Under a limit, `g.writeOutput` changes nothing, or what it changes without the limit. -/
theorem files_writeOutput_limited (h : g.ConfirmerConsistent) (hs : s.passes = none) (n : Nat) :
    (((g.limitedConfirmer n).writeOutput name path content overwrite).run.run s).2.files =
        s.files ∨
      (((g.limitedConfirmer n).writeOutput name path content overwrite).run.run s).2.files =
        ((g.writeOutput name path content overwrite).run.run s).2.files := by
  by_cases hneeds : g.NeedsConsent s.files path content overwrite
  · have hneeds' : (g.limitedConfirmer n).NeedsConsent s.files path content overwrite := hneeds
    rw [run_writeOutput_of_needsConsent hneeds, run_writeOutput_of_needsConsent hneeds']
    exact files_confirm_limited h hs n
  · have hsame : ((g.limitedConfirmer n).writeOutput name path content overwrite).run.run s =
        (g.writeOutput name path content overwrite).run.run s :=
      run_writeOutput_of_not_needsConsent hneeds rfl
    exact .inr (by rw [hsame])

theorem files_generateProject_limited (h : g.BuiltIn) (hconsistent : g.ConfirmerConsistent)
    (hs : s.passes = none) (n : Nat) :
    ((g.generateProject name project).run (s.limited n)).2.files = s.files ∨
      ((g.generateProject name project).run (s.limited n)).2.files =
        ((g.generateProject name project).run s).2.files := by
  obtain ⟨count, hchecks, -⟩ := h.counted_buildProject project s hs
  by_cases hn : n < count
  · exact .inl (files_generateProject_of_lt h hchecks hn)
  -- Building does not notice the limit, so only writing is left.
  have hlimited : ((g.generateProject name project).run (s.limited n)).2.files =
      (((g.limitedConfirmer (n - count)).generateProject name project).run s).2.files := by
    rw [run_generateProject_limited hchecks (by omega)]
  rw [hlimited]
  cases hresult : ((g.buildProject project).run.run s).1 with
  | error e =>
    left
    exact files_generateProject_of_error (g := g.limitedConfirmer (n - count))
      ⟨h.load, h.read, h.render⟩ hresult
  | ok out =>
    have hbuild : (g.buildProject project).run.run s =
        (.ok out, ((g.buildProject project).run.run s).2) := Prod.ext hresult rfl
    have hbuild' : ((g.limitedConfirmer (n - count)).buildProject project).run.run s =
        (.ok out, ((g.buildProject project).run.run s).2) := hbuild
    rw [session_generateProject hbuild, session_generateProject hbuild',
      ← (h.quiet.buildProject project s).1]
    exact files_writeOutput_limited hconsistent hchecks.passes (n - count)

/-- **Cancelling is all or nothing.**  For every `input` there is a `count` with
`Checks (g.build input) s count`: with `count` passes or more, `g.build` gives what it gives without
a limit, and with fewer it fails with `cancelled`.  If `input` has a document, the number is
`2 + schemas + g.pipeline.length * out.models.length`.

`g.generateProject` changes no file if fewer than the `count` checks of `g.buildProject` pass.  If
`n` of them pass with `count ≤ n`, it does what `g.limitedConfirmer (n - count)` does without a
limit.  So under `ConfirmerConsistent`, the files stay as they were or become what they become
without a limit. -/
theorem build_cancellation (h : g.BuiltIn) (hs : s.passes = none) :
    (∀ input, ∃ count, Checks (g.build input) s count ∧
      ∀ document out, input.document = some document →
        ((g.build input).run.run s).1 = .ok out →
        ∃ schemas, HasSchemas document schemas ∧
          count = 2 + schemas + g.pipeline.length * out.models.length) ∧
      (∀ name project, ∃ count, Checks (g.buildProject project) s count ∧
        (∀ n < count, ((g.generateProject name project).run (s.limited n)).2.files = s.files) ∧
        ∀ n, count ≤ n →
          ((g.generateProject name project).run (s.limited n)).1 =
              (((g.limitedConfirmer (n - count)).generateProject name project).run s).1 ∧
            ((g.generateProject name project).run (s.limited n)).2.files =
              (((g.limitedConfirmer (n - count)).generateProject name project).run s).2.files) ∧
      (g.ConfirmerConsistent → ∀ name project n,
        ((g.generateProject name project).run (s.limited n)).2.files = s.files ∨
          ((g.generateProject name project).run (s.limited n)).2.files =
            ((g.generateProject name project).run s).2.files) := by
  refine ⟨fun input => ?_, fun name project => ?_, fun hconsistent name project n => ?_⟩
  · obtain ⟨count, hchecks, hcount⟩ := h.counted_build input s hs
    exact ⟨count, hchecks, fun document out hdocument hout => hcount out hout document hdocument⟩
  · obtain ⟨count, hchecks, -⟩ := h.counted_buildProject project s hs
    refine ⟨count, hchecks, fun n hn => files_generateProject_of_lt h hchecks hn, fun n hn => ?_⟩
    rw [run_generateProject_limited hchecks hn]
    exact ⟨rfl, rfl⟩
  · exact files_generateProject_limited h hconsistent hs n

end

/-- `sampleGenerator` with a confirmer that says yes exactly if its check reports the cancellation.
-/
def assentingGenerator : Generator :=
  { sampleGenerator with
    confirmer := some fun _ _ => tryCatch (checkpoint >>= fun _ => pure false) fun _ => pure true }

/-- Under the limit `4`, the number of checks of `buildProject`, the file is replaced, which it is
not without a limit. -/
theorem generateProject_assentingGenerator :
    assentingGenerator.BuiltIn ∧ sampleSession.passes = none ∧
      ((assentingGenerator.generateProject "api" (sampleProject "out")).run
        (sampleSession.limited 4)).2.files ≠ sampleSession.files ∧
      ((assentingGenerator.generateProject "api" (sampleProject "out")).run
        (sampleSession.limited 4)).2.files ≠
        ((assentingGenerator.generateProject "api" (sampleProject "out")).run
          sampleSession).2.files := by
  refine ⟨⟨builtIn_sampleGenerator.load, builtIn_sampleGenerator.read,
    builtIn_sampleGenerator.render⟩, rfl, fun h => ?_, fun h => ?_⟩
  · replace h := congrArg (fun t => (t.read "out/models.ts").toOption.map (·.data)) h
    revert h
    decide +kernel
  · replace h := congrArg (fun t => (t.read "out/models.ts").toOption.map (·.data)) h
    revert h
    decide +kernel

/-! ### A document at hand -/

theorem confirmerConsistent_sampleGenerator : sampleGenerator.ConfirmerConsistent := by
  intro confirmer hknown project path s n _
  cases hknown
  exact .inr ⟨rfl, Iff.rfl⟩

theorem eq_of_hasSchemas_aliasDocument {schemas : Nat} (h : HasSchemas aliasDocument schemas) :
    schemas = 3 := by
  obtain ⟨tree, children, htree, hschemas, rfl⟩ := h
  have hentries : (parseTree aliasDocument.raw).toOption.bind (fun tree =>
      (schemas? tree).map fun node => (Node.entries tree.anchors node).length) = some 3 := by
    decide +kernel
  rw [htree] at hentries
  simpa [Except.toOption, hschemas] using hentries

/-- `aliasDocument` has three schemas and two of them become models, so `build` makes
`2 + 3 + 2 · 2` checks. -/
theorem build_cancellation_aliasDocument :
    Checks (sampleGenerator.build { document := some aliasDocument }) sampleSession 9 ∧
      ∀ n, ((sampleGenerator.generateProject "api" (sampleProject "out")).run
          (sampleSession.limited n)).2.files = sampleSession.files ∨
        ((sampleGenerator.generateProject "api" (sampleProject "out")).run
            (sampleSession.limited n)).2.files =
          ((sampleGenerator.generateProject "api" (sampleProject "out")).run
            sampleSession).2.files := by
  have hmodels : ((sampleGenerator.build { document := some aliasDocument }).run.run
      sampleSession).1.toOption.map (·.models.length) = some 2 := by
    decide +kernel
  obtain ⟨hbuild, -, hproject⟩ :=
    build_cancellation builtIn_sampleGenerator (s := sampleSession) rfl
  refine ⟨?_, hproject confirmerConsistent_sampleGenerator _ _⟩
  obtain ⟨count, hchecks, hcount⟩ := hbuild { document := some aliasDocument }
  cases hresult : ((sampleGenerator.build { document := some aliasDocument }).run.run
      sampleSession).1 with
  | error e =>
    rw [hresult] at hmodels
    cases hmodels
  | ok out =>
    rw [hresult] at hmodels
    obtain ⟨schemas, hschemas, rfl⟩ := hcount aliasDocument out rfl hresult
    have htwo : out.models.length = 2 := Option.some.inj hmodels
    have hpipeline : sampleGenerator.pipeline.length = 2 := rfl
    rwa [eq_of_hasSchemas_aliasDocument hschemas, htwo, hpipeline] at hchecks

end Generator

end SchemaPress
