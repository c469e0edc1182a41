import SchemaPress.Proofs.Generation.Build
import SchemaPress.Proofs.Generation.Store

/-!
# Generating a project as a whole

`Generator.generateProject` changes the files as a whole or not at all (`generateProject_atomic`).
What writing can lead to is said once, by `WriteOutcome`, and everything else follows from that:
when files change, when they do not, and when somebody is asked.

There is one exception.  If the directory of the file is `Obstructed`, generation fails, but the
directories that could be made stay behind (`generateProject_leaves_directory`).
-/

namespace SchemaPress.Generator

open FileTree

variable {g : Generator} {project path : String} {content : ByteArray} {overwrite : Bool}
  {s s' : Session}

/-! ### What is there already -/

theorem run_existing (path : String) (s : Session) :
    (existing? path).run.run s =
      match s.files.read path with
      | .ok content => (.ok (some content), s)
      | .error e =>
        if e.fault.isMissing then (.ok none, s)
        else (.error (.within "read existing output" (.file e)), s) := by
  unfold existing?
  rw [Job.run_bind, Job.run_get]
  dsimp only
  rcases s.files.read path with e | content
  · dsimp only
    split_ifs <;> rfl
  · rfl

/-- If `existing?` succeeds, the session is the same, and the file can be read or is missing. -/
theorem run_existing_eq_ok {path : String} {existing : Option ByteArray} {s s' : Session}
    (h : (existing? path).run.run s = (.ok existing, s')) :
    s' = s ∧ ∀ e, s.files.read path = .error e → e.fault.isMissing = true := by
  rw [run_existing] at h
  split at h
  · rename_i content hread
    cases h
    refine ⟨rfl, fun e he => ?_⟩
    rw [hread] at he
    cases he
  · rename_i e hread
    split_ifs at h with hmissing
    · cases h
      refine ⟨rfl, fun e' he' => ?_⟩
      rw [hread] at he'
      cases he'
      exact hmissing
    · cases h

/-! ### Consent -/

/-- `confirmOverwrite` is called: `g.check` and `overwrite` are not set, and another file lies at
`path`. -/
def NeedsConsent (g : Generator) (t : FileTree) (path : String) (content : ByteArray)
    (overwrite : Bool) : Prop :=
  g.check = false ∧ overwrite = false ∧ ∃ old, t.read path = .ok old ∧ old ≠ content

/-- `store` may be called in a session after `s`: `NeedsConsent` does not hold and it is `s`, or the
confirmer has said yes and left it. -/
inductive Consent (g : Generator) (project path : String) (content : ByteArray) (overwrite : Bool)
    (s : Session) : Session → Prop
  | free (h : ¬ g.NeedsConsent s.files path content overwrite) :
      Consent g project path content overwrite s s
  | given {confirmer : Confirmer} {s' : Session}
      (needs : g.NeedsConsent s.files path content overwrite)
      (known : g.confirmer = some confirmer)
      (yes : (confirmer project path).run.run s = (.ok true, s')) :
      Consent g project path content overwrite s s'

theorem run_confirmOverwrite {confirmer : Confirmer} (h : g.confirmer = some confirmer)
    (project path : String) (s : Session) :
    (g.confirmOverwrite project path).run.run s =
      match (confirmer project path).run.run s with
      | (.ok true, s') => (.ok (), s')
      | (.ok false, s') => (.error (.within path (.output .declined)), s')
      | (.error e, s') => (.error (.within "confirm overwrite" e), s') := by
  unfold confirmOverwrite
  rw [h]
  dsimp only
  rw [Job.run_bind, Job.run_within]
  rcases (confirmer project path).run.run s with ⟨e | _ | _, s'⟩ <;> rfl

theorem run_confirmOverwrite_bind_of_yes {α : Type} {confirmer : Confirmer}
    (h : g.confirmer = some confirmer) (hyes : ((confirmer project path).run.run s).1 = .ok true)
    (f : Unit → Job α) :
    (g.confirmOverwrite project path >>= f).run.run s =
      (f ()).run.run ((confirmer project path).run.run s).2 := by
  rw [Job.run_bind, run_confirmOverwrite h]
  rcases hrun : (confirmer project path).run.run s with ⟨answer, s'⟩
  rw [hrun] at hyes
  obtain rfl : answer = .ok true := hyes
  rfl

/-- If the answer is not yes, `f` is not run. -/
theorem session_confirmOverwrite_bind_of_no {α : Type} {confirmer : Confirmer}
    (h : g.confirmer = some confirmer) (hno : ((confirmer project path).run.run s).1 ≠ .ok true)
    (f : Unit → Job α) :
    ((g.confirmOverwrite project path >>= f).run.run s).2 =
      ((confirmer project path).run.run s).2 := by
  rw [Job.run_bind, run_confirmOverwrite h]
  rcases hrun : (confirmer project path).run.run s with ⟨e | _ | _, s'⟩
  · rfl
  · rfl
  · rw [hrun] at hno
    exact absurd rfl hno

/-- If `NeedsConsent`, then `writeOutput` is `confirmOverwrite` followed by `store`. -/
theorem run_writeOutput_of_needsConsent (h : g.NeedsConsent s.files path content overwrite) :
    (g.writeOutput project path content overwrite).run.run s =
      (g.confirmOverwrite project path >>= fun _ =>
        store path content >>= fun _ => pure true).run.run s := by
  obtain ⟨hcheck, hoverwrite, old, hread, hother⟩ := h
  unfold writeOutput
  rw [Job.run_bind, run_existing, hread]
  dsimp only
  rw [if_neg (by simpa [ByteArray.ext_iff] using hother), if_neg (by simp [hcheck]),
    if_pos (by simp [hoverwrite])]

/-- If not `NeedsConsent`, then `writeOutput` does not depend on the confirmer. -/
theorem run_writeOutput_of_not_needsConsent {g' : Generator}
    (h : ¬ g.NeedsConsent s.files path content overwrite) (hcheck : g'.check = g.check) :
    (g'.writeOutput project path content overwrite).run.run s =
      (g.writeOutput project path content overwrite).run.run s := by
  unfold writeOutput
  rw [Job.run_bind, Job.run_bind, run_existing, hcheck]
  cases hread : s.files.read path with
  | error e =>
    dsimp only
    split_ifs <;> rfl
  | ok old =>
    dsimp only
    by_cases hsame : old = content
    · rw [if_pos (by simp [hsame]), if_pos (by simp [hsame])]
    by_cases hchecked : g.check = true
    · rw [if_pos hchecked, if_pos hchecked]
      split_ifs <;> rfl
    · have hoverwrite : overwrite = true := by
        by_contra hfree
        exact h ⟨by simpa using hchecked, by simpa using hfree, old, hread, hsame⟩
      rw [if_neg (c := ((some old).isSome && !overwrite) = true) (by simp [hoverwrite]),
        if_neg (c := ((some old).isSome && !overwrite) = true) (by simp [hoverwrite])]

/-! ### What writing can lead to -/

/-- The outcomes of `writeOutput`. -/
inductive WriteOutcome (g : Generator) (project path : String) (content : ByteArray)
    (overwrite : Bool) (s : Session) : Except Error Bool → Session → Prop
  /-- The file is there already. -/
  | same (h : s.files.read path = .ok content) (clear : ¬ s.files.Obstructed path) :
      WriteOutcome g project path content overwrite s (.ok false) s
  /-- It cannot or may not be written, which is found out before the confirmer is asked. -/
  | kept {e : Error}
      (silent : g.NeedsConsent s.files path content overwrite → g.confirmer = none)
      (clear : g.check = false → ¬ s.files.Obstructed path) :
      WriteOutcome g project path content overwrite s (.error e) s
  /-- The confirmer does not say yes. -/
  | refused {confirmer : Confirmer} {answer : Except Error Bool} {s₁ : Session} {e : Error}
      (needs : g.NeedsConsent s.files path content overwrite)
      (known : g.confirmer = some confirmer)
      (run : (confirmer project path).run.run s = (answer, s₁)) (no : answer ≠ .ok true)
      (clear : ¬ s.files.Obstructed path) :
      WriteOutcome g project path content overwrite s (.error e) s₁
  /-- `store` fails before anything changes. -/
  | failed {e : Error} {s₁ : Session} (consent : Consent g project path content overwrite s s₁)
      (clear : ¬ s.files.Obstructed path) :
      WriteOutcome g project path content overwrite s (.error e) s₁
  /-- The file is stored. -/
  | stored {s₁ : Session} {t' : FileTree} (check : g.check = false)
      (different : s.files.read path ≠ .ok content)
      (consent : Consent g project path content overwrite s s₁)
      (clear : ¬ s.files.Obstructed path) (stored : Stored s.files t' path content) :
      WriteOutcome g project path content overwrite s (.ok true) { s₁ with files := t' }
  /-- The path is `Obstructed`: some directories are made before one cannot be made. -/
  | obstructed {p : String} {t' : FileTree} {place names : List String} (check : g.check = false)
      (missing : ∀ old, s.files.read path ≠ .ok old) (obstructed : s.files.Obstructed path)
      (wellFormed : t'.WellFormed) (grown : Grown s.files t' place)
      (before : s.files.get? names = none) (after : t'.get? names = some .directory) :
      WriteOutcome g project path content overwrite s
        (.error (.within "mkdir" (.file ⟨"mkdir", p, .nameTooLong⟩))) { s with files := t' }

/-- The confirmer of `g`, if there is one, changes no file. -/
def ConfirmerKeepsFiles (g : Generator) : Prop :=
  ∀ confirmer, g.confirmer = some confirmer →
    ∀ project path s, ((confirmer project path).run.run s).2.files = s.files

theorem Consent.files_eq (hconfirmer : g.ConfirmerKeepsFiles)
    (h : Consent g project path content overwrite s s') : s'.files = s.files := by
  cases h with
  | free _ => rfl
  | given _ known yes =>
    have hfiles := hconfirmer _ known project path s
    rwa [yes] at hfiles

section

variable {rooted : Bool} {names : List String}

theorem read_of_obstructed (hclean : Path.IsClean rooted (names ++ [outputFile]))
    (hpath : path = Path.ofNames rooted (names ++ [outputFile]))
    (h : s.files.Obstructed path) : s.files.read path = .error ⟨"open", path, .missing⟩ := by
  obtain ⟨place, after, hgap, -⟩ := h
  subst hpath
  have hfront : Path.IsClean rooted names := hclean.sublist (List.sublist_append_left _ _)
  rw [Path.isRooted_ofNames hclean.isName, Path.parent_ofNames hclean,
    Path.names_ofNames hfront.isName] at hgap
  unfold FileTree.read
  rw [hgap.find_eq hclean.isName]

/-- `store` after `Consent` has one of the outcomes of `writeOutput`. -/
theorem store_outcome (hwell : s.files.WellFormed) (hconfirmer : g.ConfirmerKeepsFiles)
    (hclean : Path.IsClean rooted (names ++ [outputFile]))
    (hpath : path = Path.ofNames rooted (names ++ [outputFile])) (hcheck : g.check = false)
    (hread : ∀ e, s.files.read path = .error e → e.fault.isMissing = true)
    (hdifferent : s.files.read path ≠ .ok content)
    (hconsent : Consent g project path content overwrite s s') :
    WriteOutcome g project path content overwrite s
      ((store path content >>= fun _ => pure true).run.run s').1
      ((store path content >>= fun _ => pure true).run.run s').2 := by
  have hfiles := hconsent.files_eq hconfirmer
  by_cases hobstructed : s.files.Obstructed path
  · have hmissing := read_of_obstructed hclean hpath hobstructed
    -- There is no file on an obstructed path, so nobody was asked.
    have hfree : s' = s := by
      cases hconsent with
      | free _ => rfl
      | given needs _ _ =>
        obtain ⟨-, -, old, hold, -⟩ := needs
        rw [hmissing] at hold
        cases hold
    subst hfree
    obtain ⟨t', p, hrun, hwell', ⟨place, hgrown⟩, names, hbefore, hafter⟩ :=
      run_store_of_obstructed hwell hclean hpath hobstructed content
    rw [Job.run_bind, hrun]
    refine .obstructed hcheck ?_ hobstructed hwell' hgrown hbefore hafter
    intro old hold
    rw [hmissing] at hold
    cases hold
  · rw [← hfiles] at hwell hread hobstructed
    rcases run_store_cases hwell hclean hpath hread hobstructed content with
      ⟨e, hrun⟩ | ⟨t', hrun, hstored⟩
    · rw [Job.run_bind, hrun]
      exact .failed hconsent (hfiles ▸ hobstructed)
    · rw [Job.run_bind, hrun]
      exact .stored hcheck hdifferent hconsent (hfiles ▸ hobstructed) (hfiles ▸ hstored)

/-- `writeOutput` if no file can be read at `path`; then nobody has to be asked. -/
theorem writeOutput_outcome_of_error (hwell : s.files.WellFormed)
    (hconfirmer : g.ConfirmerKeepsFiles) (hclean : Path.IsClean rooted (names ++ [outputFile]))
    (hpath : path = Path.ofNames rooted (names ++ [outputFile])) {e : FileError}
    (hread : s.files.read path = .error e) :
    WriteOutcome g project path content overwrite s
      ((g.writeOutput project path content overwrite).run.run s).1
      ((g.writeOutput project path content overwrite).run.run s).2 := by
  have hneeds : ¬ g.NeedsConsent s.files path content overwrite := by
    rintro ⟨-, -, old, hold, -⟩
    rw [hread] at hold
    cases hold
  unfold writeOutput
  rw [Job.run_bind, run_existing, hread]
  dsimp only
  by_cases hmissing : e.fault.isMissing = true
  · rw [if_pos hmissing]
    dsimp only
    rw [if_neg (by simp)]
    by_cases hcheck : g.check = true
    · rw [if_pos hcheck]
      exact .kept (fun h => absurd h hneeds) (by simp [hcheck])
    · rw [if_neg hcheck]
      refine store_outcome hwell hconfirmer hclean hpath (by simpa using hcheck) ?_
        (by simp [hread]) (.free hneeds)
      intro e' he'
      rw [hread] at he'
      cases he'
      exact hmissing
  · -- On an obstructed path the file counts as missing, so another fault rules that out.
    rw [if_neg hmissing]
    refine .kept (fun h => absurd h hneeds) fun _ hobstructed => ?_
    rw [read_of_obstructed hclean hpath hobstructed] at hread
    cases hread
    exact hmissing rfl

/-- `confirmOverwrite` and `store` if `NeedsConsent`. -/
theorem confirm_outcome (hwell : s.files.WellFormed) (hconfirmer : g.ConfirmerKeepsFiles)
    (hclean : Path.IsClean rooted (names ++ [outputFile]))
    (hpath : path = Path.ofNames rooted (names ++ [outputFile]))
    (hclear : ¬ s.files.Obstructed path)
    (hneeds : g.NeedsConsent s.files path content overwrite) :
    WriteOutcome g project path content overwrite s
      ((g.confirmOverwrite project path >>= fun _ =>
        store path content >>= fun _ => pure true).run.run s).1
      ((g.confirmOverwrite project path >>= fun _ =>
        store path content >>= fun _ => pure true).run.run s).2 := by
  have ⟨hcheck, _, old, hread, hother⟩ := hneeds
  have hfound : ∀ e, s.files.read path = .error e → e.fault.isMissing = true := by
    intro e he
    rw [hread] at he
    cases he
  have hdifferent : s.files.read path ≠ .ok content := by
    rw [hread]
    simpa using hother
  rw [Job.run_bind]
  cases hknown : g.confirmer with
  | none =>
    have hrun : (g.confirmOverwrite project path).run.run s =
        (.error (.within path (.output .alreadyExists)), s) := by
      unfold confirmOverwrite
      rw [hknown]
      rfl
    rw [hrun]
    exact .kept (fun _ => hknown) fun _ => hclear
  | some confirmer =>
    rw [run_confirmOverwrite hknown]
    rcases hrun : (confirmer project path).run.run s with ⟨e | answer, s₁⟩
    · exact .refused hneeds hknown hrun (by simp) hclear
    · cases answer with
      | false => exact .refused hneeds hknown hrun (by simp) hclear
      | true =>
        exact store_outcome hwell hconfirmer hclean hpath hcheck hfound hdifferent
          (.given hneeds hknown hrun)

/-- `writeOutput` if a file can be read at `path`, so that the directory is there. -/
theorem writeOutput_outcome_of_ok (hwell : s.files.WellFormed)
    (hconfirmer : g.ConfirmerKeepsFiles) (hclean : Path.IsClean rooted (names ++ [outputFile]))
    (hpath : path = Path.ofNames rooted (names ++ [outputFile])) {old : ByteArray}
    (hread : s.files.read path = .ok old) :
    WriteOutcome g project path content overwrite s
      ((g.writeOutput project path content overwrite).run.run s).1
      ((g.writeOutput project path content overwrite).run.run s).2 := by
  have hclear : ¬ s.files.Obstructed path := by
    intro hobstructed
    rw [read_of_obstructed hclean hpath hobstructed] at hread
    cases hread
  unfold writeOutput
  rw [Job.run_bind, run_existing, hread]
  dsimp only
  by_cases hsame : old = content
  · subst hsame
    rw [if_pos (by simp)]
    exact .same hread hclear
  rw [if_neg (by simpa [ByteArray.ext_iff] using hsame)]
  by_cases hcheck : g.check = true
  · rw [if_pos hcheck]
    refine .kept (fun h => ?_) (by simp [hcheck])
    rw [h.1] at hcheck
    cases hcheck
  rw [if_neg hcheck]
  rw [Bool.not_eq_true] at hcheck
  by_cases hoverwrite : overwrite = true
  · rw [if_neg (by simp [hoverwrite])]
    refine store_outcome hwell hconfirmer hclean hpath hcheck (by simp [hread])
      (by simpa [hread] using hsame) (.free ?_)
    rintro ⟨-, h, -⟩
    rw [hoverwrite] at h
    cases h
  · rw [Bool.not_eq_true] at hoverwrite
    rw [if_pos (by simp [hoverwrite])]
    exact confirm_outcome hwell hconfirmer hclean hpath hclear
      ⟨hcheck, hoverwrite, old, hread, hsame⟩

/-- **Every run of `writeOutput` is a `WriteOutcome`.** -/
theorem writeOutput_outcome (hwell : s.files.WellFormed) (hconfirmer : g.ConfirmerKeepsFiles)
    (hclean : Path.IsClean rooted (names ++ [outputFile]))
    (hpath : path = Path.ofNames rooted (names ++ [outputFile])) :
    WriteOutcome g project path content overwrite s
      ((g.writeOutput project path content overwrite).run.run s).1
      ((g.writeOutput project path content overwrite).run.run s).2 := by
  cases hread : s.files.read path with
  | error e => exact writeOutput_outcome_of_error hwell hconfirmer hclean hpath hread
  | ok old => exact writeOutput_outcome_of_ok hwell hconfirmer hclean hpath hread

end

/-! ### What follows -/

section

variable {outcome : Except Error Bool}

theorem WriteOutcome.files_of_error (hconfirmer : g.ConfirmerKeepsFiles) {e : Error}
    (h : WriteOutcome g project path content overwrite s (.error e) s')
    (hclear : g.check = false → ¬ s.files.Obstructed path) : s'.files = s.files := by
  cases h with
  | kept _ _ => rfl
  | refused _ known run _ _ =>
    have hfiles := hconfirmer _ known project path s
    rwa [run] at hfiles
  | failed consent _ => exact consent.files_eq hconfirmer
  | obstructed check _ hobstructed => exact absurd hobstructed (hclear check)

theorem WriteOutcome.of_obstructed
    (h : WriteOutcome g project path content overwrite s outcome s') (hcheck : g.check = false)
    (hobstructed : s.files.Obstructed path) :
    (∃ p, outcome = .error (.within "mkdir" (.file ⟨"mkdir", p, .nameTooLong⟩))) ∧
      (∃ place, Grown s.files s'.files place) ∧
      ∃ names, s.files.get? names = none ∧ s'.files.get? names = some .directory := by
  cases h with
  | same _ clear => exact absurd hobstructed clear
  | kept _ clear => exact absurd hobstructed (clear hcheck)
  | refused _ _ _ _ clear => exact absurd hobstructed clear
  | failed _ clear => exact absurd hobstructed clear
  | stored _ _ _ clear _ => exact absurd hobstructed clear
  | obstructed _ _ _ _ grown before after => exact ⟨⟨_, rfl⟩, ⟨_, grown⟩, _, before, after⟩

theorem WriteOutcome.of_false (h : WriteOutcome g project path content overwrite s (.ok false) s') :
    s' = s ∧ s.files.read path = .ok content := by
  cases h with
  | same h _ => exact ⟨rfl, h⟩

theorem WriteOutcome.of_true (h : WriteOutcome g project path content overwrite s (.ok true) s') :
    g.check = false ∧ Stored s.files s'.files path content ∧ s.files.read path ≠ .ok content ∧
      ∃ s₁, Consent g project path content overwrite s s₁ := by
  cases h with
  | stored check different consent _ stored => exact ⟨check, stored, different, _, consent⟩

/-- If a file is replaced although `overwrite` is not set, the confirmer has said yes. -/
theorem WriteOutcome.yes_of_true
    (h : WriteOutcome g project path content overwrite s (.ok true) s')
    (hoverwrite : overwrite = false) {old : ByteArray} (hold : s.files.read path = .ok old) :
    ∃ confirmer s₁, g.confirmer = some confirmer ∧
      (confirmer project path).run.run s = (.ok true, s₁) := by
  obtain ⟨hcheck, -, hdifferent, s₁, hconsent⟩ := h.of_true
  cases hconsent with
  | free hfree =>
    refine absurd ⟨hcheck, hoverwrite, old, hold, ?_⟩ hfree
    rintro rfl
    exact hdifferent hold
  | given _ known yes => exact ⟨_, _, known, yes⟩

/-- If `NeedsConsent`, the confirmer is asked once, and only files change afterwards. -/
theorem WriteOutcome.of_needsConsent {confirmer : Confirmer}
    (h : WriteOutcome g project path content overwrite s outcome s')
    (hneeds : g.NeedsConsent s.files path content overwrite)
    (hknown : g.confirmer = some confirmer) :
    s' = { ((confirmer project path).run.run s).2 with files := s'.files } := by
  have hconsent {s₁ : Session} (h : Consent g project path content overwrite s s₁) :
      s₁ = ((confirmer project path).run.run s).2 := by
    cases h with
    | free h => exact absurd hneeds h
    | given _ known yes =>
      obtain rfl := Option.some.inj (hknown.symm.trans known)
      rw [yes]
  cases h with
  | same h _ =>
    obtain ⟨-, -, old, hold, hne⟩ := hneeds
    rw [h] at hold
    exact absurd (Except.ok.inj hold).symm hne
  | kept silent _ =>
    rw [silent hneeds] at hknown
    cases hknown
  | refused _ known run _ _ =>
    obtain rfl := Option.some.inj (hknown.symm.trans known)
    rw [run]
  | failed consent _ => rw [← hconsent consent]
  | stored _ _ consent _ _ => rw [← hconsent consent]
  | obstructed _ missing =>
    obtain ⟨-, -, old, hold, -⟩ := hneeds
    exact absurd hold (missing old)

/-- Otherwise nobody is asked, and only files change. -/
theorem WriteOutcome.of_silent (h : WriteOutcome g project path content overwrite s outcome s')
    (hsilent : g.NeedsConsent s.files path content overwrite → g.confirmer = none) :
    s' = { s with files := s'.files } := by
  have hconsent {s₁ : Session} (h : Consent g project path content overwrite s s₁) : s₁ = s := by
    cases h with
    | free _ => rfl
    | given needs known _ =>
      rw [hsilent needs] at known
      cases known
  cases h with
  | same _ _ => rfl
  | kept _ _ => rfl
  | refused needs known _ _ _ =>
    rw [hsilent needs] at known
    cases known
  | failed consent _ => rw [hconsent consent]
  | stored _ _ consent _ _ => rw [hconsent consent]
  | obstructed => rfl

end

/-! ### Generating a project -/

/-- `g.buildProject` gives `out` in the session `s`. -/
def Builds (g : Generator) (project : Project) (s : Session) (out : BuildOutput) : Prop :=
  ((g.buildProject project).run.run s).1 = .ok out

/-- `g.generateProject` asks the confirmer, if there is one. -/
def Asks (g : Generator) (project : Project) (s : Session) : Prop :=
  ∃ out, g.Builds project s out ∧
    g.NeedsConsent s.files project.outputPath out.content.toUTF8 project.output.mayOverwrite

/-- `g.generateProject` makes some of the directories of the output and fails: the project is built,
`g.check` is not set, and the path is `Obstructed`. -/
def Strands (g : Generator) (project : Project) (s : Session) : Prop :=
  (∃ out, g.Builds project s out) ∧ g.check = false ∧ s.files.Obstructed project.outputPath

/-- What `g.generateProject` does to the files, and when it asks. -/
structure Atomic (g : Generator) (name : String) (project : Project) (s : Session)
    (result : ProjectResult) (error : Option Error) (s' : Session) : Prop where
  outputPath : result.outputPath = project.outputPath
  /-- A failure changes no file, unless `Strands`. -/
  failed : error ≠ none → ¬ g.Strands project s → s'.files = s.files
  /-- If `Strands`, the error is `.nameTooLong`, and the tree has `Grown`. -/
  stranded : g.Strands project s →
    (∃ p, error = some (.within ("orchestrator: project " ++ Text.quoted name)
      (.within "mkdir" (.file ⟨"mkdir", p, .nameTooLong⟩)))) ∧
    (∃ place, Grown s.files s'.files place) ∧
    ∃ names, s.files.get? names = none ∧ s'.files.get? names = some .directory
  /-- If nothing is written, the output is what was built. -/
  unchanged : error = none → result.written = false →
    s'.files = s.files ∧
      ∃ out, g.Builds project s out ∧ s.files.read project.outputPath = .ok out.content.toUTF8
  /-- If the output is written, it is what was built, and nothing else changes but for directories
  on the way. -/
  written : error = none → result.written = true →
    ∃ out, g.Builds project s out ∧
      s'.files.read project.outputPath = .ok out.content.toUTF8 ∧
      Stored s.files s'.files project.outputPath out.content.toUTF8
  /-- Nothing is written if `g.check` is set, and no file is replaced without permission. -/
  allowed : error = none → result.written = true →
    g.check = false ∧ ∀ old, s.files.read project.outputPath = .ok old →
      project.output.mayOverwrite = false → ∃ confirmer s₁, g.confirmer = some confirmer ∧
        (confirmer name project.outputPath).run.run ((g.buildProject project).run.run s).2 =
          (.ok true, s₁)
  /-- If `Asks`, the confirmer is asked once, after the file was built. -/
  asked : g.Asks project s → ∀ confirmer, g.confirmer = some confirmer →
    s' = { ((confirmer name project.outputPath).run.run
      ((g.buildProject project).run.run s).2).2 with files := s'.files }
  /-- Otherwise nobody is asked. -/
  silent : (g.Asks project s → g.confirmer = none) →
    s' = { ((g.buildProject project).run.run s).2 with files := s'.files } ∧
      s'.questions = s.questions

theorem run_generateProject (g : Generator) (name : String) (project : Project) (s : Session) :
    (g.generateProject name project).run s =
      match (g.buildProject project).run.run s with
      | (.error e, s₁) =>
        ((emptyResult name project,
          some (.within ("orchestrator: project " ++ Text.quoted name) e)), s₁)
      | (.ok out, s₁) =>
        let built := { emptyResult name project with
          models := out.models.length, skipped := out.skipped }
        match (g.writeOutput name project.outputPath out.content.toUTF8
            project.output.mayOverwrite).run.run s₁ with
        | (.error e, s') =>
          ((built, some (.within ("orchestrator: project " ++ Text.quoted name) e)), s')
        | (.ok written, s') => (({ built with written }, none), s') := by
  unfold generateProject
  rw [StateT.run_bind]
  rcases (g.buildProject project).run.run s with ⟨e | out, s₁⟩
  · rfl
  · show ((g.writeOutput name project.outputPath out.content.toUTF8
        project.output.mayOverwrite).run >>= _).run s₁ = _
    rw [StateT.run_bind]
    dsimp only
    rcases (g.writeOutput name project.outputPath out.content.toUTF8
      project.output.mayOverwrite).run.run s₁ with ⟨e | written, s'⟩ <;> rfl

/-- `Atomic` if `buildProject` fails. -/
theorem atomic_of_error {name : String} {project : Project} {e : Error}
    (hquiet : g.Quiet) (hbuild : ((g.buildProject project).run.run s).1 = .error e) :
    g.Atomic name project s (emptyResult name project)
      (some (.within ("orchestrator: project " ++ Text.quoted name) e))
      ((g.buildProject project).run.run s).2 := by
  have hbuilds (out : BuildOutput) : ¬ g.Builds project s out := by
    intro h
    rw [Builds, hbuild] at h
    cases h
  obtain ⟨hfiles, hquestions⟩ := hquiet.buildProject project s
  refine ⟨rfl, fun _ _ => hfiles, ?_, ?_, ?_, ?_, ?_, fun _ => ⟨rfl, hquestions⟩⟩
  · rintro ⟨⟨out, hout⟩, -⟩
    exact absurd hout (hbuilds out)
  · intro h
    cases h
  · intro h
    cases h
  · intro h
    cases h
  · rintro ⟨out, hout, -⟩
    exact absurd hout (hbuilds out)

/-- `result` and `error` are made from the outcome of `writeOutput`. -/
structure Reports (name : String) (project : Project) (outcome : Except Error Bool)
    (result : ProjectResult) (error : Option Error) : Prop where
  outputPath : result.outputPath = project.outputPath
  of_error : ∀ e, outcome = .error e →
    error = some (.within ("orchestrator: project " ++ Text.quoted name) e)
  of_ok : ∀ written, outcome = .ok written → error = none ∧ result.written = written

theorem generateProject_outcome {name : String} {project : Project} {out : BuildOutput}
    {s₁ : Session} (hconfirmer : g.ConfirmerKeepsFiles) (hwell : s₁.files.WellFormed)
    (hbuild : (g.buildProject project).run.run s = (.ok out, s₁)) :
    ∃ outcome, WriteOutcome g name project.outputPath out.content.toUTF8
        project.output.mayOverwrite s₁ outcome ((g.generateProject name project).run s).2 ∧
      Reports name project outcome ((g.generateProject name project).run s).1.1
        ((g.generateProject name project).run s).1.2 := by
  obtain ⟨rooted, names, hclean, hpath⟩ : ∃ rooted names,
      Path.IsClean rooted (names ++ [outputFile]) ∧
        project.outputPath = Path.ofNames rooted (names ++ [outputFile]) :=
    Path.join_eq_ofNames project.output.target isName_outputFile plain_outputFile.ne_dots
  have houtcome : WriteOutcome g name project.outputPath out.content.toUTF8
      project.output.mayOverwrite s₁ _ _ :=
    writeOutput_outcome hwell hconfirmer hclean hpath
  rw [run_generateProject, hbuild]
  dsimp only
  rcases hwrite : (g.writeOutput name project.outputPath out.content.toUTF8
    project.output.mayOverwrite).run.run s₁ with ⟨e | written, s'⟩
  · rw [hwrite] at houtcome
    refine ⟨.error e, houtcome, rfl, ?_, ?_⟩
    · rintro _ ⟨⟩
      rfl
    · rintro _ ⟨⟩
  · rw [hwrite] at houtcome
    refine ⟨.ok written, houtcome, rfl, ?_, ?_⟩
    · rintro _ ⟨⟩
    · rintro _ ⟨⟩
      exact ⟨rfl, rfl⟩

/-- `Atomic` from a `WriteOutcome`. -/
theorem atomic_of_outcome {name : String} {project : Project} {out : BuildOutput} {s₁ : Session}
    {outcome : Except Error Bool} {result : ProjectResult} {error : Option Error}
    (hquiet : g.Quiet) (hconfirmer : g.ConfirmerKeepsFiles)
    (hbuild : (g.buildProject project).run.run s = (.ok out, s₁))
    (houtcome : WriteOutcome g name project.outputPath out.content.toUTF8
      project.output.mayOverwrite s₁ outcome s')
    (hreports : Reports name project outcome result error) :
    g.Atomic name project s result error s' := by
  -- Building is quiet, so everything said about the files before writing holds from the start.
  obtain ⟨hfiles, hquestions⟩ := hquiet.buildProject project s
  rw [hbuild] at hfiles hquestions
  dsimp only at hfiles hquestions
  have hbuilds (out' : BuildOutput) : g.Builds project s out' ↔ out' = out := by
    rw [Builds, hbuild, Except.ok.injEq, eq_comm]
  have hasks : g.Asks project s ↔ g.NeedsConsent s₁.files project.outputPath
      out.content.toUTF8 project.output.mayOverwrite := by
    simp only [Asks, hbuilds, exists_eq_left, hfiles]
  have hstrands : g.Strands project s ↔
      g.check = false ∧ s₁.files.Obstructed project.outputPath := by
    simp only [Strands, hbuilds, exists_eq, true_and, hfiles]
  have hwritten (h : error = none) : outcome = .ok result.written := by
    cases outcome with
    | error e =>
      rw [hreports.of_error e rfl] at h
      cases h
    | ok written => rw [(hreports.of_ok written rfl).2]
  refine ⟨hreports.outputPath, ?_, ?_, ?_, ?_, ?_, ?_, ?_⟩
  · intro hfailed hclear
    cases outcome with
    | error e =>
      rw [hstrands, not_and] at hclear
      exact (houtcome.files_of_error hconfirmer hclear).trans hfiles
    | ok written => exact absurd (hreports.of_ok written rfl).1 hfailed
  · intro hstrand
    obtain ⟨hcheck, hobstructed⟩ := hstrands.1 hstrand
    obtain ⟨⟨p, hp⟩, hgrown, hnew⟩ := houtcome.of_obstructed hcheck hobstructed
    rw [hfiles] at hgrown hnew
    exact ⟨⟨p, hreports.of_error _ hp⟩, hgrown, hnew⟩
  · intro hnone hfalse
    rw [hwritten hnone, hfalse] at houtcome
    obtain ⟨rfl, hread⟩ := houtcome.of_false
    exact ⟨hfiles, out, (hbuilds out).2 rfl, hfiles ▸ hread⟩
  · intro hnone htrue
    rw [hwritten hnone, htrue] at houtcome
    obtain ⟨-, hstored, -⟩ := houtcome.of_true
    exact ⟨out, (hbuilds out).2 rfl, hstored.read_eq, hfiles ▸ hstored⟩
  · intro hnone htrue
    rw [hwritten hnone, htrue] at houtcome
    refine ⟨houtcome.of_true.1, fun old hold hoverwrite => ?_⟩
    rw [hbuild]
    exact houtcome.yes_of_true hoverwrite (hfiles ▸ hold)
  · intro hask confirmer hknown
    rw [hbuild]
    exact houtcome.of_needsConsent (hasks.1 hask) hknown
  · intro hsilent
    have hsession := houtcome.of_silent (hasks.2 · |> hsilent)
    rw [hbuild]
    refine ⟨hsession, ?_⟩
    rw [hsession]
    exact hquestions

/-- **`generateProject` is atomic.**  Whatever the files, the project and the confirmer are, the
output is written as a whole or no file changes, unless `Strands`, and the confirmer is asked
exactly if a different file would be replaced. -/
theorem generateProject_atomic (hquiet : g.Quiet) (hconfirmer : g.ConfirmerKeepsFiles)
    (hwell : s.files.WellFormed) (name : String) (project : Project) :
    g.Atomic name project s ((g.generateProject name project).run s).1.1
      ((g.generateProject name project).run s).1.2 ((g.generateProject name project).run s).2 := by
  rcases hbuild : (g.buildProject project).run.run s with ⟨e | out, s₁⟩
  · have herror : g.Atomic name project s _ _ _ :=
      atomic_of_error hquiet (congrArg Prod.fst hbuild)
    rw [run_generateProject]
    rwa [hbuild] at herror ⊢
  · have hfiles := (hquiet.buildProject project s).1
    rw [hbuild] at hfiles
    obtain ⟨outcome, houtcome, hreports⟩ :=
      generateProject_outcome hconfirmer (hfiles ▸ hwell) hbuild
    exact atomic_of_outcome hquiet hconfirmer hbuild houtcome hreports

/-! ### Two sessions -/

/-- A terminal that notes every question and says yes. -/
def agreeingTerminal : Terminal where
  confirm q := do
    Job.ask q
    return true
  select q := do
    Job.ask q
    return []

/-- The generator of the program with `agreeingTerminal` and a template of its own. -/
def sampleGenerator : Generator :=
  { Command.generator { version := "dev", terminal := some agreeingTerminal, time := default }
      { interactive := true } with
    layout := ⟨[.text "export {}\n"], []⟩ }

/-- A session with a document, and with another file at `out/models.ts`. -/
def sampleSession : Session where
  files :=
    { entries := [
        (["in.json"], .file
          (r#"{"openapi": "3.0.0", "info": {"title": "T", "version": "1"}, "#
            ++ r#""paths": {}, "components": {"schemas": {}}}"#).toUTF8
          readable),
        (["out"], .directory),
        (["out", "models.ts"], .file "by hand".toUTF8 readable)] }

/-- A project that reads `in.json` and must not overwrite its output without asking. -/
def sampleProject (target : String) : Project where
  input := { target := "in.json" }
  output := { target, overwrite := some false }

theorem wellFormed_sampleSession : sampleSession.files.WellFormed := by
  refine wellFormed_of_entries ?_ rfl
  intro e he _
  simp only [sampleSession, List.mem_cons, List.not_mem_nil, or_false] at he
  rcases he with rfl | rfl | rfl <;> rfl

theorem builtIn_sampleGenerator : sampleGenerator.BuiltIn :=
  have h := Command.generator_builtIn
    { version := "dev", terminal := some agreeingTerminal, time := default } { interactive := true }
  ⟨h.load, h.read, h.render⟩

theorem confirmerKeepsFiles_sampleGenerator : sampleGenerator.ConfirmerKeepsFiles := by
  intro confirmer hknown project path s
  cases hknown
  rfl

/-- The run of `sampleProject target`. -/
def sampleRun (target : String) : (ProjectResult × Option Error) × Session :=
  (sampleGenerator.generateProject "api" (sampleProject target)).run sampleSession

theorem generateProject_atomic_sample :
    sampleGenerator.Atomic "api" (sampleProject "out") sampleSession (sampleRun "out").1.1
        (sampleRun "out").1.2 (sampleRun "out").2 ∧
      ((sampleRun "out").1.1.written = true ∧
        (sampleRun "out").2.questions = [Prompt.overwriteQuestion "api" "out/models.ts"]) :=
  ⟨generateProject_atomic builtIn_sampleGenerator.quiet confirmerKeepsFiles_sampleGenerator
    wellFormed_sampleSession "api" (sampleProject "out"), by decide +kernel⟩

/-- A name of `n` bytes. -/
def zeros (n : Nat) : String :=
  String.ofList (List.replicate n '0')

theorem ne_zeros {n : Nat} {name : String} (h : name.toList.length < n) : zeros n ≠ name := by
  rintro rfl
  rw [zeros, String.toList_ofList, List.length_replicate] at h
  omega

theorem obstructed_zeros {n : Nat} (h : maxNameSize < n) : sampleSession.files.Obstructed
    (sampleProject (Path.ofNames false ["new", zeros n])).outputPath := by
  have hthree : 2 < n := Nat.lt_trans (by decide) h
  have hzeros : Path.IsName (zeros n) := by
    refine ⟨ne_zeros (Nat.lt_trans (by decide) hthree), ne_zeros (Nat.lt_trans (by decide) hthree),
      ?_⟩
    rw [zeros, String.toList_ofList]
    intro hslash
    exact absurd (List.eq_of_mem_replicate hslash) (by decide)
  have hfront : Path.IsClean false ["new", zeros n] := by
    have hnew : Path.IsName "new" := ⟨by decide, by decide, by decide⟩
    exact ((Path.IsClean.nil false).concat hnew (by decide)).concat hzeros (ne_zeros hthree)
  have hclean := hfront.concat isName_outputFile plain_outputFile.ne_dots
  have hpath : (sampleProject (Path.ofNames false ["new", zeros n])).outputPath =
      Path.ofNames false (["new", zeros n] ++ [outputFile]) :=
    Path.join_ofNames hfront isName_outputFile plain_outputFile.ne_dots
  have hsize : (zeros n).utf8ByteSize = n := by
    rw [zeros, Decimal.utf8ByteSize_ofList_of_isDigit, List.length_replicate]
    intro c hc
    rw [List.eq_of_mem_replicate hc]
    rfl
  rw [hpath]
  unfold Obstructed
  rw [Path.isRooted_ofNames hclean.isName, Path.parent_ofNames hclean,
    Path.names_ofNames hfront.isName]
  refine ⟨["new"], [zeros n], ⟨[], "new", maxLinks, [], rfl, rfl, .nil _ _, ?_, rfl⟩, zeros n,
    List.mem_singleton_self _, hsize.symm ▸ h⟩
  exact ⟨by decide, by decide⟩

theorem builds_sampleProject :
    ((sampleGenerator.buildProject (sampleProject "")).run.run sampleSession).1.toBool = true := by
  decide +kernel

/-- With the output directory `new/0…0` of 256 zeros, `generateProject` fails and leaves the
directory `new`. -/
theorem generateProject_leaves_directory :
    (sampleRun (Path.ofNames false ["new", zeros 256])).1.2 ≠ none ∧
      ∃ names, sampleSession.files.get? names = none ∧
        (sampleRun (Path.ofNames false ["new", zeros 256])).2.files.get? names =
          some .directory := by
  unfold sampleRun
  have hobstructed : sampleSession.files.Obstructed
      (sampleProject (Path.ofNames false ["new", zeros 256])).outputPath :=
    obstructed_zeros (by decide)
  -- What comes now holds for every target, and is not to be computed with a name of that length.
  generalize Path.ofNames false ["new", zeros 256] = target at hobstructed ⊢
  set project := sampleProject target
  have hbuilds := builds_sampleProject
  change ((sampleGenerator.buildProject project).run.run sampleSession).1.toBool = true at hbuilds
  rcases hbuild : (sampleGenerator.buildProject project).run.run sampleSession with ⟨e | out, s₁⟩
  · rw [hbuild] at hbuilds
    cases hbuilds
  have hfiles := (builtIn_sampleGenerator.quiet.buildProject project sampleSession).1
  rw [hbuild] at hfiles
  dsimp only at hfiles
  obtain ⟨outcome, houtcome, hreports⟩ := @generateProject_outcome _ _ "api" _ _ _
    confirmerKeepsFiles_sampleGenerator (hfiles ▸ wellFormed_sampleSession) hbuild
  obtain ⟨⟨p, hp⟩, -, hnew⟩ := houtcome.of_obstructed rfl (hfiles ▸ hobstructed)
  rw [hfiles] at hnew
  refine ⟨?_, hnew⟩
  rw [hreports.of_error _ hp]
  simp

end SchemaPress.Generator
