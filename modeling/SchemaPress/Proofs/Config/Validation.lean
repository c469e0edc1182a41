import Mathlib.Data.List.Nodup
import SchemaPress.Proofs.Url.Parts

/-!
# Valid configurations

`Config.IsValid` says what a valid configuration is, and `Config.Finding` what there is to say of
one that is not, field by field.  A configuration with a project is accepted just if it is valid,
and otherwise every finding is reported once, under the path of its field (`validate_exact`).  The
full name of a field starts with that of the whole, so the first dot in it is never one of a
project's name: paths are reported as a whole (`fieldPath_fullName`), and different fields have
different paths (`Field.path_injective`).
-/

namespace SchemaPress.Config

variable {c : Config}

/-! ### Fields -/

/-- The parts of a project that `projectBreaches` checks. -/
inductive Part where
  | name
  | output
  | input
  deriving DecidableEq

/-- The fields that `fieldErrors` checks: `log.level`, and the parts of each project. -/
inductive Field where
  | level
  | project (name : String) (part : Part)

/-- The path of a part, after `projects[` and the name of the project. -/
def Part.ending : Part → String
  | .name => "]"
  | .output => "].output.target"
  | .input => "].input.target"

/-- The path under which an error of the field is reported. -/
def Field.path : Field → String
  | .level => "log.level"
  | .project name part => "projects[" ++ name ++ part.ending

/-- `fieldPath` drops the text up to the first dot. -/
theorem fieldPath_append {whole : String} (h : '.' ∉ whole.toList) (path : String) :
    fieldPath (whole ++ "." ++ path) = path := by
  have hdrop : (whole ++ "." ++ path).toList.dropWhile (· != '.') = '.' :: path.toList := by
    rw [String.toList_append, String.toList_append, List.append_assoc,
      List.dropWhile_append_of_pos fun c hc => bne_iff_ne.2 (ne_of_mem_of_not_mem hc h)]
    rfl
  unfold fieldPath
  rw [hdrop]
  exact String.ofList_toList

/-- The path of the field, with the name of the whole configuration in front. -/
def Field.fullName (f : Field) : String :=
  wholeName ++ "." ++ f.path

/-- **`fieldPath` recovers the path of every field**, even if there are dots in the name of a
project. -/
theorem fieldPath_fullName (f : Field) : fieldPath f.fullName = f.path :=
  fieldPath_append (by decide) f.path

/-- No `Part.ending` is a suffix of another one. -/
theorem Part.eq_of_suffix {a b : Part} (h : a.ending.toList <:+ b.ending.toList) : a = b := by
  revert h
  cases a <;> cases b <;> decide

/-- **Different fields have different paths**: `Field.path` is injective. -/
theorem Field.path_injective : Function.Injective Field.path := by
  intro f g h
  have hlist := congrArg String.toList h
  cases f with
  | level =>
    cases g with
    | level => rfl
    | project name part => simp [Field.path] at hlist
  | project name part =>
    cases g with
    | level => simp [Field.path] at hlist
    | project other last =>
      simp only [Field.path, String.toList_append, List.append_assoc] at hlist
      replace hlist := List.append_cancel_left hlist
      -- both endings are at the end of the same text, so one of them ends with the other
      have hpart : part = last := by
        have hends : part.ending.toList <:+ other.toList ++ last.ending.toList :=
          hlist ▸ List.suffix_append _ _
        rcases List.suffix_or_suffix_of_suffix hends (List.suffix_append _ _) with hle | hle
        · exact Part.eq_of_suffix hle
        · exact (Part.eq_of_suffix hle).symm
      subst hpart
      rw [String.toList_inj.1 (List.append_cancel_right hlist)]

/-! ### Findings -/

/-- What `validate` accepts: a known level, and projects whose name is non-empty and without dots,
whose targets are non-empty, and whose input is a web address if `fromUrl` is set. -/
structure IsValid (c : Config) : Prop where
  level : c.log.level ∈ ["trace", "debug", "info", "warn", "error", "disabled"]
  name : ∀ p ∈ c.projects, p.1 ≠ "" ∧ '.' ∉ p.1.toList
  output : ∀ p ∈ c.projects, p.2.output.target ≠ ""
  input : ∀ p ∈ c.projects, p.2.input.target ≠ ""
  web : ∀ p ∈ c.projects, p.2.input.fromUrl = true → Url.IsWebUrl p.2.input.target

/-- `Finding c f message`: the field `f` of `c` breaks a rule, and `message` says which. -/
inductive Finding (c : Config) : Field → String → Prop
  | level (h : c.log.level ∉ ["trace", "debug", "info", "warn", "error", "disabled"]) :
    Finding c .level "must be one of: trace, debug, info, warn, error, disabled"
  | unnamed {p : Project} (hp : ("", p) ∈ c.projects) :
    Finding c (.project "" .name) "is required"
  | dotted {name : String} {p : Project} (hp : (name, p) ∈ c.projects) (h : '.' ∈ name.toList) :
    Finding c (.project name .name) "must not contain \".\""
  | noOutput {name : String} {p : Project} (hp : (name, p) ∈ c.projects)
    (h : p.output.target = "") : Finding c (.project name .output) "is required"
  | noInput {name : String} {p : Project} (hp : (name, p) ∈ c.projects)
    (h : p.input.target = "") : Finding c (.project name .input) "is required"
  | notWeb {name : String} {p : Project} (hp : (name, p) ∈ c.projects)
    (hurl : p.input.fromUrl = true) (hgiven : p.input.target ≠ "")
    (h : ¬ Url.IsWebUrl p.input.target) :
    Finding c (.project name .input) "must be an http(s) URL when from_url is set"

/-- `c.IsValid` says that `c` has no `Finding`. -/
theorem isValid_iff : c.IsValid ↔ ∀ f message, ¬ c.Finding f message := by
  constructor
  · intro hvalid f message hfinding
    cases hfinding with
    | level h => exact h hvalid.level
    | unnamed hp => exact (hvalid.name _ hp).1 rfl
    | dotted hp h => exact (hvalid.name _ hp).2 h
    | noOutput hp h => exact hvalid.output _ hp h
    | noInput hp h => exact hvalid.input _ hp h
    | notWeb hp hurl _ h => exact h (hvalid.web _ hp hurl)
  · intro hnone
    have hinput : ∀ p ∈ c.projects, p.2.input.target ≠ "" :=
      fun p hp hempty => hnone _ _ (.noInput hp hempty)
    have houtput : ∀ p ∈ c.projects, p.2.output.target ≠ "" :=
      fun p hp hempty => hnone _ _ (.noOutput hp hempty)
    refine ⟨?_, fun p hp => ⟨?_, ?_⟩, houtput, hinput, ?_⟩
    · by_contra hlevel
      exact hnone _ _ (.level hlevel)
    · rintro hempty
      exact hnone _ _ (.unnamed (p := p.2) (hempty ▸ hp))
    · exact fun hdot => hnone _ _ (.dotted hp hdot)
    · intro p hp hurl
      by_contra hweb
      exact hnone _ _ (.notWeb hp hurl (hinput p hp) hweb)

/-! ### Checks -/

/-- A field with its value and its rules, in the order in which they are tried. -/
structure Check where
  field : Field
  value : String
  rules : List Rule

/-- The field and the message of the first rule that the value breaks. -/
def Check.finding? (k : Check) : Option (Field × String) :=
  (k.rules.find? fun rule => !rule.holds k.value).map fun rule => (k.field, rule.message)

/-- The checks behind `projectBreaches`. -/
def projectChecks (p : String × Project) : List Check :=
  [⟨.project p.1 .name, p.1, [.required, .excludes "."]⟩,
    ⟨.project p.1 .output, p.2.output.target, [.required]⟩,
    ⟨.project p.1 .input, p.2.input.target, inputRules p.2.input⟩]

/-- The checks behind `fieldErrors`. -/
def checks (c : Config) : List Check :=
  ⟨.level, c.log.level, [.oneOf levels]⟩ :: c.projects.flatMap projectChecks

/-- What `finding?` gives for each of the checks. -/
def findings (c : Config) : List (Field × String) :=
  c.checks.flatMap fun k => k.finding?.toList

theorem fullName_level : Field.level.fullName = wholeName ++ ".log.level" := by decide

theorem fullName_project (name : String) (part : Part) :
    (Field.project name part).fullName = wholeName ++ ".projects[" ++ name ++ part.ending := by
  have hjoin : "." ++ "projects[" = ".projects[" := by decide
  simp only [Field.fullName, Field.path, String.append_assoc, ← hjoin]

/-- `projectBreaches` in terms of `projectChecks`. -/
theorem projectBreaches_eq (p : String × Project) :
    projectBreaches p =
      (projectChecks p).flatMap fun k => (breach? k.field.fullName k.value k.rules).toList := by
  have hname : Part.name.ending = "]" := rfl
  have houtput : Part.output.ending = "]" ++ ".output.target" := by decide
  have hinput : Part.input.ending = "]" ++ ".input.target" := by decide
  unfold projectBreaches projectChecks
  simp only [List.flatMap_cons, List.flatMap_nil, List.append_nil, fullName_project,
    String.append_assoc, houtput, hinput, hname, List.append_assoc]

/-- An error has the path of its field and the message of the rule that is broken. -/
theorem error_breach? (k : Check) :
    (breach? k.field.fullName k.value k.rules).toList.map Breach.error =
      k.finding?.toList.map fun found => ⟨found.1.path, found.2⟩ := by
  unfold breach? Check.finding?
  cases k.rules.find? fun rule => !rule.holds k.value with
  | none => rfl
  | some rule =>
    show [Breach.error ⟨k.field.fullName, rule⟩] = _
    rw [Breach.error, fieldPath_fullName]
    rfl

/-- `c.fieldErrors` are `c.findings`, with `Field.path` for the fields. -/
theorem fieldErrors_eq (c : Config) :
    c.fieldErrors = c.findings.map fun found => ⟨found.1.path, found.2⟩ := by
  have hbreaches : logBreaches c.log ++ c.projects.flatMap projectBreaches =
      c.checks.flatMap fun k => (breach? k.field.fullName k.value k.rules).toList := by
    rw [checks, List.flatMap_cons, List.flatMap_assoc, funext projectBreaches_eq, logBreaches,
      fullName_level]
  rw [fieldErrors, hbreaches, findings, List.map_flatMap, List.map_flatMap, funext error_breach?]

/-! ### What checks find -/

theorem holds_required_iff (value : String) : Rule.required.holds value = true ↔ value ≠ "" := by
  simp [Rule.holds]

theorem message_required : Rule.message .required = "is required" :=
  rfl

theorem holds_excludes_dot_iff (value : String) :
    Rule.holds (.excludes ".") value = true ↔ '.' ∉ value.toList := by
  rw [Rule.holds, Bool.not_eq_true', List.any_eq_false]
  constructor
  · intro hnone hdot
    exact hnone _ hdot rfl
  · intro hdot c hc hcontains
    have heq : c = '.' := by simpa using hcontains
    exact hdot (heq ▸ hc)

variable {f : Field} {value : String} {found : Field × String}

/-- `finding?` reports the first rule if it is broken, and goes on with the others if it holds. -/
theorem finding?_cons_iff {rule : Rule} {rules : List Rule} :
    Check.finding? ⟨f, value, rule :: rules⟩ = some found ↔
      ¬ rule.holds value = true ∧ (f, rule.message) = found ∨
      rule.holds value = true ∧ Check.finding? ⟨f, value, rules⟩ = some found := by
  unfold Check.finding?
  rw [List.find?_cons]
  cases rule.holds value <;> simp

theorem finding?_nil_iff : Check.finding? ⟨f, value, []⟩ = some found ↔ False := by
  simp [Check.finding?]

theorem finding?_level_iff :
    Check.finding? ⟨f, value, [.oneOf levels]⟩ = some found ↔
      value ∉ ["trace", "debug", "info", "warn", "error", "disabled"] ∧
      (f, "must be one of: trace, debug, info, warn, error, disabled") = found := by
  have hholds : Rule.holds (.oneOf levels) value = true ↔
      value ∈ ["trace", "debug", "info", "warn", "error", "disabled"] :=
    List.contains_iff_mem
  have hmessage : Rule.message (.oneOf levels) =
      "must be one of: trace, debug, info, warn, error, disabled" := by decide
  rw [finding?_cons_iff, finding?_nil_iff, hholds, hmessage, and_false, or_false]

theorem finding?_required_iff :
    Check.finding? ⟨f, value, [.required]⟩ = some found ↔
      value = "" ∧ (f, "is required") = found := by
  rw [finding?_cons_iff, finding?_nil_iff, holds_required_iff, not_not, and_false, or_false,
    message_required]

theorem finding?_name_iff :
    Check.finding? ⟨f, value, [.required, .excludes "."]⟩ = some found ↔
      value = "" ∧ (f, "is required") = found ∨
      '.' ∈ value.toList ∧ (f, "must not contain \".\"") = found := by
  have hmessage : Rule.message (.excludes ".") = "must not contain \".\"" := by decide
  have hgiven : '.' ∈ value.toList → value ≠ "" := by
    rintro hdot rfl
    cases hdot
  rw [finding?_cons_iff, finding?_cons_iff, finding?_nil_iff, holds_required_iff,
    holds_excludes_dot_iff, not_not, not_not, hmessage, and_false, or_false, message_required,
    ← and_assoc, and_iff_right_of_imp hgiven]

theorem finding?_input_iff (i : ProjectInput) :
    Check.finding? ⟨f, i.target, inputRules i⟩ = some found ↔
      i.target = "" ∧ (f, "is required") = found ∨
      (i.fromUrl = true ∧ i.target ≠ "" ∧ ¬ Url.IsWebUrl i.target) ∧
        (f, "must be an http(s) URL when from_url is set") = found := by
  have hholds : Rule.holds .webAddress i.target = true ↔ Url.IsWebUrl i.target := by
    rw [Rule.holds]
    exact Url.isWebAddress_iff_isWebUrl i.target
  have hmessage : Rule.message .webAddress = "must be an http(s) URL when from_url is set" := rfl
  unfold inputRules
  by_cases hurl : i.fromUrl = true
  · rw [if_pos hurl, finding?_cons_iff, finding?_cons_iff, finding?_nil_iff, holds_required_iff,
      hholds, not_not, and_false, or_false, message_required, hmessage, and_iff_right hurl,
      and_assoc]
  · rw [if_neg hurl, finding?_required_iff, and_assoc, iff_false_intro hurl, false_and, or_false]

/-- `c.findings` computes `c.Finding`. -/
theorem mem_findings_iff {message : String} :
    (f, message) ∈ c.findings ↔ c.Finding f message := by
  have hmem : (f, message) ∈ c.findings ↔ ∃ k ∈ c.checks, k.finding? = some (f, message) := by
    simp only [findings, List.mem_flatMap, Option.mem_toList]
  rw [hmem]
  constructor
  · rintro ⟨k, hk, hfound⟩
    rw [checks, List.mem_cons, List.mem_flatMap] at hk
    rcases hk with rfl | ⟨⟨name, p⟩, hp, hk⟩
    · obtain ⟨hlevel, ⟨⟩⟩ := finding?_level_iff.1 hfound
      exact .level hlevel
    simp only [projectChecks, List.mem_cons, List.not_mem_nil, or_false] at hk
    rcases hk with rfl | rfl | rfl
    · rcases finding?_name_iff.1 hfound with ⟨rfl, ⟨⟩⟩ | ⟨hdot, ⟨⟩⟩
      · exact .unnamed hp
      · exact .dotted hp hdot
    · obtain ⟨hempty, ⟨⟩⟩ := finding?_required_iff.1 hfound
      exact .noOutput hp hempty
    · rcases (finding?_input_iff _).1 hfound with ⟨hempty, ⟨⟩⟩ | ⟨⟨hurl, hgiven, hweb⟩, ⟨⟩⟩
      · exact .noInput hp hempty
      · exact .notWeb hp hurl hgiven hweb
  · have hchecks : ∀ {name : String} {p : Project}, (name, p) ∈ c.projects →
        ∀ k ∈ projectChecks (name, p), k ∈ c.checks := fun hp k hk =>
      List.mem_cons_of_mem _ (List.mem_flatMap_of_mem hp hk)
    intro hfinding
    cases hfinding with
    | level h => exact ⟨_, List.mem_cons_self, finding?_level_iff.2 ⟨h, rfl⟩⟩
    | unnamed hp =>
      exact ⟨_, hchecks hp _ (.head _), finding?_name_iff.2 (.inl ⟨rfl, rfl⟩)⟩
    | dotted hp h => exact ⟨_, hchecks hp _ (.head _), finding?_name_iff.2 (.inr ⟨h, rfl⟩)⟩
    | noOutput hp h =>
      exact ⟨_, hchecks hp _ (.tail _ (.head _)), finding?_required_iff.2 ⟨h, rfl⟩⟩
    | noInput hp h =>
      exact ⟨_, hchecks hp _ (.tail _ (.tail _ (.head _))),
        (finding?_input_iff _).2 (.inl ⟨h, rfl⟩)⟩
    | notWeb hp hurl hgiven h =>
      exact ⟨_, hchecks hp _ (.tail _ (.tail _ (.head _))),
        (finding?_input_iff _).2 (.inr ⟨⟨hurl, hgiven, h⟩, rfl⟩)⟩

/-! ### Every field once -/

theorem field_of_mem_projectChecks {k : Check} {p : String × Project} (h : k ∈ projectChecks p) :
    ∃ part, k.field = .project p.1 part := by
  simp only [projectChecks, List.mem_cons, List.not_mem_nil, or_false] at h
  rcases h with rfl | rfl | rfl <;> exact ⟨_, rfl⟩

/-- If the names of projects are distinct, no two checks have the same field. -/
theorem pairwise_checks (h : (c.projects.map (·.1)).Nodup) :
    c.checks.Pairwise fun k l => k.field ≠ l.field := by
  rw [checks, List.pairwise_cons, List.pairwise_flatMap]
  refine ⟨?_, ?_, ?_⟩
  · intro k hk hsame
    obtain ⟨p, -, hk⟩ := List.mem_flatMap.1 hk
    obtain ⟨part, hfield⟩ := field_of_mem_projectChecks hk
    rw [hfield] at hsame
    cases hsame
  · intro p _
    simp [projectChecks]
  · refine (List.pairwise_map.1 h).imp fun hne k hk l hl hsame => hne ?_
    obtain ⟨part, hk⟩ := field_of_mem_projectChecks hk
    obtain ⟨other, hl⟩ := field_of_mem_projectChecks hl
    rw [hk, hl] at hsame
    exact (Field.project.inj hsame).1

theorem field_of_finding? {k : Check} (h : k.finding? = some found) : found.1 = k.field := by
  obtain ⟨rule, -, rfl⟩ := Option.map_eq_some_iff.1 h
  rfl

theorem nodup_findings (h : (c.projects.map (·.1)).Nodup) : (c.findings.map (·.1)).Nodup := by
  rw [List.Nodup, List.pairwise_map, findings, List.pairwise_flatMap]
  constructor
  · intro k _
    cases k.finding? with
    | none => exact .nil
    | some found => exact List.pairwise_singleton _ _
  · refine (pairwise_checks h).imp fun hne x hx y hy hsame => hne ?_
    rw [Option.mem_toList] at hx hy
    rw [← field_of_finding? hx, ← field_of_finding? hy]
    exact hsame

/-! ### Validation -/

theorem findings_eq_nil_iff : c.findings = [] ↔ c.IsValid := by
  rw [isValid_iff, List.eq_nil_iff_forall_not_mem]
  constructor
  · exact fun hnone f message hfinding => hnone _ (mem_findings_iff.2 hfinding)
  · exact fun hnone found hfound => hnone _ _ (mem_findings_iff.1 hfound)

/-- `validate` of a configuration with a project: accepted if `IsValid`, otherwise `c.fieldErrors`.
-/
theorem validate_of_ne_nil (h : c.projects ≠ []) :
    (c.IsValid → c.validate = .ok ()) ∧
      (¬ c.IsValid → c.validate = .error (.fields c.fieldErrors)) := by
  have hprojects : ¬ c.projects.isEmpty = true := by rwa [List.isEmpty_iff]
  have herrors : c.fieldErrors = [] ↔ c.IsValid := by
    rw [fieldErrors_eq, List.map_eq_nil_iff, findings_eq_nil_iff]
  unfold validate
  rw [if_neg hprojects]
  constructor
  · intro hvalid
    rw [herrors.2 hvalid]
  · intro hinvalid
    split
    · rename_i hnone
      exact absurd (herrors.1 hnone) hinvalid
    · rfl

theorem validate_eq_ok_iff : c.validate = .ok () ↔ c.projects ≠ [] ∧ c.IsValid := by
  by_cases hprojects : c.projects = []
  · rw [validate, hprojects]
    simp
  · obtain ⟨hok, herror⟩ := validate_of_ne_nil hprojects
    by_cases hvalid : c.IsValid
    · simp [hok hvalid, hprojects, hvalid]
    · simp [herror hvalid, hvalid]

/-- **`validate` is exact.**  It answers `.noProjects` exactly if there are none.  Any other
configuration is accepted exactly if it `IsValid`; if it is not, the errors are all pairs with
`Finding`, under their `Field.path`, one for each field. -/
theorem validate_exact (h : (c.projects.map (·.1)).Nodup) :
    (c.validate = .error .noProjects ↔ c.projects = []) ∧
    (c.projects ≠ [] →
      (c.validate = .ok () ↔ c.IsValid) ∧
      (¬ c.IsValid → ∃ findings : List (Field × String),
        c.validate = .error (.fields (findings.map fun found => ⟨found.1.path, found.2⟩)) ∧
        (∀ f message, (f, message) ∈ findings ↔ c.Finding f message) ∧
        (findings.map fun found => found.1).Nodup ∧
        (findings.map fun found => found.1.path).Nodup)) := by
  refine ⟨⟨?_, ?_⟩, ?_⟩
  · intro hvalidate
    by_contra hprojects
    obtain ⟨hok, herror⟩ := validate_of_ne_nil hprojects
    by_cases hvalid : c.IsValid
    · rw [hok hvalid] at hvalidate
      cases hvalidate
    · rw [herror hvalid] at hvalidate
      cases hvalidate
  · intro hprojects
    rw [validate, hprojects]
    rfl
  · intro hprojects
    refine ⟨?_, ?_⟩
    · rw [validate_eq_ok_iff]
      exact and_iff_right hprojects
    · intro hinvalid
      have hfields := nodup_findings h
      refine ⟨c.findings, ?_, fun f message => mem_findings_iff, hfields, ?_⟩
      · rw [(validate_of_ne_nil hprojects).2 hinvalid, fieldErrors_eq]
      -- Distinct fields have distinct paths, whatever the names of the projects.
      · have hpaths := hfields.map Field.path_injective
        rwa [List.map_map] at hpaths

/-- A configuration with an unknown level, no targets, and dots and brackets in the names of
projects. -/
def unruly : Config where
  log := { level := "loud" }
  projects :=
    [("a.b[c]", { input := { target := "ftp://host.test/doc", fromUrl := true } }),
      ("a.b[c]].output.target", { output := { target := "out" } }), ("", {})]

theorem validate_exact_unruly :
    (unruly.projects.map (·.1)).Nodup ∧ ¬ unruly.IsValid ∧
      ∃ findings : List (Field × String),
        unruly.validate = .error (.fields (findings.map fun found => ⟨found.1.path, found.2⟩)) ∧
        (∀ f message, (f, message) ∈ findings ↔ unruly.Finding f message) ∧
        (findings.map fun found => found.1).Nodup ∧
        (findings.map fun found => found.1.path).Nodup := by
  have hnames : (unruly.projects.map (·.1)).Nodup := by decide
  have hinvalid : ¬ unruly.IsValid := fun hvalid => absurd hvalid.level (by decide)
  exact ⟨hnames, hinvalid, ((validate_exact hnames).2 (by decide)).2 hinvalid⟩

end SchemaPress.Config
