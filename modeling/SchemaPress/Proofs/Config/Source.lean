import SchemaPress.Generation.Project
import SchemaPress.Proofs.Config.Validation
import SchemaPress.Proofs.Url.Web

/-!
# Sources of valid configurations

A configuration is valid or not before anything is read, and the source of a project is named when
its turn comes.  In a valid configuration a project that reads a file always has a source.  One that
reads from the web has one just if its target is requestable (`source_of_validate`); there are valid
configurations in which it is not (`validate_unrequestable`), and their runs fail late.
-/

namespace SchemaPress

open OpenApi

/-- **Web addresses as sources**: `Source.ofUrl` accepts a web address exactly if it is
`Url.Requestable`. -/
theorem OpenApi.Source.ofUrl_webAddress {s : String} (h : Url.isWebAddress s = true) :
    (Url.Requestable s.toList → Source.ofUrl s = .ok ⟨.url, s⟩) ∧
      (¬ Url.Requestable s.toList → Source.ofUrl s = .error (.invalidUrl s)) := by
  have hnonempty : ¬ s.isEmpty = true := by
    intro hempty
    rw [String.isEmpty_iff] at hempty
    subst hempty
    exact absurd h (by decide)
  obtain ⟨url, hread, hweb, hhost⟩ := (Url.isWebAddress_iff s).1 h
  obtain ⟨hyes, hno⟩ := Url.parse?_request hread hweb hhost
  unfold Source.ofUrl
  rw [if_neg hnonempty]
  constructor
  · intro hrequest
    obtain ⟨found, hparse, hfound⟩ := hyes hrequest
    rw [hparse]
    exact if_pos hfound
  · intro hrequest
    rw [hno hrequest]

namespace Config

variable {c : Config} {name : String} {p : Project}

/-- In a valid configuration every target is non-empty, and satisfies `Url.isWebAddress` if
`fromUrl` is set. -/
theorem input_of_validate (h : c.validate = .ok ()) (hp : (name, p) ∈ c.projects) :
    ¬ p.input.target.isEmpty = true ∧
      (p.input.fromUrl = true → Url.isWebAddress p.input.target = true) := by
  have hvalid := (validate_eq_ok_iff.1 h).2
  have hnamed : p.input.target ≠ "" := hvalid.input _ hp
  refine ⟨fun hempty => hnamed (String.isEmpty_iff.1 hempty), fun hurl => ?_⟩
  exact (Url.isWebAddress_iff_isWebUrl _).2 (hvalid.web _ hp hurl)

/-- **The sources of a valid configuration**: without `fromUrl` the source is the file `target`.
With it, the source is the address `target` if that is `Url.Requestable`, and an error otherwise. -/
theorem source_of_validate (h : c.validate = .ok ()) (hp : (name, p) ∈ c.projects) :
    (p.input.fromUrl = false → p.input.source = .ok (.ofFile p.input.target)) ∧
    (p.input.fromUrl = true →
      (Url.Requestable p.input.target.toList →
        p.input.source = .ok ⟨.url, p.input.target⟩) ∧
      (¬ Url.Requestable p.input.target.toList →
        p.input.source = .error (.source (.invalidUrl p.input.target)))) := by
  obtain ⟨hnonempty, haddress⟩ := input_of_validate h hp
  unfold ProjectInput.source
  constructor
  · intro hfile
    rw [hfile, if_neg Bool.false_ne_true, if_neg hnonempty]
  · intro hurl
    obtain ⟨hyes, hno⟩ := Source.ofUrl_webAddress (haddress hurl)
    rw [if_pos hurl]
    constructor
    · intro hrequest
      rw [hyes hrequest]
      rfl
    · intro hrequest
      rw [hno hrequest]
      rfl

/-- A configuration of projects that read a file, a requestable address, and addresses with a
fragment right after the host, with U+212A in front of the host and with U+0001 in the fragment. -/
def sourcesConfig : Config where
  log := ⟨"info", false⟩
  projects := [
    ("file", ⟨⟨"out/file", none⟩, ⟨"./api.json", false⟩⟩),
    ("web", ⟨⟨"out/web", none⟩, ⟨"HTTPS://Me@Example.com/api?v=1#top", true⟩⟩),
    ("fragment", ⟨⟨"out/fragment", none⟩, ⟨"http://example.com#top", true⟩⟩),
    ("user", ⟨⟨"out/user", none⟩, ⟨"http://\u212a@example.com/", true⟩⟩),
    ("control", ⟨⟨"out/control", none⟩, ⟨"http://example.com/#\u0001", true⟩⟩)]

theorem validate_sourcesConfig : sourcesConfig.validate = .ok () := by decide +kernel

theorem requestable_sourcesConfig :
    Url.Requestable "HTTPS://Me@Example.com/api?v=1#top".toList := by
  have hauthority : Url.authority "HTTPS://Me@Example.com/api?v=1#top".toList =
      ['M', 'e'] ++ '@' :: "Example.com".toList := by decide
  have hcontrol : ("HTTPS://Me@Example.com/api?v=1#top".toList.all (!Url.isControl ·)) = true := by
    decide
  have hplain : (['M', 'e'].all fun c => decide (c.toNat < 128)) = true := by decide
  refine ⟨?_, ?_, ?_⟩
  · intro c hc
    simpa using List.all_eq_true.1 hcontrol c hc
  · rw [hauthority]
    decide
  · rw [hauthority, Url.plainUser_iff (by decide)]
    intro c hc
    simpa using List.all_eq_true.1 hplain c hc

theorem source_of_validate_sourcesConfig :
    sourcesConfig.validate = .ok () ∧
      ProjectInput.source ⟨"./api.json", false⟩ = .ok ⟨.file, "api.json"⟩ ∧
      ProjectInput.source ⟨"HTTPS://Me@Example.com/api?v=1#top", true⟩ =
        .ok ⟨.url, "HTTPS://Me@Example.com/api?v=1#top"⟩ ∧
      ProjectInput.source ⟨"http://example.com#top", true⟩ =
        .error (.source (.invalidUrl "http://example.com#top")) := by
  have hclean : Path.clean "./api.json" = "api.json" := by decide +kernel
  refine ⟨validate_sourcesConfig, ?_, ?_, ?_⟩
  · have hfile := (source_of_validate validate_sourcesConfig List.mem_cons_self).1 rfl
    rw [Source.ofFile, hclean] at hfile
    exact hfile
  · exact ((source_of_validate validate_sourcesConfig
      (List.mem_cons_of_mem _ List.mem_cons_self)).2 rfl).1 requestable_sourcesConfig
  · apply ((source_of_validate validate_sourcesConfig
      (List.mem_cons_of_mem _ (List.mem_cons_of_mem _ List.mem_cons_self))).2 rfl).2
    exact fun h => h.no_fragment (by decide)

/-- `sourcesConfig` is valid, and three of its projects have no source. -/
theorem validate_unrequestable :
    sourcesConfig.validate = .ok () ∧
      ∀ target ∈ ["http://example.com#top", "http://\u212a@example.com/",
          "http://example.com/#\u0001"],
        (∃ p ∈ sourcesConfig.projects, p.2.input = ⟨target, true⟩) ∧
        ProjectInput.source ⟨target, true⟩ = .error (.source (.invalidUrl target)) := by
  have hprojects : (["http://example.com#top", "http://\u212a@example.com/",
      "http://example.com/#\u0001"].all fun target =>
        (sourcesConfig.projects.any fun p => p.2.input == ⟨target, true⟩) &&
          Url.parse? true target == none && !target.isEmpty) = true := by
    decide +kernel
  refine ⟨validate_sourcesConfig, fun target htarget => ?_⟩
  have htest := List.all_eq_true.1 hprojects target htarget
  simp only [Bool.and_eq_true, List.any_eq_true, beq_iff_eq, Bool.not_eq_true'] at htest
  obtain ⟨⟨hproject, hrefused⟩, hnonempty⟩ := htest
  refine ⟨hproject, ?_⟩
  rw [ProjectInput.source, if_pos rfl, Source.ofUrl, hnonempty, hrefused]
  rfl

end Config

end SchemaPress
