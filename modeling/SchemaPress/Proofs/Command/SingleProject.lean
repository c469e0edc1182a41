import Mathlib.Data.List.TakeWhile
import SchemaPress.Command.Run
import SchemaPress.Proofs.Path

/-!
# The project of the command line

A document that is named on the command line is generated as a project of its own.  What kind of
source it is, is told from its name without the blanks around it, while the project keeps the name
as it is written.  So the source of the project is of the right kind, and it is the source that the
name was told to be if there are no blanks around it (`singleConfig_source`).  With blanks it is
another one, but for paths that leave again the directory that the blanks belong to.
-/

namespace SchemaPress

/-! ### Blanks -/

namespace Text

variable {c : Char} {s : String}

/-- The first character of `s` satisfies `isBlank`. -/
def BlankFront (s : String) : Prop :=
  ∃ c ∈ s.toList.head?, isBlank c = true

/-- The last character of `s` satisfies `isBlank`. -/
def BlankBack (s : String) : Prop :=
  ∃ c ∈ s.toList.getLast?, isBlank c = true

/-- A character with `isBlank` is U+0009 to U+000D, U+0020 or not in ASCII. -/
theorem toNat_of_isBlank (h : isBlank c = true) :
    (9 ≤ c.toNat ∧ c.toNat ≤ 13) ∨ c.toNat = 32 ∨ 128 ≤ c.toNat := by
  simp only [isBlank, blanks, CodePoints.contains, List.any_toArray, List.any_cons, List.any_nil,
    Bool.or_eq_true, Bool.and_eq_true, decide_eq_true_eq, Bool.or_false] at h
  omega

theorem ne_of_isBlank (h : isBlank c = true) {d : Char} (hvisible : 32 < d.toNat)
    (hascii : d.toNat < 128) : c ≠ d := by
  rintro rfl
  have hrange := toNat_of_isBlank h
  omega

theorem not_isAlpha_of_isBlank (h : isBlank c = true) : c.isAlpha = false := by
  have hrange := toNat_of_isBlank h
  rw [Bool.eq_false_iff]
  intro halpha
  rcases Bool.or_eq_true_iff.1 halpha with hletter | hletter
  · have hupper : 65 ≤ c.toNat ∧ c.toNat ≤ 90 := of_decide_eq_true hletter
    omega
  · have hlower : 97 ≤ c.toNat := of_decide_eq_true (Bool.and_eq_true_iff.1 hletter).1
    have hlast : c.toNat ≤ 122 := of_decide_eq_true (Bool.and_eq_true_iff.1 hletter).2
    omega

/-- If only the end of `s` is blank, then `s` is `trim s` followed by at least one blank. -/
theorem exists_trim_append (hfront : ¬ BlankFront s) (hback : BlankBack s) :
    ∃ after, s = trim s ++ after ∧ after ≠ "" ∧ ∀ c ∈ after.toList, isBlank c = true := by
  have hdrop : dropBlanks s.toList = s.toList := by
    unfold dropBlanks
    cases hcs : s.toList with
    | nil => rfl
    | cons c rest =>
      refine List.dropWhile_cons_of_neg fun hblank => hfront ⟨c, ?_, hblank⟩
      rw [hcs]
      rfl
  refine ⟨String.ofList (s.toList.reverse.takeWhile isBlank).reverse, ?_, ?_, ?_⟩
  · rw [trim, hdrop, dropBlanks, ← String.ofList_append, ← List.reverse_append,
      List.takeWhile_append_dropWhile, List.reverse_reverse, String.ofList_toList]
  · obtain ⟨c, hc, hblank⟩ := hback
    rw [← List.head?_reverse] at hc
    obtain ⟨rest, hrest⟩ := List.head?_eq_some_iff.1 hc
    rw [hrest, List.takeWhile_cons_of_pos hblank]
    simp
  · intro c hc
    rw [String.toList_ofList, List.mem_reverse] at hc
    exact List.mem_takeWhile_imp hc

end Text

open Text

/-- `Url.parse?` refuses a text that starts with a blank. -/
theorem Url.parse?_of_blankFront {s : String} (h : BlankFront s) : Url.parse? true s = none := by
  obtain ⟨c, hc, hblank⟩ := h
  obtain ⟨rest, hrest⟩ := List.head?_eq_some_iff.1 hc
  have hne : ∀ {d : Char}, 32 < d.toNat → d.toNat < 128 → c ≠ d := ne_of_isBlank hblank
  have hstar : (c :: rest == ['*']) = false :=
    beq_false_of_ne fun hsame => hne (by decide) (by decide) (List.cons.inj hsame).1
  have hscheme : schemeOf (c :: rest) = some none := by
    have hcolon : (c == ':') = false := beq_false_of_ne (hne (by decide) (by decide))
    simp [schemeOf, hcolon, not_isAlpha_of_isBlank hblank]
  -- a text without a scheme has to start with a slash if it is to be requested
  have hafter : afterScheme? true "" (c :: rest) = none := by
    have hquery : (c != '?') = true := bne_iff_ne.2 (hne (by decide) (by decide))
    have hhead : withoutQuery (c :: rest) = c :: withoutQuery rest := by
      simp [withoutQuery, hquery]
    have hslash : ((c :: withoutQuery rest).head? != some '/') = true := by
      simpa using hne (by decide) (by decide)
    unfold afterScheme?
    rw [hhead]
    exact if_pos hslash
  unfold parse?
  rw [hrest]
  dsimp only
  rw [hstar, hscheme]
  split
  · rfl
  · exact hafter

namespace OpenApi.Source

variable {s : String} {source : Source}

/-! ### Sources by their names -/

theorem eq_of_ofUrl (h : ofUrl s = .ok source) : source = ⟨.url, s⟩ := by
  unfold ofUrl at h
  split at h
  · cases h
  split at h
  · cases h
  split at h <;> cases h
  rfl

/-- `ofUrl` refuses a text that starts with a blank. -/
theorem ofUrl_of_blankFront (h : BlankFront s) : ofUrl s = .error (.invalidUrl s) := by
  have hnonempty : ¬ s.isEmpty = true := by
    rw [String.isEmpty_iff]
    rintro rfl
    obtain ⟨c, hc, -⟩ := h
    cases hc
  rw [ofUrl, if_neg hnonempty, Url.parse?_of_blankFront h]

/-- `ofText s` is `ofUrl (trim s)` or `ofFile (trim s)`. -/
theorem ofText_cases (h : ofText s = .ok source) :
    (source = ⟨.url, trim s⟩ ∧ ofUrl (trim s) = .ok source) ∨
      (source = ofFile (trim s) ∧ trim s ≠ "") := by
  unfold ofText at h
  dsimp only at h
  split at h
  · cases h
  rename_i hnonempty
  split at h
  · exact .inl ⟨eq_of_ofUrl h, h⟩
  · cases h
    exact .inr ⟨rfl, fun hempty => hnonempty (by rw [hempty]; rfl)⟩

theorem ofFile_inj {path other : String} :
    ofFile path = ofFile other ↔ Path.clean path = Path.clean other := by
  constructor
  · intro hsame
    unfold ofFile at hsame
    exact (Source.mk.inj hsame).2
  · intro hclean
    unfold ofFile
    rw [hclean]

/-- If only the end of `s` is blank, `ofFile` tells `s` from `trim s`. -/
theorem ofFile_trim_ne (hfront : ¬ BlankFront s) (hback : BlankBack s) :
    ofFile s ≠ ofFile (trim s) := by
  obtain ⟨after, hs, hne, hblank⟩ := exists_trim_append hfront hback
  -- the blanks belong to the last name of the path: they neither end it nor make it dots
  have hslash : '/' ∉ after.toList := fun hmem =>
    ne_of_isBlank (hblank _ hmem) (by decide) (by decide) rfl
  have hplain : ∃ d ∈ after.toList, d ≠ '.' := by
    obtain ⟨d, more, hafter⟩ := List.exists_cons_of_ne_nil fun hnil =>
      hne (String.toList_eq_nil_iff.1 hnil)
    have hmem : d ∈ after.toList := hafter ▸ List.mem_cons_self
    exact ⟨d, hmem, ne_of_isBlank (hblank d hmem) (by decide) (by decide)⟩
  intro hsame
  have hclean := ofFile_inj.1 hsame
  nth_rewrite 1 [hs] at hclean
  exact Path.clean_append_ne (trim s) hslash hplain hclean

/-- If `s` starts with a blank and `trim s` is rooted, `ofFile` tells `s` from `trim s`. -/
theorem ofFile_trim_ne_of_isRooted (hfront : BlankFront s)
    (hrooted : Path.isRooted (trim s) = true) : ofFile s ≠ ofFile (trim s) := by
  intro hsame
  have hclean := ofFile_inj.1 hsame
  -- the shortest paths would both start at the root, and so would the text with the blank
  rw [← Path.isRooted_clean, ← hclean, Path.isRooted_clean, Path.isRooted_iff] at hrooted
  obtain ⟨c, hc, hblank⟩ := hfront
  rw [hrooted] at hc
  exact ne_of_isBlank hblank (by decide) (by decide) (Option.some.inj hc).symm

end OpenApi.Source

theorem ProjectInput.source_of_file {s : String} (h : s ≠ "") :
    ProjectInput.source ⟨s, false⟩ = .ok (.ofFile s) :=
  if_neg fun hempty => h (String.isEmpty_iff.1 hempty)

theorem ProjectInput.eq_of_source_of_url {s : String} {found : OpenApi.Source}
    (h : ProjectInput.source ⟨s, true⟩ = .ok found) : found = ⟨.url, s⟩ := by
  have hmap : (OpenApi.Source.ofUrl s).mapError Error.source = .ok found := h
  cases hurl : OpenApi.Source.ofUrl s with
  | error e =>
    rw [hurl] at hmap
    cases hmap
  | ok other =>
    rw [hurl] at hmap
    cases hmap
    exact OpenApi.Source.eq_of_ofUrl hurl

namespace Command

open OpenApi

variable {files : FileTree} {o : GenerateOptions} {c : Config}

theorem project_of_singleConfig (h : singleConfig files o = .ok c) :
    ∃ source p, Source.ofText o.schema = .ok source ∧ c.projects = [(singleProject, p)] ∧
      p.input = ⟨o.schema, source.kind == .url⟩ := by
  unfold singleConfig at h
  cases houtput : o.output with
  | none =>
    rw [houtput] at h
    cases h
  | some output =>
    rw [houtput] at h
    cases htext : Source.ofText o.schema with
    | error e =>
      rw [htext] at h
      cases h
    | ok source =>
      rw [htext] at h
      cases h
      exact ⟨source, _, rfl, rfl, rfl⟩

/-- **The source of the project of the command line.**  Let `Source.ofText o.schema = .ok source`.
Then `singleConfig` makes one project, whose source has the kind of `source`, and is `source` if
`trim o.schema = o.schema`.

If the kind is `.url` and `o.schema` has blanks around it, the source is another one or there is
none.  If it is `.file`, the source is `source` exactly if `Path.clean` takes `o.schema` and
`trim o.schema` to one path, which it does not if only the end is blank, nor if the blanks stand in
front of the root. -/
theorem singleConfig_source (h : singleConfig files o = .ok c) :
    ∃ source p, Source.ofText o.schema = .ok source ∧ c.projects = [(singleProject, p)] ∧
      (∀ found, p.input.source = .ok found → found.kind = source.kind) ∧
      (trim o.schema = o.schema → p.input.source = .ok source) ∧
      (source.kind = .url →
        (p.input.source = .ok source → trim o.schema = o.schema) ∧
        (∀ found, p.input.source = .ok found → found.location = o.schema) ∧
        (BlankFront o.schema → p.input.source = .error (.source (.invalidUrl o.schema)))) ∧
      (source.kind ≠ .url →
        p.input.source = .ok (.ofFile o.schema) ∧
        (p.input.source = .ok source ↔ Path.clean o.schema = Path.clean (trim o.schema)) ∧
        (¬ BlankFront o.schema → BlankBack o.schema → p.input.source ≠ .ok source) ∧
        (BlankFront o.schema → Path.isRooted (trim o.schema) = true →
          p.input.source ≠ .ok source)) := by
  obtain ⟨source, p, htext, hprojects, hinput⟩ := project_of_singleConfig h
  refine ⟨source, p, htext, hprojects, ?_⟩
  -- the kind is told from the trimmed name, and the source is then named by the whole one
  rcases Source.ofText_cases htext with ⟨rfl, hurl⟩ | ⟨rfl, hnonempty⟩
  · have hweb : p.input = ⟨o.schema, true⟩ := hinput
    rw [hweb]
    refine ⟨?_, ?_, fun _ => ⟨?_, ?_, ?_⟩, fun hkind => absurd rfl hkind⟩
    · intro found hfound
      rw [ProjectInput.eq_of_source_of_url hfound]
    · intro hplain
      rw [hplain] at hurl ⊢
      rw [ProjectInput.source, if_pos rfl, hurl]
      rfl
    · intro hfound
      exact congrArg Source.location (ProjectInput.eq_of_source_of_url hfound)
    · intro found hfound
      rw [ProjectInput.eq_of_source_of_url hfound]
    · intro hfront
      rw [ProjectInput.source, if_pos rfl, Source.ofUrl_of_blankFront hfront]
      rfl
  · have hfile : p.input = ⟨o.schema, false⟩ := hinput
    have hnamed : o.schema ≠ "" := by
      intro hempty
      rw [hempty] at hnonempty
      exact hnonempty rfl
    rw [hfile, ProjectInput.source_of_file hnamed]
    refine ⟨?_, ?_, fun hkind => SourceKind.noConfusion hkind, fun _ => ⟨rfl, ?_, ?_, ?_⟩⟩
    · intro found hfound
      cases hfound
      rfl
    · intro hplain
      rw [hplain]
    · rw [Except.ok.injEq, Source.ofFile_inj]
    · intro hfront hback hsame
      exact Source.ofFile_trim_ne hfront hback (Except.ok.inj hsame)
    · intro hfront hrooted hsame
      exact Source.ofFile_trim_ne_of_isRooted hfront hrooted (Except.ok.inj hsame)

/-- The options that name a document and the directory `out`. -/
def documentOptions (schema : String) : GenerateOptions :=
  { schema, output := some "/out" }

/-- The configuration that `singleConfig` makes of `documentOptions schema`. -/
def documentConfig (schema : String) (fromUrl : Bool) : Config where
  log := { level := "info", pretty := true }
  projects := [(singleProject, { output := { target := "/out" }, input := ⟨schema, fromUrl⟩ })]

theorem singleConfig_documentOptions {schema : String} {source : Source}
    (h : Source.ofText schema = .ok source) (files : FileTree) :
    singleConfig files (documentOptions schema) =
      .ok (documentConfig schema (source.kind == .url)) := by
  have houtput : expand files "/out" = "/out" := if_pos (by decide +kernel)
  unfold singleConfig documentOptions
  dsimp only
  rw [h, houtput]
  rfl

theorem ofText_left : Source.ofText " a/../in.json" = .ok ⟨.file, "in.json"⟩ := by
  decide +kernel

/-- In `" a/../in.json"` the blank belongs to a name that `Path.clean` drops, so the source is
`in.json`. -/
theorem singleConfig_source_left :
    singleConfig {} (documentOptions " a/../in.json") = .ok (documentConfig " a/../in.json" false) ∧
      Source.ofText " a/../in.json" = .ok ⟨.file, "in.json"⟩ ∧
      ProjectInput.source ⟨" a/../in.json", false⟩ = .ok ⟨.file, "in.json"⟩ := by
  have hconfig := singleConfig_documentOptions ofText_left {}
  refine ⟨hconfig, ofText_left, ?_⟩
  obtain ⟨source, p, hsource, hprojects, -, -, -, hfile⟩ := singleConfig_source hconfig
  obtain rfl : (⟨.file, "in.json"⟩ : Source) = source :=
    Except.ok.inj (ofText_left.symm.trans hsource)
  cases hprojects
  exact (hfile (by decide)).2.1.2 (by decide +kernel)

/-- For `" in.json"` and `"http://h.test/doc "` the source keeps the blank that `Source.ofText`
drops. -/
theorem singleConfig_other_source :
    (singleConfig {} (documentOptions " in.json") = .ok (documentConfig " in.json" false) ∧
      Source.ofText " in.json" = .ok ⟨.file, "in.json"⟩ ∧
      ProjectInput.source ⟨" in.json", false⟩ = .ok ⟨.file, " in.json"⟩) ∧
    (singleConfig {} (documentOptions "http://h.test/doc ") =
        .ok (documentConfig "http://h.test/doc " true) ∧
      Source.ofText "http://h.test/doc " = .ok ⟨.url, "http://h.test/doc"⟩ ∧
      ProjectInput.source ⟨"http://h.test/doc ", true⟩ = .ok ⟨.url, "http://h.test/doc "⟩) := by
  have hfile : Source.ofText " in.json" = .ok ⟨.file, "in.json"⟩ := by decide +kernel
  have hurl : Source.ofText "http://h.test/doc " = .ok ⟨.url, "http://h.test/doc"⟩ := by
    decide +kernel
  have hclean : Path.clean " in.json" = " in.json" := by decide +kernel
  have hother : Source.ofUrl "http://h.test/doc " = .ok ⟨.url, "http://h.test/doc "⟩ := by
    decide +kernel
  refine ⟨⟨singleConfig_documentOptions hfile {}, hfile, ?_⟩,
    ⟨singleConfig_documentOptions hurl {}, hurl, ?_⟩⟩
  · rw [ProjectInput.source_of_file (by decide), Source.ofFile, hclean]
  · rw [ProjectInput.source, if_pos rfl, hother]
    rfl

end Command

end SchemaPress
