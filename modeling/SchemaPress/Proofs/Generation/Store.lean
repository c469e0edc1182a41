import SchemaPress.Generation.Project
import SchemaPress.Proofs.Files.Draft
import SchemaPress.Proofs.Session

/-!
# Storing a file

A generated file is filled as a draft beside its place and then moved there.  In a directory that
can be reached, none of this fails (`publish_eq_ok`), and afterwards the file is in its place and
everything else as it was.

`Generator.store` first makes the directory.  If that is `Obstructed`, because a missing directory
has a name below it that is too long, the directories up to that name stay behind
(`run_store_of_obstructed`).  In all other cases storing fails without a change, or the file is
`Stored` (`run_store_cases`).
-/

namespace SchemaPress

/-- `t'` is `t` after `content` was stored at `path`: `find` finds it there, and nothing else has
changed but for new directories on the way to it. -/
structure FileTree.Stored (t t' : FileTree) (path : String) (content : ByteArray) : Prop where
  wellFormed : t'.WellFormed
  home : t'.home = t.home
  place : ∃ place, t'.find true path = .ok (.taken place (.file content readable)) ∧
    ∀ names, names ≠ place → t'.get? names = t.get? names ∨
      t.get? names = none ∧ t'.get? names = some .directory ∧ names <+: place

theorem FileTree.Stored.read_eq {t t' : FileTree} {path : String} {content : ByteArray}
    (h : Stored t t' path content) : t'.read path = .ok content := by
  obtain ⟨place, hfind, -⟩ := h.place
  unfold FileTree.read
  rw [hfind]

/-- The directory of `path` has a `Gap`, and one of the names after it is longer than `maxNameSize`.
-/
def FileTree.Obstructed (t : FileTree) (path : String) : Prop :=
  ∃ place after, t.Gap (Path.isRooted path) (Path.names (Path.parent path)) place after ∧
    ∃ name ∈ after, maxNameSize < name.utf8ByteSize

namespace Generator

open FileTree

variable {t t' : FileTree} {rooted : Bool} {links : Nat} {directory names : List String}
  {content : ByteArray}

/-! ### Names -/

theorem isName_outputFile : Path.IsName outputFile :=
  ⟨by decide, by decide, by decide⟩

theorem plain_outputFile : Plain outputFile :=
  ⟨by decide, by decide⟩

/-- The first part of the names of drafts. -/
abbrev draftStem : String := "." ++ outputFile ++ "."

theorem toList_draftName (n : Nat) :
    (draftName draftStem ".tmp" n).toList =
      '.' :: ("models.ts.".toList ++ (Decimal.intText n).toList ++ ".tmp".toList) := by
  unfold draftName
  rw [String.toList_append, String.toList_append]
  rfl

theorem draftName_ne_outputFile (n : Nat) : draftName draftStem ".tmp" n ≠ outputFile := by
  intro h
  have hlist := toList_draftName n
  rw [h] at hlist
  exact absurd (List.cons.inj hlist).1 (by decide)

theorem areDraftNames : AreDraftNames draftStem ".tmp" := by
  intro n hn
  have hlist := toList_draftName n
  have hlength : 2 < (draftName draftStem ".tmp" n).toList.length := by
    rw [hlist]
    simp
  have hne {s : String} (hs : s.toList.length ≤ 2) : draftName draftStem ".tmp" n ≠ s := by
    rintro rfl
    omega
  refine ⟨⟨hne (by decide), hne (by decide), ?_⟩, hne (by decide), ?_⟩
  · -- What stands around the number is fixed, and a number has no slash in it.
    rw [hlist]
    intro h
    rcases List.mem_cons.1 h with h | h
    · exact absurd h (by decide)
    rcases List.mem_append.1 h with h | h
    · rcases List.mem_append.1 h with h | h
      · exact absurd h (by decide)
      · exact absurd (Decimal.isNumeric_of_mem_intText h) (by decide)
    · exact absurd h (by decide)
  · have hsize := Decimal.utf8ByteSize_intText_le (k := 4) (by decide) hn
    have hstem : draftStem.utf8ByteSize = 11 := by decide
    have hending : (".tmp" : String).utf8ByteSize = 4 := by decide
    unfold draftName
    rw [String.utf8ByteSize_append, String.utf8ByteSize_append, hstem, hending, maxNameSize]
    omega

/-! ### Publishing a draft -/

/-- `t'` is `t` while a draft is worked on: `directory` is reached as in `t`, a file or nothing lies
at `directory ++ [draft]`, and all other places are as in `t`. -/
structure Drafting (t : FileTree) (rooted : Bool) (names : List String) (links : Nat)
    (directory : List String) (draft : String) (t' : FileTree) : Prop where
  wellFormed : t'.WellFormed
  home : t'.home = t.home
  walk : t'.Walk maxLinks (t'.start rooted) names links directory
  place : t'.get? (directory ++ [draft]) = none ∨
    ∃ content mode, t'.get? (directory ++ [draft]) = some (.file content mode)
  other : ∀ place, place ≠ directory ++ [draft] → t'.get? place = t.get? place

section

variable {draft : String}

theorem get?_put_draft (t : FileTree) (directory : List String) (draft : String)
    (entry : FileEntry) :
    (t.put (directory ++ [draft]) entry).get? (directory ++ [draft]) = some entry := by
  rw [get?_put _ (by simp), if_pos rfl]

theorem Drafting.get?_directory (h : Drafting t rooted names links directory draft t') :
    t'.get? directory = some .directory :=
  h.walk.get?_directory h.wellFormed (h.wellFormed.get?_start rooted)

/-- `put` of a file at the place of the draft keeps `Drafting`. -/
theorem Drafting.put (h : Drafting t rooted names links directory draft t') (content : ByteArray)
    (mode : Nat) :
    Drafting t rooted names links directory draft
      (t'.put (directory ++ [draft]) (.file content mode)) where
  wellFormed := by
    refine h.wellFormed.put h.get?_directory ?_ _
    rcases h.place with hfree | ⟨_, _, hfile⟩
    · simp [hfree]
    · simp [hfile]
  home := by rw [home_put, h.home]
  walk := by
    rw [start_put]
    exact h.walk.put_file (by simp) h.place _
  place := .inr ⟨content, mode, get?_put_draft ..⟩
  other place hplace := by rw [get?_put _ (by simp), if_neg hplace, h.other place hplace]

/-- `erase` of the draft and `put` at `outputFile`: nothing is left at the place of the draft, and
all other places are as in `t`. -/
theorem Drafting.move (h : Drafting t rooted names links directory draft t')
    (hfree : t.get? (directory ++ [draft]) = none) (hother : draft ≠ outputFile)
    (hold : t.get? (directory ++ [outputFile]) ≠ some .directory)
    (hdraft : t'.get? (directory ++ [draft]) ≠ some .directory) (entry : FileEntry) :
    let moved := (t'.erase (directory ++ [draft])).put (directory ++ [outputFile]) entry
    moved.WellFormed ∧ moved.home = t.home ∧
      ∀ place, moved.get? place =
        if place = directory ++ [outputFile] then some entry else t.get? place := by
  have hpne : directory ++ [draft] ≠ [] := by simp
  have hplaces : directory ++ [outputFile] ≠ directory ++ [draft] := by
    intro h
    exact hother (List.singleton_inj.1 (List.append_cancel_left h)).symm
  have herased : ∀ place, (t'.erase (directory ++ [draft])).get? place = t.get? place := by
    intro place
    rw [get?_erase _ hpne]
    split_ifs with hplace
    · rw [hplace, hfree]
    · exact h.other place hplace
  refine ⟨?_, ?_, fun place => ?_⟩
  · refine (h.wellFormed.erase hpne hdraft).put ?_ ?_ _
    · rw [herased, ← h.other directory (by simp), h.get?_directory]
    · rwa [herased]
  · rw [home_put, home_erase, h.home]
  · rw [get?_put _ (by simp), herased]

/-- `publish` puts the file in the place of any file or link at `outputFile`, and nothing else
changes. -/
theorem publish_eq_ok (hwell : t.WellFormed)
    (hwalk : t.Walk maxLinks (t.start rooted) names links directory)
    (hnames : ∀ n ∈ names ++ [outputFile], Path.IsName n)
    (hold : t.get? (directory ++ [outputFile]) ≠ some .directory)
    (hname : Path.IsName draft) (hplain : Plain draft) (hother : draft ≠ outputFile)
    (hfree : t.get? (directory ++ [draft]) = none) (content : ByteArray) :
    ∃ t', publish (t.put (directory ++ [draft]) (.file .empty ownerOnly))
        (Path.ofNames rooted names ++ "/" ++ draft)
        (Path.ofNames rooted (names ++ [outputFile])) content = .ok t' ∧
      t'.WellFormed ∧ t'.home = t.home ∧
      ∀ place, t'.get? place =
        if place = directory ++ [outputFile] then some (.file content readable)
        else t.get? place := by
  have hfront : ∀ n ∈ names, Path.IsName n := fun n hn => hnames n (List.mem_append_left _ hn)
  have h₀ : Drafting t rooted names links directory draft t :=
    ⟨hwell, rfl, hwalk, .inl hfree, fun _ _ => rfl⟩
  -- The draft is made, filled and opened to readers.
  have h₁ := h₀.put .empty ownerOnly
  have h₂ := h₁.put content ownerOnly
  have h₃ := h₂.put content readable
  refine ⟨_, ?_, h₃.move hfree hother hold (by rw [get?_put_draft]; simp) (.file content readable)⟩
  have hplace := h₃.other (directory ++ [outputFile]) (by simpa using hother.symm)
  have hrename := h₃.walk.rename_eq hnames hname hplain plain_outputFile (get?_put_draft ..)
    (by rwa [hplace])
  unfold publish
  rw [h₁.walk.write_eq hfront hname hplain (get?_put_draft ..)]
  dsimp only [Except.mapError, bind, Except.bind]
  rw [h₂.walk.setMode_eq hfront hname hplain (get?_put_draft ..)]
  dsimp only
  rw [hrename]

end

/-- In a directory that a `Walk` leads to, `createDraft` fails, or it succeeds and so does
`publish`. -/
theorem createDraft_publish (hwell : t.WellFormed)
    (hwalk : t.Walk maxLinks (t.start rooted) names links directory)
    (hnames : ∀ n ∈ names ++ [outputFile], Path.IsName n)
    (hfile : ∀ place, t.locate true links directory [outputFile] ≠ .ok (.taken place .directory))
    (hlinks : t.locate true links directory [outputFile] ≠ .error .tooManyLinks)
    (content : ByteArray) :
    (∃ e, t.createDraft (Path.ofNames rooted names) draftStem ".tmp" = .error e) ∨
      ∃ drafted draft t',
        t.createDraft (Path.ofNames rooted names) draftStem ".tmp" = .ok (drafted, draft) ∧
        publish drafted draft (Path.ofNames rooted (names ++ [outputFile])) content = .ok t' ∧
        t'.WellFormed ∧ t'.home = t.home ∧
        t'.find true (Path.ofNames rooted (names ++ [outputFile])) =
          .ok (.taken (directory ++ [outputFile]) (.file content readable)) ∧
        ∀ place, place ≠ directory ++ [outputFile] → t'.get? place = t.get? place := by
  have hfront : ∀ n ∈ names, Path.IsName n := fun n hn => hnames n (List.mem_append_left _ hn)
  have hold : t.get? (directory ++ [outputFile]) ≠ some .directory := by
    intro h
    refine absurd ?_ (hfile (directory ++ [outputFile]))
    rw [plain_outputFile.locate_cons, h]
    exact locate_nil
  rcases hcreate : t.createDraft (Path.ofNames rooted names) draftStem ".tmp" with
    e | ⟨drafted, draft⟩
  · exact .inl ⟨e, rfl⟩
  obtain ⟨n, hn, rfl, hfree, rfl⟩ := createDraft_eq_ok hwalk hfront areDraftNames hcreate
  obtain ⟨hname, hplain⟩ := areDraftNames n hn
  obtain ⟨t', hpublish, hwell', hhome, hget⟩ :=
    publish_eq_ok hwell hwalk hnames hold hname hplain (draftName_ne_outputFile n) hfree content
  have hsame : ∀ place, place ≠ directory ++ [outputFile] → t'.get? place = t.get? place := by
    intro place hplace
    rw [hget, if_neg hplace]
  refine .inr ⟨_, _, t', rfl, hpublish, hwell', hhome, ?_, hsame⟩
  have hwalk' : t'.Walk maxLinks (t'.start rooted) names links directory := by
    unfold start
    rw [hhome]
    exact hwalk.replace plain_outputFile hfile hlinks hsame
  rw [hwalk'.find_concat hnames]
  refine plain_outputFile.locate_file ?_
  rw [hget, if_pos rfl]

/-! ### Storing -/

theorem run_store (path : String) (content : ByteArray) (s : Session) :
    (store path content).run.run s =
      match s.files.ensureDirectories (Path.parent path) with
      | (files, .error e) => (.error (.within "mkdir" (.file e)), { s with files })
      | (files, .ok ()) =>
        match files.createDraft (Path.parent path) draftStem ".tmp" with
        | .error e => (.error (.within "create tmp" (.file e)), { s with files })
        | .ok (drafted, draft) =>
          match publish drafted draft path content with
          | .ok stored => (.ok (), { s with files := stored })
          | .error e => (.error e, { s with files := drafted.remove draft }) := by
  unfold store
  rw [Job.run_bind, Job.run_get]
  dsimp only
  rcases s.files.ensureDirectories (Path.parent path) with ⟨files, made⟩
  dsimp only
  rw [Job.run_bind, Job.run_modify]
  dsimp only
  cases made with
  | error e => rfl
  | ok u =>
    rw [Job.run_bind, Job.run_within, Job.run_ofExcept]
    dsimp only [Except.mapError]
    rw [Job.run_bind, Job.run_within, Job.run_ofExcept]
    rcases files.createDraft (Path.parent path) draftStem ".tmp" with e | ⟨drafted, draft⟩
    · rfl
    · dsimp only [Except.mapError]
      rcases publish drafted draft path content with e | stored <;> rfl

variable {s : Session} {path : String}

/-- A path that can be read, or at which the file is missing, leads to no directory. -/
theorem find_ne_directory (hread : ∀ e, t.read path = .error e → e.fault.isMissing = true)
    (place : List String) : t.find true path ≠ .ok (.taken place .directory) := by
  intro h
  unfold FileTree.read at hread
  rw [h] at hread
  exact Bool.false_ne_true (hread _ rfl)

theorem find_ne_error (hread : ∀ e, t.read path = .error e → e.fault.isMissing = true)
    {fault : FileFault} (hfault : fault.isMissing = false) : t.find true path ≠ .error fault := by
  intro h
  unfold FileTree.read at hread
  rw [h] at hread
  exact Bool.false_ne_true (hfault.symm.trans (hread _ rfl))

/-- If `Obstructed`, `store` fails with `.nameTooLong` and leaves the directories up to that name.
-/
theorem run_store_of_obstructed (hwell : s.files.WellFormed)
    (hclean : Path.IsClean rooted (names ++ [outputFile]))
    (hpath : path = Path.ofNames rooted (names ++ [outputFile]))
    (hobstructed : s.files.Obstructed path) (content : ByteArray) :
    ∃ t' p, (store path content).run.run s =
        (.error (.within "mkdir" (.file ⟨"mkdir", p, .nameTooLong⟩)), { s with files := t' }) ∧
      t'.WellFormed ∧ (∃ place, Grown s.files t' place) ∧
      ∃ names, s.files.get? names = none ∧ t'.get? names = some .directory := by
  subst hpath
  have hfront : Path.IsClean rooted names := hclean.sublist (List.sublist_append_left _ _)
  obtain ⟨place, after, hgap, name, hname, hlong⟩ := hobstructed
  rw [Path.isRooted_ofNames hclean.isName, Path.parent_ofNames hclean,
    Path.names_ofNames hfront.isName] at hgap
  have hvacant : s.files.get? place = none := by
    obtain ⟨_, _, _, _, _, rfl, _, _, hvacant⟩ := hgap
    exact hvacant
  obtain ⟨t', hwell', hgrown, hplace, ⟨hshort, _⟩ | ⟨_, p, hmake⟩⟩ :=
    hgap.ensureDirectories hwell hfront
  · exact absurd hlong (Nat.not_lt.2 (hshort name hname))
  · refine ⟨t', p, ?_, hwell', ⟨_, hgrown⟩, place, hvacant, hplace⟩
    rw [run_store, Path.parent_ofNames hclean, hmake]

/-- After `ensureDirectories` has succeeded, `createDraft` fails, or the file is `Stored`. -/
theorem run_store_of_made {made : FileTree}
    (hclean : Path.IsClean rooted (names ++ [outputFile]))
    (hmake : s.files.ensureDirectories (Path.ofNames rooted names) = (made, .ok ()))
    (hwell : made.WellFormed)
    (hwalk : made.Walk maxLinks (made.start rooted) names links directory)
    (hfile : ∀ place, made.locate true links directory [outputFile] ≠
      .ok (.taken place .directory))
    (hlinks : made.locate true links directory [outputFile] ≠ .error .tooManyLinks)
    (content : ByteArray) :
    (∃ e e', made.createDraft (Path.ofNames rooted names) draftStem ".tmp" = .error e ∧
      (store (Path.ofNames rooted (names ++ [outputFile])) content).run.run s =
        (.error e', { s with files := made })) ∨
    ∃ t', (store (Path.ofNames rooted (names ++ [outputFile])) content).run.run s =
        (.ok (), { s with files := t' }) ∧
      t'.WellFormed ∧ t'.home = made.home ∧
      t'.find true (Path.ofNames rooted (names ++ [outputFile])) =
        .ok (.taken (directory ++ [outputFile]) (.file content readable)) ∧
      ∀ place, place ≠ directory ++ [outputFile] → t'.get? place = made.get? place := by
  rw [run_store, Path.parent_ofNames hclean, hmake]
  dsimp only
  rcases createDraft_publish hwell hwalk hclean.isName hfile hlinks content with
    ⟨e, hcreate⟩ | ⟨drafted, draft, t', hcreate, hpublish, hstored⟩
  · rw [hcreate]
    exact .inl ⟨e, _, rfl, rfl⟩
  · rw [hcreate]
    dsimp only
    rw [hpublish]
    exact .inr ⟨t', rfl, hstored⟩

/-- At a `Gap` with short names, the file is `Stored`. -/
theorem run_store_of_gap {place after : List String} (hwell : s.files.WellFormed)
    (hclean : Path.IsClean rooted (names ++ [outputFile]))
    (hgap : s.files.Gap rooted names place after)
    (hshort : ∀ n ∈ after, n.utf8ByteSize ≤ maxNameSize) (content : ByteArray) :
    ∃ t', (store (Path.ofNames rooted (names ++ [outputFile])) content).run.run s =
        (.ok (), { s with files := t' }) ∧
      Stored s.files t' (Path.ofNames rooted (names ++ [outputFile])) content := by
  have hfront : Path.IsClean rooted names := hclean.sublist (List.sublist_append_left _ _)
  obtain ⟨made, hwell₁, hgrown, _, ⟨_, hmake, ⟨links, hwalk⟩, hfresh⟩ | ⟨⟨n, hn, hlong⟩, _⟩⟩ :=
    hgap.ensureDirectories hwell hfront
  · -- The directories below the gap are all new, so there is nothing yet at the place.
    have hlocate : made.locate true links (place ++ after) [outputFile] =
        .ok (.vacant (place ++ after ++ [outputFile])) := by
      rw [plain_outputFile.locate_cons, hfresh [outputFile] (by simp)]
      rfl
    obtain ⟨draft, hdraft⟩ :=
      createDraft_isOk hwalk hfront.isName areDraftNames (n := 0) (by decide)
        (hfresh [_] (by simp))
    rcases run_store_of_made hclean hmake hwell₁ hwalk (by simp [hlocate]) (by simp [hlocate])
        content with
      ⟨e, e', hcreate, -⟩ | ⟨t', hrun, hwell', hhome, hfind, hsame⟩
    · rw [hdraft] at hcreate
      cases hcreate
    · refine ⟨t', hrun, hwell', hhome.trans hgrown.home, _, hfind, fun names h => ?_⟩
      rw [hsame names h]
      exact (hgrown.weaken (List.prefix_append _ _)).entry names
  · exact absurd hlong (Nat.not_lt.2 (hshort n hn))

/-- **`store` has two outcomes** unless the path is `Obstructed`: it fails and changes nothing, or
the file is `Stored`. -/
theorem run_store_cases (hwell : s.files.WellFormed)
    (hclean : Path.IsClean rooted (names ++ [outputFile]))
    (hpath : path = Path.ofNames rooted (names ++ [outputFile]))
    (hread : ∀ e, s.files.read path = .error e → e.fault.isMissing = true)
    (hobstructed : ¬ s.files.Obstructed path) (content : ByteArray) :
    (∃ e, (store path content).run.run s = (.error e, s)) ∨
      ∃ t', (store path content).run.run s = (.ok (), { s with files := t' }) ∧
        Stored s.files t' path content := by
  subst hpath
  have hfront : Path.IsClean rooted names := hclean.sublist (List.sublist_append_left _ _)
  rcases s.files.ensureDirectories_cases hfront with
    ⟨e, hmake⟩ | ⟨hmake, links, directory, hwalk⟩ | ⟨place, after, hgap⟩
  · rw [run_store, Path.parent_ofNames hclean, hmake]
    exact .inl ⟨_, rfl⟩
  · -- All directories are there, and the place is not that of a directory, because it was read.
    have hlocate : s.files.find true (Path.ofNames rooted (names ++ [outputFile])) =
        s.files.locate true links directory [outputFile] := hwalk.find_concat hclean.isName
    rcases run_store_of_made hclean hmake hwell hwalk
        (fun place => hlocate ▸ find_ne_directory hread place)
        (hlocate ▸ find_ne_error hread rfl) content with
      ⟨e, e', -, hrun⟩ | ⟨t', hrun, hwell', hhome, hfind, hsame⟩
    · exact .inl ⟨e', hrun⟩
    · exact .inr ⟨t', hrun, hwell', hhome, _, hfind, fun place h => .inl (hsame place h)⟩
  · by_cases hlong : ∃ n ∈ after, maxNameSize < n.utf8ByteSize
    · refine absurd ⟨place, after, ?_, hlong⟩ hobstructed
      rwa [Path.isRooted_ofNames hclean.isName, Path.parent_ofNames hclean,
        Path.names_ofNames hfront.isName]
    · push Not at hlong
      exact .inr (run_store_of_gap hwell hclean hgap hlong content)

end Generator

/-- `project.outputPath` is a clean path that ends with `outputFile`. -/
theorem Project.isClean_outputPath (project : Project) : ∃ rooted names,
    Path.IsClean rooted (names ++ [outputFile]) ∧
      project.outputPath = Path.ofNames rooted (names ++ [outputFile]) :=
  Path.join_eq_ofNames project.output.target Generator.isName_outputFile
    Generator.plain_outputFile.ne_dots

end SchemaPress
