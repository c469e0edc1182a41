import SchemaPress.Proofs.Files.Walk
import SchemaPress.Proofs.Path

/-!
# Making directories

The directories of a path are made one after the other.  Those that are there already are passed
(`makeAll_of_walk`).  The first that is missing is at a `Gap`: from there on everything is new, and
making it fails only at a name that is too long (`Gap.ensureDirectories`).  If there is no gap, the
tree stays as it is (`ensureDirectories_cases`).

So a failure leaves new directories behind exactly if there is a gap and behind it a name that is
too long.
-/

namespace SchemaPress.FileTree

variable {t t' : FileTree} {follow rooted : Bool} {links links' : Nat}
  {directory directory' names done rest : List String} {name : String}

/-! ### Paths with known names -/

/-- The root if `rooted`, otherwise the working directory. -/
def start (t : FileTree) (rooted : Bool) : List String :=
  if rooted then [] else t.home

theorem start_eq_of_home (h : t'.home = t.home) (rooted : Bool) :
    t'.start rooted = t.start rooted := by
  unfold start
  rw [h]

@[simp] theorem start_put (t : FileTree) (names : List String) (entry : FileEntry) :
    (t.put names entry).start rooted = t.start rooted :=
  start_eq_of_home (home_put t names entry) rooted

theorem WellFormed.get?_start (h : t.WellFormed) (rooted : Bool) :
    t.get? (t.start rooted) = some .directory := by
  cases rooted
  · exact h.home
  · rfl

theorem find_ofNames (h : ∀ n ∈ names, Path.IsName n) :
    t.find follow (Path.ofNames rooted names) =
      t.locate follow maxLinks (t.start rooted) names := by
  unfold find
  rw [if_neg (by simpa using Path.ofNames_ne_empty h), Path.isRooted_ofNames h,
    Path.names_ofNames h]
  rfl

theorem Walk.find_concat (hwalk : t.Walk maxLinks (t.start rooted) names links directory)
    (h : ∀ n ∈ names ++ [name], Path.IsName n) :
    t.find follow (Path.ofNames rooted (names ++ [name])) =
      t.locate follow links directory [name] := by
  rw [find_ofNames h, hwalk.locate_append (.inl (by simp))]

/-! ### Directories that are there -/

/-- Without following the last link, `locate` leads along a `Walk` to a directory or a link. -/
theorem Walk.locate_false (h : t.Walk links directory names links' directory') :
    t.locate false links directory names = .ok (.taken directory' .directory) ∨
      ∃ place target, t.locate false links directory names = .ok (.taken place (.link target)) := by
  induction h with
  | nil => exact .inl locate_nil
  | dots _ ih => rwa [locate_dots]
  | down plain entry _ ih => rw [plain.locate_cons, entry]; exact ih
  | @link links links' directory directory' rest name target plain entry _ ih =>
    rw [plain.locate_cons, entry]
    cases rest with
    | nil => exact .inr ⟨_, _, rfl⟩
    | cons next more => exact ih

theorem Walk.makeDirectory (hwalk : t.Walk maxLinks (t.start rooted) names links directory)
    (h : ∀ n ∈ names, Path.IsName n) :
    t.makeDirectory (Path.ofNames rooted names) = .ok t := by
  have htrue : t.find true (Path.ofNames rooted names) = .ok (.taken directory .directory) := by
    rw [find_ofNames h, ← List.append_nil names, hwalk.locate_append (.inr rfl), locate_nil]
  unfold FileTree.makeDirectory
  rw [find_ofNames h]
  rcases hwalk.locate_false with hfalse | ⟨place, target, hfalse⟩
  · rw [hfalse]
  · rw [hfalse]
    dsimp only
    rw [htrue]

/-- `makeAll` passes over the names of a `Walk`. -/
theorem makeAll_of_walk (hwalk : t.Walk maxLinks (t.start rooted) (done ++ names) links directory)
    (h : ∀ n ∈ done ++ names, Path.IsName n) :
    t.makeAll rooted done (names ++ rest) = t.makeAll rooted (done ++ names) rest := by
  induction names generalizing done with
  | nil => rw [List.append_nil, List.nil_append]
  | cons name more ih =>
    have hsplit : done ++ name :: more = done ++ [name] ++ more := by simp
    rw [hsplit] at hwalk h
    obtain ⟨k, d, hfront⟩ := hwalk.of_append
    have hmake := hfront.makeDirectory fun n hn => h n (List.mem_append_left _ hn)
    rw [List.cons_append, makeAll, hmake]
    dsimp only
    rw [ih hwalk h, hsplit]

theorem Walk.ensureDirectories (hwalk : t.Walk maxLinks (t.start rooted) names links directory)
    (hclean : Path.IsClean rooted names) :
    t.ensureDirectories (Path.ofNames rooted names) = (t, .ok ()) := by
  have hall := @makeAll_of_walk _ _ _ _ names [] [] hwalk hclean.isName
  rw [List.append_nil] at hall
  unfold FileTree.ensureDirectories
  rw [Path.isRooted_ofNames hclean.isName, Path.cleanNames_ofNames hclean, hall]
  rfl

/-! ### Directories that are missing -/

theorem Grown.start_eq {place : List String} (h : Grown t t' place) (rooted : Bool) :
    t'.start rooted = t.start rooted :=
  start_eq_of_home h.home rooted

/-- `makeDirectory` at the end of a `Walk` where nothing lies: it succeeds, and the tree has
`Grown`. -/
theorem WellFormed.makeDirectory_of_vacant (hwell : t.WellFormed)
    (hwalk : t.Walk maxLinks (t.start rooted) done links directory) (hplain : Plain name)
    (hvacant : t.get? (directory ++ [name]) = none)
    (hnames : ∀ n ∈ done ++ [name], Path.IsName n) :
    ∃ t', t.makeDirectory (Path.ofNames rooted (done ++ [name])) = .ok t' ∧ t'.WellFormed ∧
      Grown t t' (directory ++ [name]) ∧ t'.get? (directory ++ [name]) = some .directory ∧
      (∀ more, more ≠ [] → t'.get? (directory ++ [name] ++ more) = none) ∧
      t'.Walk maxLinks (t'.start rooted) (done ++ [name]) links (directory ++ [name]) := by
  have hgrown : Grown t (t.put (directory ++ [name]) .directory) (directory ++ [name]) :=
    Grown.put_directory (by simp) hvacant
  have hplace : (t.put (directory ++ [name]) .directory).get? (directory ++ [name]) =
      some .directory := by rw [get?_put _ (by simp), if_pos rfl]
  refine ⟨_, ?_, ?_, hgrown, hplace, ?_, ?_⟩
  · unfold makeDirectory
    rw [hwalk.find_concat hnames, hplain.locate_cons, hvacant]
    rfl
  · have hdirectory := hwalk.get?_directory hwell (hwell.get?_start rooted)
    exact hwell.put hdirectory (by rw [hvacant]; simp) _
  · intro more hmore
    rw [get?_put _ (by simp), if_neg (by simpa using hmore)]
    exact hwell.below_vacant hvacant more
  · rw [hgrown.start_eq]
    exact (hwalk.grown hgrown).append (.down hplain hplace (.nil _ _))

/-- `makeAll` from a missing name on: all names are made if they are short, otherwise those before
the first one that is not, and the tree has `Grown`. -/
theorem makeAll_of_vacant {after : List String} (hwell : t.WellFormed)
    (hwalk : t.Walk maxLinks (t.start rooted) done links directory) (hplain : Plain name)
    (hvacant : t.get? (directory ++ [name]) = none)
    (hnames : ∀ n ∈ done ++ name :: after, Path.IsName n) (hdots : ".." ∉ after) :
    ∃ t', t'.WellFormed ∧ Grown t t' (directory ++ [name] ++ after) ∧
      t'.get? (directory ++ [name]) = some .directory ∧
      ((∀ n ∈ after, n.utf8ByteSize ≤ maxNameSize) ∧
          t.makeAll rooted done (name :: after) = (t', .ok ()) ∧
          t'.Walk maxLinks (t'.start rooted) (done ++ name :: after) links
            (directory ++ [name] ++ after) ∧
          (∀ more, more ≠ [] → t'.get? (directory ++ [name] ++ after ++ more) = none) ∨
        (∃ n ∈ after, maxNameSize < n.utf8ByteSize) ∧
          ∃ path, t.makeAll rooted done (name :: after) =
            (t', .error ⟨"mkdir", path, .nameTooLong⟩)) := by
  induction after generalizing t done directory name with
  | nil =>
    obtain ⟨t₁, hmake, hwell₁, hgrown₁, hplace, hfresh, hwalk₁⟩ :=
      hwell.makeDirectory_of_vacant hwalk hplain hvacant hnames
    rw [List.append_nil, makeAll, hmake]
    exact ⟨t₁, hwell₁, hgrown₁, hplace, .inl ⟨by simp, rfl, hwalk₁, hfresh⟩⟩
  | cons next rest ih =>
    have hsplit : done ++ name :: next :: rest = done ++ [name] ++ next :: rest := by simp
    have hpath : directory ++ [name] ++ next :: rest = directory ++ [name] ++ [next] ++ rest := by
      simp
    rw [hsplit] at hnames ⊢
    obtain ⟨t₁, hmake, hwell₁, hgrown₁, hplace, hfresh, hwalk₁⟩ :=
      hwell.makeDirectory_of_vacant hwalk hplain hvacant
        fun n hn => hnames n (List.mem_append_left _ hn)
    have hgrown₁ : Grown t t₁ (directory ++ [name] ++ next :: rest) :=
      hgrown₁.weaken (List.prefix_append _ _)
    have hnext : next ≠ ".." := fun h => hdots (h ▸ List.mem_cons_self)
    rw [makeAll, hmake]
    dsimp only
    by_cases hsize : next.utf8ByteSize ≤ maxNameSize
    · obtain ⟨t', hwell', hgrown', -, houtcome⟩ := ih hwell₁ hwalk₁ ⟨hnext, hsize⟩
        (hfresh [next] (by simp)) hnames fun h => hdots (List.mem_cons_of_mem _ h)
      rw [hpath] at hgrown₁ ⊢
      refine ⟨t', hwell', hgrown₁.trans hgrown', hgrown'.entry_of_eq_some hplace, ?_⟩
      rcases houtcome with ⟨hall, hok, hwalk', hfresh'⟩ | ⟨⟨n, hn, hlong⟩, hfailed⟩
      · exact .inl ⟨by simpa using ⟨hsize, hall⟩, hok, hwalk', hfresh'⟩
      · exact .inr ⟨⟨n, List.mem_cons_of_mem _ hn, hlong⟩, hfailed⟩
    · -- The directory made so far stays, the next one cannot be made.
      rw [Nat.not_le] at hsize
      refine ⟨t₁, hwell₁, hgrown₁, hplace, .inr ⟨⟨next, List.mem_cons_self, hsize⟩, ?_⟩⟩
      have hlong : ∀ n ∈ done ++ [name] ++ [next], Path.IsName n := by
        intro n hn
        refine hnames n ?_
        rw [List.append_cons]
        exact List.mem_append_left _ hn
      refine ⟨Path.ofNames rooted (done ++ [name] ++ [next]), ?_⟩
      rw [makeAll, makeDirectory, hwalk₁.find_concat hlong, locate_long hnext hsize]

/-- On the way along some names the first missing directory is the one at `place`; the names `after`
come behind it. -/
def Gap (t : FileTree) (rooted : Bool) (names place after : List String) : Prop :=
  ∃ before name links directory, names = before ++ name :: after ∧ place = directory ++ [name] ∧
    t.Walk maxLinks (t.start rooted) before links directory ∧ Plain name ∧
    t.get? (directory ++ [name]) = none

/-- `find` behind a `Gap` answers `.missing`. -/
theorem Gap.find_eq {place after : List String} (hgap : t.Gap rooted names place after)
    (hnames : ∀ n ∈ names ++ [name], Path.IsName n) :
    t.find true (Path.ofNames rooted (names ++ [name])) = .error .missing := by
  obtain ⟨before, first, links, directory, rfl, -, hwalk, hplain, hvacant⟩ := hgap
  rw [find_ofNames hnames, List.append_assoc, hwalk.locate_append (.inr rfl), List.cons_append,
    hplain.locate_cons, hvacant]
  simp

/-- `ensureDirectories` at a `Gap`: all names are made if those `after` it are short, otherwise the
answer is `.nameTooLong`.  In both cases the tree has `Grown`, and there is a directory at `place`.
-/
theorem Gap.ensureDirectories {place after : List String} (hwell : t.WellFormed)
    (hgap : t.Gap rooted names place after) (hclean : Path.IsClean rooted names) :
    ∃ t', t'.WellFormed ∧ Grown t t' (place ++ after) ∧ t'.get? place = some .directory ∧
      ((∀ n ∈ after, n.utf8ByteSize ≤ maxNameSize) ∧
          t.ensureDirectories (Path.ofNames rooted names) = (t', .ok ()) ∧
          (∃ links, t'.Walk maxLinks (t'.start rooted) names links (place ++ after)) ∧
          (∀ more, more ≠ [] → t'.get? (place ++ after ++ more) = none) ∨
        (∃ n ∈ after, maxNameSize < n.utf8ByteSize) ∧
          ∃ path, t.ensureDirectories (Path.ofNames rooted names) =
            (t', .error ⟨"mkdir", path, .nameTooLong⟩)) := by
  obtain ⟨before, name, links, directory, rfl, rfl, hwalk, hplain, hvacant⟩ := hgap
  have hdots : ".." ∉ after := by
    intro h
    have hpair := (List.pairwise_append.1 hclean.dots).2.1
    exact hplain.ne_dots ((List.pairwise_cons.1 hpair).1 ".." h rfl)
  have hrun : t.ensureDirectories (Path.ofNames rooted (before ++ name :: after)) =
      t.makeAll rooted before (name :: after) := by
    unfold FileTree.ensureDirectories
    rw [Path.isRooted_ofNames hclean.isName, Path.cleanNames_ofNames hclean]
    exact makeAll_of_walk hwalk fun n hn => hclean.isName n (List.mem_append_left _ hn)
  obtain ⟨t', hwell', hgrown, hplace, houtcome⟩ :=
    makeAll_of_vacant hwell hwalk hplain hvacant hclean.isName hdots
  refine ⟨t', hwell', hgrown, hplace, ?_⟩
  rw [hrun]
  exact houtcome.imp_left fun ⟨hall, hok, hwalk', hfresh⟩ => ⟨hall, hok, ⟨links, hwalk'⟩, hfresh⟩

/-! ### All cases -/

/-- One more name after a `Walk`: the walk goes on, or nothing lies there, or `makeDirectory` fails.
-/
theorem Walk.cases_concat (hwalk : t.Walk maxLinks (t.start rooted) done links directory)
    (hnames : ∀ n ∈ done ++ [name], Path.IsName n) :
    (∃ links' directory',
      t.Walk maxLinks (t.start rooted) (done ++ [name]) links' directory') ∨
      (Plain name ∧ t.get? (directory ++ [name]) = none) ∨
      ∃ e, t.makeDirectory (Path.ofNames rooted (done ++ [name])) = .error e := by
  by_cases hdots : name = ".."
  · subst hdots
    exact .inl ⟨_, _, hwalk.append (.dots (.nil _ _))⟩
  have hfalse : t.find false (Path.ofNames rooted (done ++ [name])) =
      t.locate false links directory [name] := hwalk.find_concat hnames
  have htrue : t.find true (Path.ofNames rooted (done ++ [name])) =
      t.locate true links directory [name] := hwalk.find_concat hnames
  unfold FileTree.makeDirectory
  by_cases hsize : maxNameSize < name.utf8ByteSize
  · rw [hfalse, locate_long hdots hsize]
    exact .inr (.inr ⟨_, rfl⟩)
  have hplain : Plain name := ⟨hdots, Nat.not_lt.1 hsize⟩
  cases hentry : t.get? (directory ++ [name]) with
  | none => exact .inr (.inl ⟨hplain, rfl⟩)
  | some entry =>
    rw [hfalse, hplain.locate_cons, hentry]
    cases entry with
    | directory => exact .inl ⟨_, _, hwalk.append (.down hplain hentry (.nil _ _))⟩
    | file content mode => exact .inr (.inr ⟨_, rfl⟩)
    | link target =>
      rw [htrue]
      dsimp only [List.isEmpty_nil, Bool.not_false, Bool.and_self, if_true]
      rcases hlocate : t.locate true links directory [name] with fault | ⟨place, entry⟩ | place
      · exact .inr (.inr ⟨_, rfl⟩)
      · cases entry with
        | directory =>
          obtain ⟨links', hlast⟩ := walk_of_locate hlocate
          exact .inl ⟨_, _, hwalk.append hlast⟩
        | file content mode => exact .inr (.inr ⟨_, rfl⟩)
        | link target => exact .inr (.inr ⟨_, rfl⟩)
      · exact .inr (.inr ⟨_, rfl⟩)

theorem makeAll_cases (hwalk : t.Walk maxLinks (t.start rooted) done links directory)
    (hnames : ∀ n ∈ done ++ rest, Path.IsName n) :
    (∃ e, t.makeAll rooted done rest = (t, .error e)) ∨
      (t.makeAll rooted done rest = (t, .ok ()) ∧
        ∃ links' directory', t.Walk maxLinks (t.start rooted) (done ++ rest) links' directory') ∨
      ∃ place after, t.Gap rooted (done ++ rest) place after := by
  induction rest generalizing done links directory with
  | nil =>
    rw [List.append_nil]
    exact .inr (.inl ⟨rfl, _, _, hwalk⟩)
  | cons name rest ih =>
    have hsplit : done ++ name :: rest = done ++ [name] ++ rest := by simp
    have hfront : ∀ n ∈ done ++ [name], Path.IsName n :=
      fun n hn => hnames n (hsplit ▸ List.mem_append_left _ hn)
    rcases hwalk.cases_concat hfront with ⟨k, d, hnext⟩ | ⟨hplain, hvacant⟩ | ⟨e, herror⟩
    · rw [makeAll, hnext.makeDirectory hfront, hsplit]
      exact ih hnext (hsplit ▸ hnames)
    · exact .inr (.inr ⟨_, _, done, name, links, directory, rfl, rfl, hwalk, hplain, hvacant⟩)
    · rw [makeAll, herror]
      exact .inl ⟨e, rfl⟩

/-- **`ensureDirectories` has three outcomes**: it fails and changes nothing, the names `Walk`
already, or there is a `Gap`. -/
theorem ensureDirectories_cases (t : FileTree) (hclean : Path.IsClean rooted names) :
    (∃ e, t.ensureDirectories (Path.ofNames rooted names) = (t, .error e)) ∨
      (t.ensureDirectories (Path.ofNames rooted names) = (t, .ok ()) ∧
        ∃ links directory, t.Walk maxLinks (t.start rooted) names links directory) ∨
      ∃ place after, t.Gap rooted names place after := by
  unfold ensureDirectories
  rw [Path.isRooted_ofNames hclean.isName, Path.cleanNames_ofNames hclean]
  exact makeAll_cases (.nil _ _) hclean.isName

end SchemaPress.FileTree
