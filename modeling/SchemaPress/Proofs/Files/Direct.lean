import SchemaPress.Proofs.Files.Draft

/-!
# Where paths lead

A path that is `Settled` leads through directories and links to a directory and from there straight
down to a place, whether or not anything is there.  What is found at the path is told by the entries
on the way to the place (`Settled.lookup`).  If there is no link on its way at all, the place is
`FileTree.placeOf`, which does not depend on what lies in the tree (`Direct.settled`).

A tree that has `Evolved` out of another one has new files at some places, and new directories on
the way to them.  All paths lead where they have led before (`Evolved.settled`), and those whose
places are `Apart` from the new files are read as before (`Evolved.read_eq`).
-/

namespace SchemaPress.FileTree

variable {t t' t₀ : FileTree} {follow rooted : Bool} {links : Nat} {mode : Nat}
  {directory names place front more : List String} {name : String} {entry : FileEntry}
  {content : ByteArray}

/-! ### The way to an entry -/

theorem WellFormed.get?_dropLast (h : t.WellFormed)
    (hdirectory : t.get? directory = some .directory) :
    t.get? directory.dropLast = some .directory := by
  rcases List.eq_nil_or_concat directory with rfl | ⟨init, last, rfl⟩
  · rfl
  · rw [List.concat_eq_append] at hdirectory ⊢
    rw [List.dropLast_concat]
    exact h.parent _ _ _ hdirectory

/-- If there is a directory at `directory ++ names`, the names `Walk` to it. -/
theorem WellFormed.walk_down (h : t.WellFormed) (hplain : ∀ n ∈ names, Plain n)
    (hentry : t.get? (directory ++ names) = some .directory) :
    t.Walk links directory names links (directory ++ names) := by
  induction names generalizing directory with
  | nil =>
    rw [List.append_nil]
    exact .nil _ _
  | cons name rest ih =>
    have hsplit : directory ++ name :: rest = directory ++ [name] ++ rest := by simp
    rw [hsplit] at hentry ⊢
    have hnext : t.get? (directory ++ [name]) = some .directory := by
      rcases eq_or_ne rest [] with rfl | hrest
      · rwa [List.append_nil] at hentry
      · exact h.get?_front hentry hrest
    exact .down (hplain name List.mem_cons_self) hnext
      (ih (fun n hn => hplain n (List.mem_cons_of_mem _ hn)) hentry)

/-- There is a directory at `directory ++ names`, or a first name from which on there is none. -/
theorem get?_directory_or_first (hdirectory : t.get? directory = some .directory)
    (names : List String) :
    t.get? (directory ++ names) = some .directory ∨
      ∃ before name after, names = before ++ name :: after ∧
        t.get? (directory ++ before) = some .directory ∧
        t.get? (directory ++ before ++ [name]) ≠ some .directory := by
  induction names generalizing directory with
  | nil =>
    rw [List.append_nil]
    exact .inl hdirectory
  | cons name rest ih =>
    by_cases hnext : t.get? (directory ++ [name]) = some .directory
    · have hsplit : directory ++ name :: rest = directory ++ [name] ++ rest := by simp
      rcases ih hnext with hall | ⟨before, last, after, rfl, hbefore, hlast⟩
      · exact .inl (hsplit ▸ hall)
      · refine .inr ⟨name :: before, last, after, rfl, ?_, ?_⟩
        · rwa [List.append_cons]
        · rwa [List.append_cons directory name before]
    · refine .inr ⟨[], name, rest, rfl, ?_, ?_⟩
      · rwa [List.append_nil]
      · rwa [List.append_nil]

/-! ### Places -/

/-- `..` drops the last name of `directory`, any other name is appended. -/
def descend (directory : List String) (name : String) : List String :=
  if name = ".." then directory.dropLast else directory ++ [name]

/-- The place of `path` if there is no link on its way: its names, taken one by one with `descend`.
-/
def placeOf (t : FileTree) (path : String) : List String :=
  (Path.names path).foldl descend (t.start (Path.isRooted path))

/-- No link lies on the way to `place` or at it, and all its names have at most `maxNameSize` bytes.
-/
structure Direct (t : FileTree) (place : List String) : Prop where
  no_link : ∀ front, front <+: place → ∀ target, t.get? front ≠ some (.link target)
  short : ∀ name ∈ place, name.utf8ByteSize ≤ maxNameSize

theorem get?_ne_link (h : ∀ e ∈ t.entries, ∀ target, e.2 ≠ .link target) (names : List String)
    (target : String) : t.get? names ≠ some (.link target) := by
  intro hlink
  rcases eq_or_ne names [] with rfl | hne
  · cases hlink
  · rw [get?_of_ne_nil _ hne] at hlink
    obtain ⟨before, after, hentries, -⟩ := List.lookup_eq_some_iff.1 hlink
    exact h (names, .link target) (by rw [hentries]; simp) target rfl

/-- In a tree without links, every place with short names is `Direct`. -/
theorem direct_of_entries (h : ∀ e ∈ t.entries, ∀ target, e.2 ≠ .link target)
    (hshort : ∀ name ∈ place, name.utf8ByteSize ≤ maxNameSize) : t.Direct place :=
  ⟨fun front _ => get?_ne_link h front, hshort⟩

theorem Direct.of_prefix (h : t.Direct place) (hfront : front <+: place) : t.Direct front :=
  ⟨fun other hother => h.no_link other (hother.trans hfront),
    fun n hn => h.short n (hfront.subset hn)⟩

theorem placeOf_ofNames (t : FileTree) (h : ∀ n ∈ names, Path.IsName n) :
    t.placeOf (Path.ofNames rooted names) = names.foldl descend (t.start rooted) := by
  unfold placeOf
  rw [Path.names_ofNames h, Path.isRooted_ofNames h]

theorem placeOf_concat (t : FileTree) (hclean : Path.IsClean rooted (names ++ [name]))
    (hdots : name ≠ "..") :
    t.placeOf (Path.ofNames rooted (names ++ [name])) =
      t.placeOf (Path.ofNames rooted names) ++ [name] := by
  have hfront : ∀ n ∈ names, Path.IsName n :=
    fun n hn => hclean.isName n (List.mem_append_left _ hn)
  rw [placeOf_ofNames t hclean.isName, placeOf_ofNames t hfront, List.foldl_append]
  exact if_neg hdots

theorem foldl_descend (hdots : ".." ∉ names) (directory : List String) :
    names.foldl descend directory = directory ++ names := by
  induction names generalizing directory with
  | nil => rw [List.append_nil]; rfl
  | cons name rest ih =>
    rw [List.mem_cons, not_or] at hdots
    rw [List.foldl_cons, descend, if_neg (Ne.symm hdots.1), ih hdots.2,
      List.append_cons directory name rest]

/-- The names of a clean path are `up ++ down`, where `up` consists of `..` and `down` has none. -/
theorem exists_walk_up (hwell : t.WellFormed) (hclean : Path.IsClean rooted names) (links : Nat)
    {start : List String} (hstart : t.get? start = some .directory) :
    ∃ up down directory, names = up ++ down ∧ t.Walk links start up links directory ∧
      t.get? directory = some .directory ∧ ".." ∉ down ∧
      names.foldl descend start = directory ++ down := by
  induction names generalizing start with
  | nil => exact ⟨[], [], start, rfl, .nil _ _, hstart, by simp, by simp⟩
  | cons name rest ih =>
    by_cases hdots : name = ".."
    · subst hdots
      obtain ⟨up, down, directory, rfl, hwalk, hdirectory, hdown, hplace⟩ :=
        ih (hclean.sublist (List.sublist_cons_self _ _)) (hwell.get?_dropLast hstart)
      refine ⟨".." :: up, down, directory, rfl, .dots hwalk, hdirectory, hdown, ?_⟩
      rw [← hplace]
      rfl
    · have hnone : ".." ∉ name :: rest := by
        intro hmem
        rcases List.mem_cons.1 hmem with h | h
        · exact hdots h.symm
        · exact hdots ((List.pairwise_cons.1 hclean.dots).1 _ h rfl)
      exact ⟨[], name :: rest, start, rfl, .nil _ _, hstart, hnone, foldl_descend hnone start⟩

/-! ### Looking up a place -/

/-- `names` are `front ++ down`: `front` walks to a directory, and `down` leads from there straight
down to `place`, by `Plain` names and without a link. -/
def Settled (t : FileTree) (rooted : Bool) (names place : List String) : Prop :=
  ∃ front down links directory, names = front ++ down ∧ place = directory ++ down ∧
    t.Walk maxLinks (t.start rooted) front links directory ∧ (∀ n ∈ down, Plain n) ∧
    ∀ more, more <+: down → ∀ target, t.get? (directory ++ more) ≠ some (.link target)

/-- Nothing lies at `place`, and on the way to it there are only directories, or nothing. -/
structure Free (t : FileTree) (place : List String) : Prop where
  vacant : t.get? place = none
  way : ∀ front, front <+: place → t.get? front = some .directory ∨ t.get? front = none

/-- What `locate` can find at `place`, if there is no link on the way. -/
inductive Lookup (t : FileTree) (place : List String) : Except FileFault Place → Prop
  | directory (h : t.get? place = some .directory) : Lookup t place (.ok (.taken place .directory))
  | file {content : ByteArray} {mode : Nat} (h : t.get? place = some (.file content mode)) :
      Lookup t place (.ok (.taken place (.file content mode)))
  | blocked {front : List String} {content : ByteArray} {mode : Nat} (way : front <+: place)
      (end_ne : front ≠ place) (h : t.get? front = some (.file content mode)) :
      Lookup t place (.error .notDirectory)
  | vacant (h : t.Free place) : Lookup t place (.ok (.vacant place))
  | missing (h : t.Free place) : Lookup t place (.error .missing)

/-- From a first missing name on, everything is `Free`. -/
theorem WellFormed.free_of_first (hwell : t.WellFormed)
    (hdirectory : t.get? directory = some .directory) (hnone : t.get? (directory ++ [name]) = none)
    (after : List String) : t.Free (directory ++ [name] ++ after) := by
  refine ⟨hwell.below_vacant hnone after, fun front hfront => ?_⟩
  rcases List.prefix_or_prefix_of_prefix hfront (List.prefix_append _ after) with h | h
  · rcases List.prefix_concat_iff.1 h with rfl | ⟨more, hmore⟩
    · exact .inr hnone
    · rcases eq_or_ne more [] with rfl | hne
      · rw [List.append_nil] at hmore
        exact .inl (hmore ▸ hdirectory)
      · exact .inl (hwell.get?_front (hmore ▸ hdirectory) hne)
  · obtain ⟨more, rfl⟩ := h
    exact .inr (hwell.below_vacant hnone more)

/-- `find` of `Settled` names is a `Lookup` of their place. -/
theorem Settled.lookup (h : t.Settled rooted names place) (hwell : t.WellFormed)
    (hnames : ∀ n ∈ names, Path.IsName n) :
    Lookup t place (t.find true (Path.ofNames rooted names)) := by
  obtain ⟨front, down, links, directory, rfl, rfl, hwalk, hplain, hlinks⟩ := h
  have hdirectory := hwalk.get?_directory hwell (hwell.get?_start rooted)
  rw [find_ofNames hnames, hwalk.locate_append (.inr rfl)]
  rcases get?_directory_or_first hdirectory down with
    hall | ⟨before, name, after, rfl, hbefore, hfirst⟩
  · rw [← List.append_nil down, (hwell.walk_down hplain hall).locate_append (.inr rfl), locate_nil,
      List.append_nil]
    exact .directory hall
  have hfront : ∀ n ∈ before, Plain n := fun n hn => hplain n (List.mem_append_left _ hn)
  have hsplit : directory ++ (before ++ name :: after) =
      directory ++ before ++ [name] ++ after := by simp
  -- All is decided by the first entry on the way that is no directory.
  rw [(hwell.walk_down hfront hbefore).locate_append (.inr rfl),
    (hplain name (by simp)).locate_cons, hsplit]
  cases hentry : t.get? (directory ++ before ++ [name]) with
  | none =>
    have hfree := hwell.free_of_first hbefore hentry after
    cases after with
    | nil =>
      rw [List.append_nil] at hfree ⊢
      exact .vacant hfree
    | cons => exact .missing hfree
  | some entry =>
    cases entry with
    | directory => exact absurd hentry hfirst
    | link target =>
      refine absurd hentry ?_
      rw [List.append_assoc]
      exact hlinks (before ++ [name]) ⟨after, by simp⟩ target
    | file content mode =>
      cases after with
      | nil =>
        rw [List.append_nil]
        exact .file hentry
      | cons next more => exact .blocked (List.prefix_append _ _) (by simp) hentry

/-- A `Lookup` finds the entry at `place`, if there is one. -/
theorem Lookup.eq_of_entry {found : Except FileFault Place} (h : Lookup t place found)
    (hwell : t.WellFormed) (hentry : t.get? place = some entry) :
    found = .ok (.taken place entry) := by
  cases h with
  | directory h =>
    rw [h] at hentry
    cases hentry
    rfl
  | file h =>
    rw [h] at hentry
    cases hentry
    rfl
  | blocked way end_ne h =>
    obtain ⟨more, rfl⟩ := way
    have hdirectory := hwell.get?_front hentry (by simpa using end_ne)
    rw [h] at hdirectory
    cases hdirectory
  | vacant h =>
    rw [h.vacant] at hentry
    cases hentry
  | missing h =>
    rw [h.vacant] at hentry
    cases hentry

theorem Lookup.eq_of_blocked {found : Except FileFault Place} (h : Lookup t place found)
    (hwell : t.WellFormed) (hway : front <+: place) (hne : front ≠ place)
    (hentry : t.get? front = some (.file content mode)) : found = .error .notDirectory := by
  have hnone (entry : FileEntry) : t.get? place ≠ some entry := by
    intro h
    obtain ⟨more, rfl⟩ := hway
    rw [hwell.get?_front h (by simpa using hne)] at hentry
    cases hentry
  have hfree : ¬ t.Free place := by
    intro h
    have hfront := h.way front hway
    simp [hentry] at hfront
  cases h with
  | directory h => exact absurd h (hnone _)
  | file h => exact absurd h (hnone _)
  | blocked => rfl
  | vacant h => exact absurd h hfree
  | missing h => exact absurd h hfree

theorem Lookup.eq_of_free {found : Except FileFault Place} (h : Lookup t place found)
    (hfree : t.Free place) : found = .ok (.vacant place) ∨ found = .error .missing := by
  cases h with
  | directory h =>
    rw [hfree.vacant] at h
    cases h
  | file h =>
    rw [hfree.vacant] at h
    cases h
  | blocked way _ h =>
    have hfront := hfree.way _ way
    simp [h] at hfront
  | vacant => exact .inl rfl
  | missing => exact .inr rfl

/-! ### The directory of a file -/

/-- `Settled` names walk to their place, if there is a directory. -/
theorem Settled.walk (h : t.Settled rooted names place) (hwell : t.WellFormed)
    (hentry : t.get? place = some .directory) :
    ∃ links, t.Walk maxLinks (t.start rooted) names links place := by
  obtain ⟨front, down, links, directory, rfl, rfl, hwalk, hplain, -⟩ := h
  exact ⟨links, hwalk.append (hwell.walk_down hplain hentry)⟩

/-- `Settled` names have a `Gap`, if their place is `Free`. -/
theorem Settled.gap (h : t.Settled rooted names place) (hwell : t.WellFormed)
    (hfree : t.Free place) :
    ∃ first after, t.Gap rooted names first after ∧ ∀ n ∈ after, n.utf8ByteSize ≤ maxNameSize := by
  obtain ⟨front, down, links, directory, rfl, rfl, hwalk, hplain, -⟩ := h
  have hdirectory := hwalk.get?_directory hwell (hwell.get?_start rooted)
  rcases get?_directory_or_first hdirectory down with
    hall | ⟨before, name, after, rfl, hbefore, hfirst⟩
  · rw [hfree.vacant] at hall
    cases hall
  have hfront : ∀ n ∈ before, Plain n := fun n hn => hplain n (List.mem_append_left _ hn)
  have hnone : t.get? (directory ++ before ++ [name]) = none :=
    (hfree.way _ ⟨after, by simp⟩).resolve_left hfirst
  refine ⟨_, after, ⟨front ++ before, name, links, directory ++ before, by simp, rfl,
    hwalk.append (hwell.walk_down hfront hbefore), hplain name (by simp), hnone⟩, ?_⟩
  intro n hn
  exact (hplain n (by simp [hn])).size_le

/-- The names of a `Gap` in `Settled` names are short. -/
theorem Settled.short_of_gap {first after : List String} (h : t.Settled rooted names place)
    (hgap : t.Gap rooted names first after) : ∀ n ∈ after, n.utf8ByteSize ≤ maxNameSize := by
  obtain ⟨front, down, links, directory, rfl, -, hwalk, hplain, -⟩ := h
  obtain ⟨before, name, links', directory', hnames, -, hwalk', hplain', hnone⟩ := hgap
  rcases List.append_eq_append_iff.1 hnames with ⟨more, rfl, hdown⟩ | ⟨more, rfl, hmore⟩
  · -- The gap is below the directory that the walk leads to.
    intro n hn
    refine (hplain n ?_).size_le
    rw [hdown]
    simp [hn]
  · cases more with
    | nil =>
      intro n hn
      refine (hplain n ?_).size_le
      rw [List.nil_append] at hmore
      simp [← hmore, hn]
    | cons next rest =>
      -- The walk has gone through the place where nothing is.
      obtain ⟨rfl, -⟩ := List.cons.inj hmore
      have hend := hwalk.locate_append (@Or.inr ([] ≠ []) _ (rfl : true = true))
      rw [List.append_nil, locate_nil, hwalk'.locate_append (.inr rfl), hplain'.locate_cons,
        hnone] at hend
      dsimp only at hend
      split_ifs at hend
      cases hend

theorem Settled.concat (h : t.Settled rooted names directory) (hplain : Plain name)
    (hlink : ∀ target, t.get? (directory ++ [name]) ≠ some (.link target)) :
    t.Settled rooted (names ++ [name]) (directory ++ [name]) := by
  obtain ⟨front, down, links, inside, rfl, rfl, hwalk, hdown, hlinks⟩ := h
  refine ⟨front, down ++ [name], links, inside, by simp, by simp, hwalk, ?_, ?_⟩
  · intro n hn
    rcases List.mem_append.1 hn with hn | hn
    · exact hdown n hn
    · exact List.mem_singleton.1 hn ▸ hplain
  · intro more hmore
    rcases List.prefix_concat_iff.1 hmore with rfl | hmore
    · rw [← List.append_assoc]
      exact hlink
    · exact hlinks more hmore

/-- The names of a clean path are `Settled` at `placeOf`, if that is `Direct`. -/
theorem Direct.settled (hwell : t.WellFormed) (hclean : Path.IsClean rooted names)
    (hdirect : t.Direct (t.placeOf (Path.ofNames rooted names))) :
    t.Settled rooted names (t.placeOf (Path.ofNames rooted names)) := by
  obtain ⟨up, down, directory, rfl, hwalk, -, hdown, hplace⟩ :=
    exists_walk_up hwell hclean maxLinks (hwell.get?_start rooted)
  rw [placeOf_ofNames t hclean.isName, hplace] at hdirect ⊢
  refine ⟨up, down, maxLinks, directory, rfl, rfl, hwalk, ?_, ?_⟩
  · exact fun n hn => ⟨fun h => hdown (h ▸ hn), hdirect.short n (List.mem_append_right _ hn)⟩
  · intro more hmore
    exact hdirect.no_link _ ((List.prefix_append_right_inj directory).2 hmore)

/-! ### Places that others do not touch -/

/-- Neither of `a` and `b` is a prefix of the other. -/
def Apart (a b : List String) : Prop :=
  ¬ a <+: b ∧ ¬ b <+: a

instance (a b : List String) : Decidable (Apart a b) :=
  inferInstanceAs (Decidable (¬ a <+: b ∧ ¬ b <+: a))

/-- There is neither a directory nor a link at `place`. -/
def Impassable (t : FileTree) (place : List String) : Prop :=
  t.get? place ≠ some .directory ∧ ∀ target, t.get? place ≠ some (.link target)

/-- `t` is `t₀` after files were put at some of the `outputs`, where there was a file or nothing,
and directories were made on the way to them. -/
structure Evolved (t₀ t : FileTree) (outputs : List (List String)) : Prop where
  wellFormed : t.WellFormed
  home : t.home = t₀.home
  entry : ∀ names, t.get? names = t₀.get? names ∨
    (t₀.get? names = none ∧ t.get? names = some .directory ∧
      ∃ output ∈ outputs, names <+: output) ∨
    names ∈ outputs ∧ t₀.Impassable names ∧ ∃ content mode, t.get? names = some (.file content mode)

theorem Evolved.refl (h : t.WellFormed) (outputs : List (List String)) : Evolved t t outputs :=
  ⟨h, rfl, fun _ => .inl rfl⟩

theorem Evolved.trans {outputs : List (List String)} (h : Evolved t₀ t outputs)
    (h' : Evolved t t' [place]) : Evolved t₀ t' (place :: outputs) := by
  refine ⟨h'.wellFormed, h'.home.trans h.home, fun names => ?_⟩
  rcases h'.entry names with hsame | ⟨hnone, hdirectory, output, houtput, hway⟩ |
    ⟨houtput, hold, hfile⟩
  · rw [hsame]
    refine (h.entry names).imp_right (Or.imp ?_ ?_)
    · rintro ⟨hnone, hdirectory, output, houtput, hway⟩
      exact ⟨hnone, hdirectory, output, List.mem_cons_of_mem _ houtput, hway⟩
    · rintro ⟨houtput, hold, hfile⟩
      exact ⟨List.mem_cons_of_mem _ houtput, hold, hfile⟩
  · refine .inr (.inl ⟨?_, hdirectory, output, ?_, hway⟩)
    · rcases h.entry names with hsame | ⟨hnone', -⟩ | ⟨-, -, content, mode, hfile⟩
      · rw [← hsame, hnone]
      · exact hnone'
      · rw [hnone] at hfile
        cases hfile
    · rw [List.mem_singleton.1 houtput]
      exact List.mem_cons_self
  · refine .inr (.inr ⟨?_, ?_, hfile⟩)
    · rw [List.mem_singleton.1 houtput]
      exact List.mem_cons_self
    · rcases h.entry names with hsame | ⟨-, hdirectory, -⟩ | ⟨-, hfirst, -⟩
      · rwa [Impassable, hsame] at hold
      · exact absurd hdirectory hold.1
      · exact hfirst

/-- `Evolved` keeps directories and links. -/
theorem Evolved.get?_eq_some {outputs : List (List String)} (h : Evolved t₀ t outputs)
    (hentry : t₀.get? names = some entry) (hpass : ¬ t₀.Impassable names) :
    t.get? names = some entry := by
  rcases h.entry names with hsame | ⟨hnone, -⟩ | ⟨-, hold, -⟩
  · rw [hsame, hentry]
  · rw [hentry] at hnone
    cases hnone
  · exact absurd hold hpass

/-- `Evolved` keeps every entry that is not at one of the `outputs`. -/
theorem Evolved.get?_of_notMem {outputs : List (List String)} (h : Evolved t₀ t outputs)
    (hentry : t₀.get? names = some entry) (hnames : names ∉ outputs) :
    t.get? names = some entry := by
  rcases h.entry names with hsame | ⟨hnone, -⟩ | ⟨houtput, -⟩
  · rw [hsame, hentry]
  · rw [hentry] at hnone
    cases hnone
  · exact absurd houtput hnames

theorem Evolved.walk {outputs : List (List String)} {links' : Nat} {directory' : List String}
    (h : Evolved t₀ t outputs) (hwalk : t₀.Walk links directory names links' directory') :
    t.Walk links directory names links' directory' :=
  hwalk.mono (fun _ hentry => h.get?_eq_some hentry fun hclosed => hclosed.1 hentry)
    fun _ _ hentry => h.get?_eq_some hentry fun hclosed => hclosed.2 _ hentry

theorem Evolved.ne_link {outputs : List (List String)} (h : Evolved t₀ t outputs) {target : String}
    (hlink : t₀.get? names ≠ some (.link target)) : t.get? names ≠ some (.link target) := by
  intro hentry
  rcases h.entry names with hsame | ⟨-, hdirectory, -⟩ | ⟨-, -, content, mode, hfile⟩
  · exact hlink (hsame ▸ hentry)
  · rw [hdirectory] at hentry
    cases hentry
  · rw [hfile] at hentry
    cases hentry

/-- `Evolved` keeps names `Settled` at their place. -/
theorem Evolved.settled {outputs : List (List String)} (h : Evolved t₀ t outputs)
    (hsettled : t₀.Settled rooted names place) : t.Settled rooted names place := by
  obtain ⟨front, down, links, directory, rfl, rfl, hwalk, hplain, hlinks⟩ := hsettled
  refine ⟨front, down, links, directory, rfl, rfl, ?_, hplain, fun more hmore target => ?_⟩
  · rw [start_eq_of_home h.home]
    exact h.walk hwalk
  · exact h.ne_link (hlinks more hmore target)

/-- On the way to a place that is `Apart` from all `outputs`, nothing changes but for new
directories. -/
theorem Evolved.get?_of_apart {outputs : List (List String)} (h : Evolved t₀ t outputs)
    (hapart : ∀ output ∈ outputs, Apart output place) (hfront : front <+: place) :
    t.get? front = t₀.get? front ∨
      front ≠ place ∧ t₀.get? front = none ∧ t.get? front = some .directory := by
  rcases h.entry front with hsame | ⟨hnone, hdirectory, output, houtput, hway⟩ | ⟨houtput, -⟩
  · exact .inl hsame
  · refine .inr ⟨?_, hnone, hdirectory⟩
    rintro rfl
    exact (hapart output houtput).2 hway
  · exact absurd hfront (hapart front houtput).1

theorem Evolved.free {outputs : List (List String)} (h : Evolved t₀ t outputs)
    (hapart : ∀ output ∈ outputs, Apart output place) (hfree : t₀.Free place) : t.Free place := by
  refine ⟨?_, fun front hfront => ?_⟩
  · rcases h.get?_of_apart hapart (List.prefix_refl place) with hsame | ⟨hne, -⟩
    · rw [hsame, hfree.vacant]
    · exact absurd rfl hne
  · rcases h.get?_of_apart hapart hfront with hsame | ⟨-, -, hdirectory⟩
    · rw [hsame]
      exact hfree.way front hfront
    · exact .inl hdirectory

/-- **`Evolved` does not change what is read at a place that is `Apart` from all `outputs`.** -/
theorem Evolved.read_eq {outputs : List (List String)} (h : Evolved t₀ t outputs)
    (hwell : t₀.WellFormed) (hnames : ∀ n ∈ names, Path.IsName n)
    (hsettled : t₀.Settled rooted names place) (hapart : ∀ output ∈ outputs, Apart output place) :
    t.read (Path.ofNames rooted names) = t₀.read (Path.ofNames rooted names) := by
  have hlookup := (h.settled hsettled).lookup h.wellFormed hnames
  have hlookup₀ := hsettled.lookup hwell hnames
  have hkept {front : List String} {entry : FileEntry} (hfront : front <+: place)
      (hentry : t₀.get? front = some entry) : t.get? front = some entry := by
    rcases h.get?_of_apart hapart hfront with hsame | ⟨-, hnone, -⟩
    · rw [hsame, hentry]
    · rw [hentry] at hnone
      cases hnone
  unfold read
  generalize t.find true (Path.ofNames rooted names) = found at hlookup ⊢
  generalize t₀.find true (Path.ofNames rooted names) = found₀ at hlookup₀ ⊢
  -- A place that was free may be missing at first and vacant now, but neither can be read.
  cases hlookup₀ with
  | directory h₀ => rw [hlookup.eq_of_entry h.wellFormed (hkept (List.prefix_refl _) h₀)]
  | file h₀ => rw [hlookup.eq_of_entry h.wellFormed (hkept (List.prefix_refl _) h₀)]
  | blocked way end_ne h₀ => rw [hlookup.eq_of_blocked h.wellFormed way end_ne (hkept way h₀)]
  | vacant h₀ => rcases hlookup.eq_of_free (h.free hapart h₀) with rfl | rfl <;> rfl
  | missing h₀ => rcases hlookup.eq_of_free (h.free hapart h₀) with rfl | rfl <;> rfl

end SchemaPress.FileTree
