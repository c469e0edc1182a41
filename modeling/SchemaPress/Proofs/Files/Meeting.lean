import SchemaPress.Proofs.Files.Direct
import SchemaPress.Proofs.Files.Reach

/-!
# Paths that meet

Two paths `Meet` if they lead to one place, whether or not anything is there; a path that leads to a
link also leads on from there.  So two paths that do not meet never lead to the same file, and that
stays so while files are put into the tree and directories are made (`Meet.of_filled`).

A file is kept when another one is put at a path that its own path does not meet
(`Placed.read_eq`).  A path that is settled leads to its place alone (`Settled.eq_of_leadsTo`), so
there it is enough that places are apart (`Evolved.read_eq_of_stands`).
-/

namespace SchemaPress.FileTree

variable {t t' : FileTree} {links : Nat} {directory names place spot : List String}
  {path other : String} {content : ByteArray}

/-! ### Where names lead -/

/-- `LeadsTo t directory names place`: from `directory`, the `names` lead to `place`, through links
and through directories, present or not, and end at anything. -/
inductive LeadsTo (t : FileTree) : List String → List String → List String → Prop
  | here {directory : List String} {name : String} (down : name ≠ "..") :
      LeadsTo t directory [name] (directory ++ [name])
  | dots {directory rest place : List String} (next : LeadsTo t directory.dropLast rest place) :
      LeadsTo t directory (".." :: rest) place
  | down {directory rest place : List String} {name : String} (down : name ≠ "..")
      (entry : ∀ entry, t.get? (directory ++ [name]) = some entry → entry = .directory)
      (next : LeadsTo t (directory ++ [name]) rest place) :
      LeadsTo t directory (name :: rest) place
  | link {directory rest place : List String} {name target : String} (down : name ≠ "..")
      (entry : t.get? (directory ++ [name]) = some (.link target))
      (next : LeadsTo t (linkStart directory target) (Path.names target ++ rest) place) :
      LeadsTo t directory (name :: rest) place

theorem Reaches.leadsTo (h : t.Reaches links directory names place) :
    t.LeadsTo directory names place := by
  induction h with
  | file plain _ => exact .here plain.ne_dots
  | dots _ ih => exact .dots ih
  | down plain entry _ ih =>
    exact .down plain.ne_dots (fun _ h => (Option.some.inj (entry.symm.trans h)).symm) ih
  | link plain entry _ ih => exact .link plain.ne_dots entry ih

/-- After a `Walk` along `front`, the `rest` leads on from its end. -/
theorem Walk.leadsTo {front rest : List String} {links' : Nat} {directory' : List String}
    (hwalk : t.Walk links directory front links' directory')
    (h : t.LeadsTo directory (front ++ rest) place) (hrest : rest ≠ []) :
    t.LeadsTo directory' rest place := by
  induction hwalk with
  | nil => exact h
  | @dots _ _ directory _ more _ ih =>
    rw [List.cons_append] at h
    generalize more ++ rest = all at h ih
    cases h with
    | here down => exact absurd rfl down
    | dots next => exact ih next
    | down down => exact absurd rfl down
    | link down => exact absurd rfl down
  | @down _ _ directory _ more name plain entry _ ih =>
    rw [List.cons_append] at h
    generalize hall : more ++ rest = all at h ih
    cases h with
    | here => exact absurd (List.append_eq_nil_iff.1 hall).2 hrest
    | dots next => exact absurd rfl plain.ne_dots
    | down _ _ next => exact ih next
    | link _ entry' =>
      rw [entry] at entry'
      cases entry'
  | @link _ _ directory _ more name target plain entry _ ih =>
    rw [List.cons_append] at h
    generalize hall : more ++ rest = all at h
    cases h with
    | here => exact absurd (List.append_eq_nil_iff.1 hall).2 hrest
    | dots next => exact absurd rfl plain.ne_dots
    | down _ entry' _ => cases entry' _ entry
    | @link _ _ _ _ target' _ entry' next =>
      rw [entry] at entry'
      cases entry'
      rw [← hall, ← List.append_assoc] at next
      exact ih next

/-- Without `..` and without links, `names` lead to `directory ++ names` only. -/
theorem LeadsTo.eq_append (h : t.LeadsTo directory names place) (hdots : ∀ n ∈ names, n ≠ "..")
    (hlinks : ∀ more, more <+: names → ∀ target, t.get? (directory ++ more) ≠ some (.link target)) :
    place = directory ++ names := by
  induction h with
  | here _ => rfl
  | dots _ _ => exact absurd rfl (hdots _ List.mem_cons_self)
  | @down directory rest place name _ _ _ ih =>
    rw [List.append_cons]
    refine ih (fun n hn => hdots n (List.mem_cons_of_mem _ hn)) fun more hmore => ?_
    rw [← List.append_cons]
    exact hlinks (name :: more) (List.cons_prefix_cons.2 ⟨rfl, hmore⟩)
  | @link directory rest place name target _ entry _ _ =>
    exact absurd entry (hlinks [name] (List.cons_prefix_cons.2 ⟨rfl, List.nil_prefix⟩) target)

/-- `Settled` names lead to one place only, if there is no link at it. -/
theorem Settled.eq_of_leadsTo {rooted : Bool} {name : String}
    (h : t.Settled rooted names directory) (hplain : Plain name)
    (hlink : ∀ target, t.get? (directory ++ [name]) ≠ some (.link target))
    (hleads : t.LeadsTo (t.start rooted) (names ++ [name]) place) :
    place = directory ++ [name] := by
  obtain ⟨front, down, links, inside, rfl, rfl, hwalk, hdown, hlinks⟩ := h
  rw [List.append_assoc] at hleads ⊢
  refine (hwalk.leadsTo hleads (by simp)).eq_append ?_ ?_
  · intro n hn
    rcases List.mem_append.1 hn with hn | hn
    · exact (hdown n hn).ne_dots
    · exact List.mem_singleton.1 hn ▸ hplain.ne_dots
  · intro more hmore
    rcases List.prefix_concat_iff.1 hmore with rfl | hmore
    · rwa [← List.append_assoc]
    · exact hlinks more hmore

/-- In a tree without links, `names` lead to one place only, that of `descend`. -/
theorem LeadsTo.eq_foldl (h : t.LeadsTo directory names place)
    (hlinks : ∀ names target, t.get? names ≠ some (.link target)) :
    place = names.foldl descend directory := by
  induction h with
  | here down => exact (if_neg down).symm
  | dots _ ih => exact ih
  | down down _ _ ih => rw [ih, List.foldl_cons, descend, if_neg down]
  | link _ entry _ _ => exact absurd entry (hlinks _ _)

/-! ### Trees that are filled -/

/-- `t'` is `t` with new directories where there was nothing, and with new or other files. -/
structure Filled (t t' : FileTree) : Prop where
  home : t'.home = t.home
  entry : ∀ names, t'.get? names = t.get? names ∨
    t.get? names = none ∧ t'.get? names = some .directory ∨
      ∃ content mode, t'.get? names = some (.file content mode)

theorem Grown.filled (h : Grown t t' place) : Filled t t' where
  home := h.home
  entry names := (h.entry names).imp_right fun ⟨hnone, hdirectory, _⟩ => .inl ⟨hnone, hdirectory⟩

theorem Placed.filled (h : Placed t t' spot) (hhome : t'.home = t.home) : Filled t t' where
  home := hhome
  entry names := by
    by_cases hspot : names = spot
    · exact .inr (.inr (hspot ▸ h.file))
    · exact (h.other names hspot).imp_right fun ⟨hnone, hdirectory, _⟩ => .inl ⟨hnone, hdirectory⟩

/-- `LeadsTo` in a `Filled` tree held before: there are no new links, and no way leads through a
file. -/
theorem LeadsTo.of_filled (h : t'.LeadsTo directory names place) (hfilled : Filled t t') :
    t.LeadsTo directory names place := by
  induction h with
  | here down => exact .here down
  | dots _ ih => exact .dots ih
  | @down directory rest place name down entry _ ih =>
    refine .down down (fun e he => ?_) ih
    rcases hfilled.entry (directory ++ [name]) with hsame | ⟨hnone, -⟩ | ⟨content, mode, hfile⟩
    · exact entry e (hsame.trans he)
    · rw [hnone] at he
      cases he
    · cases entry _ hfile
  | @link directory rest place name target down entry _ ih =>
    refine .link down ?_ ih
    rcases hfilled.entry (directory ++ [name]) with hsame | ⟨-, hdirectory⟩ | ⟨content, mode, hfile⟩
    · rw [← hsame, entry]
    · rw [entry] at hdirectory
      cases hdirectory
    · rw [entry] at hfile
      cases hfile

/-! ### Paths that meet -/

/-- The names of `path` lead to `place`. -/
def Leads (t : FileTree) (path : String) (place : List String) : Prop :=
  t.LeadsTo (t.start (Path.isRooted path)) (Path.names path) place

/-- `path` and `other` lead to a common place. -/
def Meet (t : FileTree) (path other : String) : Prop :=
  ∃ place, t.Leads path place ∧ t.Leads other place

theorem Leads.of_filled (h : t'.Leads path place) (hfilled : Filled t t') : t.Leads path place := by
  unfold Leads start at h ⊢
  rw [hfilled.home] at h
  exact LeadsTo.of_filled h hfilled

theorem Meet.of_filled (h : t'.Meet path other) (hfilled : Filled t t') : t.Meet path other :=
  let ⟨place, hpath, hother⟩ := h
  ⟨place, hpath.of_filled hfilled, hother.of_filled hfilled⟩

/-- In a tree without links, paths that `Meet` have the same `placeOf`. -/
theorem Meet.placeOf_eq (h : t.Meet path other)
    (hlinks : ∀ names target, t.get? names ≠ some (.link target)) :
    t.placeOf path = t.placeOf other :=
  let ⟨_, hpath, hother⟩ := h
  (LeadsTo.eq_foldl hpath hlinks).symm.trans (LeadsTo.eq_foldl hother hlinks)

/-! ### Files that are kept -/

theorem find_of_ne_empty {follow : Bool} (hpath : path.isEmpty = false) :
    t.find follow path =
      t.locate follow maxLinks (t.start (Path.isRooted path)) (Path.names path) := by
  unfold find
  rw [if_neg (by simp [hpath])]
  rfl

theorem isEmpty_of_find {follow : Bool} {found : Place} (h : t.find follow path = .ok found) :
    path.isEmpty = false := by
  rw [← Bool.not_eq_true]
  intro hempty
  unfold find at h
  rw [if_pos hempty] at h
  cases h

/-- If `find` finds a file, the names of the path `Reaches` it. -/
theorem reaches_of_find {mode : Nat}
    (h : t.find true path = .ok (.taken place (.file content mode))) :
    t.Reaches maxLinks (t.start (Path.isRooted path)) (Path.names path) place ∧
      t.get? place = some (.file content mode) := by
  rw [find_of_ne_empty (isEmpty_of_find h)] at h
  exact reaches_of_locate h

/-- What `read` reads is a file that `find` finds. -/
theorem find_of_read (h : t.read path = .ok content) :
    ∃ place mode, t.find true path = .ok (.taken place (.file content mode)) := by
  unfold read at h
  split at h
  · rename_i place found mode hfind
    cases h
    exact ⟨place, mode, hfind⟩
  · cases h
  · cases h
  · cases h

/-- **A file at `path` is kept** if another one is `Placed` at `other`, which does not `Meet` it and
led to no directory. -/
theorem Placed.read_eq {stored : ByteArray} {mode : Nat} (h : Placed t t' spot)
    (hwell : t.WellFormed) (hhome : t'.home = t.home)
    (hfind : t'.find true other = .ok (.taken spot (.file stored mode)))
    (hold : ∀ d, t.find true other ≠ .ok (.taken d .directory))
    (hlinks : t.find true other ≠ .error .tooManyLinks)
    (hread : t.read path = .ok content) (hmeet : ¬ t'.Meet path other) :
    t'.read path = .ok content := by
  have hstart := start_eq_of_home hhome
  obtain ⟨place, mode, hplace⟩ := find_of_read hread
  have hpath := isEmpty_of_find hplace
  obtain ⟨hreaches, hentry⟩ := reaches_of_find hplace
  rw [find_of_ne_empty (isEmpty_of_find hfind)] at hold hlinks
  have hother := (reaches_of_find hfind).1
  rw [hstart] at hother
  have hspot := h.ne_directory hwell hother hold
  have hway := h.noThroughway hwell hother hold hlinks
  rcases h.reaches hspot hway hreaches with ⟨hkept, hne⟩ | hmoved
  · unfold read
    rw [find_of_ne_empty hpath, hstart, hkept.locate_eq (h.get?_eq hne hentry)]
  · refine absurd ⟨spot, ?_, ?_⟩ hmeet
    · rw [Leads, hstart]
      exact hmoved.leadsTo
    · rw [Leads, hstart]
      exact hother.leadsTo

theorem Reaches.of_grown {further : List String} (h : t.Reaches links directory names place)
    (hgrown : Grown t t' further) : t'.Reaches links directory names place := by
  induction h with
  | file plain entry => exact .file plain (hgrown.entry_of_eq_some entry)
  | dots _ ih => exact .dots ih
  | down plain entry _ ih => exact .down plain (hgrown.entry_of_eq_some entry) ih
  | link plain entry _ ih => exact .link plain (hgrown.entry_of_eq_some entry) ih

/-- `Grown` keeps what is read. -/
theorem Grown.read_eq (h : Grown t t' place) (hread : t.read path = .ok content) :
    t'.read path = .ok content := by
  obtain ⟨found, mode, hfind⟩ := find_of_read hread
  obtain ⟨hreaches, hentry⟩ := reaches_of_find hfind
  unfold read
  rw [find_of_ne_empty (isEmpty_of_find hfind), h.start_eq,
    (hreaches.of_grown h).locate_eq (h.entry_of_eq_some hentry)]

/-! ### Paths to places that are known -/

theorem Evolved.reaches {t₀ : FileTree} {outputs : List (List String)}
    (hevolved : Evolved t₀ t outputs) (h : t₀.Reaches links directory names place)
    (hplace : place ∉ outputs) : t.Reaches links directory names place := by
  induction h with
  | file plain entry => exact .file plain (hevolved.get?_of_notMem entry hplace)
  | dots _ ih => exact .dots (ih hplace)
  | down plain entry _ ih =>
    exact .down plain (hevolved.get?_eq_some entry fun hclosed => hclosed.1 entry) (ih hplace)
  | link plain entry _ ih =>
    exact .link plain (hevolved.get?_eq_some entry fun hclosed => hclosed.2 _ entry) (ih hplace)

/-- The names of `path` are `Settled` at `place`, or `find` finds a file there. -/
def Stands (t : FileTree) (path : String) (place : List String) : Prop :=
  t.Settled (Path.isRooted path) (Path.names path) place ∨
    t.Reaches maxLinks (t.start (Path.isRooted path)) (Path.names path) place

/-- **`Evolved` does not change what is read at a path that `Stands` for a place `Apart` from all
`outputs`.** -/
theorem Evolved.read_eq_of_stands {t₀ : FileTree} {rooted : Bool} {outputs : List (List String)}
    (h : Evolved t₀ t outputs) (hwell : t₀.WellFormed) (hnames : ∀ n ∈ names, Path.IsName n)
    (hstands : t₀.Stands (Path.ofNames rooted names) place)
    (hapart : ∀ output ∈ outputs, Apart output place) :
    t.read (Path.ofNames rooted names) = t₀.read (Path.ofNames rooted names) := by
  rw [Stands, Path.isRooted_ofNames hnames, Path.names_ofNames hnames] at hstands
  rcases hstands with hsettled | hreaches
  · exact h.read_eq hwell hnames hsettled hapart
  · have hplace : place ∉ outputs := fun hmem =>
      (hapart place hmem).1 (List.prefix_refl place)
    obtain ⟨content, mode, hfile⟩ := hreaches.exists_file
    unfold read
    rw [find_ofNames hnames, find_ofNames hnames, hreaches.locate_eq hfile,
      start_eq_of_home h.home,
      (h.reaches hreaches hplace).locate_eq (h.get?_of_notMem hfile hplace)]

end SchemaPress.FileTree
