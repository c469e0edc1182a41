import SchemaPress.Proofs.Files.Draft

/-!
# Paths that lead to files

`Reaches t k d ns p` says that the names `ns` lead from the directory `d` to a file at the place
`p`, through at most `k` links; it is what `locate` finds (`reaches_of_locate`,
`Reaches.locate_eq`).

When a file is put somewhere, paths that lead to files still lead there, except those that now lead
to this one (`Placed.reaches`).  That holds with links, too: the file may take the place of a link,
but then the link led to a file, or nowhere, so that no path goes through it
(`Placed.noThroughway`).
-/

namespace SchemaPress.FileTree

variable {t t' : FileTree} {links links' : Nat} {mode : Nat}
  {directory names place front rest : List String} {name target path : String}
  {content : ByteArray}

/-- `Reaches t links directory names place`: from `directory`, the `names` lead to the file at
`place`, through at most `links` links. -/
inductive Reaches (t : FileTree) : Nat → List String → List String → List String → Prop
  | file {links : Nat} {directory : List String} {name : String} {content : ByteArray} {mode : Nat}
      (plain : Plain name) (entry : t.get? (directory ++ [name]) = some (.file content mode)) :
      Reaches t links directory [name] (directory ++ [name])
  | dots {links : Nat} {directory rest place : List String}
      (next : Reaches t links directory.dropLast rest place) :
      Reaches t links directory (".." :: rest) place
  | down {links : Nat} {directory rest place : List String} {name : String}
      (plain : Plain name) (entry : t.get? (directory ++ [name]) = some .directory)
      (next : Reaches t links (directory ++ [name]) rest place) :
      Reaches t links directory (name :: rest) place
  | link {links : Nat} {directory rest place : List String} {name target : String}
      (plain : Plain name) (entry : t.get? (directory ++ [name]) = some (.link target))
      (next : Reaches t links (linkStart directory target) (Path.names target ++ rest) place) :
      Reaches t (links + 1) directory (name :: rest) place

/-! ### Reaching a file and `locate` -/

theorem Reaches.exists_file (h : t.Reaches links directory names place) :
    ∃ content mode, t.get? place = some (.file content mode) := by
  induction h with
  | file _ entry => exact ⟨_, _, entry⟩
  | dots _ ih => exact ih
  | down _ _ _ ih => exact ih
  | link _ _ _ ih => exact ih

theorem Reaches.locate_eq (h : t.Reaches links directory names place)
    (hentry : t.get? place = some (.file content mode)) :
    t.locate true links directory names = .ok (.taken place (.file content mode)) := by
  induction h with
  | file plain _ => exact plain.locate_file hentry
  | dots _ ih => rw [locate_dots, ih hentry]
  | down plain entry _ ih => rw [plain.locate_cons, entry]; exact ih hentry
  | link plain entry _ ih =>
    rw [plain.locate_cons, entry]
    dsimp only
    rw [Bool.not_true, Bool.and_false]
    exact ih hentry

theorem reaches_of_locate
    (h : t.locate true links directory names = .ok (.taken place (.file content mode))) :
    t.Reaches links directory names place ∧ t.get? place = some (.file content mode) := by
  -- A followed link lowers the number of links, any other name shortens the names.
  induction links using Nat.strongRecOn generalizing directory names with
  | _ links ihlinks =>
    induction names generalizing directory with
    | nil =>
      rw [locate_nil] at h
      cases h
    | cons name rest ih =>
      by_cases hdots : name = ".."
      · subst hdots
        rw [locate_dots] at h
        exact (ih h).imp_left .dots
      by_cases hsize : maxNameSize < name.utf8ByteSize
      · rw [locate_long hdots hsize] at h
        cases h
      have hplain : Plain name := ⟨hdots, Nat.not_lt.1 hsize⟩
      rw [hplain.locate_cons] at h
      cases hentry : t.get? (directory ++ [name]) with
      | none =>
        rw [hentry] at h
        dsimp only at h
        split_ifs at h
        cases h
      | some entry =>
        rw [hentry] at h
        cases entry with
        | file content mode =>
          cases rest with
          | nil =>
            cases h
            exact ⟨.file hplain hentry, hentry⟩
          | cons next more => cases h
        | directory => exact (ih h).imp_left (.down hplain hentry)
        | link target =>
          dsimp only at h
          rw [Bool.not_true, Bool.and_false] at h
          cases links with
          | zero => cases h
          | succ k => exact (ihlinks k (Nat.lt_succ_self k) h).imp_left (.link hplain hentry)

/-- In front of further names, `Reaches` is a `Walk`. -/
theorem Reaches.walk_of_append (h : t.Reaches links directory (front ++ rest) place)
    (hrest : rest ≠ []) : ∃ k d, t.Walk links directory front k d := by
  generalize hall : front ++ rest = all at h
  induction h generalizing front with
  | @file links directory name _ _ _ _ =>
    cases front with
    | nil => exact ⟨links, directory, .nil _ _⟩
    | cons first more =>
      have hmore := (List.cons.inj hall).2
      exact absurd (List.append_eq_nil_iff.1 hmore).2 hrest
  | @dots links directory more place _ ih =>
    cases front with
    | nil => exact ⟨links, directory, .nil _ _⟩
    | cons first front =>
      obtain ⟨rfl, hmore⟩ := List.cons.inj hall
      obtain ⟨k, d, hwalk⟩ := ih hmore
      exact ⟨k, d, .dots hwalk⟩
  | @down links directory more place name plain entry _ ih =>
    cases front with
    | nil => exact ⟨links, directory, .nil _ _⟩
    | cons first front =>
      obtain ⟨rfl, hmore⟩ := List.cons.inj hall
      obtain ⟨k, d, hwalk⟩ := ih hmore
      exact ⟨k, d, .down plain entry hwalk⟩
  | @link links directory more place name target plain entry _ ih =>
    cases front with
    | nil => exact ⟨links + 1, directory, .nil _ _⟩
    | cons first front =>
      obtain ⟨rfl, hmore⟩ := List.cons.inj hall
      have hnext : (Path.names target ++ front) ++ rest = Path.names target ++ more := by
        rw [← hmore, List.append_assoc]
        rfl
      obtain ⟨k, d, hwalk⟩ := ih hnext
      exact ⟨k, d, .link plain entry hwalk⟩

/-! ### Paths when a file is put somewhere -/

/-- `t'` is `t` with a file at `place`, and possibly with new directories on the way to it. -/
structure Placed (t t' : FileTree) (place : List String) : Prop where
  file : ∃ content mode, t'.get? place = some (.file content mode)
  other : ∀ names, names ≠ place →
    t'.get? names = t.get? names ∨
      t.get? names = none ∧ t'.get? names = some .directory ∧ names <+: place

theorem Placed.get?_eq {entry : FileEntry} (h : Placed t t' place) (hne : names ≠ place)
    (hentry : t.get? names = some entry) : t'.get? names = some entry := by
  rcases h.other names hne with hsame | ⟨hnone, -⟩
  · rw [hsame, hentry]
  · rw [hentry] at hnone
    cases hnone

/-- If something lay at `place`, nothing else has changed. -/
theorem Placed.get?_eq_of_taken {entry : FileEntry} (h : Placed t t' place) (hwell : t.WellFormed)
    (hentry : t.get? place = some entry) (hne : names ≠ place) :
    t'.get? names = t.get? names := by
  rcases h.other names hne with hsame | ⟨hnone, -, more, rfl⟩
  · exact hsame
  · rw [hwell.get?_front hentry (by simpa using hne)] at hnone
    cases hnone

/-- If something lay at `place`, names that reach it in `t'` end with its last name, and `locate` in
`t` comes to that name, too. -/
theorem Placed.locate_last {entry : FileEntry} (h : Placed t t' place) (hwell : t.WellFormed)
    (hentry : t.get? place = some entry) (hreaches : t'.Reaches links directory names place) :
    ∃ inside name k, place = inside ++ [name] ∧ Plain name ∧
      t.locate true links directory names = t.locate true k inside [name] := by
  obtain ⟨content, mode, hfile⟩ := h.file
  have hsame {names : List String} {entry : FileEntry} (hentry' : t'.get? names = some entry)
      (hother : entry ≠ .file content mode) : t.get? names = some entry := by
    rw [← hentry', h.get?_eq_of_taken hwell hentry]
    rintro rfl
    rw [hfile] at hentry'
    exact hother (Option.some.inj hentry').symm
  clear h hentry hfile
  induction hreaches with
  | @file links directory name _ _ plain _ => exact ⟨directory, name, links, rfl, plain, rfl⟩
  | dots _ ih =>
    rw [locate_dots]
    exact ih
  | down plain entry _ ih =>
    rw [plain.locate_cons, hsame entry (by simp)]
    exact ih
  | link plain entry _ ih =>
    rw [plain.locate_cons, hsame entry (by simp)]
    dsimp only
    rw [Bool.not_true, Bool.and_false]
    exact ih

/-- No directory lay at `place`, if `locate` did not lead to one. -/
theorem Placed.ne_directory (h : Placed t t' place) (hwell : t.WellFormed)
    (hreaches : t'.Reaches links directory names place)
    (hfile : ∀ d, t.locate true links directory names ≠ .ok (.taken d .directory)) :
    t.get? place ≠ some .directory := by
  intro hdirectory
  obtain ⟨inside, name, k, rfl, hplain, hlast⟩ := h.locate_last hwell hdirectory hreaches
  rw [hplain.locate_cons, hdirectory] at hlast
  exact hfile _ (hlast.trans locate_nil)

/-- If a link lies at `place`, no names `Reaches` a file through it. -/
def NoThroughway (t : FileTree) (place : List String) : Prop :=
  ∀ inside name target, place = inside ++ [name] → t.get? place = some (.link target) →
    ∀ links rest end_, rest ≠ [] →
      ¬ t.Reaches links (linkStart inside target) (Path.names target ++ rest) end_

/-- `NoThroughway` holds at `place`, if `locate` did not lead to a directory there. -/
theorem Placed.noThroughway (h : Placed t t' place) (hwell : t.WellFormed)
    (hreaches : t'.Reaches links directory names place)
    (hfile : ∀ d, t.locate true links directory names ≠ .ok (.taken d .directory))
    (hlinks : t.locate true links directory names ≠ .error .tooManyLinks) :
    t.NoThroughway place := by
  rintro inside name target rfl hlink k rest end_ hrest hthrough
  obtain ⟨k', d, hwalk⟩ := hthrough.walk_of_append hrest
  obtain ⟨inside', name', j, hplace, hplain, hlast⟩ := h.locate_last hwell hlink hreaches
  obtain ⟨rfl, hname⟩ := List.append_inj' hplace rfl
  obtain rfl := List.singleton_inj.1 hname
  rw [hplain.locate_cons, hlink] at hlast
  dsimp only at hlast
  rw [Bool.not_true, Bool.and_false, List.append_nil] at hlast
  cases j with
  | zero => exact hlinks hlast
  | succ j =>
    rcases hwalk.locate_eq j with hdirectory | hlost
    · exact hfile d (hlast.trans hdirectory)
    · exact hlinks (hlast.trans hlost)

/-- Names that reach a file still reach it, or reach `spot`. -/
theorem Placed.reaches {spot : List String} (h : Placed t t' spot)
    (hspot : t.get? spot ≠ some .directory) (hway : t.NoThroughway spot)
    (hreaches : t.Reaches links directory names place) :
    t'.Reaches links directory names place ∧ place ≠ spot ∨
      t'.Reaches links directory names spot := by
  obtain ⟨content, mode, hfile⟩ := h.file
  induction hreaches with
  | @file links directory name _ _ plain entry =>
    by_cases hhere : directory ++ [name] = spot
    · subst hhere
      exact .inr (.file plain hfile)
    · exact .inl ⟨.file plain (h.get?_eq hhere entry), hhere⟩
  | dots _ ih => exact ih.imp (fun ⟨hnext, hne⟩ => ⟨.dots hnext, hne⟩) .dots
  | @down links directory rest place name plain entry _ ih =>
    have hentry := h.get?_eq (fun hhere => hspot (hhere ▸ entry)) entry
    exact ih.imp (fun ⟨hnext, hne⟩ => ⟨.down plain hentry hnext, hne⟩) (.down plain hentry)
  | @link links directory rest place name target plain entry next ih =>
    by_cases hhere : directory ++ [name] = spot
    · -- The link is gone, so the path ends here; it cannot have gone on.
      subst hhere
      rcases eq_or_ne rest [] with rfl | hrest
      · exact .inr (.file plain hfile)
      · exact absurd next (hway directory name target rfl entry links rest place hrest)
    · have hentry := h.get?_eq hhere entry
      exact ih.imp (fun ⟨hnext, hne⟩ => ⟨.link plain hentry hnext, hne⟩) (.link plain hentry)

end SchemaPress.FileTree
