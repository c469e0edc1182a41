import Mathlib.Data.List.Basic
import Mathlib.Data.List.Induction
import SchemaPress.Files.Tree

/-!
# What lies where in a tree

`get?_put` and `get?_erase` say what a tree holds after a change.  A tree is `WellFormed` if
everything in it lies in a directory; changes that put things into directories and take no
directory away keep it so.  A tree is `Grown` out of another one towards a place if all it has more
is directories on the way to that place.
-/

namespace SchemaPress.FileTree

variable {t t' t'' : FileTree} {names place : List String} {entry : FileEntry}

/-! ### Looking up entries -/

@[simp] theorem get?_nil (t : FileTree) : t.get? [] = some .directory := rfl

theorem get?_of_ne_nil (t : FileTree) (h : names ≠ []) :
    t.get? names = t.entries.lookup names := by
  unfold get?
  rw [List.isEmpty_eq_false_iff.2 h]
  rfl

theorem lookup_map_put (entries : List (List String × FileEntry)) (place : List String) :
    (entries.map fun e => if e.1 = names then (names, entry) else e).lookup place =
      if place = names then (entries.lookup place).map fun _ => entry
      else entries.lookup place := by
  induction entries with
  | nil => simp
  | cons e rest ih =>
    obtain ⟨key, value⟩ := e
    rw [List.map_cons]
    rcases eq_or_ne key names with rfl | hkey <;> rcases eq_or_ne place key with rfl | hplace
    · simp
    · simp [List.lookup_cons, ih, hplace, beq_false_of_ne hplace]
    · simp [hkey]
    · simp [List.lookup_cons, ih, hkey, beq_false_of_ne hplace]

theorem lookup_filter_ne (entries : List (List String × FileEntry)) (place : List String) :
    (entries.filter fun e => e.1 != names).lookup place =
      if place = names then none else entries.lookup place := by
  induction entries with
  | nil => simp
  | cons e rest ih =>
    obtain ⟨key, value⟩ := e
    rcases eq_or_ne key names with rfl | hkey <;> rcases eq_or_ne place key with rfl | hplace
    · simp [ih]
    · simp [List.lookup_cons, ih, hplace, beq_false_of_ne hplace]
    · simp [hkey]
    · simp [List.lookup_cons, ih, hkey, beq_false_of_ne hplace]

theorem get?_put (t : FileTree) (h : names ≠ []) (entry : FileEntry) (place : List String) :
    (t.put names entry).get? place = if place = names then some entry else t.get? place := by
  rcases eq_or_ne place [] with rfl | hplace
  · rw [if_neg (Ne.symm h)]
    rfl
  rw [get?_of_ne_nil _ hplace, get?_of_ne_nil _ hplace]
  unfold put
  simp only [beq_iff_eq]
  split_ifs with hany hname hname
  · subst hname
    obtain ⟨old, hold⟩ : ∃ old, t.entries.lookup place = some old := by
      obtain ⟨e, he, hkey⟩ := List.any_eq_true.1 hany
      rw [← Option.isSome_iff_exists, List.lookup_isSome_iff]
      exact ⟨e, he, by rwa [BEq.comm]⟩
    rw [lookup_map_put, if_pos rfl, hold, Option.map_some]
  · rw [lookup_map_put, if_neg hname]
  · subst hname
    have hnone : t.entries.lookup place = none := by
      rw [List.lookup_eq_none_iff]
      intro e he
      rw [bne_iff_ne]
      rintro rfl
      exact hany (List.any_eq_true.2 ⟨e, he, BEq.rfl⟩)
    simp [List.lookup_append, hnone]
  · simp [List.lookup_append, List.lookup_cons, beq_false_of_ne hname]

theorem get?_erase (t : FileTree) (h : names ≠ []) (place : List String) :
    (t.erase names).get? place = if place = names then none else t.get? place := by
  rcases eq_or_ne place [] with rfl | hplace
  · rw [if_neg (Ne.symm h)]
    rfl
  rw [get?_of_ne_nil _ hplace, get?_of_ne_nil _ hplace]
  exact lookup_filter_ne t.entries place

@[simp] theorem home_put (t : FileTree) (names : List String) (entry : FileEntry) :
    (t.put names entry).home = t.home := by
  unfold put
  split <;> rfl

@[simp] theorem home_erase (t : FileTree) (names : List String) :
    (t.erase names).home = t.home := rfl

/-! ### Trees in which everything lies in a directory -/

/-- Every entry lies in a directory, and there is one at `home`. -/
structure WellFormed (t : FileTree) : Prop where
  parent : ∀ directory name entry, t.get? (directory ++ [name]) = some entry →
    t.get? directory = some .directory
  home : t.get? t.home = some .directory

theorem wellFormed_of_entries
    (h : ∀ e ∈ t.entries, e.1 ≠ [] → t.get? e.1.dropLast = some .directory)
    (hhome : t.get? t.home = some .directory) : t.WellFormed := by
  refine ⟨?_, hhome⟩
  intro directory name entry hentry
  rw [get?_of_ne_nil _ (by simp), List.lookup_eq_some_iff] at hentry
  obtain ⟨before, after, hentries, -⟩ := hentry
  have hparent := h (directory ++ [name], entry) (by rw [hentries]; simp) (by simp)
  rwa [List.dropLast_concat] at hparent

/-- Nothing lies below a place where nothing lies. -/
theorem WellFormed.below_vacant (h : t.WellFormed) (hplace : t.get? place = none)
    (more : List String) : t.get? (place ++ more) = none := by
  induction more using List.reverseRecOn with
  | nil => rwa [List.append_nil]
  | append_singleton init last ih =>
    rw [Option.eq_none_iff_forall_ne_some]
    intro entry hentry
    rw [← List.append_assoc] at hentry
    have hdirectory := h.parent _ _ _ hentry
    rw [ih] at hdirectory
    cases hdirectory

/-- On the way to an entry of a well-formed tree there are directories. -/
theorem WellFormed.get?_front (h : t.WellFormed) {front more : List String}
    (hentry : t.get? (front ++ more) = some entry) (hmore : more ≠ []) :
    t.get? front = some .directory := by
  induction more using List.reverseRecOn generalizing entry with
  | nil => exact absurd rfl hmore
  | append_singleton init last ih =>
    rw [← List.append_assoc] at hentry
    have hparent := h.parent _ _ _ hentry
    rcases eq_or_ne init [] with rfl | hinit
    · rwa [List.append_nil] at hparent
    · exact ih hparent hinit

/-- A change keeps `WellFormed` if it keeps `home` and all directories, and puts entries only into
directories of `t`. -/
theorem WellFormed.change (h : t.WellFormed) (hhome : t'.home = t.home)
    (hkeep : ∀ place, t.get? place = some .directory → t'.get? place = some .directory)
    (hnew : ∀ directory name entry, t'.get? (directory ++ [name]) = some entry →
      t.get? directory = some .directory) : t'.WellFormed := by
  refine ⟨fun directory name entry hentry => hkeep _ (hnew directory name entry hentry), ?_⟩
  rw [hhome]
  exact hkeep _ h.home

theorem WellFormed.put (h : t.WellFormed) {directory : List String} {name : String}
    (hdirectory : t.get? directory = some .directory)
    (hold : t.get? (directory ++ [name]) ≠ some .directory) (entry : FileEntry) :
    (t.put (directory ++ [name]) entry).WellFormed := by
  have hne : directory ++ [name] ≠ [] := by simp
  refine h.change (home_put _ _ _) ?_ ?_
  · intro place hplace
    rw [get?_put _ hne, if_neg, hplace]
    rintro rfl
    exact hold hplace
  · intro above last e he
    rw [get?_put _ hne] at he
    split_ifs at he with hplace
    · obtain ⟨rfl, -⟩ := List.append_inj' hplace rfl
      exact hdirectory
    · exact h.parent _ _ _ he

theorem WellFormed.erase (h : t.WellFormed) (hne : names ≠ [])
    (hold : t.get? names ≠ some .directory) : (t.erase names).WellFormed := by
  refine h.change (home_erase _ _) ?_ ?_
  · intro place hplace
    rw [get?_erase _ hne, if_neg, hplace]
    rintro rfl
    exact hold hplace
  · intro above last e he
    rw [get?_erase _ hne] at he
    split_ifs at he
    exact h.parent _ _ _ he

/-! ### Trees with new directories -/

/-- `t'` is `t` with new directories at prefixes of `place`, where there was nothing. -/
structure Grown (t t' : FileTree) (place : List String) : Prop where
  home : t'.home = t.home
  entry : ∀ names, t'.get? names = t.get? names ∨
    t.get? names = none ∧ t'.get? names = some .directory ∧ names <+: place

theorem Grown.refl (t : FileTree) (place : List String) : Grown t t place :=
  ⟨rfl, fun _ => .inl rfl⟩

theorem Grown.trans (h : Grown t t' place) (h' : Grown t' t'' place) : Grown t t'' place := by
  refine ⟨h'.home.trans h.home, fun names => ?_⟩
  rcases h.entry names with hsame | ⟨hnone, hdirectory, hprefix⟩ <;>
    rcases h'.entry names with hsame' | ⟨hnone', hdirectory', hprefix'⟩
  · exact .inl (hsame'.trans hsame)
  · exact .inr ⟨hsame ▸ hnone', hdirectory', hprefix'⟩
  · exact .inr ⟨hnone, hsame'.trans hdirectory, hprefix⟩
  · exact .inr ⟨hnone, hdirectory', hprefix'⟩

theorem Grown.weaken {further : List String} (h : Grown t t' place) (hplace : place <+: further) :
    Grown t t' further :=
  ⟨h.home, fun names => (h.entry names).imp_right fun ⟨hnone, hdirectory, hprefix⟩ =>
    ⟨hnone, hdirectory, hprefix.trans hplace⟩⟩

theorem Grown.put_directory (hne : names ≠ []) (hvacant : t.get? names = none) :
    Grown t (t.put names .directory) names := by
  refine ⟨home_put _ _ _, fun other => ?_⟩
  rw [get?_put _ hne]
  split_ifs with hname
  · subst hname
    exact .inr ⟨hvacant, rfl, List.prefix_refl _⟩
  · exact .inl rfl

theorem Grown.entry_of_eq_some (h : Grown t t' place) (hentry : t.get? names = some entry) :
    t'.get? names = some entry := by
  rcases h.entry names with hsame | ⟨hnone, -, -⟩
  · rw [hsame, hentry]
  · rw [hentry] at hnone
    cases hnone

end SchemaPress.FileTree
