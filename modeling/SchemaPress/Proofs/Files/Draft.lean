import SchemaPress.Proofs.Decimal.Notation
import SchemaPress.Proofs.Files.Directories

/-!
# Drafts

A draft is made in a directory under a name that is free there (`createDraft_eq_ok`), if there is
one (`createDraft_isOk`, `createDraft_of_inUse`).  To fill it, to change its mode and to move it are
changes at its own place and at the place it is moved to (`Walk.write_eq`, `Walk.setMode_eq`,
`Walk.rename_eq`).

When the file at the end of a walk is replaced, the walk still leads there (`Walk.replace`).
-/

namespace SchemaPress.FileTree

variable {t t' : FileTree} {follow rooted : Bool} {links : Nat} {mode : Nat}
  {directory names : List String} {name stem ending : String} {content : ByteArray}

/-! ### Files at the end of a walk -/

theorem Walk.find_child (hwalk : t.Walk maxLinks (t.start rooted) names links directory)
    (hnames : ∀ n ∈ names, Path.IsName n) (hname : Path.IsName name) :
    t.find follow (Path.ofNames rooted names ++ "/" ++ name) =
      t.locate follow links directory [name] := by
  have hne : Path.ofNames rooted names ≠ "" := Path.ofNames_ne_empty hnames
  unfold find
  rw [String.append_assoc, Path.isRooted_append hne, Path.isRooted_ofNames hnames,
    ← String.append_assoc, Path.names_append_slash, Path.names_ofNames hnames,
    Path.names_singleton hname, if_neg (by simp)]
  exact hwalk.locate_append (.inl (by simp))

theorem Plain.locate_file (h : Plain name)
    (hentry : t.get? (directory ++ [name]) = some (.file content mode)) :
    t.locate follow links directory [name] =
      .ok (.taken (directory ++ [name]) (.file content mode)) := by
  rw [h.locate_cons, hentry]
  rfl

/-- `locate` of one name, without following a link there. -/
theorem Plain.locate_last (h : Plain name) :
    t.locate false links directory [name] =
      match t.get? (directory ++ [name]) with
      | none => .ok (.vacant (directory ++ [name]))
      | some entry => .ok (.taken (directory ++ [name]) entry) := by
  rw [h.locate_cons]
  rcases t.get? (directory ++ [name]) with _ | ⟨_ | _ | _⟩
  · rfl
  · rfl
  · exact locate_nil
  · rfl

/-- `put` of a file where there is a file or nothing keeps every `Walk`. -/
theorem Walk.put_file {place : List String} {links' : Nat} {directory' : List String}
    (hwalk : t.Walk links directory names links' directory') (hplace : place ≠ [])
    (hold : t.get? place = none ∨ ∃ old mode, t.get? place = some (.file old mode))
    (entry : FileEntry) : (t.put place entry).Walk links directory names links' directory' := by
  -- There is neither a directory nor a link at the place, and a walk looks at nothing else.
  refine hwalk.mono ?_ ?_
  all_goals
    intros
    rw [get?_put _ hplace, if_neg]
    · assumption
    · rintro rfl
      rcases hold with hold | ⟨old, mode, hold⟩ <;> simp_all

/-- Replacing what lies at `directory ++ [name]` keeps the `Walk` to `directory`, even if it is a
link: the walk does not go through it, since the link would lead to a directory. -/
theorem Walk.replace (hwalk : t.Walk maxLinks (t.start rooted) names links directory)
    (hplain : Plain name)
    (hfile : ∀ place, t.locate true links directory [name] ≠ .ok (.taken place .directory))
    (hlinks : t.locate true links directory [name] ≠ .error .tooManyLinks)
    (hsame : ∀ place, place ≠ directory ++ [name] → t'.get? place = t.get? place) :
    t'.Walk maxLinks (t.start rooted) names links directory := by
  have hmono (h : ∀ place, t.get? place = some .directory ∨
      (∃ target, t.get? place = some (.link target)) → place ≠ directory ++ [name]) :
      t'.Walk maxLinks (t.start rooted) names links directory := by
    refine hwalk.mono ?_ ?_
    · intro place hplace
      rw [hsame _ (h _ (.inl hplace)), hplace]
    · intro place target hplace
      rw [hsame _ (h _ (.inr ⟨_, hplace⟩)), hplace]
  cases hentry : t.get? (directory ++ [name]) with
  | none => exact hmono (by rintro _ h rfl; simp [hentry] at h)
  | some entry =>
    cases entry with
    | file content mode => exact hmono (by rintro _ h rfl; simp [hentry] at h)
    | directory =>
      refine absurd ?_ (hfile (directory ++ [name]))
      rw [hplain.locate_cons, hentry]
      exact locate_nil
    | link target =>
      rcases hwalk.mono_of_link hentry hsame with h | ⟨k, rest, h⟩
      · exact h
      -- The walk has gone through the link, so looking up the file has led to a directory.
      obtain ⟨k', d', htarget⟩ := h.of_append
      rw [hplain.locate_cons, hentry] at hfile hlinks
      dsimp only at hfile hlinks
      rw [Bool.not_true, Bool.and_false] at hfile hlinks
      cases links with
      | zero => exact absurd rfl hlinks
      | succ j =>
        rcases htarget.locate_eq j with hj | hj
        · refine absurd ?_ (hfile d')
          simpa using hj
        · refine absurd ?_ hlinks
          simpa using hj

/-! ### Making drafts -/

/-- All names that `createDraft` tries are `Plain`. -/
def AreDraftNames (stem ending : String) : Prop :=
  ∀ n < maxDrafts, Path.IsName (draftName stem ending n) ∧ Plain (draftName stem ending n)

theorem createDraft_eq_ok (hwalk : t.Walk maxLinks (t.start rooted) names links directory)
    (hnames : ∀ n ∈ names, Path.IsName n) (hdraft : AreDraftNames stem ending) {path : String}
    (h : t.createDraft (Path.ofNames rooted names) stem ending = .ok (t', path)) :
    ∃ n < maxDrafts, path = Path.ofNames rooted names ++ "/" ++ draftName stem ending n ∧
      t.get? (directory ++ [draftName stem ending n]) = none ∧
      t' = t.put (directory ++ [draftName stem ending n]) (.file .empty ownerOnly) := by
  unfold createDraft at h
  dsimp only at h
  split at h
  · rename_i draft hsome
    cases h
    obtain ⟨n, hn, hfree⟩ := List.exists_of_findSome?_eq_some hsome
    rw [List.mem_range] at hn
    obtain ⟨hname, hplain⟩ := hdraft n hn
    rw [hwalk.find_child hnames hname, hplain.locate_last] at hfree
    refine ⟨n, hn, ?_⟩
    cases hentry : t.get? (directory ++ [draftName stem ending n]) with
    | none =>
      rw [hentry] at hfree
      cases hfree
      exact ⟨rfl, rfl, rfl⟩
    | some entry =>
      rw [hentry] at hfree
      cases hfree
  · split at h <;> cases h

/-- `createDraft` succeeds if one of the names is free. -/
theorem createDraft_isOk (hwalk : t.Walk maxLinks (t.start rooted) names links directory)
    (hnames : ∀ n ∈ names, Path.IsName n) (hdraft : AreDraftNames stem ending) {n : Nat}
    (hn : n < maxDrafts) (hfree : t.get? (directory ++ [draftName stem ending n]) = none) :
    ∃ draft, t.createDraft (Path.ofNames rooted names) stem ending = .ok draft := by
  unfold createDraft
  dsimp only
  split
  · exact ⟨_, rfl⟩
  · rename_i hnone
    obtain ⟨hname, hplain⟩ := hdraft n hn
    have hfound := List.findSome?_eq_none_iff.1 hnone n (List.mem_range.2 hn)
    rw [hwalk.find_child hnames hname, hplain.locate_last, hfree] at hfound
    cases hfound

/-- `createDraft` fails if all names are in use. -/
theorem createDraft_of_inUse (hwalk : t.Walk maxLinks (t.start rooted) names links directory)
    (hnames : ∀ n ∈ names, Path.IsName n) (hdraft : AreDraftNames stem ending)
    (hused : ∀ n < maxDrafts, t.get? (directory ++ [draftName stem ending n]) ≠ none) :
    t.createDraft (Path.ofNames rooted names) stem ending =
      .error ⟨"createtemp", Path.ofNames rooted names ++ "/" ++ stem ++ "*" ++ ending, .inUse⟩ := by
  have hfound {n : Nat} (hn : n < maxDrafts) : ∃ entry,
      t.find false (Path.ofNames rooted names ++ "/" ++ draftName stem ending n) =
        .ok (.taken (directory ++ [draftName stem ending n]) entry) := by
    obtain ⟨hname, hplain⟩ := hdraft n hn
    obtain ⟨entry, hentry⟩ := Option.ne_none_iff_exists'.1 (hused n hn)
    exact ⟨entry, by rw [hwalk.find_child hnames hname, hplain.locate_last, hentry]⟩
  unfold createDraft
  dsimp only
  rw [List.findSome?_eq_none_iff.2]
  · obtain ⟨entry, hzero⟩ := hfound (n := 0) (by decide)
    rw [hzero]
  · intro n hn
    obtain ⟨entry, htaken⟩ := hfound (List.mem_range.1 hn)
    rw [htaken]

/-! ### Filling and moving drafts -/

theorem Walk.write_eq (hwalk : t.Walk maxLinks (t.start rooted) names links directory)
    (hnames : ∀ n ∈ names, Path.IsName n) (hname : Path.IsName name) (hplain : Plain name)
    (hentry : t.get? (directory ++ [name]) = some (.file content mode)) (new : ByteArray)
    (newMode : Nat) : t.write (Path.ofNames rooted names ++ "/" ++ name) new newMode =
      .ok (t.put (directory ++ [name]) (.file new mode)) := by
  unfold write
  rw [hwalk.find_child hnames hname, hplain.locate_file hentry]

theorem Walk.setMode_eq (hwalk : t.Walk maxLinks (t.start rooted) names links directory)
    (hnames : ∀ n ∈ names, Path.IsName n) (hname : Path.IsName name) (hplain : Plain name)
    (hentry : t.get? (directory ++ [name]) = some (.file content mode)) (newMode : Nat) :
    t.setMode (Path.ofNames rooted names ++ "/" ++ name) newMode =
      .ok (t.put (directory ++ [name]) (.file content newMode)) := by
  unfold setMode
  rw [hwalk.find_child hnames hname, hplain.locate_file hentry]

theorem Walk.rename_eq {target : String}
    (hwalk : t.Walk maxLinks (t.start rooted) names links directory)
    (hnames : ∀ n ∈ names ++ [target], Path.IsName n) (hname : Path.IsName name)
    (hplain : Plain name) (htarget : Plain target)
    (hentry : t.get? (directory ++ [name]) = some (.file content mode))
    (hold : t.get? (directory ++ [target]) ≠ some .directory) :
    t.rename (Path.ofNames rooted names ++ "/" ++ name) (Path.ofNames rooted (names ++ [target])) =
      .ok ((t.erase (directory ++ [name])).put (directory ++ [target]) (.file content mode)) := by
  unfold rename
  rw [hwalk.find_child (fun n hn => hnames n (List.mem_append_left _ hn)) hname,
    hplain.locate_file hentry, hwalk.find_concat hnames, htarget.locate_last]
  rcases hlast : t.get? (directory ++ [target]) with _ | ⟨_ | _ | _⟩
  · rfl
  · rfl
  · exact absurd hlast hold
  · rfl

end SchemaPress.FileTree
