import SchemaPress.Proofs.Files.Tree

/-!
# Walking through a tree

`Walk t k d ns k' d'` says that the names `ns` lead from the directory `d` to the directory `d'`, if
`k` links may be followed, of which `k'` are then left.  Whatever comes behind such names is looked
up from `d'` (`Walk.locate_append`), and a path that `locate` finds to be a directory is a walk
(`walk_of_locate`).

A walk only looks at directories and links, so that other changes of the tree do not touch it
(`Walk.mono`).  If just one link is changed, a walk that breaks has gone through that link, and the
target of the link is a directory (`Walk.mono_of_link`, `Walk.locate_eq`).
-/

namespace SchemaPress.FileTree

variable {t t' : FileTree} {follow : Bool} {links links' links'' : Nat}
  {directory directory' directory'' names more rest : List String} {name target : String}

/-! ### One name -/

/-- `name` is not `..` and has at most `maxNameSize` bytes. -/
structure Plain (name : String) : Prop where
  ne_dots : name ≠ ".."
  size_le : name.utf8ByteSize ≤ maxNameSize

/-- Where the target of a link in `directory` starts: at the root or in `directory`. -/
def linkStart (directory : List String) (target : String) : List String :=
  if Path.isRooted target then [] else directory

@[simp] theorem locate_nil :
    t.locate follow links directory [] = .ok (.taken directory .directory) := by
  cases links <;> rfl

@[simp] theorem locate_dots : t.locate follow links directory (".." :: rest) =
    t.locate follow links directory.dropLast rest := by
  cases links <;> rfl

theorem locate_long (hdots : name ≠ "..") (h : maxNameSize < name.utf8ByteSize) :
    t.locate follow links directory (name :: rest) = .error .nameTooLong := by
  cases links <;> rw [locate, locateUpTo, if_neg (by simpa using hdots), if_pos h]

theorem Plain.locate_cons (h : Plain name) :
    t.locate follow links directory (name :: rest) =
      match t.get? (directory ++ [name]) with
      | none => if rest.isEmpty then .ok (.vacant (directory ++ [name])) else .error .missing
      | some .directory => t.locate follow links (directory ++ [name]) rest
      | some (.file content mode) =>
        if rest.isEmpty then .ok (.taken (directory ++ [name]) (.file content mode))
        else .error .notDirectory
      | some (.link target) =>
        if rest.isEmpty && !follow then .ok (.taken (directory ++ [name]) (.link target))
        else
          match links with
          | 0 => .error .tooManyLinks
          | links + 1 =>
            t.locate follow links (linkStart directory target) (Path.names target ++ rest) := by
  have hdots : ¬ (name == "..") = true := by simpa using h.ne_dots
  cases links
  all_goals exact (if_neg hdots).trans (if_neg (Nat.not_lt.2 h.size_le))

/-! ### Walks -/

/-- `Walk t links directory names links' directory'`: the `names` lead from `directory` to
`directory'` through directories and links, and `links - links'` links are followed. -/
inductive Walk (t : FileTree) : Nat → List String → List String → Nat → List String → Prop
  | nil (links : Nat) (directory : List String) : Walk t links directory [] links directory
  | dots {links links' : Nat} {directory directory' rest : List String}
      (next : Walk t links directory.dropLast rest links' directory') :
      Walk t links directory (".." :: rest) links' directory'
  | down {links links' : Nat} {directory directory' rest : List String} {name : String}
      (plain : Plain name) (entry : t.get? (directory ++ [name]) = some .directory)
      (next : Walk t links (directory ++ [name]) rest links' directory') :
      Walk t links directory (name :: rest) links' directory'
  | link {links links' : Nat} {directory directory' rest : List String} {name target : String}
      (plain : Plain name) (entry : t.get? (directory ++ [name]) = some (.link target))
      (next : Walk t links (linkStart directory target) (Path.names target ++ rest) links'
        directory') :
      Walk t (links + 1) directory (name :: rest) links' directory'

theorem Walk.append (h : t.Walk links directory names links' directory')
    (h' : t.Walk links' directory' more links'' directory'') :
    t.Walk links directory (names ++ more) links'' directory'' := by
  induction h with
  | nil => exact h'
  | dots _ ih => exact .dots (ih h')
  | down plain entry _ ih => exact .down plain entry (ih h')
  | link plain entry _ ih =>
    refine .link plain entry ?_
    have hnext := ih h'
    rwa [List.append_assoc] at hnext

/-- The front of a `Walk` is a `Walk`. -/
theorem Walk.of_append (h : t.Walk links directory (names ++ more) links' directory') :
    ∃ k d, t.Walk links directory names k d := by
  generalize hall : names ++ more = all at h
  induction h generalizing names with
  | nil links directory =>
    obtain ⟨rfl, -⟩ := List.append_eq_nil_iff.1 hall
    exact ⟨links, directory, .nil _ _⟩
  | @dots links links' directory directory' rest _ ih =>
    cases names with
    | nil => exact ⟨links, directory, .nil _ _⟩
    | cons name front =>
      obtain ⟨rfl, hrest⟩ := List.cons.inj hall
      obtain ⟨k, d, h⟩ := ih hrest
      exact ⟨k, d, .dots h⟩
  | @down links links' directory directory' rest name plain entry _ ih =>
    cases names with
    | nil => exact ⟨links, directory, .nil _ _⟩
    | cons name front =>
      obtain ⟨rfl, hrest⟩ := List.cons.inj hall
      obtain ⟨k, d, h⟩ := ih hrest
      exact ⟨k, d, .down plain entry h⟩
  | @link links links' directory directory' rest name target plain entry _ ih =>
    cases names with
    | nil => exact ⟨links + 1, directory, .nil _ _⟩
    | cons name front =>
      obtain ⟨rfl, hrest⟩ := List.cons.inj hall
      have hnext : (Path.names target ++ front) ++ more = Path.names target ++ rest := by
        rw [← hrest, List.append_assoc]
        rfl
      obtain ⟨k, d, h⟩ := ih hnext
      exact ⟨k, d, .link plain entry h⟩

/-- A `Walk` that starts in a directory ends in one. -/
theorem Walk.get?_directory (hwell : t.WellFormed)
    (h : t.Walk links directory names links' directory')
    (hstart : t.get? directory = some .directory) : t.get? directory' = some .directory := by
  induction h with
  | nil => exact hstart
  | @dots links links' directory directory' rest _ ih =>
    apply ih
    rcases List.eq_nil_or_concat directory with rfl | ⟨init, last, rfl⟩
    · rfl
    · rw [List.concat_eq_append] at hstart ⊢
      rw [List.dropLast_concat]
      exact hwell.parent _ _ _ hstart
  | down _ entry _ ih => exact ih entry
  | @link links links' directory directory' rest name target _ _ _ ih =>
    apply ih
    unfold linkStart
    split
    · rfl
    · exact hstart

/-! ### Walks and `locate` -/

/-- `locate` of names after a `Walk` goes on from its end.  A link at the very end is followed only
if `follow` is set. -/
theorem Walk.locate_append (h : t.Walk links directory names links' directory')
    (hrest : rest ≠ [] ∨ follow = true) :
    t.locate follow links directory (names ++ rest) = t.locate follow links' directory' rest := by
  induction h with
  | nil => rfl
  | dots _ ih => rw [List.cons_append, locate_dots, ih]
  | down plain entry _ ih => rw [List.cons_append, plain.locate_cons, entry]; exact ih
  | @link links links' directory directory' front name target plain entry _ ih =>
    have hfollow : ((front ++ rest).isEmpty && !follow) = false := by
      rcases hrest with hrest | rfl
      · simp [hrest]
      · simp
    rw [List.cons_append, plain.locate_cons, entry]
    dsimp only
    rw [hfollow, ← List.append_assoc]
    exact ih

/-- `locate` with `k` links in place of `links` leads along a `Walk` to its end, or answers
`.tooManyLinks`. -/
theorem Walk.locate_eq (h : t.Walk links directory names links' directory') (k : Nat) :
    t.locate true k directory names = .ok (.taken directory' .directory) ∨
      t.locate true k directory names = .error .tooManyLinks := by
  induction h generalizing k with
  | nil => exact .inl locate_nil
  | dots _ ih => rw [locate_dots]; exact ih k
  | down plain entry _ ih => rw [plain.locate_cons, entry]; exact ih k
  | link plain entry _ ih =>
    rw [plain.locate_cons, entry]
    dsimp only
    rw [Bool.not_true, Bool.and_false]
    cases k with
    | zero => exact .inr rfl
    | succ k => exact ih k

theorem walk_of_locate
    (h : t.locate true links directory names = .ok (.taken directory' .directory)) :
    ∃ links', t.Walk links directory names links' directory' := by
  -- A followed link lowers the number of links, any other name shortens the names.
  induction links using Nat.strongRecOn generalizing directory names with
  | _ links ihlinks =>
    induction names generalizing directory with
    | nil =>
      rw [locate_nil] at h
      cases h
      exact ⟨links, .nil _ _⟩
    | cons name rest ih =>
      by_cases hdots : name = ".."
      · subst hdots
        rw [locate_dots] at h
        obtain ⟨links', hwalk⟩ := ih h
        exact ⟨links', .dots hwalk⟩
      by_cases hsize : maxNameSize < name.utf8ByteSize
      · rw [locate_long hdots hsize] at h
        cases h
      have hplain : Plain name := ⟨hdots, Nat.not_lt.1 hsize⟩
      rw [hplain.locate_cons] at h
      cases hentry : t.get? (directory ++ [name]) with
      | none =>
        rw [hentry] at h
        dsimp only at h
        split_ifs at h
        cases h
      | some entry =>
        rw [hentry] at h
        cases entry with
        | file content mode =>
          dsimp only at h
          split_ifs at h
          cases h
        | directory =>
          obtain ⟨links', hwalk⟩ := ih h
          exact ⟨links', .down hplain hentry hwalk⟩
        | link target =>
          dsimp only at h
          rw [Bool.not_true, Bool.and_false] at h
          cases links with
          | zero => cases h
          | succ k =>
            obtain ⟨links', hwalk⟩ := ihlinks k (Nat.lt_succ_self k) h
            exact ⟨links', .link hplain hentry hwalk⟩

/-! ### Walks in changed trees -/

/-- A tree that keeps directories and links keeps every `Walk`. -/
theorem Walk.mono (h : t.Walk links directory names links' directory')
    (hdirectory : ∀ place, t.get? place = some .directory → t'.get? place = some .directory)
    (hlink : ∀ place target, t.get? place = some (.link target) →
      t'.get? place = some (.link target)) :
    t'.Walk links directory names links' directory' := by
  induction h with
  | nil => exact .nil _ _
  | dots _ ih => exact .dots ih
  | down plain entry _ ih => exact .down plain (hdirectory _ entry) ih
  | link plain entry _ ih => exact .link plain (hlink _ _ entry) ih

theorem Walk.grown {place : List String} (h : t.Walk links directory names links' directory')
    (hgrown : Grown t t' place) : t'.Walk links directory names links' directory' :=
  h.mono (fun _ => hgrown.entry_of_eq_some) fun _ _ => hgrown.entry_of_eq_some

/-- If only the link at `inside ++ [name]` changes, a `Walk` is kept or has gone through that link.
-/
theorem Walk.mono_of_link {inside : List String}
    (h : t.Walk links directory names links' directory')
    (hold : t.get? (inside ++ [name]) = some (.link target))
    (hsame : ∀ place, place ≠ inside ++ [name] → t'.get? place = t.get? place) :
    t'.Walk links directory names links' directory' ∨
      ∃ k rest,
        t.Walk k (linkStart inside target) (Path.names target ++ rest) links' directory' := by
  induction h with
  | nil => exact .inl (.nil _ _)
  | dots _ ih => exact ih.imp_left .dots
  | @down links links' directory directory' rest last plain entry _ ih =>
    refine ih.imp_left (.down plain ?_)
    rw [hsame, entry]
    intro hplace
    rw [hplace, hold] at entry
    cases entry
  | @link links links' directory directory' rest last target' plain entry next ih =>
    by_cases hplace : directory ++ [last] = inside ++ [name]
    · rw [hplace, hold] at entry
      cases entry
      obtain ⟨rfl, -⟩ := List.append_inj' hplace rfl
      exact .inr ⟨_, _, next⟩
    · refine ih.imp_left (.link plain ?_)
      rw [hsame _ hplace, entry]

end SchemaPress.FileTree
