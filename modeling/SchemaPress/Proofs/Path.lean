import Mathlib.Data.List.Basic
import SchemaPress.Path

/-!
# Names and paths

`names` cuts a path at its slashes, so that a slash between two paths puts their names one behind
the other (`names_append_slash`), and `ofNames` is its inverse on names that can be names
(`names_ofNames`).  `cleanNames` gives names in which two dots stand only at the front, and not at
all below the root (`cleanNames_isClean`); such names are left as they are (`cleanNames_ofNames`).

What `join` puts behind a directory is therefore a path whose last name is the given one and whose
parent has the names before it (`join_eq_ofNames`, `parent_ofNames`).

A shortest path starts at the root just if the path does (`isRooted_clean`), and characters that are
put behind the last name of a path lead to another place (`clean_append_ne`).
-/

namespace SchemaPress

/-! ### Cutting -/

theorem Text.splitOnChar_ne_nil (sep : Char) (cs : List Char) : splitOnChar sep cs ≠ [] := by
  cases cs with
  | nil => simp [splitOnChar]
  | cons c rest =>
    rw [splitOnChar]
    split
    · simp
    · split <;> simp

/-- `splitOnChar` splits a concatenation at `sep` into the pieces of both sides. -/
theorem Text.splitOnChar_append (sep : Char) (cs ds : List Char) :
    splitOnChar sep (cs ++ sep :: ds) = splitOnChar sep cs ++ splitOnChar sep ds := by
  induction cs with
  | nil => simp [splitOnChar]
  | cons c rest ih =>
    obtain ⟨piece, more, h⟩ := List.exists_cons_of_ne_nil (splitOnChar_ne_nil sep rest)
    rw [List.cons_append, splitOnChar, splitOnChar, ih, h]
    split <;> rfl

theorem Text.splitOnChar_of_notMem {sep : Char} {cs : List Char} (h : sep ∉ cs) :
    splitOnChar sep cs = [cs] := by
  induction cs with
  | nil => rfl
  | cons c rest ih =>
    rw [List.mem_cons, not_or] at h
    have hc : (c == sep) = false := beq_false_of_ne (Ne.symm h.1)
    rw [splitOnChar, ih h.2, hc]
    rfl

theorem Text.notMem_of_mem_splitOnChar {sep : Char} {cs piece : List Char}
    (h : piece ∈ splitOnChar sep cs) : sep ∉ piece := by
  induction cs generalizing piece with
  | nil => simp_all [splitOnChar]
  | cons c rest ih =>
    obtain ⟨first, more, hsplit⟩ := List.exists_cons_of_ne_nil (splitOnChar_ne_nil sep rest)
    rw [splitOnChar] at h
    split at h
    · rcases List.mem_cons.1 h with rfl | h
      · exact List.not_mem_nil
      · exact ih h
    · rename_i hc
      rw [hsplit] at h ih
      rcases List.mem_cons.1 h with rfl | h
      · intro hmem
        rcases List.mem_cons.1 hmem with rfl | hmem
        · exact hc BEq.rfl
        · exact ih List.mem_cons_self hmem
      · exact ih (List.mem_cons_of_mem _ h)

/-- A character of `cs` has a last occurrence. -/
theorem Text.exists_last {sep : Char} {cs : List Char} (h : sep ∈ cs) :
    ∃ before after, cs = before ++ sep :: after ∧ sep ∉ after := by
  obtain ⟨back, front, heq, hnot⟩ := List.eq_append_cons_of_mem (List.mem_reverse.2 h)
  refine ⟨front.reverse, back.reverse, ?_, fun hmem => hnot (List.mem_reverse.1 hmem)⟩
  rw [← List.reverse_reverse cs, heq]
  simp

namespace Path

/-! ### Names -/

/-- The name of a file: not empty, not `.`, and without a slash. -/
structure IsName (name : String) : Prop where
  ne_empty : name ≠ ""
  ne_dot : name ≠ "."
  no_slash : '/' ∉ name.toList

theorem names_append_slash (a b : String) : names (a ++ "/" ++ b) = names a ++ names b := by
  unfold names
  have h : (a ++ "/" ++ b).toList = a.toList ++ '/' :: b.toList := by simp
  rw [h, Text.splitOnChar_append, List.map_append, List.filter_append]

theorem names_empty : names "" = [] := by
  simp [names, Text.splitOnChar]

theorem names_singleton {name : String} (h : IsName name) : names name = [name] := by
  unfold names
  rw [Text.splitOnChar_of_notMem h.no_slash]
  simp [h.ne_empty, h.ne_dot]

theorem isName_of_mem_names {path name : String} (h : name ∈ names path) : IsName name := by
  unfold names at h
  rw [List.mem_filter, List.mem_map] at h
  obtain ⟨⟨piece, hmem, rfl⟩, hname⟩ := h
  rw [Bool.and_eq_true, bne_iff_ne, bne_iff_ne] at hname
  refine ⟨hname.1, hname.2, ?_⟩
  rw [String.toList_ofList]
  exact Text.notMem_of_mem_splitOnChar hmem

theorem names_intercalate {ns : List String} (h : ∀ n ∈ ns, IsName n) :
    names ("/".intercalate ns) = ns := by
  induction ns with
  | nil => exact names_empty
  | cons n rest ih =>
    have hn := names_singleton (h n List.mem_cons_self)
    have hrest := ih fun m hm => h m (List.mem_cons_of_mem _ hm)
    cases rest with
    | nil => simpa using hn
    | cons m more => rw [String.intercalate_cons_cons, names_append_slash, hn, hrest]; rfl

/-! ### Where a path starts -/

theorem isRooted_iff {path : String} : isRooted path = true ↔ path.toList.head? = some '/' := by
  unfold isRooted
  rw [String.startsWith_string_iff]
  cases path.toList <;> simp [eq_comm]

theorem isRooted_append {a : String} (h : a ≠ "") (b : String) :
    isRooted (a ++ b) = isRooted a := by
  have hne : a.toList ≠ [] := by simpa using h
  rw [Bool.eq_iff_iff, isRooted_iff, isRooted_iff, String.toList_append,
    List.head?_append_of_ne_nil _ hne]

theorem isRooted_of_isName {name : String} (h : IsName name) : isRooted name = false := by
  rw [← Bool.not_eq_true, isRooted_iff]
  intro hhead
  exact h.no_slash (List.mem_of_mem_head? hhead)

theorem isRooted_ofNames {rooted : Bool} {ns : List String} (h : ∀ n ∈ ns, IsName n) :
    isRooted (ofNames rooted ns) = rooted := by
  cases rooted with
  | true =>
    show isRooted ("/" ++ "/".intercalate ns) = true
    rw [isRooted_iff, String.toList_append]
    rfl
  | false =>
    match ns with
    | [] =>
      -- Without names the path is a dot.
      rw [← Bool.not_eq_true, isRooted_iff]
      decide
    | [n] => simpa [ofNames] using isRooted_of_isName (h n List.mem_cons_self)
    | n :: m :: more =>
      have hn := h n List.mem_cons_self
      show isRooted ("/".intercalate (n :: m :: more)) = false
      rw [String.intercalate_cons_cons, String.append_assoc, isRooted_append hn.ne_empty,
        isRooted_of_isName hn]

theorem names_ofNames {rooted : Bool} {ns : List String} (h : ∀ n ∈ ns, IsName n) :
    names (ofNames rooted ns) = ns := by
  have hbody := names_intercalate h
  cases rooted with
  | true =>
    show names ("/" ++ "/".intercalate ns) = ns
    have hfront : "/" ++ "/".intercalate ns = "" ++ "/" ++ "/".intercalate ns := by simp
    rw [hfront, names_append_slash, names_empty, hbody, List.nil_append]
  | false =>
    cases ns with
    | nil => decide
    | cons n rest => exact hbody

theorem ofNames_ne_empty {rooted : Bool} {ns : List String} (h : ∀ n ∈ ns, IsName n) :
    ofNames rooted ns ≠ "" := by
  intro hempty
  have hnames : names (ofNames rooted ns) = ns := names_ofNames h
  rw [hempty, names_empty] at hnames
  subst hnames
  cases rooted <;> simp [ofNames] at hempty

/-! ### Shortest paths -/

/-- The names of a shortest path: `..` stands only behind `..`, and in no rooted path. -/
structure IsClean (rooted : Bool) (ns : List String) : Prop where
  isName : ∀ n ∈ ns, IsName n
  dots : ns.Pairwise fun a b => b = ".." → a = ".."
  rooted : rooted = true → ".." ∉ ns

theorem IsClean.nil (rooted : Bool) : IsClean rooted [] :=
  ⟨by simp, .nil, by simp⟩

theorem IsClean.sublist {rooted : Bool} {ns ms : List String} (h : IsClean rooted ns)
    (hsub : ms.Sublist ns) : IsClean rooted ms :=
  ⟨fun n hn => h.isName n (hsub.subset hn), h.dots.sublist hsub,
    fun hr hn => h.rooted hr (hsub.subset hn)⟩

/-- `IsClean` names stay so with one more name behind them, if it is not `..`. -/
theorem IsClean.concat {rooted : Bool} {ns : List String} {name : String} (h : IsClean rooted ns)
    (hname : IsName name) (hdots : name ≠ "..") : IsClean rooted (ns ++ [name]) := by
  refine ⟨?_, ?_, ?_⟩
  · simpa [or_imp, forall_and] using ⟨h.isName, hname⟩
  · rw [List.pairwise_append]
    refine ⟨h.dots, List.pairwise_singleton _ _, ?_⟩
    intro a _ b hb hb'
    exact absurd (List.mem_singleton.1 hb ▸ hb') hdots
  · intro hr
    simpa [Ne.symm hdots] using h.rooted hr

theorem step_of_ne {rooted : Bool} {back : List String} {name : String} (h : name ≠ "..") :
    step rooted back name = name :: back :=
  if_neg (by simpa using h)

theorem IsClean.step {rooted : Bool} {back : List String} {name : String}
    (h : IsClean rooted back.reverse) (hname : IsName name) :
    IsClean rooted (Path.step rooted back name).reverse := by
  by_cases hdots : name = ".."
  · subst hdots
    unfold Path.step
    rw [if_pos BEq.rfl]
    cases back with
    | nil =>
      cases rooted with
      | true => exact IsClean.nil true
      | false => exact ⟨by simpa using hname, List.pairwise_singleton _ _, by simp⟩
    | cons last rest =>
      rw [List.reverse_cons] at h
      dsimp only
      split
      · -- Only two dots stand before two dots, so two more may follow.
        rename_i hlast
        rw [beq_iff_eq] at hlast
        subst hlast
        have hall : ∀ a ∈ rest.reverse ++ [".."], a = ".." := by
          intro a ha
          rcases List.mem_append.1 ha with ha | ha
          · exact (List.pairwise_append.1 h.dots).2.2 a ha ".." (List.mem_singleton_self _) rfl
          · exact List.mem_singleton.1 ha
        rw [List.reverse_cons, List.reverse_cons]
        refine ⟨?_, ?_, ?_⟩
        · intro n hn
          rcases List.mem_append.1 hn with hn | hn
          · exact h.isName n hn
          · exact List.mem_singleton.1 hn ▸ hname
        · rw [List.pairwise_append]
          exact ⟨h.dots, List.pairwise_singleton _ _, fun a ha _ _ _ => hall a ha⟩
        · intro hr
          exact absurd (by simp) (h.rooted hr)
      · exact h.sublist (List.sublist_append_left _ _)
  · rw [step_of_ne hdots, List.reverse_cons]
    exact h.concat hname hdots

theorem IsClean.foldl_step {rooted : Bool} {ns : List String} (hns : ∀ n ∈ ns, IsName n)
    {back : List String} (h : IsClean rooted back.reverse) :
    IsClean rooted (ns.foldl (Path.step rooted) back).reverse := by
  induction ns generalizing back with
  | nil => exact h
  | cons n rest ih =>
    exact ih (fun m hm => hns m (List.mem_cons_of_mem _ hm)) (h.step (hns n List.mem_cons_self))

theorem cleanNames_isClean (path : String) : IsClean (isRooted path) (cleanNames path) :=
  IsClean.foldl_step (fun _ hn => isName_of_mem_names hn) (IsClean.nil _)

/-- On `IsClean` names, each `step` pushes its name. -/
theorem foldl_step_of_isClean {rooted : Bool} {ns back : List String}
    (h : IsClean rooted (back.reverse ++ ns)) :
    ns.foldl (step rooted) back = ns.reverse ++ back := by
  induction ns generalizing back with
  | nil => rfl
  | cons n rest ih =>
    have hstep : step rooted back n = n :: back := by
      by_cases hdots : n = ".."
      · -- Two dots are not below the root, and what stands before them is two dots, too.
        subst hdots
        cases back with
        | nil =>
          cases rooted with
          | true => exact absurd (by simp) (h.rooted rfl)
          | false => rfl
        | cons last older =>
          have hlast : last = ".." :=
            (List.pairwise_append.1 h.dots).2.2 last (by simp) ".." (by simp) rfl
          simp [step, hlast]
      · exact step_of_ne hdots
    rw [List.foldl_cons, hstep, ih (by simpa using h), List.reverse_cons, List.append_assoc]
    rfl

theorem cleanNames_ofNames {rooted : Bool} {ns : List String} (h : IsClean rooted ns) :
    cleanNames (ofNames rooted ns) = ns := by
  unfold cleanNames
  rw [isRooted_ofNames h.isName, names_ofNames h.isName, foldl_step_of_isClean (by simpa using h),
    List.append_nil, List.reverse_reverse]

theorem parent_ofNames {rooted : Bool} {ns : List String} {name : String}
    (h : IsClean rooted (ns ++ [name])) :
    parent (ofNames rooted (ns ++ [name])) = ofNames rooted ns := by
  unfold parent
  rw [isRooted_ofNames h.isName, cleanNames_ofNames h, List.dropLast_concat]

theorem join_ofNames {rooted : Bool} {ns : List String} {name : String} (h : IsClean rooted ns)
    (hname : IsName name) (hdots : name ≠ "..") :
    join (ofNames rooted ns) name = ofNames rooted (ns ++ [name]) := by
  have hne : ofNames rooted ns ≠ "" := ofNames_ne_empty h.isName
  have hclean : IsClean rooted ([].reverse ++ (ns ++ [name])) := h.concat hname hdots
  unfold join clean cleanNames
  rw [if_neg (by simp [hne]), if_neg (by simpa using hne), String.append_assoc,
    isRooted_append hne, isRooted_ofNames h.isName, ← String.append_assoc, names_append_slash,
    names_ofNames h.isName, names_singleton hname, foldl_step_of_isClean hclean, List.append_nil,
    List.reverse_reverse]

theorem clean_eq_ofNames {path name : String} (before : List String)
    (h : names path = before ++ [name]) (hdots : name ≠ "..") :
    ∃ rooted ns, IsClean rooted (ns ++ [name]) ∧ clean path = ofNames rooted (ns ++ [name]) := by
  have hlast : cleanNames path = (before.foldl (step (isRooted path)) []).reverse ++ [name] := by
    unfold cleanNames
    rw [h, List.foldl_append, List.foldl_cons, List.foldl_nil, step_of_ne hdots, List.reverse_cons]
  refine ⟨isRooted path, _, hlast ▸ cleanNames_isClean path, ?_⟩
  rw [clean, hlast]

/-- **`join directory name` ends in `name`**, behind names with which it `IsClean`. -/
theorem join_eq_ofNames (directory : String) {name : String} (hname : IsName name)
    (hdots : name ≠ "..") : ∃ rooted ns, IsClean rooted (ns ++ [name]) ∧
      join directory name = ofNames rooted (ns ++ [name]) := by
  have hempty : name.isEmpty = false := by simpa using hname.ne_empty
  unfold join
  rw [hempty, Bool.and_false, if_neg (by decide)]
  split
  · exact clean_eq_ofNames [] (names_singleton hname) hdots
  · refine clean_eq_ofNames (names directory) ?_ hdots
    rw [names_append_slash, names_singleton hname]

/-! ### Paths that lead elsewhere -/

theorem isRooted_clean (path : String) : isRooted (clean path) = isRooted path :=
  isRooted_ofNames (cleanNames_isClean path).isName

theorem cleanNames_clean (path : String) : cleanNames (clean path) = cleanNames path :=
  cleanNames_ofNames (cleanNames_isClean path)

/-- All but the last of the names of `path` stay if a tail is appended to `path`. -/
theorem exists_names_append (path : String) : ∃ before last, '/' ∉ last.toList ∧
    ∀ tail : String, names (path ++ tail) = before ++ names (last ++ tail) := by
  by_cases hslash : '/' ∈ path.toList
  · obtain ⟨front, last, hcut, hlast⟩ := Text.exists_last hslash
    have hpath : path = String.ofList front ++ "/" ++ String.ofList last := by
      rw [← String.toList_inj, hcut]
      simp
    refine ⟨names (String.ofList front), String.ofList last, by simpa using hlast, fun tail => ?_⟩
    rw [hpath, String.append_assoc, names_append_slash]
  · exact ⟨[], path, hslash, fun tail => rfl⟩

/-- If a `step` pushes a name, it is its own. -/
theorem eq_of_step_eq_cons {rooted : Bool} {back : List String} {name added : String}
    (h : step rooted back name = added :: back) : added = name := by
  by_cases hdots : name = ".."
  · subst hdots
    unfold step at h
    rw [if_pos BEq.rfl] at h
    cases back with
    | nil =>
      cases rooted with
      | true => cases h
      | false => exact (List.cons.inj h).1.symm
    | cons last rest =>
      dsimp only at h
      split at h
      · exact (List.cons.inj h).1.symm
      · have hlength := congrArg List.length h
        simp only [List.length_cons] at hlength
        omega
  · rw [step_of_ne hdots] at h
    exact (List.cons.inj h).1.symm

/-- **`clean (path ++ tail) ≠ clean path`** if `tail` has no slash and some character other than
`.`. -/
theorem clean_append_ne {tail : String} (path : String) (hslash : '/' ∉ tail.toList)
    (hplain : ∃ c ∈ tail.toList, c ≠ '.') : clean (path ++ tail) ≠ clean path := by
  obtain ⟨c, hc, hdot⟩ := hplain
  obtain ⟨before, last, hlast, happend⟩ := exists_names_append path
  have hmem : c ∈ (last ++ tail).toList := by
    rw [String.toList_append]
    exact List.mem_append_right _ hc
  have hne : ∀ dots : String, dots.toList.all (· == '.') = true → last ++ tail ≠ dots := by
    rintro dots hdots rfl
    exact hdot (beq_iff_eq.1 (List.all_eq_true.1 hdots c hmem))
  have hname : IsName (last ++ tail) := by
    refine ⟨hne "" (by decide), hne "." (by decide), ?_⟩
    rw [String.toList_append, List.mem_append]
    exact fun h => h.elim hlast hslash
  have hrooted : isRooted (path ++ tail) = isRooted path := by
    by_cases hpath : path = ""
    · subst hpath
      rw [String.empty_append, Bool.eq_iff_iff, isRooted_iff, isRooted_iff]
      constructor
      · exact fun h => absurd (List.mem_of_mem_head? h) hslash
      · exact fun h => absurd h (by decide)
    · exact isRooted_append hpath tail
  intro hclean
  have hsame : cleanNames (path ++ tail) = cleanNames path := by
    rw [← cleanNames_clean, hclean, cleanNames_clean]
  have hpath : names path = before ++ names last := by simpa using happend ""
  unfold cleanNames at hsame
  rw [hrooted, happend, hpath, names_singleton hname, List.foldl_append, List.foldl_append,
    List.reverse_inj] at hsame
  generalize before.foldl (step (isRooted path)) [] = back at hsame
  rw [List.foldl_cons, List.foldl_nil, step_of_ne (hne ".." (by decide))] at hsame
  -- the path itself does nothing with its last name, or it makes a step with it
  have hnames : names last = [] ∨ names last = [last] := by
    unfold names
    rw [Text.splitOnChar_of_notMem hlast]
    by_cases hkeep : (last != "" && last != ".") = true <;> simp [hkeep]
  rcases hnames with hnone | hone
  · rw [hnone, List.foldl_nil] at hsame
    exact absurd hsame (List.cons_ne_self _ _)
  · rw [hone, List.foldl_cons, List.foldl_nil] at hsame
    have hlonger := congrArg String.length (eq_of_step_eq_cons hsame.symm)
    rw [String.length_append, ← tail.length_toList] at hlonger
    have hpositive := List.length_pos_of_mem hc
    omega

end Path

end SchemaPress
