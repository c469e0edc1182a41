import Mathlib.Tactic.ByContra
import Mathlib.Tactic.SplitIfs
import SchemaPress.Text.Words

/-!
# Lines

A line feed or a carriage return ends a line.  Rows that are written one below the other are the
lines of the text just if no line ends inside of a row (`flatMap_lines_eq_self_iff`).
-/

namespace SchemaPress.Text

/-- Line feed and carriage return. -/
def isLineEnd (c : Char) : Bool :=
  c == '\n' || c == '\r'

/-- The pieces of a text between its line ends. -/
def lines (cs : List Char) : List (List Char) :=
  cs.splitOnP isLineEnd

/-- `cs` has no line end. -/
def OneLine (cs : List Char) : Prop :=
  cs.all (fun c => !isLineEnd c) = true

instance (cs : List Char) : Decidable (OneLine cs) :=
  inferInstanceAs (Decidable (_ = true))

variable {c : Char} {cs ds : List Char}

theorem isLineEnd_iff : isLineEnd c = true ↔ c = '\n' ∨ c = '\r' := by
  rw [isLineEnd, Bool.or_eq_true, beq_iff_eq, beq_iff_eq]

/-! ### Texts without line ends -/

theorem oneLine_iff : OneLine cs ↔ ∀ c ∈ cs, isLineEnd c = false := by
  simp [OneLine]

@[simp]
theorem oneLine_append : OneLine (cs ++ ds) ↔ OneLine cs ∧ OneLine ds := by
  simp [OneLine]

@[simp]
theorem oneLine_cons : OneLine (c :: cs) ↔ isLineEnd c = false ∧ OneLine cs := by
  simp [OneLine]

theorem oneLine_flatMap {α : Type} {f : α → List Char} {xs : List α} :
    OneLine (xs.flatMap f) ↔ ∀ x ∈ xs, OneLine (f x) := by
  simp only [oneLine_iff, List.mem_flatMap]
  exact ⟨fun h x hx c hc => h c ⟨x, hx, hc⟩, fun h c ⟨x, hx, hc⟩ => h x hx c hc⟩

/-- Between two texts that are `OneLine`, `s` decides whether the whole is so. -/
theorem oneLine_between {first last : String} (hfirst : OneLine first.toList)
    (hlast : OneLine last.toList) (s : String) :
    OneLine (first ++ s ++ last).toList ↔ OneLine s.toList := by
  simp only [String.toList_append, oneLine_append, hfirst, hlast, true_and, and_true]

/-- A text over an alphabet without line ends is `OneLine`. -/
theorem oneLine_of_forall {allowed : Char → Bool} (hfeed : allowed '\n' = false)
    (hreturn : allowed '\r' = false) (h : ∀ c ∈ cs, allowed c = true) : OneLine cs := by
  rw [oneLine_iff]
  intro c hc
  have hallowed := h c hc
  by_contra hend
  rw [Bool.not_eq_false, isLineEnd_iff] at hend
  rcases hend with rfl | rfl
  · rw [hfeed] at hallowed
    cases hallowed
  · rw [hreturn] at hallowed
    cases hallowed

theorem isBlank_of_mem_wordsFrom {word w : List Char}
    (hword : ∀ c ∈ word, isBlank c = false) (hw : w ∈ wordsFrom word cs) :
    ∀ c ∈ w, isBlank c = false := by
  have hreverse : ∀ c ∈ word.reverse, isBlank c = false :=
    fun c hc => hword c (List.mem_reverse.1 hc)
  have hnone : ∀ c ∈ ([] : List Char), isBlank c = false :=
    fun c hc => absurd hc List.not_mem_nil
  induction cs generalizing word with
  | nil =>
    rw [wordsFrom] at hw
    split_ifs at hw
    · exact absurd hw List.not_mem_nil
    · rwa [List.mem_singleton.1 hw]
  | cons c rest ih =>
    rw [wordsFrom] at hw
    split_ifs at hw with hblank
    · exact ih hnone hw hnone
    · rcases List.mem_cons.1 hw with rfl | hw
      · exact hreverse
      · exact ih hnone hw hnone
    · have hmore : ∀ d ∈ c :: word, isBlank d = false := by
        intro d hd
        rcases List.mem_cons.1 hd with rfl | hd
        · rwa [Bool.not_eq_true] at hblank
        · exact hword d hd
      exact ih hmore hw fun d hd => hmore d (List.mem_reverse.1 hd)

/-- Every word is `OneLine`. -/
theorem oneLine_of_mem_words {s w : String} (h : w ∈ words s) : OneLine w.toList := by
  obtain ⟨cs, hcs, rfl⟩ := List.mem_map.1 h
  rw [String.toList_ofList]
  have hblank := isBlank_of_mem_wordsFrom (fun c hc => absurd hc List.not_mem_nil) hcs
  have hall : ∀ c ∈ cs, (fun d => !isBlank d) c = true := fun c hc => by simp [hblank c hc]
  exact oneLine_of_forall (by decide +kernel) (by decide +kernel) hall

/-! ### Rows -/

theorem lines_ne_nil (cs : List Char) : lines cs ≠ [] :=
  List.splitOnP_ne_nil _ _

/-- `lines` splits a concatenation at a line end. -/
theorem lines_append_cons (hc : isLineEnd c = true) (cs ds : List Char) :
    lines (cs ++ c :: ds) = lines cs ++ lines ds :=
  List.splitOnP_append_cons cs ds hc

/-- `lines cs = [cs]` if and only if `cs` is `OneLine`. -/
theorem lines_eq_singleton_iff : lines cs = [cs] ↔ OneLine cs := by
  constructor
  · intro h
    rw [oneLine_iff]
    intro c hc
    by_contra hend
    rw [Bool.not_eq_false] at hend
    obtain ⟨before, after, rfl⟩ := List.append_of_mem hc
    -- Neither of the two parts has no lines at all.
    have hbefore := List.length_pos_iff.2 (lines_ne_nil before)
    have hafter := List.length_pos_iff.2 (lines_ne_nil after)
    have hlength := congrArg List.length ((lines_append_cons hend before after).symm.trans h)
    rw [List.length_append, List.length_singleton] at hlength
    omega
  · intro h
    exact List.splitOnP_eq_singleton (oneLine_iff.1 h)

theorem length_le_flatMap_lines (rows : List (List Char)) :
    rows.length ≤ (rows.flatMap lines).length := by
  induction rows with
  | nil => exact Nat.le_refl 0
  | cons row more ih =>
    have hrow := List.length_pos_iff.2 (lines_ne_nil row)
    rw [List.flatMap_cons, List.length_append, List.length_cons]
    omega

/-- **Rows are their own lines** if and only if each is `OneLine`. -/
theorem flatMap_lines_eq_self_iff {rows : List (List Char)} :
    rows.flatMap lines = rows ↔ ∀ row ∈ rows, OneLine row := by
  induction rows with
  | nil => simp
  | cons row more ih =>
    rw [List.flatMap_cons, List.forall_mem_cons, ← ih, ← lines_eq_singleton_iff]
    constructor
    · intro h
      -- The first row has one line only, or there would be more lines than rows.
      have hrow := List.length_pos_iff.2 (lines_ne_nil row)
      have hmore := length_le_flatMap_lines more
      have hlength := congrArg List.length h
      rw [List.length_append, List.length_cons] at hlength
      have hone : (lines row).length = [row].length := by
        rw [List.length_singleton]
        omega
      exact List.append_inj h hone
    · rintro ⟨hrow, hmore⟩
      rw [hrow, hmore, List.singleton_append]

/-- The lines of rows that a line feed ends are the lines of the rows. -/
theorem lines_rows (rows : List (List Char)) (rest : List Char) :
    lines (rows.flatMap (· ++ ['\n']) ++ rest) = rows.flatMap lines ++ lines rest := by
  induction rows with
  | nil => rfl
  | cons row more ih =>
    have htext : (row :: more).flatMap (· ++ ['\n']) ++ rest =
        row ++ '\n' :: (more.flatMap (· ++ ['\n']) ++ rest) := by
      simp
    rw [htext, lines_append_cons (by decide), ih, List.flatMap_cons, List.append_assoc]

/-- A line feed before each row and one after all is one before all and one after each row. -/
theorem newline_flatMap (rows : List (List Char)) (rest : List Char) :
    rows.flatMap ('\n' :: ·) ++ '\n' :: rest = '\n' :: (rows.flatMap (· ++ ['\n']) ++ rest) := by
  induction rows with
  | nil => rfl
  | cons row more ih =>
    rw [List.flatMap_cons, List.append_assoc, ih]
    simp

end SchemaPress.Text
