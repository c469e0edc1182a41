/-!
# Scanning generated text

A small scanner for the texts that renderers write.  It knows where literals begin and end, so that
`readUntil` finds the first of some characters outside of them.  `Passes` says that characters lead
from one `Region` to another without such a stop; text is read back by showing what it passes.
`expect` reads a fixed word, and `readAll` piece after piece up to a fixed end (`readAll_join`).
-/

namespace SchemaPress.Scan

/-! ### Regions -/

/-- The state of a scanner: `outside` of literals, `inside` of one that ends with `close`, or
`escaped`, there after a backslash. -/
inductive Region where
  | outside
  | inside (close : Char)
  | escaped (close : Char)
  deriving DecidableEq

/-- The characters that open and close literals. -/
def quotes : List Char := ['"', '/', '`']

/-- The region after one more character. -/
def Region.step : Region → Char → Region
  | .outside, c => if c ∈ quotes then .inside c else .outside
  | .inside close, c =>
    if c = '\\' then .escaped close else if c = close then .outside else .inside close
  | .escaped close, _ => .inside close

/-- The characters lead from one region to the other, and none of `stops` is met `outside`. -/
inductive Passes (stops : List Char) : Region → List Char → Region → Prop
  | nil (region : Region) : Passes stops region [] region
  | cons {region region' : Region} {c : Char} {cs : List Char}
      (goes : ¬ (region = .outside ∧ c ∈ stops)) (next : Passes stops (region.step c) cs region') :
      Passes stops region (c :: cs) region'

variable {stops cs ds rest back : List Char} {region region' region'' : Region} {c close : Char}

theorem Passes.append (h : Passes stops region cs region') (h' : Passes stops region' ds region'') :
    Passes stops region (cs ++ ds) region'' := by
  induction h with
  | nil => exact h'
  | cons goes _ ih => exact .cons goes (ih h')

/-- Characters that are neither in `stops` nor `quotes` pass `outside`. -/
theorem passes_outside (h : cs.all (fun c => !stops.contains c && !quotes.contains c) = true) :
    Passes stops .outside cs .outside := by
  induction cs with
  | nil => exact .nil _
  | cons c rest ih =>
    rw [List.all_cons, Bool.and_eq_true, Bool.and_eq_true] at h
    obtain ⟨⟨hstop, hquote⟩, hrest⟩ := h
    refine .cons (fun hc => by simp [hc.2] at hstop) ?_
    rw [Region.step, if_neg (by simpa using hquote)]
    exact ih hrest

/-- A character other than the backslash and `close` passes `inside`. -/
theorem passes_inside (hback : c ≠ '\\') (hclose : c ≠ close)
    (h : Passes stops (.inside close) cs region) :
    Passes stops (.inside close) (c :: cs) region := by
  refine .cons (by simp) ?_
  rwa [Region.step, if_neg hback, if_neg hclose]

theorem passes_inside_of_all (h : cs.all (fun c => c != '\\' && c != close) = true) :
    Passes stops (.inside close) cs (.inside close) := by
  induction cs with
  | nil => exact .nil _
  | cons c rest ih =>
    rw [List.all_cons, Bool.and_eq_true, Bool.and_eq_true, bne_iff_ne, bne_iff_ne] at h
    exact passes_inside h.1.1 h.1.2 (ih h.2)

/-- A backslash and any character after it pass `inside`. -/
theorem passes_escape (h : Passes stops (.inside close) cs region) :
    Passes stops (.inside close) ('\\' :: c :: cs) region := by
  refine .cons (by simp) ?_
  rw [Region.step, if_pos rfl]
  exact .cons (by simp) h

/-- A literal passes `outside` if its content passes `inside`. -/
theorem passes_literal (hquote : c ∈ quotes) (hstop : c ∉ stops)
    (h : Passes stops (.inside c) cs (.inside c)) :
    Passes stops .outside (c :: (cs ++ [c])) .outside := by
  have hopen : Region.outside.step c = .inside c := by rw [Region.step, if_pos hquote]
  have hclosing : (Region.inside c).step c = .outside := by
    have hback : c ≠ '\\' := by
      rintro rfl
      exact absurd hquote (by decide)
    rw [Region.step, if_neg hback, if_pos rfl]
  refine .cons (fun hc => hstop hc.2) ?_
  rw [hopen]
  refine h.append (.cons (by simp) ?_)
  rw [hclosing]
  exact .nil _

/-! ### Readers -/

/-- The text before the first of `stops` that is `outside`, and the text from there on; `back` is
the text read so far, in reverse. -/
def readUntil (stops : List Char) (region : Region) (back : List Char) :
    List Char → Option (String × List Char)
  | [] => none
  | c :: rest =>
    if region = .outside ∧ c ∈ stops then some (String.ofList back.reverse, c :: rest)
    else readUntil stops (region.step c) (c :: back) rest

theorem Passes.readUntil_append (h : Passes stops region cs .outside) (hc : c ∈ stops) :
    readUntil stops region back (cs ++ c :: rest) =
      some (String.ofList (back.reverse ++ cs), c :: rest) := by
  generalize hregion : Region.outside = region' at h
  induction h generalizing back with
  | nil => rw [List.nil_append, readUntil, if_pos ⟨hregion.symm, hc⟩, List.append_nil]
  | cons goes _ ih =>
    rw [List.cons_append, readUntil, if_neg goes, ih hregion, List.reverse_cons,
      List.append_assoc, List.singleton_append]

/-- The text after `word`, if it starts with `word`. -/
def expect (word : String) (text : List Char) : Option (List Char) :=
  if word.toList.isPrefixOf text then some (text.drop word.toList.length) else none

theorem expect_append (word : String) (rest : List Char) :
    expect word (word.toList ++ rest) = some rest := by
  rw [expect, if_pos (List.isPrefixOf_iff_prefix.2 (List.prefix_append _ _)), List.drop_left]

theorem expect_of_head_ne {word : String} {d : Char} (hword : word.toList.head? = some d)
    (h : c ≠ d) : expect word (c :: rest) = none := by
  obtain ⟨ds, hds⟩ := List.head?_eq_some_iff.1 hword
  rw [expect, hds, List.isPrefixOf_cons_cons, beq_false_of_ne (Ne.symm h)]
  rfl

/-- Reads pieces of at least one character until `stop` is left. -/
def readAll {α : Type} (one : List Char → Option (α × List Char)) (stop text : List Char) :
    Option (List α) :=
  if text = stop then some []
  else
    match one text with
    | none => none
    | some (item, rest) =>
      if rest.length < text.length then (readAll one stop rest).map (item :: ·) else none
termination_by text.length

/-- **`readAll` reads back a concatenation of pieces**, if `one` reads back each piece before any
rest, and no piece is empty or starts `stop`. -/
theorem readAll_join {α β : Type} {one : List Char → Option (α × List Char)} {stop : List Char}
    {piece : β → String} {item : β → α} {bs : List β}
    (hone : ∀ b ∈ bs, ∀ rest, one ((piece b).toList ++ rest) = some (item b, rest))
    (hstop : ∀ b ∈ bs, ∀ rest, (piece b).toList ++ rest ≠ stop)
    (hsome : ∀ b ∈ bs, piece b ≠ "") :
    readAll one stop ((String.join (bs.map piece)).toList ++ stop) = some (bs.map item) := by
  induction bs with
  | nil =>
    have hend : (String.join (([] : List β).map piece)).toList ++ stop = stop := rfl
    rw [hend, readAll, if_pos rfl]
    rfl
  | cons b bs ih =>
    have hrest := ih (fun x hx => hone x (List.mem_cons_of_mem _ hx))
      (fun x hx => hstop x (List.mem_cons_of_mem _ hx))
      (fun x hx => hsome x (List.mem_cons_of_mem _ hx))
    have hlength : 0 < (piece b).toList.length := by
      have := hsome b List.mem_cons_self
      rw [List.length_pos_iff]
      simpa using this
    rw [List.map_cons, String.join_cons, String.toList_append, List.append_assoc, readAll,
      if_neg (hstop b List.mem_cons_self _), hone b List.mem_cons_self]
    dsimp only
    rw [if_pos (by simp only [List.length_append]; omega), hrest]
    rfl

end SchemaPress.Scan
