import SchemaPress.Proofs.Yup.Regex

/-!
# What a pattern says, unit by unit

A pattern is read from left to right as units: a backslash belongs to the character behind it, and
every other character is a unit of its own.  Some units say the same in two ways, such as a slash
with and without a backslash, or a line break and the escape for it.  `SameUnits` is what follows
from these pairs alone.

Every sequence of units has a canonical form, and two sequences say the same just if their canonical
forms are equal (`sameUnits_iff`).  `regexLiteral` takes a pattern to its canonical form and does
nothing else to it (`regexLiteral_sameUnits`).  The proof reads the pattern by the rule for units,
so the parity of a run of backslashes is settled by the rule and not by counting.
-/

namespace SchemaPress.Yup

/-- A character on its own, or one after its backslash. -/
inductive PatternUnit where
  | plain (c : Char)
  | escape (c : Char)
  deriving DecidableEq, Repr

/-- The units of a pattern; a single backslash at the end is read as an escaped one. -/
def patternUnits : List Char → List PatternUnit
  | [] => []
  | ['\\'] => [.escape '\\']
  | '\\' :: c :: rest => .escape c :: patternUnits rest
  | c :: rest => .plain c :: patternUnits rest

/-! ### Units that say the same -/

/-- The line terminators, with the units of their escapes. -/
def lineBreakEscapes : List (Char × List PatternUnit) :=
  [('\n', [.escape 'n']), ('\r', [.escape 'r']),
    ('\u2028', [.escape 'u', .plain '2', .plain '0', .plain '2', .plain '8']),
    ('\u2029', [.escape 'u', .plain '2', .plain '0', .plain '2', .plain '9'])]

/-- A unit and units that mean the same: a slash and the escaped slash, a line terminator, escaped
or not, and its escape. -/
inductive Identified : PatternUnit → List PatternUnit → Prop
  | slash : Identified (.plain '/') [.escape '/']
  | lineBreak {c : Char} {us : List PatternUnit} (h : (c, us) ∈ lineBreakEscapes) :
      Identified (.plain c) us
  | escapedLineBreak {c : Char} {us : List PatternUnit} (h : (c, us) ∈ lineBreakEscapes) :
      Identified (.escape c) us

/-- The congruence on sequences of units that `Identified` generates. -/
inductive SameUnits : List PatternUnit → List PatternUnit → Prop
  | refl (us : List PatternUnit) : SameUnits us us
  | symm {us vs : List PatternUnit} (h : SameUnits us vs) : SameUnits vs us
  | trans {us vs ws : List PatternUnit} (h : SameUnits us vs) (h' : SameUnits vs ws) :
      SameUnits us ws
  | append {us us' vs vs' : List PatternUnit} (h : SameUnits us us') (h' : SameUnits vs vs') :
      SameUnits (us ++ vs) (us' ++ vs')
  | identified {u : PatternUnit} {us : List PatternUnit} (h : Identified u us) : SameUnits [u] us

namespace PatternUnit

/-- The character of a unit. -/
def char : PatternUnit → Char
  | plain c => c
  | escape c => c

/-- The units that `u` is `Identified` with, or `u` itself. -/
def canonical (u : PatternUnit) : List PatternUnit :=
  match lineBreakEscapes.lookup u.char with
  | some us => us
  | none => if u = plain '/' then [escape '/'] else [u]

end PatternUnit

open PatternUnit

variable {c : Char} {u : PatternUnit} {us vs : List PatternUnit}

theorem mem_of_lookup_lineBreakEscapes (h : lineBreakEscapes.lookup c = some us) :
    (c, us) ∈ lineBreakEscapes := by
  obtain ⟨l₁, l₂, heq, -⟩ := List.lookup_eq_some_iff.1 h
  rw [heq]
  exact List.mem_append_right l₁ List.mem_cons_self

theorem lookup_of_mem_lineBreakEscapes (h : (c, us) ∈ lineBreakEscapes) :
    lineBreakEscapes.lookup c = some us := by
  have hall : ∀ p ∈ lineBreakEscapes, lineBreakEscapes.lookup p.1 = some p.2 := by decide
  exact hall (c, us) h

/-- The units of an escape are canonical. -/
theorem flatMap_canonical_of_mem (h : (c, us) ∈ lineBreakEscapes) :
    us.flatMap canonical = us := by
  have hall : ∀ p ∈ lineBreakEscapes, p.2.flatMap canonical = p.2 := by decide
  exact hall (c, us) h

theorem canonical_of_lookup_eq_none (h : lineBreakEscapes.lookup u.char = none)
    (hslash : u ≠ .plain '/') : u.canonical = [u] := by
  rw [canonical, h]
  exact if_neg hslash

/-- `u.canonical` is `u`, or `u` is `Identified` with it. -/
theorem canonical_cases (u : PatternUnit) :
    u.canonical = [u] ∨ Identified u u.canonical := by
  cases hlookup : lineBreakEscapes.lookup u.char with
  | some us =>
    right
    have hcanonical : u.canonical = us := by rw [canonical, hlookup]
    have hmem := mem_of_lookup_lineBreakEscapes hlookup
    rw [hcanonical]
    cases u with
    | plain c => exact .lineBreak hmem
    | escape c => exact .escapedLineBreak hmem
  | none =>
    by_cases hslash : u = .plain '/'
    · right
      subst hslash
      exact .slash
    · left
      exact canonical_of_lookup_eq_none hlookup hslash

theorem Identified.canonical_eq (h : Identified u us) : u.canonical = us := by
  cases h with
  | slash => rfl
  | lineBreak h | escapedLineBreak h =>
    have hlookup := lookup_of_mem_lineBreakEscapes h
    simp only [canonical, char, hlookup]

theorem flatMap_canonical_canonical (u : PatternUnit) :
    u.canonical.flatMap canonical = u.canonical := by
  rcases canonical_cases u with h | h
  · rw [h, List.flatMap_singleton, h]
  · generalize hcanonical : u.canonical = vs at h
    cases h with
    | slash => rfl
    | lineBreak h | escapedLineBreak h => exact flatMap_canonical_of_mem h

theorem sameUnits_canonical (us : List PatternUnit) : SameUnits us (us.flatMap canonical) := by
  induction us with
  | nil => exact .refl []
  | cons u rest ih =>
    have hu : SameUnits [u] u.canonical := by
      rcases canonical_cases u with h | h
      · rw [h]
        exact .refl [u]
      · exact .identified h
    exact hu.append ih

/-- **Two sequences are `SameUnits` if and only if their canonical forms are equal.** -/
theorem sameUnits_iff : SameUnits us vs ↔ us.flatMap canonical = vs.flatMap canonical := by
  constructor
  · intro h
    induction h with
    | refl => rfl
    | symm _ ih => exact ih.symm
    | trans _ _ ih ih' => exact ih.trans ih'
    | append _ _ ih ih' => rw [List.flatMap_append, List.flatMap_append, ih, ih']
    | identified h => rw [List.flatMap_singleton, ← h.canonical_eq, flatMap_canonical_canonical]
  · intro h
    have hvs := (sameUnits_canonical vs).symm
    rw [← h] at hvs
    exact (sameUnits_canonical us).trans hvs

/-- `SameUnits` is decided by comparing canonical forms. -/
instance decidableSameUnits (us vs : List PatternUnit) : Decidable (SameUnits us vs) :=
  decidable_of_iff _ sameUnits_iff.symm

-- A second backslash in front of a slash makes another pattern.
example : ¬ SameUnits (patternUnits r"\\/".toList) (patternUnits r"\/".toList) := by decide

/-! ### The units of a literal -/

theorem patternUnits_plain (hback : c ≠ '\\') (rest : List Char) :
    patternUnits (c :: rest) = .plain c :: patternUnits rest := by
  rw [patternUnits]
  · intro hc
    exact absurd hc hback
  · intro d more hc
    exact absurd hc hback

theorem patternUnits_append_of_no_backslash {cs : List Char} (h : '\\' ∉ cs) (text : List Char) :
    patternUnits (cs ++ text) = cs.map .plain ++ patternUnits text := by
  induction cs with
  | nil => rfl
  | cons c rest ih =>
    have hback : c ≠ '\\' := fun hc => h (hc ▸ List.mem_cons_self)
    have hrest : '\\' ∉ rest := fun hmem => h (List.mem_cons_of_mem c hmem)
    rw [List.cons_append, patternUnits_plain hback, ih hrest]
    rfl

/-- `lineBreakLetters?` after a backslash is the escape in `lineBreakEscapes`. -/
theorem lineBreakLetters?_cases (c : Char) :
    (∃ first more, lineBreakLetters? c = some (first :: more) ∧ '\\' ∉ more ∧
      lineBreakEscapes.lookup c = some (.escape first :: more.map .plain)) ∨
    lineBreakLetters? c = none ∧ lineBreakEscapes.lookup c = none := by
  by_cases hmem : c ∈ ['\n', '\r', '\u2028', '\u2029']
  · left
    simp only [List.mem_cons, List.not_mem_nil, or_false] at hmem
    rcases hmem with rfl | rfl | rfl | rfl <;> exact ⟨_, _, rfl, by decide, rfl⟩
  · right
    simp only [List.mem_cons, List.not_mem_nil, or_false, not_or] at hmem
    obtain ⟨hn, hr, hls, hps⟩ := hmem
    constructor
    · simp [lineBreakLetters?, hn, hr, hls, hps]
    · refine List.lookup_eq_none_iff.2 fun p hp => ?_
      rw [bne_iff_ne]
      simp only [lineBreakEscapes, List.mem_cons, List.not_mem_nil, or_false] at hp
      rcases hp with rfl | rfl | rfl | rfl
      exacts [hn, hr, hls, hps]

/-- `patternUnits` of a backslash and the letters of a line break are the escape and plain letters.
-/
theorem patternUnits_lineBreak {first : Char} {more : List Char} (hmore : '\\' ∉ more)
    (text : List Char) :
    patternUnits ('\\' :: (first :: more ++ text)) =
      .escape first :: more.map .plain ++ patternUnits text := by
  rw [List.cons_append, patternUnits, patternUnits_append_of_no_backslash hmore]
  rfl

/-- `regexChar true c` after a backslash has the canonical units of `escape c`. -/
theorem patternUnits_escaped (c : Char) (text : List Char) :
    patternUnits ('\\' :: (regexChar true c ++ text)) =
      (PatternUnit.escape c).canonical ++ patternUnits text := by
  rcases lineBreakLetters?_cases c with
    ⟨first, more, hletters, hmore, hlookup⟩ | ⟨hletters, hlookup⟩
  · have hchar : regexChar true c = first :: more := by simp [regexChar, hletters]
    have hcanonical : (PatternUnit.escape c).canonical = .escape first :: more.map .plain := by
      simp only [canonical, char, hlookup]
    rw [hchar, hcanonical]
    exact patternUnits_lineBreak hmore text
  · have hchar : regexChar true c = [c] := by simp [regexChar, hletters]
    have hcanonical := canonical_of_lookup_eq_none (u := .escape c) hlookup (by simp)
    rw [hchar, hcanonical]
    rfl

/-- `regexChar false c` has the canonical units of `plain c`, for `c` other than the backslash. -/
theorem patternUnits_unescaped (hback : c ≠ '\\') (text : List Char) :
    patternUnits (regexChar false c ++ text) =
      (PatternUnit.plain c).canonical ++ patternUnits text := by
  rcases lineBreakLetters?_cases c with
    ⟨first, more, hletters, hmore, hlookup⟩ | ⟨hletters, hlookup⟩
  · have hchar : regexChar false c = '\\' :: first :: more := by simp [regexChar, hletters]
    have hcanonical : (PatternUnit.plain c).canonical = .escape first :: more.map .plain := by
      simp only [canonical, char, hlookup]
    rw [hchar, hcanonical]
    exact patternUnits_lineBreak hmore text
  · by_cases hslash : c = '/'
    · subst hslash
      rfl
    · have hchar : regexChar false c = [c] := by simp [regexChar, hletters, hslash]
      have hcanonical := canonical_of_lookup_eq_none (u := .plain c) hlookup (by simpa using hslash)
      rw [hchar, hcanonical]
      exact patternUnits_plain hback text

/-- **The units of `regexChars false cs` are the canonical units of `cs`.** -/
theorem patternUnits_regexChars (cs : List Char) :
    patternUnits (regexChars false cs) = (patternUnits cs).flatMap canonical := by
  -- by the rule for units: each of its cases is one step of the escaping or two
  fun_induction patternUnits cs with
  | case1 => rfl
  | case2 => rfl
  | case3 c rest ih =>
    rw [regexChars_escape, patternUnits_escaped, ih]
    rfl
  | case4 c rest hlast hmore ih =>
    have hback : c ≠ '\\' := by
      intro hc
      cases rest with
      | nil => exact hlast hc rfl
      | cons d more => exact hmore d more hc rfl
    rw [regexChars_plain hback, patternUnits_unescaped hback, ih]
    rfl

/-- **`regexLiteral` keeps the meaning of a pattern.**  The units of the literal are the canonical
forms of the units of the pattern, in order, and so `SameUnits` holds. -/
theorem regexLiteral_sameUnits (pattern : String) (h : pattern ≠ "") :
    SameUnits (patternUnits (regexLiteral pattern).toList) (patternUnits pattern.toList) ∧
      patternUnits (regexLiteral pattern).toList =
        (patternUnits pattern.toList).flatMap canonical := by
  have hunits : patternUnits (regexLiteral pattern).toList =
      (patternUnits pattern.toList).flatMap canonical := by
    rw [toList_regexLiteral h, patternUnits_regexChars]
  refine ⟨?_, hunits⟩
  rw [hunits]
  exact (sameUnits_canonical _).symm

/-- A pattern with slashes and line terminators after even and odd runs of backslashes, and a
backslash at its end. -/
theorem regexLiteral_sameUnits_runs :
    "\\\\/\\/\\\n\\\\\u2028\\" ≠ "" ∧
      SameUnits (patternUnits "\\\\\\/\\/\\n\\\\\\u2028\\\\".toList)
        (patternUnits "\\\\/\\/\\\n\\\\\u2028\\".toList) := by
  have hliteral : regexLiteral "\\\\/\\/\\\n\\\\\u2028\\" = "\\\\\\/\\/\\n\\\\\\u2028\\\\" := by
    decide +kernel
  have hne : "\\\\/\\/\\\n\\\\\u2028\\" ≠ "" := by decide
  have hsame := (regexLiteral_sameUnits "\\\\/\\/\\\n\\\\\u2028\\" hne).1
  rw [hliteral] at hsame
  exact ⟨hne, hsame⟩

end SchemaPress.Yup
