import SchemaPress.Proofs.EcmaScript.RegexLiteral
import SchemaPress.Yup.Chain

/-!
# Patterns as regular expression literals

What `regexLiteral` makes of a pattern never ends its literal too early: it is not empty, has no
line break in it, and every slash and the last backslash are escaped.  Whether the literal also ends
where it should is another question, because a slash inside of a class does not end it, and an
asterisk behind the first slash opens a comment.  Escaping leaves brackets and asterisks alone, so
the literal is in order exactly for patterns that close their classes and do not begin with an
asterisk (`regexLiteral_isLiteral_iff`).
-/

namespace SchemaPress.Yup

open EcmaScript

variable {c : Char} {letters : List Char}

/-! ### Classes -/

/-- Whether a pattern ends in a class, from `inClass` on. -/
def endsInClass (inClass : Bool) : List Char → Bool
  | [] => inClass
  | ['\\'] => inClass
  | '\\' :: _ :: rest => endsInClass inClass rest
  | c :: rest => endsInClass (if inClass then c != ']' else c == '[') rest

/-- The characters that `readRegexChars` reads as themselves, in a class or not. -/
def isNeutral (c : Char) : Bool :=
  !isLineTerminator c && !(['\\', '/', '[', ']'].contains c)

theorem readRegexChars_neutral {cs : List Char} (h : cs.all isNeutral = true) (inClass : Bool)
    (text : List Char) :
    readRegexChars inClass (cs ++ text) =
      (readRegexChars inClass text).map fun (body, after) => (cs ++ body, after) := by
  induction cs with
  | nil => simp
  | cons c cs ih =>
    rw [List.all_cons, Bool.and_eq_true] at h
    obtain ⟨hc, hcs⟩ := h
    simp only [isNeutral, Bool.and_eq_true, Bool.not_eq_true', List.contains_eq_mem,
      decide_eq_false_iff_not, List.mem_cons, List.not_mem_nil, or_false, not_or] at hc
    obtain ⟨hline, hback, hslash, hopen, hclose⟩ := hc
    have hstay : (if inClass then c != ']' else c == '[') = inClass := by
      cases inClass <;> simp [hopen, hclose]
    rw [List.cons_append, readRegexChars_plain hline hback (by simp [hslash]), hstay, ih hcs,
      Option.map_map]
    rfl

theorem isLineTerminator_eq (c : Char) : isLineTerminator c = (lineBreakLetters? c).isSome := by
  unfold isLineTerminator lineBreakLetters?
  split_ifs <;> simp_all

/-- The letters of a line break are one that is no line terminator, and neutral ones after it. -/
theorem exists_of_lineBreakLetters (h : lineBreakLetters? c = some letters) :
    ∃ first more, letters = first :: more ∧ isLineTerminator first = false ∧
      more.all isNeutral = true := by
  unfold lineBreakLetters? at h
  split_ifs at h <;> cases h <;> exact ⟨_, _, rfl, by decide, by decide⟩

/-- `readRegexChars` reads a backslash and the letters of a line break as they are. -/
theorem readRegexChars_lineBreak (h : lineBreakLetters? c = some letters) (inClass : Bool)
    (text : List Char) :
    readRegexChars inClass ('\\' :: (letters ++ text)) =
      (readRegexChars inClass text).map fun (body, after) =>
        ('\\' :: (letters ++ body), after) := by
  obtain ⟨first, more, rfl, hfirst, hmore⟩ := exists_of_lineBreakLetters h
  rw [List.cons_append, readRegexChars_escape hfirst, readRegexChars_neutral hmore, Option.map_map]
  rfl

/-- `readRegexChars` reads a backslash and `regexChar true c` as they are. -/
theorem readRegexChars_escaped (c : Char) (inClass : Bool) (text : List Char) :
    readRegexChars inClass ('\\' :: (regexChar true c ++ text)) =
      (readRegexChars inClass text).map fun (body, after) =>
        ('\\' :: (regexChar true c ++ body), after) := by
  cases hletters : lineBreakLetters? c with
  | some letters =>
    have hchar : regexChar true c = letters := by simp [regexChar, hletters]
    rw [hchar]
    exact readRegexChars_lineBreak hletters inClass text
  | none =>
    have hchar : regexChar true c = [c] := by simp [regexChar, hletters]
    rw [hchar]
    exact readRegexChars_escape (by rw [isLineTerminator_eq, hletters]; rfl)

/-- `readRegexChars` reads `regexChar false c` as it is, and `c` opens and closes classes as in the
pattern. -/
theorem readRegexChars_plainChar (hback : c ≠ '\\') (inClass : Bool) (text : List Char) :
    readRegexChars inClass (regexChar false c ++ text) =
      (readRegexChars (if inClass then c != ']' else c == '[') text).map fun (body, after) =>
        (regexChar false c ++ body, after) := by
  cases hletters : lineBreakLetters? c with
  | some letters =>
    have hchar : regexChar false c = '\\' :: letters := by simp [regexChar, hletters]
    have hstay : (if inClass then c != ']' else c == '[') = inClass := by
      have hne : ∀ d, lineBreakLetters? d = none → c ≠ d := by
        rintro d hd rfl
        rw [hd] at hletters
        cases hletters
      cases inClass <;> simp [hne ']' (by decide), hne '[' (by decide)]
    rw [hchar, hstay]
    exact readRegexChars_lineBreak hletters inClass text
  | none =>
    have hline : isLineTerminator c = false := by rw [isLineTerminator_eq, hletters]; rfl
    by_cases hslash : c = '/'
    · subst hslash
      have hchar : regexChar false '/' = ['\\', '/'] := by decide
      have hstay : (if inClass then '/' != ']' else '/' == '[') = inClass := by
        cases inClass <;> decide
      rw [hchar, hstay]
      exact readRegexChars_escape rfl
    · have hchar : regexChar false c = [c] := by simp [regexChar, hletters, hslash]
      rw [hchar]
      exact readRegexChars_plain hline hback (by simp [hslash])

theorem regexChars_escape (c : Char) (rest : List Char) :
    regexChars false ('\\' :: c :: rest) =
      '\\' :: (regexChar true c ++ regexChars false rest) := by
  have hback : regexChar false '\\' = ['\\'] := by decide
  simp [regexChars, hback]

theorem regexChars_plain (hback : c ≠ '\\') (rest : List Char) :
    regexChars false (c :: rest) = regexChar false c ++ regexChars false rest := by
  rw [regexChars, beq_false_of_ne hback, Bool.and_false]

/-- **`readRegexChars` reads `regexChars false pattern` as it is**, and goes on with `endsInClass`.
-/
theorem readRegexChars_regexChars (inClass : Bool) (pattern text : List Char) :
    readRegexChars inClass (regexChars false pattern ++ text) =
      (readRegexChars (endsInClass inClass pattern) text).map fun (body, after) =>
        (regexChars false pattern ++ body, after) := by
  fun_induction endsInClass inClass pattern with
  | case1 => simp [regexChars]
  | case2 inClass => exact readRegexChars_escape rfl
  | case3 inClass c rest ih =>
    rw [regexChars_escape, List.cons_append, List.append_assoc, readRegexChars_escaped, ih,
      Option.map_map]
    simp [Function.comp_def]
  | case4 inClass c rest hlast hmore ih =>
    have hback : c ≠ '\\' := by
      intro hc
      cases rest with
      | nil => exact hlast hc rfl
      | cons d more => exact hmore d more hc rfl
    rw [regexChars_plain hback, List.append_assoc, readRegexChars_plainChar hback, ih,
      Option.map_map]
    simp [Function.comp_def]

/-! ### What holds for every pattern -/

/-- Each slash is after a backslash of its own, and no single backslash is at the end. -/
inductive WellEscaped : List Char → Prop
  | nil : WellEscaped []
  | plain {c : Char} {cs : List Char} (ne_slash : c ≠ '/') (ne_backslash : c ≠ '\\')
      (rest : WellEscaped cs) : WellEscaped (c :: cs)
  | escape {c : Char} {cs : List Char} (rest : WellEscaped cs) : WellEscaped ('\\' :: c :: cs)

theorem WellEscaped.neutral_append {cs ds : List Char} (h : cs.all isNeutral = true)
    (hds : WellEscaped ds) : WellEscaped (cs ++ ds) := by
  induction cs with
  | nil => exact hds
  | cons c cs ih =>
    rw [List.all_cons, Bool.and_eq_true] at h
    have hc : c ≠ '/' ∧ c ≠ '\\' := by
      constructor <;> rintro rfl <;> exact absurd h.1 (by decide)
    exact .plain hc.1 hc.2 (ih h.2)

/-- `regexChar` in front of a `WellEscaped` text leaves it so, after a backslash or without one. -/
theorem WellEscaped.regexChar_append {ds : List Char} (hds : WellEscaped ds) (c : Char) :
    WellEscaped ('\\' :: (regexChar true c ++ ds)) ∧
      (c ≠ '\\' → WellEscaped (regexChar false c ++ ds)) := by
  cases hletters : lineBreakLetters? c with
  | some letters =>
    obtain ⟨first, more, rfl, -, hmore⟩ := exists_of_lineBreakLetters hletters
    have hescaped : WellEscaped ('\\' :: (first :: more ++ ds)) :=
      .escape (hds.neutral_append hmore)
    simp only [regexChar, hletters]
    exact ⟨hescaped, fun _ => hescaped⟩
  | none =>
    refine ⟨?_, fun hback => ?_⟩
    · have hchar : regexChar true c = [c] := by simp [regexChar, hletters]
      rw [hchar]
      exact .escape hds
    · by_cases hslash : c = '/'
      · subst hslash
        exact .escape hds
      · have hchar : regexChar false c = [c] := by simp [regexChar, hletters, hslash]
        rw [hchar]
        exact .plain hslash hback hds

theorem wellEscaped_regexChars (pattern : List Char) :
    WellEscaped (regexChars false pattern) ∧ WellEscaped ('\\' :: regexChars true pattern) := by
  induction pattern with
  | nil => exact ⟨.nil, .escape .nil⟩
  | cons c rest ih =>
    obtain ⟨hescaped, hplain⟩ := ih.1.regexChar_append c
    refine ⟨?_, hescaped⟩
    by_cases hback : c = '\\'
    · subst hback
      exact ih.2
    · rw [regexChars_plain hback]
      exact hplain hback

theorem isLineTerminator_of_mem_regexChar {escaped : Bool} {d : Char}
    (h : d ∈ regexChar escaped c) : isLineTerminator d = false := by
  cases hletters : lineBreakLetters? c with
  | some letters =>
    have hall : ('\\' :: letters).all (fun d => !isLineTerminator d) = true := by
      unfold lineBreakLetters? at hletters
      split_ifs at hletters <;> cases hletters <;> decide
    have hmem : d ∈ '\\' :: letters := by
      simp only [regexChar, hletters] at h
      split_ifs at h
      · exact List.mem_cons_of_mem _ h
      · exact h
    simpa using List.all_eq_true.1 hall d hmem
  | none =>
    have hline : isLineTerminator c = false := by rw [isLineTerminator_eq, hletters]; rfl
    simp only [regexChar, hletters] at h
    split_ifs at h
    · rcases List.mem_cons.1 h with rfl | h
      · decide
      · rw [List.mem_singleton.1 h]
        decide
    · rwa [List.mem_singleton.1 h]

theorem isLineTerminator_of_mem_regexChars {escaped : Bool} {pattern : List Char} {d : Char}
    (h : d ∈ regexChars escaped pattern) : isLineTerminator d = false := by
  induction pattern generalizing escaped with
  | nil =>
    rw [regexChars] at h
    split_ifs at h
    · rw [List.mem_singleton.1 h]
      decide
    · cases h
  | cons c rest ih =>
    rcases List.mem_append.1 h with h | h
    · exact isLineTerminator_of_mem_regexChar h
    · exact ih h

theorem head?_regexChar (c : Char) :
    ∃ d ds, regexChar false c = d :: ds ∧ (d = '*' ↔ c = '*') := by
  cases hletters : lineBreakLetters? c with
  | some letters =>
    have hc : c ≠ '*' := by
      rintro rfl
      cases hletters
    exact ⟨'\\', letters, by simp [regexChar, hletters], by simp [hc]⟩
  | none =>
    by_cases hslash : c = '/'
    · subst hslash
      exact ⟨'\\', ['/'], rfl, by decide⟩
    · exact ⟨c, [], by simp [regexChar, hletters, hslash], Iff.rfl⟩

/-! ### Literals -/

theorem toList_regexLiteral {pattern : String} (h : pattern ≠ "") :
    (regexLiteral pattern).toList = regexChars false pattern.toList := by
  rw [regexLiteral, if_neg (by simpa using h), String.toList_ofList]

/-- `regexLiteral pattern` starts with `*` if and only if `pattern` does. -/
theorem head?_regexLiteral (pattern : String) :
    ∃ d, (regexLiteral pattern).toList.head? = some d ∧
      (d = '*' ↔ pattern.toList.head? = some '*') := by
  by_cases hempty : pattern = ""
  · subst hempty
    exact ⟨'(', rfl, by decide⟩
  · rw [toList_regexLiteral hempty]
    have hne : pattern.toList ≠ [] := by simpa using hempty
    obtain ⟨c, rest, hpattern⟩ := List.exists_cons_of_ne_nil hne
    obtain ⟨d, ds, hchar, hstar⟩ := head?_regexChar c
    refine ⟨d, ?_, ?_⟩
    · rw [hpattern, regexChars, hchar]
      rfl
    · rw [hpattern, hstar]
      simp

/-- The fragment of `.pattern pattern` after `.matches(`. -/
def literalText (pattern : String) : List Char :=
  (fragment (.pattern pattern)).toList.drop ".matches(".length

theorem literalText_eq (pattern : String) :
    literalText pattern = '/' :: ((regexLiteral pattern).toList ++ ['/', ')']) := by
  have hlength : ".matches(".length = 9 := by decide
  simp [literalText, fragment, hlength]

/-- `readRegexChars` reads the whole `regexLiteral pattern` if and only if the pattern does not end
in a class. -/
theorem readRegexChars_regexLiteral_iff (pattern : String) (after : List Char) :
    readRegexChars false ((regexLiteral pattern).toList ++ '/' :: after) =
        some ((regexLiteral pattern).toList, after) ↔
      endsInClass false pattern.toList = false := by
  by_cases hempty : pattern = ""
  · subst hempty
    exact ⟨fun _ => rfl, fun _ => rfl⟩
  rw [toList_regexLiteral hempty, readRegexChars_regexChars]
  cases hclass : endsInClass false pattern.toList with
  | false => simp [readRegexChars, isLineTerminator]
  | true =>
    -- Inside of a class the slash is read as part of the body, which is therefore longer.
    rw [readRegexChars_plain rfl (by decide) (by decide)]
    refine ⟨fun h => ?_, fun h => absurd h (by decide)⟩
    obtain ⟨⟨body, rest⟩, hread, hbody⟩ := Option.map_eq_some_iff.1 h
    obtain ⟨⟨more, rest'⟩, -, hmore⟩ := Option.map_eq_some_iff.1 hread
    obtain ⟨rfl, rfl⟩ := Prod.mk.inj hmore
    have hlength := congrArg List.length (Prod.mk.inj hbody).1
    simp only [List.length_append, List.length_cons] at hlength
    omega

theorem isRegexBody_regexLiteral_iff (pattern : String) :
    IsRegexBody (regexLiteral pattern).toList ↔
      pattern.toList.head? ≠ some '*' ∧ endsInClass false pattern.toList = false := by
  obtain ⟨d, hhead, hstar⟩ := head?_regexLiteral pattern
  have hne : (regexLiteral pattern).toList ≠ [] := by
    intro hnil
    rw [hnil] at hhead
    cases hhead
  have hcomment : (regexLiteral pattern).toList.head? ≠ some '*' ↔
      pattern.toList.head? ≠ some '*' := by
    rw [hhead, Ne, Option.some_inj, hstar]
  rw [← readRegexChars_regexLiteral_iff pattern [], readRegexChars_eq_some_iff]
  constructor
  · intro h
    exact ⟨hcomment.1 h.no_comment, h.chars, rfl⟩
  · rintro ⟨hfirst, hchars, -⟩
    exact ⟨hne, hcomment.2 hfirst, hchars⟩

/-- **Patterns as literals.**  `regexLiteral pattern` is not empty, has no line terminator and is
`WellEscaped`.  It is an `IsRegexBody`, which `readRegexLiteral` reads up to the slash after it, if
and only if the pattern does not start with `*` and does not end in a class. -/
theorem regexLiteral_isLiteral_iff (pattern : String) :
    (regexLiteral pattern).toList ≠ [] ∧
    (∀ c ∈ (regexLiteral pattern).toList, isLineTerminator c = false) ∧
    WellEscaped (regexLiteral pattern).toList ∧
    (IsRegexBody (regexLiteral pattern).toList ↔
      pattern.toList.head? ≠ some '*' ∧ endsInClass false pattern.toList = false) ∧
    ∀ rest, readRegexLiteral (literalText pattern ++ rest) =
        some (⟨(regexLiteral pattern).toList, []⟩, ')' :: rest) ↔
      pattern.toList.head? ≠ some '*' ∧ endsInClass false pattern.toList = false := by
  have hbody := isRegexBody_regexLiteral_iff pattern
  refine ⟨?_, ?_, ?_, hbody, fun rest => ?_⟩
  · obtain ⟨d, hhead, -⟩ := head?_regexLiteral pattern
    intro hnil
    rw [hnil] at hhead
    cases hhead
  · intro c hc
    by_cases hempty : pattern = ""
    · subst hempty
      have hall : "(?:)".toList.all (fun d => !isLineTerminator d) = true := by decide
      simpa using List.all_eq_true.1 hall c hc
    · rw [toList_regexLiteral hempty] at hc
      exact isLineTerminator_of_mem_regexChars hc
  · by_cases hempty : pattern = ""
    · subst hempty
      have hneutral : "(?:)".toList.all isNeutral = true := by decide
      exact WellEscaped.nil.neutral_append hneutral
    · rw [toList_regexLiteral hempty]
      exact (wellEscaped_regexChars pattern.toList).1
  · rw [readRegexLiteral_eq_some_iff, ← hbody, literalText_eq]
    simp [isFlag]

/-- The literals of `*a` and `[a` are not read. -/
theorem regexLiteral_runs_on :
    (¬ IsRegexBody (regexLiteral "*a").toList ∧ readRegexLiteral (literalText "*a") = none) ∧
      ¬ IsRegexBody (regexLiteral "[a").toList ∧ readRegexLiteral (literalText "[a") = none := by
  rw [isRegexBody_regexLiteral_iff, isRegexBody_regexLiteral_iff]
  decide +kernel

end SchemaPress.Yup
