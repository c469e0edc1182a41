import SchemaPress.Proofs.EcmaScript.TextLiteral
import SchemaPress.Proofs.Yup.Chain

/-!
# Allowed values in the generated program

The allowed values of a property are written as an array of template literals.  Escaping keeps a
value from closing its literal and from starting a substitution, but it leaves line breaks alone,
and inside of a template literal a carriage return counts as a line feed (`unifyLineBreaks`).  So a
value arrives in the generated program as it was just if it has no carriage return in it, and an
array does if none of its values has one (`oneOf_value`).
-/

namespace SchemaPress.Yup

open EcmaScript

/-! ### Line breaks -/

/-- The text with `\r\n` and `\r` replaced by `\n`. -/
def unifyLineBreaks : List Char → List Char
  | [] => []
  | c :: rest =>
    if c = '\r' then
      if rest.head? = some '\n' then unifyLineBreaks rest else '\n' :: unifyLineBreaks rest
    else c :: unifyLineBreaks rest

theorem notMem_unifyLineBreaks (cs : List Char) : '\r' ∉ unifyLineBreaks cs := by
  induction cs with
  | nil => exact List.not_mem_nil
  | cons c rest ih =>
    rw [unifyLineBreaks]
    split_ifs with hc
    · exact ih
    · exact List.not_mem_cons_of_ne_of_not_mem (by decide) ih
    · exact List.not_mem_cons_of_ne_of_not_mem (Ne.symm hc) ih

theorem unifyLineBreaks_eq_self_iff {cs : List Char} : unifyLineBreaks cs = cs ↔ '\r' ∉ cs := by
  constructor
  · intro h
    rw [← h]
    exact notMem_unifyLineBreaks cs
  · intro h
    induction cs with
    | nil => rfl
    | cons c rest ih =>
      rw [List.mem_cons, not_or] at h
      rw [unifyLineBreaks, if_neg (Ne.symm h.1), ih h.2]

/-! ### Single values -/

/-- An open brace or a line feed is first in `templateChars cs` if and only if it is first in `cs`.
-/
theorem head?_templateChars {d : Char} (hd : d ∈ ['{', '\n']) (cs rest : List Char) :
    (templateChars cs ++ '`' :: rest).head? = some d ↔ cs.head? = some d := by
  have hback : d ≠ '\\' := by
    rintro rfl
    exact absurd hd (by decide)
  have htick : d ≠ '`' := by
    rintro rfl
    exact absurd hd (by decide)
  have hdollar : d ≠ '$' := by
    rintro rfl
    exact absurd hd (by decide)
  fun_cases templateChars cs with
  | case1 => simp [Ne.symm htick]
  | case2 => simp [Ne.symm hback]
  | case3 => simp [Ne.symm hback, Ne.symm htick]
  | case4 => simp [Ne.symm hback, Ne.symm hdollar]
  | case5 => simp

/-- `rawUnits` of a character that `templateChars` does not escape are its code units, up to
`unifyLineBreaks`. -/
theorem rawUnits_templateChars {c : Char} {cs : List Char}
    (hstart : c = '$' → cs.head? ≠ some '{') (rest : List Char) :
    rawUnits .backtick c (templateChars cs ++ '`' :: rest).head? =
      some (if c = '\r' then if cs.head? = some '\n' then [] else codeUnits ['\n']
        else codeUnits [c]) := by
  have hopen : ¬ (c = '$' ∧ (templateChars cs ++ '`' :: rest).head? = some '{') := by
    rintro ⟨hc, hnext⟩
    exact hstart hc ((head?_templateChars (by decide) cs rest).1 hnext)
  rw [rawUnits, if_neg hopen]
  simp only [head?_templateChars (d := '\n') (by decide) cs rest]
  split_ifs <;> rfl

/-- **`readChars` reads back `templateChars cs` as `unifyLineBreaks cs`**, up to the backtick. -/
theorem readChars_templateChars (cs rest : List Char) :
    readChars .backtick .plain (templateChars cs ++ '`' :: rest) =
      some (codeUnits (unifyLineBreaks cs), rest) := by
  -- by the cases of escaping: each puts one backslash or none
  fun_induction templateChars cs with
  | case1 => exact readChars_close .backtick rest
  | case2 cs ih =>
    rw [List.cons_append, List.cons_append, readChars_escaped (by decide), ih]
    rfl
  | case3 cs ih =>
    rw [List.cons_append, List.cons_append, readChars_escaped (by decide), ih]
    rfl
  | case4 cs ih =>
    have hbrace : rawUnits .backtick '{' (templateChars cs ++ '`' :: rest).head? =
        some (codeUnits ['{']) :=
      rawUnits_templateChars (fun hc => absurd hc (by decide)) rest
    rw [List.cons_append, List.cons_append, List.cons_append, readChars_escaped (by decide),
      readChars_raw (by decide) (by decide), hbrace, ih]
    rfl
  | case5 c cs hback htick hdollar ih =>
    have hstart : c = '$' → cs.head? ≠ some '{' := by
      intro hc hhead
      obtain ⟨more, rfl⟩ := List.head?_eq_some_iff.1 hhead
      exact hdollar more hc rfl
    have hclose : c ≠ Quote.backtick.char := htick
    rw [List.cons_append, readChars_raw hback hclose, rawUnits_templateChars hstart, ih,
      unifyLineBreaks]
    split_ifs
    · rfl
    · rfl
    · rw [codeUnits_cons c (unifyLineBreaks cs)]
      rfl

theorem readLiteral_templateLiteral (v : String) (rest : List Char) :
    readLiteral .backtick ((templateLiteral v).toList ++ rest) =
      some (codeUnits (unifyLineBreaks v.toList), rest) := by
  have htext : (templateLiteral v).toList ++ rest =
      Quote.backtick.char :: (templateChars v.toList ++ '`' :: rest) := by
    simp [templateLiteral, Quote.char]
  rw [htext, readLiteral_open]
  exact readChars_templateChars v.toList rest

/-! ### Arrays -/

/-- The code units of the template literal of `v`, as the generated program reads it. -/
def arrivingValue (v : String) : List Nat :=
  codeUnits (unifyLineBreaks v.toList)

theorem arrivingValue_eq_iff {v : String} :
    arrivingValue v = codeUnits v.toList ↔ '\r' ∉ v.toList := by
  rw [arrivingValue, codeUnits_inj, unifyLineBreaks_eq_self_iff]

/-- The fragment of `.oneOf values` after `.oneOf(`. -/
def arrayText (values : List String) : List Char :=
  (fragment (.oneOf values)).toList.drop ".oneOf(".length

theorem arrayText_eq (values : List String) :
    arrayText values = '[' :: ((", ".intercalate (values.map templateLiteral)).toList ++
      [']', ')']) := by
  have hlength : ".oneOf(".length = 7 := by decide
  simp [arrayText, fragment, hlength]

theorem head?_templateLiteral (v : String) (rest : List Char) :
    ((templateLiteral v).toList ++ rest).head? = some '`' := by
  simp [templateLiteral]

theorem dropWhile_templateLiteral (v : String) (rest : List Char) :
    ((templateLiteral v).toList ++ rest).dropWhile isGap = (templateLiteral v).toList ++ rest := by
  have hgap : isGap '`' = false := by decide
  obtain ⟨more, hmore⟩ := List.head?_eq_some_iff.1 (head?_templateLiteral v rest)
  rw [hmore, List.dropWhile_cons_of_neg (by simp [hgap])]

/-- `readElements` reads a template literal, and goes on after a comma or stops at a bracket. -/
theorem readElements_templateLiteral (v : String) (rest : List Char) :
    readElements ((templateLiteral v).toList ++ rest) =
      if (rest.dropWhile isGap).head? = some ']' then
        some ([arrivingValue v], (rest.dropWhile isGap).tail)
      else if (rest.dropWhile isGap).head? = some ',' then
        (readElements ((rest.dropWhile isGap).tail.dropWhile isGap)).map
          (Prod.map (arrivingValue v :: ·) id)
      else none := by
  have hfirst : ¬ ((templateLiteral v).toList ++ rest).head? = some ']' := by
    rw [head?_templateLiteral]
    decide
  rw [readElements, if_neg hfirst]
  split
  · rename_i hread
    rw [readLiteral_templateLiteral] at hread
    cases hread
  · rename_i units rest' hread
    rw [readLiteral_templateLiteral] at hread
    obtain ⟨rfl, rfl⟩ := Prod.mk.inj (Option.some.inj hread)
    rfl

theorem readElements_values (v : String) (vs : List String) (rest : List Char) :
    readElements ((templateLiteral v).toList ++ (furtherValues vs ++ ']' :: rest)) =
      some ((v :: vs).map arrivingValue, rest) := by
  induction vs generalizing v with
  | nil =>
    rw [readElements_templateLiteral]
    rfl
  | cons w more ih =>
    have htext : furtherValues (w :: more) ++ ']' :: rest =
        ',' :: ' ' :: ((templateLiteral w).toList ++ (furtherValues more ++ ']' :: rest)) := by
      simp [furtherValues]
    have hcomma : isGap ',' = false := by decide
    have hspace : isGap ' ' = true := by decide
    rw [readElements_templateLiteral, htext, List.dropWhile_cons_of_neg (by simp [hcomma]),
      if_neg (by simp), if_pos List.head?_cons, List.tail_cons, List.dropWhile_cons_of_pos hspace,
      dropWhile_templateLiteral, ih]
    rfl

/-- **`readArray` reads back `arrayText values` as `values.map arrivingValue`.** -/
theorem readArray_arrayText (values : List String) (rest : List Char) :
    readArray (arrayText values ++ rest) = some (values.map arrivingValue, ')' :: rest) := by
  rw [arrayText_eq, List.cons_append, readArray, List.append_assoc]
  cases values with
  | nil =>
    rw [readElements]
    rfl
  | cons v vs =>
    rw [toList_values_cons, List.append_assoc, dropWhile_templateLiteral]
    exact readElements_values v vs (')' :: rest)

/-- **Allowed values in the generated program.**  `readLiteral` reads `templateLiteral v` as
`arrivingValue v`, and `readArray` reads `arrayText values` as the list of these.  They are the code
units of the values if and only if no value has a carriage return. -/
theorem oneOf_value (v : String) (values : List String) (rest : List Char) :
    readLiteral .backtick ((templateLiteral v).toList ++ rest) = some (arrivingValue v, rest) ∧
    (arrivingValue v = codeUnits v.toList ↔ '\r' ∉ v.toList) ∧
    readArray (arrayText values ++ rest) = some (values.map arrivingValue, ')' :: rest) ∧
    (values.map arrivingValue = values.map (codeUnits ·.toList) ↔
      ∀ w ∈ values, '\r' ∉ w.toList) := by
  refine ⟨readLiteral_templateLiteral v rest, arrivingValue_eq_iff, readArray_arrayText values rest,
    ?_⟩
  rw [List.map_inj_left]
  simp only [arrivingValue_eq_iff]

/-- `["a\rb"]` arrives as `["a\nb"]`. -/
theorem oneOf_changes_value :
    readArray (arrayText ["a\rb"]) = some ([codeUnits "a\nb".toList], [')']) ∧
      codeUnits "a\nb".toList ≠ codeUnits "a\rb".toList := by
  refine ⟨?_, by decide⟩
  have hread := readArray_arrayText ["a\rb"] []
  rw [List.append_nil] at hread
  rw [hread]
  decide

end SchemaPress.Yup
