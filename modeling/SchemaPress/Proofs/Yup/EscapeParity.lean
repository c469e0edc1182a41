import Mathlib.Algebra.Ring.Parity
import Mathlib.Data.List.DropRight
import SchemaPress.Proofs.Yup.Regex

/-!
# Patterns that are escaped already

Whether a character of a text is escaped is a matter of parity: it is if the backslashes directly
before it are odd in number.  A pattern `IsEscaped` if it has no line break, if every slash in it is
escaped, and if the backslashes at its end are paired.

The parity of a run of backslashes agrees with reading the text from left to right, where each
backslash takes the character behind it along (`wellEscaped_iff`).  So escaping leaves a pattern
alone if it has nothing to do, and what it makes of a pattern leaves nothing to do:
`regexLiteral` is a normalisation, and the patterns that are escaped are its normal forms
(`regexLiteral_normalizes`).
-/

namespace SchemaPress.Yup

open EcmaScript

variable {c : Char} {cs : List Char}

/-! ### Runs of backslashes -/

/-- The length of the run of backslashes at the end of `cs`. -/
def backslashesAtEnd (cs : List Char) : Nat :=
  (cs.rtakeWhile (· == '\\')).length

/-- `cs` has no line terminator, an odd run of backslashes before each slash, and an even run at its
end. -/
structure IsEscaped (cs : List Char) : Prop where
  ne_nil : cs ≠ []
  no_lineTerminator : ∀ c ∈ cs, isLineTerminator c = false
  slash : ∀ before after, cs = before ++ '/' :: after → Odd (backslashesAtEnd before)
  paired : Even (backslashesAtEnd cs)

theorem backslashesAtEnd_append (before cs : List Char) :
    backslashesAtEnd (before ++ cs) =
      if cs.all (· == '\\') then cs.length + backslashesAtEnd before else backslashesAtEnd cs := by
  have hall : (cs.reverse.takeWhile (· == '\\')).length = cs.length ↔
      cs.all (· == '\\') = true := by
    have hreverse : cs.reverse.length = cs.length := List.length_reverse
    rw [← hreverse, ← List.all_reverse, List.all_eq_true]
    constructor
    · intro hlength
      have hself := (List.takeWhile_prefix (· == '\\')).eq_of_length hlength
      exact List.takeWhile_eq_self_iff.1 hself
    · intro hcs
      rw [List.takeWhile_eq_self_iff.2 hcs]
  simp only [backslashesAtEnd, List.rtakeWhile, List.length_reverse, List.reverse_append,
    List.takeWhile_append]
  by_cases h : cs.all (· == '\\') = true
  · rw [if_pos (hall.2 h), if_pos h, List.length_append, List.length_reverse]
  · rw [if_neg (mt hall.1 h), if_neg h]

/-- A character in front other than the backslash does not change the run at the end. -/
theorem backslashesAtEnd_cons (hc : c ≠ '\\') (cs : List Char) :
    backslashesAtEnd (c :: cs) = backslashesAtEnd cs := by
  have hfirst : backslashesAtEnd [c] = 0 := by simp [backslashesAtEnd, List.rtakeWhile, hc]
  have hsplit := backslashesAtEnd_append [c] cs
  have hwhole := backslashesAtEnd_append [] cs
  rw [List.singleton_append, hfirst] at hsplit
  rw [hsplit]
  exact hwhole.symm

/-- An escape in front does not change the parity of the run at the end. -/
theorem even_backslashesAtEnd_escape (c : Char) (cs : List Char) :
    Even (backslashesAtEnd ('\\' :: c :: cs)) ↔ Even (backslashesAtEnd cs) := by
  have hfirst : Even (backslashesAtEnd ['\\', c]) := by
    by_cases hc : c = '\\'
    · subst hc
      decide
    · simp [backslashesAtEnd, List.rtakeWhile, hc]
  have hsplit := backslashesAtEnd_append ['\\', c] cs
  have hwhole := backslashesAtEnd_append [] cs
  have hnone : backslashesAtEnd [] = 0 := rfl
  rw [List.nil_append, hnone] at hwhole
  have hcons : ['\\', c] ++ cs = '\\' :: c :: cs := rfl
  rw [← hcons, hsplit, hwhole]
  split_ifs
  · rw [Nat.even_add, Nat.add_zero]
    simp [hfirst]
  · rfl

/-! ### Parity and escapes -/

/-- A property of the text before each slash of `front ++ cs` holds of `front` and the text before
each slash of `cs`. -/
theorem forall_split_of_append {P : List Char → Prop} (front : List Char)
    (h : ∀ before after, front ++ cs = before ++ '/' :: after → P before) :
    ∀ before after, cs = before ++ '/' :: after → P (front ++ before) := by
  intro before after hcs
  apply h (front ++ before) after
  rw [hcs, List.append_assoc]

/-- **`WellEscaped` by parity.**  A text is `WellEscaped` if and only if the run of backslashes is
odd before each slash and even at the end. -/
theorem wellEscaped_iff :
    WellEscaped cs ↔
      (∀ before after, cs = before ++ '/' :: after → Odd (backslashesAtEnd before)) ∧
        Even (backslashesAtEnd cs) := by
  constructor
  · intro h
    induction h with
    | nil =>
      refine ⟨fun before after hnil => ?_, by decide⟩
      cases before <;> cases hnil
    | @plain c cs ne_slash ne_backslash _ ih =>
      refine ⟨fun before after hcs => ?_, ?_⟩
      · cases before with
        | nil => exact absurd (List.cons.inj hcs).1 ne_slash
        | cons d before =>
          obtain ⟨rfl, hrest⟩ := List.cons.inj hcs
          rw [backslashesAtEnd_cons ne_backslash]
          exact ih.1 before after hrest
      · rw [backslashesAtEnd_cons ne_backslash]
        exact ih.2
    | @escape c cs _ ih =>
      refine ⟨fun before after hcs => ?_, (even_backslashesAtEnd_escape c cs).2 ih.2⟩
      -- The slash is the escaped character itself, or it stands further on.
      rcases before with _ | ⟨d, _ | ⟨e, before⟩⟩
      · exact absurd (List.cons.inj hcs).1 (by decide)
      · obtain ⟨rfl, -⟩ := List.cons.inj hcs
        decide
      · obtain ⟨rfl, hmore⟩ := List.cons.inj hcs
        obtain ⟨rfl, hrest⟩ := List.cons.inj hmore
        rw [← Nat.not_even_iff_odd, even_backslashesAtEnd_escape, Nat.not_even_iff_odd]
        exact ih.1 before after hrest
  · rintro ⟨hslash, heven⟩
    -- by the escapes of the text, each of which is a backslash with the character behind it
    fun_induction endsInClass false cs with
    | case1 => exact .nil
    | case2 => exact absurd heven (by decide)
    | case3 _ c rest ih =>
      refine .escape (ih (fun before after hrest => ?_) ?_)
      · have hodd := forall_split_of_append ['\\', c] hslash before after hrest
        rw [← Nat.not_even_iff_odd] at hodd ⊢
        exact mt (even_backslashesAtEnd_escape c before).2 hodd
      · exact (even_backslashesAtEnd_escape c rest).1 heven
    | case4 _ c rest hlast hmore ih =>
      have hback : c ≠ '\\' := by
        intro hc
        cases rest with
        | nil => exact hlast hc rfl
        | cons d more => exact hmore d more hc rfl
      have hne : c ≠ '/' := by
        rintro rfl
        exact absurd (hslash [] rest rfl) (by decide)
      refine .plain hne hback (ih (fun before after hrest => ?_) ?_)
      · have hodd := forall_split_of_append [c] hslash before after hrest
        rwa [List.singleton_append, backslashesAtEnd_cons hback] at hodd
      · rwa [backslashesAtEnd_cons hback] at heven

/-! ### Normal forms -/

theorem regexChar_of_stays (escaped : Bool) (hline : isLineTerminator c = false)
    (hslash : escaped = true ∨ c ≠ '/') : regexChar escaped c = [c] := by
  have hletters : lineBreakLetters? c = none := by
    rw [isLineTerminator_eq] at hline
    simpa using hline
  rw [regexChar, hletters]
  dsimp only
  rw [if_neg]
  rcases hslash with rfl | hne <;> simp [*]

/-- `regexChars` is the identity on `WellEscaped` texts without line terminators. -/
theorem regexChars_of_wellEscaped (h : WellEscaped cs)
    (hline : ∀ c ∈ cs, isLineTerminator c = false) : regexChars false cs = cs := by
  induction h with
  | nil => rfl
  | plain ne_slash ne_backslash _ ih =>
    obtain ⟨hc, hcs⟩ := List.forall_mem_cons.1 hline
    rw [regexChars_plain ne_backslash, regexChar_of_stays false hc (.inr ne_slash), ih hcs]
    rfl
  | escape _ ih =>
    obtain ⟨-, hmore⟩ := List.forall_mem_cons.1 hline
    obtain ⟨hc, hcs⟩ := List.forall_mem_cons.1 hmore
    rw [regexChars_escape, regexChar_of_stays true hc (.inl rfl), ih hcs]
    rfl

theorem isEscaped_regexChars (hne : cs ≠ []) : IsEscaped (regexChars false cs) := by
  obtain ⟨hslash, hpaired⟩ := wellEscaped_iff.1 (wellEscaped_regexChars cs).1
  refine ⟨?_, fun _ => isLineTerminator_of_mem_regexChars, hslash, hpaired⟩
  obtain ⟨c, rest, rfl⟩ := List.exists_cons_of_ne_nil hne
  obtain ⟨d, ds, hchar, -⟩ := head?_regexChar c
  rw [regexChars, hchar]
  exact List.cons_ne_nil d _

theorem isEscaped_regexLiteral (pattern : String) : IsEscaped (regexLiteral pattern).toList := by
  by_cases hempty : pattern = ""
  · -- The group that stands for the empty pattern is what escaping makes of itself.
    have hgroup : (regexLiteral "").toList = regexChars false "(?:)".toList := by decide
    rw [hempty, hgroup]
    exact isEscaped_regexChars (by decide)
  · rw [toList_regexLiteral hempty]
    exact isEscaped_regexChars (by simpa using hempty)

theorem regexLiteral_of_isEscaped {pattern : String} (h : IsEscaped pattern.toList) :
    regexLiteral pattern = pattern := by
  have hne : pattern ≠ "" := by simpa using h.ne_nil
  have hwell : WellEscaped pattern.toList := wellEscaped_iff.2 ⟨h.slash, h.paired⟩
  rw [← String.toList_inj, toList_regexLiteral hne]
  exact regexChars_of_wellEscaped hwell h.no_lineTerminator

/-- **`regexLiteral` is a normalisation.**  Its values are `IsEscaped`, its fixed points are the
patterns that are so, and it is idempotent. -/
theorem regexLiteral_normalizes (pattern : String) :
    IsEscaped (regexLiteral pattern).toList ∧
      (regexLiteral pattern = pattern ↔ IsEscaped pattern.toList) ∧
      regexLiteral (regexLiteral pattern) = regexLiteral pattern := by
  have hliteral := isEscaped_regexLiteral pattern
  refine ⟨hliteral, ⟨fun h => ?_, regexLiteral_of_isEscaped⟩, regexLiteral_of_isEscaped hliteral⟩
  rwa [h] at hliteral

end SchemaPress.Yup
