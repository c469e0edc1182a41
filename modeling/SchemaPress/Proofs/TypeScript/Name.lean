import Mathlib.Logic.Function.Basic
import Mathlib.Tactic.SplitIfs
import SchemaPress.Proofs.Text.Scan
import SchemaPress.TypeScript.Interface

/-!
# Reading member names

A member name can be undone by `nameOf`, so different names never become the same key
(`propertyName_injective`).  In a text, a key ends at the first colon or question mark outside of
quotes (`readUntil_propertyName`).
-/

namespace SchemaPress.TypeScript

open Scan

/-! ### Plain names -/

/-- None of the characters around keys continues a name. -/
theorem continuesName_of_mem {c : Char} (h : c ∈ [':', '?', '"', '/', '`', '}']) :
    continuesName c = false := by
  have hall : [':', '?', '"', '/', '`', '}'].all (fun d => !continuesName d) = true := by
    decide +kernel
  simpa using List.all_eq_true.1 hall c h

theorem continuesName_of_isIdentifier {cs : List Char} (h : isIdentifier cs = true) :
    ∀ c ∈ cs, continuesName c = true := by
  cases cs with
  | nil => exact fun _ hc => absurd hc List.not_mem_nil
  | cons c rest =>
    rw [isIdentifier, Bool.and_eq_true, List.all_eq_true] at h
    intro d hd
    rcases List.mem_cons.1 hd with rfl | hd
    · rw [continuesName, h.1, Bool.true_or]
    · exact h.2 d hd

theorem notMem_of_isIdentifier {cs : List Char} (h : isIdentifier cs = true) {c : Char}
    (hc : c ∈ cs) : c ∉ [':', '?', '"', '/', '`', '}'] := by
  intro hmem
  have hname := continuesName_of_isIdentifier h c hc
  rw [continuesName_of_mem hmem] at hname
  cases hname

/-! ### Undoing quotes -/

/-- The text up to the closing quote, without its escapes. -/
def unquote : List Char → List Char
  | [] => []
  | '\\' :: c :: rest => c :: unquote rest
  | '"' :: _ => []
  | c :: rest => c :: unquote rest

/-- The name of a key: the unquoted text if it is quoted, and the key itself otherwise. -/
def nameOf (key : String) : String :=
  match key.toList with
  | '"' :: rest => String.ofList (unquote rest)
  | _ => key

theorem unquote_quotedChars (cs : List Char) :
    unquote (cs.flatMap quotedChar ++ ['"']) = cs := by
  induction cs with
  | nil => rfl
  | cons c rest ih =>
    rw [List.flatMap_cons, List.append_assoc, quotedChar]
    split_ifs with h
    · simp [unquote, ih]
    · simp only [Bool.or_eq_true, beq_iff_eq, not_or] at h
      simp [unquote, h.1, h.2, ih]

theorem nameOf_propertyName (name : String) : nameOf (propertyName name) = name := by
  unfold propertyName
  split_ifs with h
  · unfold nameOf
    split
    case _ rest hname =>
      -- There is no quote in a plain name, so it is not taken for a quoted one.
      have := notMem_of_isIdentifier h (hname ▸ List.mem_cons_self)
      simp at this
    case _ => rfl
  · simp [nameOf, unquote_quotedChars]

/-- **`propertyName` is injective**, with `nameOf` as its inverse. -/
theorem propertyName_injective : Function.Injective propertyName :=
  Function.LeftInverse.injective nameOf_propertyName

/-! ### Keys in a text -/

/-- The declaration of a property: its key, and whether it is optional. -/
structure Declared where
  key : String
  optional : Bool
  deriving DecidableEq, Repr

theorem passes_quotedChars {stops : List Char} (cs : List Char) :
    Passes stops (.inside '"') (cs.flatMap quotedChar) (.inside '"') := by
  induction cs with
  | nil => exact .nil _
  | cons c rest ih =>
    rw [List.flatMap_cons, quotedChar]
    split_ifs with h
    · exact passes_escape ih
    · simp only [Bool.or_eq_true, beq_iff_eq, not_or] at h
      exact passes_inside h.2 h.1 ih

theorem passes_propertyName {stops : List Char} (h : stops ⊆ [':', '?']) (name : String) :
    Passes stops .outside (propertyName name).toList .outside := by
  unfold propertyName
  split_ifs with hname
  · refine passes_outside (List.all_eq_true.2 fun c hc => ?_)
    have hnot := notMem_of_isIdentifier hname hc
    have hstop : c ∉ stops :=
      fun hmem => hnot (List.mem_append_left ['"', '/', '`', '}'] (h hmem))
    have hquote : c ∉ quotes :=
      fun hmem => hnot (List.mem_append_right [':', '?'] (List.mem_append_left ['}'] hmem))
    simp [hstop, hquote]
  · rw [String.toList_ofList]
    refine passes_literal (by decide) (fun hstop => ?_) (passes_quotedChars _)
    exact absurd (h hstop) (by decide)

/-- `readUntil` reads a `propertyName` up to the first of `stops` after it. -/
theorem readUntil_propertyName {stops : List Char} (h : stops ⊆ [':', '?']) {c : Char}
    (hc : c ∈ stops) (name : String) (rest : List Char) :
    readUntil stops .outside [] ((propertyName name).toList ++ c :: rest) =
      some (propertyName name, c :: rest) := by
  rw [(passes_propertyName h name).readUntil_append hc]
  simp

/-- A `propertyName` starts neither with `/` nor with a closing brace. -/
theorem propertyName_head (name : String) :
    ∃ c cs, (propertyName name).toList = c :: cs ∧ c ≠ '/' ∧ c ≠ '}' := by
  unfold propertyName
  split_ifs with h
  · obtain ⟨c, cs, hname⟩ : ∃ c cs, name.toList = c :: cs := by
      cases hname : name.toList with
      | nil => simp [hname, isIdentifier] at h
      | cons c cs => exact ⟨c, cs, rfl⟩
    have hnot := notMem_of_isIdentifier h (hname ▸ List.mem_cons_self)
    refine ⟨c, cs, hname, ?_, ?_⟩ <;> rintro rfl <;> exact hnot (by decide)
  · exact ⟨'"', _, String.toList_ofList, by decide, by decide⟩

end SchemaPress.TypeScript
