import Mathlib.Data.Nat.Digits.Defs
import SchemaPress.Decimal.Notation

/-!
# What numbers are written with

The text of a number has no characters other than digits, signs, a point and the letters of the
values that have names (`isNumeric_of_mem_intText`, `isNumeric_of_mem_positional`).  The text of a
number with few digits has few bytes (`utf8ByteSize_intText_le`).
-/

namespace SchemaPress.Decimal

/-- The characters in the text of a number: digits, `+`, `-`, `.`, and the letters of `NaN` and
`Inf`. -/
def isNumeric (c : Char) : Bool :=
  c.isDigit || ['+', '-', '.', 'N', 'a', 'I', 'n', 'f'].contains c

theorem isNumeric_of_isDigit {c : Char} (h : c.isDigit = true) : isNumeric c = true := by
  rw [isNumeric, h, Bool.true_or]

theorem isDigit_of_mem_natDigits {n : Nat} {c : Char} (h : c ∈ natDigits n) : c.isDigit = true :=
  Nat.isDigit_of_mem_toDigits (by decide) (by decide) h

theorem isNumeric_of_mem_intText {n : Int} {c : Char} (h : c ∈ (intText n).toList) :
    isNumeric c = true := by
  rw [intText, String.toList_ofList] at h
  split_ifs at h
  · rcases List.mem_cons.1 h with rfl | h
    · rfl
    · exact isNumeric_of_isDigit (isDigit_of_mem_natDigits h)
  · exact isNumeric_of_isDigit (isDigit_of_mem_natDigits h)

theorem isNumeric_of_mem_numeral {d : Numeral} {c : Char} (h : c ∈ d.positional) :
    isNumeric c = true := by
  have hzero {n : Nat} : ∀ c ∈ List.replicate n '0', isNumeric c = true := by
    intro c hc
    rw [List.eq_of_mem_replicate hc]
    rfl
  have hdigits : ∀ c ∈ natDigits d.digits, isNumeric c = true :=
    fun c hc => isNumeric_of_isDigit (isDigit_of_mem_natDigits hc)
  have hall (n : Nat) : ∀ c ∈ List.replicate n '0' ++ natDigits d.digits, isNumeric c = true := by
    intro c hc
    rcases List.mem_append.1 hc with hc | hc
    · exact hzero c hc
    · exact hdigits c hc
  unfold Numeral.positional at h
  dsimp only at h
  split_ifs at h
  · rcases List.mem_append.1 h with h | h
    · exact hdigits c h
    · exact hzero c h
  · exact hall _ c (List.mem_of_mem_take h)
  · rcases List.mem_append.1 h with h | h
    · exact hall _ c (List.mem_of_mem_take h)
    · rcases List.mem_cons.1 h with rfl | h
      · rfl
      · rw [List.mem_reverse] at h
        have hpart := List.mem_reverse.1 ((List.dropWhile_sublist _).subset h)
        exact hall _ c (List.mem_of_mem_drop hpart)

theorem isNumeric_of_mem_positional {x : Binary64} {c : Char} (h : c ∈ x.positional.toList) :
    isNumeric c = true := by
  cases x with
  | nan =>
    have hall : Binary64.nan.positional.toList.all isNumeric = true := by decide
    exact List.all_eq_true.1 hall c h
  | infinite negative =>
    have hall : (Binary64.infinite negative).positional.toList.all isNumeric = true := by
      cases negative <;> decide
    exact List.all_eq_true.1 hall c h
  | finite negative m e =>
    have hdigits : ∀ c ∈ (if m == 0 then ['0'] else (Binary64.shortest m e).positional),
        isNumeric c = true := by
      intro c hc
      split_ifs at hc
      · rw [List.mem_singleton.1 hc]
        rfl
      · exact isNumeric_of_mem_numeral hc
    rw [Binary64.positional, String.toList_ofList] at h
    cases negative with
    | true =>
      rcases List.mem_cons.1 h with rfl | h
      · rfl
      · exact hdigits c h
    | false => exact hdigits c h

theorem utf8ByteSize_ofList_of_isDigit {cs : List Char} (h : ∀ c ∈ cs, c.isDigit = true) :
    (String.ofList cs).utf8ByteSize = cs.length := by
  induction cs with
  | nil => rfl
  | cons c rest ih =>
    have hsize : c.utf8Size = 1 := by
      have hc := h c List.mem_cons_self
      rw [Char.utf8Size_eq_one_iff]
      rw [Char.isDigit, Bool.and_eq_true, decide_eq_true_eq, decide_eq_true_eq] at hc
      exact UInt32.le_trans hc.2 (by decide)
    rw [String.ofList_cons, String.utf8ByteSize_append, String.utf8ByteSize_singleton, hsize,
      ih fun d hd => h d (List.mem_cons_of_mem _ hd), List.length_cons, Nat.add_comm]

theorem utf8ByteSize_intText_le {n k : Nat} (hk : 0 < k) (h : n < 10 ^ k) :
    (intText n).utf8ByteSize ≤ k := by
  have hnonneg : ¬ (n : Int) < 0 := by omega
  rw [intText, if_neg hnonneg, Int.natAbs_natCast,
    utf8ByteSize_ofList_of_isDigit fun c hc => isDigit_of_mem_natDigits hc]
  exact (Nat.length_toDigits_le_iff (by decide) hk).2 h

end SchemaPress.Decimal
