import SchemaPress.Text.Casing
import SchemaPress.Text.CharClass

/-!
# What lower case does to ASCII

The lower case mapping keeps to its side of ASCII: a character of ASCII goes to one of ASCII, and
one beyond it to one beyond it, except for two letters, a dotted capital I and the sign for Kelvin
(`lowerChar_cases`).  So a property that does not look at the case of letters and treats all
characters beyond ASCII alike has to be tested on ASCII and on these two only (`lowerChar_ind`).
-/

namespace SchemaPress.Text

/-- The characters `U+0130` and `U+212A`, whose lower case is in ASCII. -/
def foldsIntoAscii (c : Char) : Bool :=
  c == '\u0130' || c == '\u212a'

/-- All characters of the run are shifted to `128` or above. -/
def CaseRun.leadsBeyondAscii (r : CaseRun) : Bool :=
  decide (128 ≤ r.first + r.shift) &&
    (decide (r.last + r.shift < 0xD800) ||
      decide (0xE000 ≤ r.first + r.shift) && decide (r.last + r.shift < 0x110000))

theorem toNat_ofNat {n : Nat} (h : n.isValidChar) : (Char.ofNat n).toNat = n := by
  rw [Char.ofNat, dif_pos h]
  rfl

/-- `apply` leaves `c` as it is, or shifts it by a run that covers it. -/
theorem CaseMap.apply_cases (m : CaseMap) (c : Char) :
    m.apply c = c ∨ ∃ r ∈ m.runs, r.covers c.toNat = true ∧
      m.apply c = Char.ofNat (c.toNat + r.shift).toNat := by
  unfold apply
  split
  · rename_i r hfind
    exact .inr ⟨r, Array.mem_of_find?_eq_some hfind, by simpa using Array.find?_some hfind, rfl⟩
  · exact .inl rfl

theorem CaseRun.le_toNat_apply {r : CaseRun} (h : r.leadsBeyondAscii = true) {n : Nat}
    (hn : r.covers n = true) : 128 ≤ (Char.ofNat ((n : Int) + r.shift).toNat).toNat := by
  simp only [covers, Bool.and_eq_true, decide_eq_true_eq] at hn
  simp only [leadsBeyondAscii, Bool.and_eq_true, Bool.or_eq_true, decide_eq_true_eq] at h
  obtain ⟨⟨hfirst, hlast⟩, -⟩ := hn
  obtain ⟨hlow, hhigh⟩ := h
  have hvalid : ((n : Int) + r.shift).toNat.isValidChar := by
    unfold Nat.isValidChar
    omega
  rw [toNat_ofNat hvalid]
  omega

theorem lowerMap_runs_cases {r : CaseRun} (h : r ∈ lowerMap.runs) :
    r.last < 128 ∨ r.leadsBeyondAscii = true ∨ (r.first = 0x130 ∨ r.first = 0x212A) ∧
      r.first = r.last := by
  have hall : lowerMap.runs.toList.all (fun r => decide (r.last < 128) || r.leadsBeyondAscii ||
      (r.first == 0x130 || r.first == 0x212A) && r.first == r.last) = true := by decide
  have hr := List.all_eq_true.1 hall r (Array.mem_toList_iff.2 h)
  simpa [or_assoc] using hr

/-- **`lowerChar` takes no character above ASCII into it**, but for those with `foldsIntoAscii`. -/
theorem lowerChar_cases {c : Char} (h : 128 ≤ c.toNat) :
    128 ≤ (lowerChar c).toNat ∨ foldsIntoAscii c = true := by
  rw [lowerChar, if_neg (by omega)]
  rcases lowerMap.apply_cases c with heq | ⟨r, hmem, hcovers, heq⟩
  · left
    rwa [heq]
  · rcases lowerMap_runs_cases hmem with hr | hr | ⟨hfirst, hr⟩
    · simp only [CaseRun.covers, Bool.and_eq_true, decide_eq_true_eq] at hcovers
      omega
    · left
      rw [heq]
      exact CaseRun.le_toNat_apply hr hcovers
    · right
      simp only [CaseRun.covers, Bool.and_eq_true, decide_eq_true_eq] at hcovers
      have hc : c.toNat = r.first := by omega
      rw [foldsIntoAscii, ← Char.ofNat_toNat c, hc]
      rcases hfirst with hfirst | hfirst <;> rw [hfirst] <;> rfl

theorem lowerChar_dotted : lowerChar '\u0130' = 'i' := by
  decide +kernel

theorem lowerChar_kelvin : lowerChar '\u212a' = 'k' := by
  decide +kernel

/-- To prove `P c (lowerChar c)` for all `c`, check ASCII and the two characters that fold into it,
and prove `P` above ASCII. -/
theorem lowerChar_ind {P : Char → Char → Prop}
    (ascii : ∀ n < 128, P (Char.ofNat n) (lowerChar (Char.ofNat n)))
    (beyond : ∀ c d : Char, 128 ≤ c.toNat → 128 ≤ d.toNat → P c d)
    (dotted : P '\u0130' 'i') (kelvin : P '\u212a' 'k') (c : Char) : P c (lowerChar c) := by
  by_cases hascii : c.toNat < 128
  · have hc := ascii c.toNat hascii
    rwa [Char.ofNat_toNat] at hc
  · rcases lowerChar_cases (Nat.le_of_not_lt hascii) with hbeyond | hfolds
    · exact beyond c (lowerChar c) (Nat.le_of_not_lt hascii) hbeyond
    · simp only [foldsIntoAscii, Bool.or_eq_true, beq_iff_eq] at hfolds
      rcases hfolds with rfl | rfl
      · rwa [lowerChar_dotted]
      · rwa [lowerChar_kelvin]

/-- A character of ASCII that is not a letter is the lower case of itself only. -/
theorem lowerChar_eq_iff {d : Char} (hd : d.toNat < 128) (hmark : d.isAlpha = false) (c : Char) :
    lowerChar c = d ↔ c = d := by
  have hbeyond : ∀ {e : Char}, 128 ≤ e.toNat → e ≠ d := by
    rintro e he rfl
    omega
  have hletter : ∀ {e : Char}, e.isAlpha = true → e ≠ d := by
    rintro e he rfl
    rw [he] at hmark
    cases hmark
  refine lowerChar_ind (P := fun c e => e = d ↔ c = d) (fun n hn => ?_) (fun c e hc he => ?_)
    ?_ ?_ c
  · have hascii : ∀ n < 128, lowerChar (Char.ofNat n) = Char.ofNat n ∨
        (lowerChar (Char.ofNat n)).isAlpha = true ∧ (Char.ofNat n).isAlpha = true := by decide
    rcases hascii n hn with heq | ⟨hlower, hupper⟩
    · rw [heq]
    · exact iff_of_false (hletter hlower) (hletter hupper)
  · exact iff_of_false (hbeyond he) (hbeyond hc)
  · exact iff_of_false (hletter rfl) (hbeyond (by decide))
  · exact iff_of_false (hletter rfl) (hbeyond (by decide))

theorem not_le_of_beyond {c d : Char} (hc : 128 ≤ c.toNat) (hd : d.toNat < 128) : ¬ c ≤ d := by
  intro hle
  have hnat : c.toNat ≤ d.toNat := hle
  omega

theorem hexValue?_eq_none_of_beyond {c : Char} (h : 128 ≤ c.toNat) : hexValue? c = none := by
  have hnine : ¬ c ≤ '9' := not_le_of_beyond h (by decide)
  have hlower : ¬ c ≤ 'f' := not_le_of_beyond h (by decide)
  have hupper : ¬ c ≤ 'F' := not_le_of_beyond h (by decide)
  simp [hexValue?, hnine, hlower, hupper]

/-- `hexValue?` does not distinguish cases. -/
theorem hexValue?_lowerChar (c : Char) : hexValue? (lowerChar c) = hexValue? c := by
  refine lowerChar_ind (P := fun c d => hexValue? d = hexValue? c) (by decide) ?_ rfl rfl c
  intro c d hc hd
  rw [hexValue?_eq_none_of_beyond hc, hexValue?_eq_none_of_beyond hd]

end SchemaPress.Text
