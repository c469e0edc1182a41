import Mathlib.Algebra.Order.Field.Power
import Mathlib.Tactic.FieldSimp
import Mathlib.Tactic.Linarith
import Mathlib.Tactic.NormNum
import Mathlib.Tactic.Positivity
import Mathlib.Tactic.Ring
import SchemaPress.Decimal.Binary64

/-!
# Rounding to the nearest float

`IsNearest q x` says what rounding has to give: no value in canonical form is nearer to the rational
number `q` than `x` is, and if another one is as near then the significand of `x` is even.

`round` gives the nearest value of every fraction below the midpoint behind the greatest value, and
an infinity from there on (`isRounding_round`); so does `ofDecimal`, which does not form the powers
of ten that are out of range (`isRounding_ofDecimal`).  The proof has one idea: the values that
share an exponent `e` are integers if they are measured in `2 ^ e`, and so are those with a greater
exponent.  The exponent is chosen so that all others are too small to matter.
-/

namespace SchemaPress.Decimal.Binary64

/-! ### The numbers that are values -/

/-- `-q` if `negative`, otherwise `q`. -/
def signedRat (negative : Bool) (q : ℚ) : ℚ :=
  if negative then -q else q

/-- The value `± m · 2^e` of a finite `Binary64`, and `0` for the others. -/
def toRat : Binary64 → ℚ
  | .finite negative m e => signedRat negative (m * 2 ^ e)
  | _ => 0

/-- The significand `m` of a finite `Binary64`. -/
def significand : Binary64 → Nat
  | .finite _ m _ => m
  | _ => 0

/-- A finite value with `m < 2^53` and `minExponent ≤ e ≤ maxExponent`, where `2^52 ≤ m` unless `e`
is least. -/
def IsCanonical : Binary64 → Prop
  | .finite _ m e =>
    m < Nat.pow 2 53 ∧ minExponent ≤ e ∧ e ≤ maxExponent ∧ (Nat.pow 2 52 ≤ m ∨ e = minExponent)
  | _ => False

/-- No value is nearer to `q` than `x`, and `x` has an even significand if another one is as near.
-/
structure IsNearest (q : ℚ) (x : Binary64) : Prop where
  canonical : x.IsCanonical
  nearest : ∀ y : Binary64, y.IsCanonical → |q - x.toRat| ≤ |q - y.toRat|
  even : ∀ y : Binary64, y.IsCanonical → y.toRat ≠ x.toRat → |q - y.toRat| = |q - x.toRat| →
    x.significand % 2 = 0

/-- The midpoint between the greatest value and `2^1024`: rounding overflows from here on. -/
def limit : ℚ := 2 ^ 1024 - 2 ^ 970

theorem limit_eq : limit = (2 ^ 53 - 1 / 2) * 2 ^ (971 : ℤ) := by
  have hpow : (2 : ℚ) ^ (971 : ℤ) = 2 * 2 ^ 970 := by
    rw [← pow_succ']
    exact zpow_natCast 2 971
  have hlimit : limit = 2 ^ 54 * 2 ^ 970 - 2 ^ 970 := by
    rw [limit, ← pow_add]
  rw [hpow, hlimit]
  generalize (2 : ℚ) ^ 970 = p
  ring

/-- `2^k ≤ limit` for all `k ≤ 1023`. -/
theorem lt_limit {q : ℚ} {k : ℤ} (h : q < 2 ^ k) (hk : k ≤ 52 + 971) : q < limit := by
  calc q < 2 ^ k := h
    _ ≤ 2 ^ ((52 : ℤ) + 971) := zpow_le_zpow_right₀ one_le_two hk
    _ = 2 ^ (52 : ℤ) * 2 ^ (971 : ℤ) := zpow_add₀ two_ne_zero 52 971
    _ ≤ limit := by
      rw [limit_eq]
      gcongr
      norm_num

/-! ### Rounding to an integer -/

variable {num den : Nat}

/-- `divNearest num den` is within `1/2` of `num / den`, and even if the distance is `1/2`. -/
theorem divNearest_close (num : Nat) (hden : 0 < den) :
    2 * |(num : ℚ) / den - divNearest num den| ≤ 1 ∧
      (2 * |(num : ℚ) / den - divNearest num den| = 1 → divNearest num den % 2 = 0) := by
  have hpos : (0 : ℚ) < den := by exact_mod_cast hden
  -- the distance in units of the denominator is one of natural numbers
  have hscaled (m : Nat) :
      2 * |(num : ℚ) / den - m| = (2 * |(num : ℤ) - m * den| : ℤ) / (den : ℚ) := by
    have heq : (num : ℚ) / den - m = ((num : ℤ) - m * den : ℤ) / den := by
      push_cast
      field_simp
    rw [heq, abs_div, abs_of_pos hpos]
    push_cast
    ring
  have hnum : (num : ℤ) = (num / den : Nat) * den + (num % den : Nat) := by
    exact_mod_cast (Nat.div_add_mod' num den).symm
  have hmod : num % den < den := Nat.mod_lt num hden
  have hcast : (den : ℚ) = (den : ℤ) := (Int.cast_natCast den).symm
  rw [hscaled, div_le_one hpos, div_eq_one_iff_eq hpos.ne', hcast, Int.cast_le, Int.cast_inj]
  unfold divNearest
  dsimp only
  generalize num / den = q at hnum
  generalize num % den = t at hnum hmod
  have hnext : ((q + 1 : Nat) : ℤ) * den = q * den + den := by push_cast; ring
  split_ifs with hlow hhigh heven
  · rw [hnum, add_sub_cancel_left, abs_of_nonneg (by omega)]
    omega
  · rw [hnum, hnext, add_sub_add_left_eq_sub, abs_of_nonpos (by omega)]
    omega
  · rw [hnum, add_sub_cancel_left, abs_of_nonneg (by omega)]
    rw [beq_iff_eq] at heven
    omega
  · rw [hnum, hnext, add_sub_add_left_eq_sub, abs_of_nonpos (by omega)]
    rw [beq_iff_eq] at heven
    omega

/-- No integer is nearer to `r` than `m`, and `m` is even if another one is as near. -/
def IsNearestInt (r : ℚ) (m : Nat) : Prop :=
  ∀ k : ℤ, |r - m| ≤ |r - k| ∧ (k ≠ m → |r - k| = |r - m| → m % 2 = 0)

/-- **`divNearest num den` is a nearest integer to `num / den`**, the even one if there are two. -/
theorem isNearestInt_divNearest (num : Nat) (hden : 0 < den) :
    IsNearestInt (num / den) (divNearest num den) := by
  intro k
  obtain ⟨hclose, heven⟩ := divNearest_close num hden
  by_cases hk : k = divNearest num den
  · subst hk
    exact ⟨le_rfl, fun hne => absurd rfl hne⟩
  · have hunit : (1 : ℚ) ≤ |(divNearest num den : ℚ) - k| := by
      have hint : 1 ≤ |(divNearest num den : ℤ) - k| := Int.one_le_abs (by omega)
      exact_mod_cast hint
    have htriangle := abs_sub_le (divNearest num den : ℚ) ((num : ℚ) / den) k
    rw [abs_sub_comm (divNearest num den : ℚ) ((num : ℚ) / den)] at htriangle
    refine ⟨by linarith, fun _ heq => heven ?_⟩
    rw [heq] at htriangle
    linarith

/-! ### The exponent -/

theorem scale_snd_pos (hden : 0 < den) (e : ℤ) : 0 < (scale num den e).2 := by
  unfold scale
  split_ifs
  · exact Nat.mul_pos hden (Nat.pow_pos (by decide))
  · exact hden

theorem scale_eq (num den : Nat) (e : ℤ) :
    ((scale num den e).1 : ℚ) / (scale num den e).2 = num / den / 2 ^ e := by
  unfold scale
  split_ifs with he
  · have hpow : ((Nat.pow 2 e.toNat : Nat) : ℚ) = 2 ^ e := by
      rw [Nat.pow_eq, Nat.cast_pow, ← zpow_natCast, Int.toNat_of_nonneg he]
      rfl
    dsimp only
    rw [Nat.cast_mul, hpow, div_div]
  · have hpow : ((Nat.pow 2 (-e).toNat : Nat) : ℚ) = (2 ^ e)⁻¹ := by
      rw [Nat.pow_eq, Nat.cast_pow, ← zpow_natCast, Int.toNat_of_nonneg (by omega), zpow_neg]
      rfl
    dsimp only
    rw [Nat.cast_mul, hpow]
    ring

theorem two_zpow_log2_le {n : Nat} (h : 0 < n) : (2 : ℚ) ^ (n.log2 : ℤ) ≤ n := by
  rw [zpow_natCast]
  exact_mod_cast Nat.log2_self_le h.ne'

theorem lt_two_zpow_log2 (n : Nat) : (n : ℚ) < 2 ^ ((n.log2 : ℤ) + 1) := by
  have h : n < 2 ^ (n.log2 + 1) := Nat.lt_log2_self
  exact_mod_cast h

/-- `binade num den` is the `e` with `2^(e+52) ≤ num / den < 2^(e+53)`. -/
theorem binade_spec (hnum : 0 < num) (hden : 0 < den) :
    (2 : ℚ) ^ (binade num den + 52) ≤ num / den ∧ (num : ℚ) / den < 2 ^ (binade num den + 53) := by
  have hpos : (0 : ℚ) < den := by exact_mod_cast hden
  -- the quotient of two numbers lies between the quotients of their powers of two
  have hlow : (2 : ℚ) ^ ((num.log2 : ℤ) - den.log2 - 1) ≤ num / den := by
    rw [le_div_iff₀ hpos]
    calc (2 : ℚ) ^ ((num.log2 : ℤ) - den.log2 - 1) * den
        ≤ 2 ^ ((num.log2 : ℤ) - den.log2 - 1) * 2 ^ ((den.log2 : ℤ) + 1) := by
          gcongr
          exact (lt_two_zpow_log2 den).le
      _ = 2 ^ (num.log2 : ℤ) := by
          rw [← zpow_add₀ two_ne_zero]
          congr 1
          ring
      _ ≤ num := two_zpow_log2_le hnum
  have hhigh : (num : ℚ) / den < 2 ^ ((num.log2 : ℤ) - den.log2 + 1) := by
    rw [div_lt_iff₀ hpos]
    calc (num : ℚ) < 2 ^ ((num.log2 : ℤ) + 1) := lt_two_zpow_log2 num
      _ = 2 ^ ((num.log2 : ℤ) - den.log2 + 1) * 2 ^ (den.log2 : ℤ) := by
          rw [← zpow_add₀ two_ne_zero]
          congr 1
          ring
      _ ≤ 2 ^ ((num.log2 : ℤ) - den.log2 + 1) * den := by
          gcongr
          exact two_zpow_log2_le hden
  have htest (g : ℤ) : (scale num den g).1 < (scale num den g).2 * Nat.pow 2 52 ↔
      (num : ℚ) / den < 2 ^ (g + 52) := by
    have hd : (0 : ℚ) < (scale num den g).2 := by exact_mod_cast scale_snd_pos hden g
    have hunit : (0 : ℚ) < 2 ^ g := by positivity
    rw [zpow_add₀ two_ne_zero, ← div_lt_iff₀' hunit, ← scale_eq, div_lt_iff₀' hd]
    norm_cast
  unfold binade
  dsimp only
  split_ifs with hsmall
  · rw [htest] at hsmall
    constructor
    · convert hlow using 2
      ring
    · convert hsmall using 2
      ring
  · rw [htest, not_lt] at hsmall
    refine ⟨hsmall, ?_⟩
    convert hhigh using 2
    ring

/-! ### The nearest value -/

theorem signedRat_signedRat (negative : Bool) (q : ℚ) :
    signedRat negative (signedRat negative q) = q := by
  cases negative <;> simp [signedRat]

theorem abs_signedRat (negative : Bool) (q : ℚ) : |signedRat negative q| = |q| := by
  cases negative <;> simp [signedRat]

theorem abs_signedRat_sub (negative : Bool) (p q : ℚ) :
    |signedRat negative p - q| = |p - signedRat negative q| := by
  cases negative with
  | false => rfl
  | true =>
    rw [signedRat, signedRat, if_pos rfl, if_pos rfl, ← abs_neg]
    congr 1
    ring

/-- Measured in `2 ^ e`, a value is an integer or less than the least full significand. -/
theorem IsCanonical.grid {y : Binary64} (h : y.IsCanonical) (negative : Bool) (e : ℤ) :
    (∃ k : ℤ, signedRat negative y.toRat = k * 2 ^ e) ∨
      minExponent < e ∧ |signedRat negative y.toRat| < 2 ^ (e + 52) := by
  cases y with
  | nan => exact h.elim
  | infinite => exact h.elim
  | finite sign m e' =>
    obtain ⟨hm, hmin, -, -⟩ := h
    rcases le_or_gt e e' with hle | hlt
    · left
      have hshift : (m : ℚ) * 2 ^ e' = ((m * 2 ^ (e' - e).toNat : ℤ) : ℚ) * 2 ^ e := by
        push_cast
        rw [mul_assoc, ← zpow_natCast, Int.toNat_of_nonneg (by omega), ← zpow_add₀ two_ne_zero,
          sub_add_cancel]
      rw [toRat, hshift]
      cases negative <;> cases sign <;> simp only [signedRat, if_true, if_false, neg_neg,
        Bool.false_eq_true]
      exacts [⟨_, rfl⟩, ⟨_, by rw [Int.cast_neg, neg_mul]⟩, ⟨_, by rw [Int.cast_neg, neg_mul]⟩,
        ⟨_, rfl⟩]
    · right
      refine ⟨lt_of_le_of_lt hmin hlt, ?_⟩
      have hbits : (m : ℚ) < 2 ^ 53 := by exact_mod_cast hm
      have hunit : (0 : ℚ) < 2 ^ e' := by positivity
      rw [abs_signedRat, toRat, abs_signedRat, abs_of_nonneg (by positivity)]
      calc (m : ℚ) * 2 ^ e' < 2 ^ 53 * 2 ^ e' := by gcongr
        _ = 2 ^ (e' + 53) := by rw [zpow_add₀ two_ne_zero, mul_comm]; rfl
        _ ≤ 2 ^ (e + 52) := zpow_le_zpow_right₀ one_le_two (by omega)

/-- **`x = ± m · 2^e` is nearest to `± q` if `m` is nearest to `q / 2^e`**, provided that
`2^(e+52) ≤ q` unless `e` is least. -/
theorem isNearest_of_grid {negative : Bool} {q : ℚ} {e : ℤ} {m : Nat} {x : Binary64}
    (hx : x.IsCanonical) (hrat : x.toRat = signedRat negative (m * 2 ^ e))
    (hsignificand : m % 2 = 0 → x.significand % 2 = 0) (hlow : minExponent < e → 2 ^ (e + 52) ≤ q)
    (hnearest : IsNearestInt (q / 2 ^ e) m) :
    IsNearest (signedRat negative q) x := by
  have hunit : (0 : ℚ) < 2 ^ e := by positivity
  -- distances measured in the unit
  have hscale (k : ℚ) : |q - k * 2 ^ e| = |q / 2 ^ e - k| * 2 ^ e := by
    have heq : q - k * 2 ^ e = (q / 2 ^ e - k) * 2 ^ e := by
      rw [sub_mul, div_mul_cancel₀ _ hunit.ne']
    rw [heq, abs_mul, abs_of_pos hunit]
  have hself : |signedRat negative q - x.toRat| = |q / 2 ^ e - m| * 2 ^ e := by
    rw [hrat, abs_signedRat_sub, signedRat_signedRat, hscale]
  -- a value below the grid is farther away than the least full significand
  have hfar (y : Binary64) (he : minExponent < e)
      (hy : |signedRat negative y.toRat| < 2 ^ (e + 52)) :
      |signedRat negative q - x.toRat| < |signedRat negative q - y.toRat| := by
    have hq := hlow he
    have hleast : (2 : ℚ) ^ (e + 52) = (2 ^ 52 : ℤ) * 2 ^ e := by
      rw [zpow_add₀ two_ne_zero, mul_comm]
      norm_cast
    rw [hself, abs_signedRat_sub]
    calc |q / 2 ^ e - m| * 2 ^ e ≤ |q / 2 ^ e - (2 ^ 52 : ℤ)| * 2 ^ e :=
          mul_le_mul_of_nonneg_right (hnearest _).1 hunit.le
      _ = |q - 2 ^ (e + 52)| := by rw [← hscale, hleast]
      _ = q - 2 ^ (e + 52) := abs_of_nonneg (by linarith)
      _ < q - signedRat negative y.toRat := by linarith [(abs_lt.1 hy).2]
      _ ≤ |q - signedRat negative y.toRat| := le_abs_self _
  refine ⟨hx, fun y hy => ?_, fun y hy hne heq => ?_⟩
  · rcases hy.grid negative e with ⟨k, hk⟩ | ⟨he, hsmall⟩
    · rw [hself, abs_signedRat_sub, hk, hscale]
      exact mul_le_mul_of_nonneg_right (hnearest k).1 hunit.le
    · exact (hfar y he hsmall).le
  · rcases hy.grid negative e with ⟨k, hk⟩ | ⟨he, hsmall⟩
    · rw [hself, abs_signedRat_sub, hk, hscale] at heq
      apply hsignificand
      apply (hnearest k).2 _ (mul_right_cancel₀ hunit.ne' heq)
      rintro rfl
      apply hne
      rw [hrat, ← signedRat_signedRat negative y.toRat, hk]
      norm_cast
    · exact absurd heq (hfar y he hsmall).ne'

/-! ### Rounding a fraction -/

/-- `q` is rounded to `m · 2^e`: `e` is the binade of `q`, or `minExponent` if that is larger, and
`m` is nearest to `q / 2^e`. -/
structure Rounded (q : ℚ) (e : ℤ) (m : Nat) : Prop where
  min_le : minExponent ≤ e
  full : minExponent < e → 2 ^ (e + 52) ≤ q
  lt : q < 2 ^ (e + 53)
  nearest : IsNearestInt (q / 2 ^ e) m

/-- `(2^52, e + 1)` in place of `(2^53, e)`. -/
def carry (m : Nat) (e : ℤ) : Nat × ℤ :=
  if m == Nat.pow 2 53 then (Nat.pow 2 52, e + 1) else (m, e)

theorem carry_rat (m : Nat) (e : ℤ) : ((carry m e).1 : ℚ) * 2 ^ (carry m e).2 = m * 2 ^ e := by
  unfold carry
  split_ifs with hm
  · rw [beq_iff_eq] at hm
    subst hm
    dsimp only
    have hpow : ((Nat.pow 2 53 : Nat) : ℚ) = (Nat.pow 2 52 : Nat) * 2 := by norm_cast
    rw [hpow, zpow_add₀ two_ne_zero, zpow_one]
    ring
  · rfl

theorem carry_even {m : Nat} (h : m % 2 = 0) (e : ℤ) : (carry m e).1 % 2 = 0 := by
  unfold carry
  split_ifs
  · exact Nat.mod_eq_zero_of_dvd (Dvd.intro_left (Nat.pow 2 51) rfl)
  · exact h

/-- `round` computes a `Rounded` pair, carries, and overflows if the exponent exceeds `maxExponent`.
-/
theorem exists_rounded (negative : Bool) (hnum : 0 < num) (hden : 0 < den) :
    ∃ e m, Rounded (num / den) e m ∧
      round negative num den =
        if maxExponent < (carry m e).2 then .infinite negative
        else .finite negative (carry m e).1 (carry m e).2 := by
  obtain ⟨hlow, hhigh⟩ := binade_spec hnum hden
  refine ⟨max (binade num den) minExponent,
    divNearest (scale num den (max (binade num den) minExponent)).1
      (scale num den (max (binade num den) minExponent)).2, ⟨le_max_right _ _, ?_, ?_, ?_⟩, ?_⟩
  · intro hlt
    rw [max_eq_left (by omega)]
    exact hlow
  · apply hhigh.trans_le
    apply zpow_le_zpow_right₀ one_le_two
    omega
  · rw [← scale_eq]
    exact isNearestInt_divNearest _ (scale_snd_pos hden _)
  · have hzero : (num == 0 || den == 0) = false := by
      rw [Bool.or_eq_false_iff, beq_eq_false_iff_ne, beq_eq_false_iff_ne]
      omega
    unfold round
    rw [hzero, if_neg Bool.false_ne_true]
    extract_lets e
    split
    rename_i n d hscale
    extract_lets m
    split
    rename_i m' e' hcarry
    have hpair : carry m e = (m', e') := hcarry
    rw [hscale, hpair]

namespace Rounded

variable {q : ℚ} {e : ℤ} {m : Nat}

theorem div_lt (h : Rounded q e m) : q / 2 ^ e < 2 ^ 53 := by
  rw [div_lt_iff₀ (by positivity)]
  calc q < 2 ^ (e + 53) := h.lt
    _ = 2 ^ 53 * 2 ^ e := by rw [zpow_add₀ two_ne_zero, mul_comm]; rfl

theorem le_div (h : Rounded q e m) (he : minExponent < e) : 2 ^ 52 ≤ q / 2 ^ e := by
  rw [le_div_iff₀ (by positivity)]
  calc (2 : ℚ) ^ 52 * 2 ^ e = 2 ^ (e + 52) := by rw [zpow_add₀ two_ne_zero, mul_comm]; rfl
    _ ≤ q := h.full he

/-- `m ≤ 2^53`, with equality if the significand was rounded up to the next binade. -/
theorem le (h : Rounded q e m) : m ≤ Nat.pow 2 53 := by
  have hlt := h.div_lt
  have hnear := (h.nearest ((Nat.pow 2 53 : Nat) : ℤ)).1
  have hcast : (((Nat.pow 2 53 : Nat) : ℤ) : ℚ) = 2 ^ 53 := by norm_cast
  rw [hcast, abs_sub_comm _ ((2 : ℚ) ^ 53), abs_of_nonneg (sub_nonneg.2 hlt.le)] at hnear
  have hle : (m : ℚ) ≤ 2 ^ 53 := by linarith [neg_abs_le (q / 2 ^ e - m)]
  exact_mod_cast hle

/-- `2^52 ≤ m`, unless `e` is least. -/
theorem full_le (h : Rounded q e m) (he : minExponent < e) : Nat.pow 2 52 ≤ m := by
  have hge := h.le_div he
  have hnear := (h.nearest ((Nat.pow 2 52 : Nat) : ℤ)).1
  have hcast : (((Nat.pow 2 52 : Nat) : ℤ) : ℚ) = 2 ^ 52 := by norm_cast
  rw [hcast, abs_of_nonneg (sub_nonneg.2 hge)] at hnear
  have hle : (2 : ℚ) ^ 52 ≤ m := by linarith [le_abs_self (q / 2 ^ e - m)]
  exact_mod_cast hle

theorem isCanonical (h : Rounded q e m) (negative : Bool) (hmax : (carry m e).2 ≤ maxExponent) :
    (Binary64.finite negative (carry m e).1 (carry m e).2).IsCanonical := by
  have hmin := h.min_le
  have hle := h.le
  unfold IsCanonical
  unfold carry at hmax ⊢
  split_ifs at hmax ⊢ with hm
  · exact ⟨Nat.pow_lt_pow_right (by decide) (by decide), by dsimp only; omega, hmax, .inl le_rfl⟩
  · rw [beq_iff_eq] at hm
    refine ⟨by omega, hmin, hmax, ?_⟩
    rcases hmin.lt_or_eq with hlt | heq
    · exact .inl (h.full_le hlt)
    · exact .inr heq.symm

theorem isNearest (h : Rounded q e m) (negative : Bool) (hmax : (carry m e).2 ≤ maxExponent) :
    IsNearest (signedRat negative q) (.finite negative (carry m e).1 (carry m e).2) := by
  refine isNearest_of_grid (h.isCanonical negative hmax) ?_ (carry_even · e) h.full h.nearest
  rw [toRat, carry_rat]

/-- `m = 2^53` from the last midpoint `2^53 - 1/2` of the binade on. -/
theorem eq_iff (h : Rounded q e m) : m = Nat.pow 2 53 ↔ 2 ^ 53 - 1 / 2 ≤ q / 2 ^ e := by
  have hlt := h.div_lt
  have hcast : ((Nat.pow 2 53 : Nat) : ℚ) = 2 ^ 53 := by norm_cast
  constructor
  · intro hm
    have hnear := (h.nearest (2 ^ 53 - 1)).1
    rw [hm, hcast, abs_of_neg (sub_neg.2 hlt)] at hnear
    push_cast at hnear
    by_contra hsmall
    rcases abs_cases (q / 2 ^ e - (2 ^ 53 - 1)) with ⟨habs, -⟩ | ⟨habs, -⟩ <;> linarith
  · intro hge
    by_contra hne
    have hle : (m : ℚ) ≤ 2 ^ 53 - 1 := by
      have hnat : m + 1 ≤ 2 ^ 53 := Nat.lt_of_le_of_ne h.le hne
      have hrat : (m : ℚ) + 1 ≤ 2 ^ 53 := by exact_mod_cast hnat
      linarith
    -- the two neighbours are equally near, but the lower one is odd
    obtain ⟨hnear, htie⟩ := h.nearest (Nat.pow 2 53 : Nat)
    rw [Int.cast_natCast, hcast, abs_of_neg (sub_neg.2 hlt), abs_of_nonneg (by linarith)]
      at hnear htie
    have heven : m % 2 = 0 := htie (by exact_mod_cast Ne.symm hne) (by linarith)
    have hodd : (m : ℚ) = 2 ^ 53 - 1 := by linarith
    have hnat : m + 1 = 2 ^ 53 := by
      have hrat : (m : ℚ) + 1 = 2 ^ 53 := by linarith
      exact_mod_cast hrat
    omega

/-- **Overflow**: the exponent exceeds `maxExponent` exactly if `limit ≤ q`. -/
theorem max_lt_iff (h : Rounded q e m) : maxExponent < (carry m e).2 ↔ limit ≤ q := by
  have hunit : (0 : ℚ) < 2 ^ e := by positivity
  rcases lt_trichotomy e 971 with hlt | rfl | hgt
  · -- below the last exponent nothing is too large
    have hmax : ¬ maxExponent < (carry m e).2 := by
      unfold carry maxExponent
      split_ifs <;> dsimp only <;> omega
    have hsmall : q < limit := lt_limit h.lt (by omega)
    exact iff_of_false hmax (not_le.2 hsmall)
  · have hcarry : maxExponent < (carry m 971).2 ↔ m = Nat.pow 2 53 := by
      unfold carry maxExponent
      split_ifs with hm <;> rw [beq_iff_eq] at hm <;> simp [hm]
    rw [hcarry, h.eq_iff, limit_eq, le_div_iff₀ hunit]
  · have hmax : maxExponent < (carry m e).2 := by
      unfold carry maxExponent
      split_ifs <;> dsimp only <;> omega
    have hlarge : limit ≤ q := by
      calc limit ≤ 2 ^ (53 : ℤ) * 2 ^ (971 : ℤ) := by
            rw [limit_eq]
            gcongr
            norm_num
        _ = 2 ^ ((53 : ℤ) + 971) := (zpow_add₀ two_ne_zero 53 971).symm
        _ ≤ 2 ^ (e + 52) := zpow_le_zpow_right₀ one_le_two (by omega)
        _ ≤ q := h.full (by unfold minExponent; omega)
    exact iff_of_true hmax hlarge

end Rounded

/-! ### Fractions and decimals -/

/-- `x` is what `± q` is rounded to: finite, of that sign and nearest if `q < limit`, and infinite
otherwise. -/
structure IsRounding (negative : Bool) (q : ℚ) (x : Binary64) : Prop where
  finite : q < limit → ∃ m e, x = .finite negative m e ∧ IsNearest (signedRat negative q) x
  infinite : limit ≤ q → x = .infinite negative

/-- Below `2^(-1075)`, half of the least value, everything is rounded to zero. -/
theorem isRounding_zero (negative : Bool) {q : ℚ} (hq : 0 ≤ q) (hsmall : q < 2 ^ (-1075 : ℤ)) :
    IsRounding negative q (zero negative) := by
  have hunit : (0 : ℚ) < 2 ^ minExponent := by positivity
  have hhalf : q / 2 ^ minExponent < 1 / 2 := by
    have hpow : (2 : ℚ) ^ (-1075 : ℤ) = 1 / 2 * 2 ^ minExponent := by
      rw [show (-1075 : ℤ) = -1 + minExponent from rfl, zpow_add₀ two_ne_zero, zpow_neg_one,
        one_div]
    rw [div_lt_iff₀ hunit, ← hpow]
    exact hsmall
  have hnonneg : 0 ≤ q / 2 ^ minExponent := div_nonneg hq hunit.le
  have hlimit : q < limit := lt_limit hsmall (by decide)
  refine ⟨fun _ => ⟨0, minExponent, rfl, ?_⟩, fun hlarge => absurd hlarge (not_le.2 hlimit)⟩
  refine isNearest_of_grid (m := 0) (e := minExponent) ?_ rfl (fun _ => rfl)
    (fun hlt => absurd hlt (lt_irrefl _)) (fun k => ⟨?_, fun _ _ => rfl⟩)
  · exact ⟨Nat.pow_pos (by decide), le_rfl, by decide, .inr rfl⟩
  · rw [Nat.cast_zero, sub_zero, abs_of_nonneg hnonneg]
    rcases le_or_gt k 0 with hk | hk
    · have hrat : (k : ℚ) ≤ 0 := by exact_mod_cast hk
      linarith [le_abs_self (q / 2 ^ minExponent - k)]
    · have hrat : (1 : ℚ) ≤ k := by exact_mod_cast hk
      linarith [neg_abs_le (q / 2 ^ minExponent - k)]

/-- **`round` rounds to the nearest value.** -/
theorem isRounding_round (negative : Bool) (num : Nat) (hden : 0 < den) :
    IsRounding negative (num / den) (round negative num den) := by
  rcases Nat.eq_zero_or_pos num with rfl | hnum
  · rw [Nat.cast_zero, zero_div]
    exact isRounding_zero negative le_rfl (by positivity)
  · obtain ⟨e, m, hrounded, hround⟩ := exists_rounded negative hnum hden
    rw [hround]
    by_cases hmax : maxExponent < (carry m e).2
    · rw [if_pos hmax]
      exact ⟨fun hlt => absurd (hrounded.max_lt_iff.1 hmax) (not_le.2 hlt), fun _ => rfl⟩
    · rw [if_neg hmax]
      exact ⟨fun _ => ⟨_, _, rfl, hrounded.isNearest negative (not_lt.1 hmax)⟩,
        fun hlarge => absurd (hrounded.max_lt_iff.2 hlarge) hmax⟩

/-- `10^(k-1) ≤ n < 10^k` for the number `k` of decimal digits of `n`. -/
theorem length_toDigits_bounds {n : Nat} (h : n ≠ 0) :
    10 ^ ((Nat.toDigits 10 n).length - 1) ≤ n ∧ n < 10 ^ (Nat.toDigits 10 n).length := by
  have hpos : 0 < (Nat.toDigits 10 n).length := Nat.length_toDigits_pos
  refine ⟨?_, (Nat.length_toDigits_le_iff (by decide) hpos).1 le_rfl⟩
  rcases Nat.eq_zero_or_pos ((Nat.toDigits 10 n).length - 1) with hone | hmore
  · rw [hone]
    exact Nat.pos_of_ne_zero h
  · by_contra hlt
    have hle := (Nat.length_toDigits_le_iff (by decide) hmore).2 (not_le.1 hlt)
    omega

variable {digits n : Nat} {exponent : ℤ}

theorem limit_le_ten_zpow : limit ≤ 10 ^ (310 : ℤ) := by
  have hnat : 2 ^ 1024 ≤ 10 ^ 310 := by decide +kernel
  calc limit ≤ 2 ^ 1024 := sub_le_self _ (by positivity)
    _ ≤ 10 ^ 310 := by exact_mod_cast hnat
    _ = 10 ^ (310 : ℤ) := (zpow_natCast 10 310).symm

theorem ten_zpow_lt_half : (10 : ℚ) ^ (-331 : ℤ) < 2 ^ (-1075 : ℤ) := by
  have hnat : 2 ^ 1075 < 10 ^ 331 := by decide +kernel
  rw [zpow_neg, zpow_neg]
  apply inv_strictAnti₀ (by positivity)
  exact_mod_cast hnat

/-- A decimal of at least `10^310` reaches `limit`. -/
theorem limit_le_decimal (h : 10 ^ n ≤ digits) (hlarge : 310 ≤ exponent + n) :
    limit ≤ digits * 10 ^ exponent := by
  have hrat : (10 : ℚ) ^ (n : ℤ) ≤ digits := by
    rw [zpow_natCast]
    exact_mod_cast h
  calc limit ≤ 10 ^ (310 : ℤ) := limit_le_ten_zpow
    _ ≤ 10 ^ (n + exponent) := zpow_le_zpow_right₀ (by norm_num) (by omega)
    _ = 10 ^ (n : ℤ) * 10 ^ exponent := zpow_add₀ (by norm_num) _ _
    _ ≤ digits * 10 ^ exponent := mul_le_mul_of_nonneg_right hrat (by positivity)

/-- A decimal below `10^(-330)` is below `2^(-1075)`. -/
theorem decimal_lt_half (h : digits < 10 ^ n) (hsmall : exponent + n < -330) :
    (digits : ℚ) * 10 ^ exponent < 2 ^ (-1075 : ℤ) := by
  have hrat : (digits : ℚ) < 10 ^ (n : ℤ) := by
    rw [zpow_natCast]
    exact_mod_cast h
  calc (digits : ℚ) * 10 ^ exponent < 10 ^ (n : ℤ) * 10 ^ exponent :=
        mul_lt_mul_of_pos_right hrat (by positivity)
    _ = 10 ^ (n + exponent) := (zpow_add₀ (by norm_num) _ _).symm
    _ ≤ 10 ^ (-331 : ℤ) := zpow_le_zpow_right₀ (by norm_num) (by omega)
    _ < 2 ^ (-1075 : ℤ) := ten_zpow_lt_half

/-- **`ofDecimal` rounds to the nearest value**, also where it does not form the power of ten. -/
theorem isRounding_ofDecimal (negative : Bool) (digits : Nat) (exponent : ℤ) :
    IsRounding negative (digits * 10 ^ exponent) (ofDecimal negative digits exponent) := by
  unfold ofDecimal
  by_cases hzero : digits = 0
  · rw [hzero, if_pos (beq_self_eq_true 0), Nat.cast_zero, zero_mul]
    exact isRounding_zero negative le_rfl (by positivity)
  obtain ⟨hlow, hhigh⟩ := length_toDigits_bounds hzero
  have hpos : 0 < (Nat.toDigits 10 digits).length := Nat.length_toDigits_pos
  rw [if_neg (by simpa using hzero)]
  dsimp only
  split_ifs with hlarge hsmall hsign
  · exact ⟨fun hlt => absurd (limit_le_decimal hlow (by omega)) (not_le.2 hlt), fun _ => rfl⟩
  · exact isRounding_zero negative (by positivity) (decimal_lt_half hhigh (by omega))
  · have hround := isRounding_round negative (digits * Nat.pow 10 exponent.toNat) Nat.one_pos
    have heq : ((digits * Nat.pow 10 exponent.toNat : Nat) : ℚ) / (1 : Nat) =
        digits * 10 ^ exponent := by
      rw [Nat.cast_one, div_one, Nat.cast_mul, Nat.pow_eq, Nat.cast_pow, ← zpow_natCast,
        Int.toNat_of_nonneg hsign]
      rfl
    rwa [heq] at hround
  · have hround := isRounding_round negative digits (Nat.pow_pos (n := (-exponent).toNat)
      (show 0 < 10 by decide))
    have heq : (digits : ℚ) / (10 ^ (-exponent).toNat : Nat) = digits * 10 ^ exponent := by
      rw [Nat.cast_pow, ← zpow_natCast, Int.toNat_of_nonneg (by omega), zpow_neg, div_inv_eq_mul]
      rfl
    rwa [heq] at hround

theorem ofDecimal_eq_zero (negative : Bool) (h : digits < 10 ^ n) (hsmall : exponent + n < -330) :
    ofDecimal negative digits exponent = zero negative := by
  unfold ofDecimal
  by_cases hzero : digits = 0
  · rw [if_pos (by simpa using hzero)]
  · have hlow := (length_toDigits_bounds hzero).1
    have hsize : (Nat.toDigits 10 digits).length - 1 < n :=
      (Nat.pow_lt_pow_iff_right (by decide)).1 (hlow.trans_lt h)
    rw [if_neg (by simpa using hzero)]
    dsimp only
    rw [if_neg (by omega), if_pos (by omega)]

end SchemaPress.Decimal.Binary64
