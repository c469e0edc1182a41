import SchemaPress.Proofs.Decimal.Rounding
import SchemaPress.Proofs.Node.Numeral

/-!
# The quantities that numbers of a JSON text denote

`Measures` says which rational number a literal of JSON denotes, part by part: the integer part, the
digits behind the point and the power of ten.  The exact number is rounded when a literal is read
(`isRounding_of_measures`).  There is one exception: an exponent is read by its first five digits,
and so a literal that has thousands of digits besides may be read as another number.
-/

namespace SchemaPress.Decimal

variable {ds es : List Char}

/-! ### Digits -/

theorem foldl_digits (ds : List Char) (n : Nat) :
    ds.foldl (fun n c => n * 10 + (c.toNat - 48)) n = n * 10 ^ ds.length + ofDigits ds := by
  unfold ofDigits
  induction ds generalizing n with
  | nil => simp
  | cons c rest ih =>
    rw [List.foldl_cons, List.foldl_cons, ih, ih (0 * 10 + (c.toNat - 48)), List.length_cons]
    ring

theorem ofDigits_cons (c : Char) (ds : List Char) :
    ofDigits (c :: ds) = (c.toNat - 48) * 10 ^ ds.length + ofDigits ds := by
  rw [ofDigits, List.foldl_cons, foldl_digits, Nat.zero_mul, Nat.zero_add]

theorem ofDigits_append (ds es : List Char) :
    ofDigits (ds ++ es) = ofDigits ds * 10 ^ es.length + ofDigits es := by
  rw [ofDigits, List.foldl_append, foldl_digits]
  rfl

theorem ofDigits_lt (h : ∀ c ∈ ds, c.isDigit = true) : ofDigits ds < 10 ^ ds.length := by
  induction ds with
  | nil => decide
  | cons c rest ih =>
    have hc := h c List.mem_cons_self
    simp only [Char.isDigit, Bool.and_eq_true, decide_eq_true_eq] at hc
    have hle : c.toNat ≤ 57 := hc.2
    have hrest := ih fun d hd => h d (List.mem_cons_of_mem c hd)
    have hmul : (c.toNat - 48) * 10 ^ rest.length ≤ 9 * 10 ^ rest.length :=
      Nat.mul_le_mul_right _ (by omega)
    rw [ofDigits_cons, List.length_cons, pow_succ]
    omega

theorem ofDigits_dropWhile (ds : List Char) : ofDigits (ds.dropWhile (· == '0')) = ofDigits ds := by
  induction ds with
  | nil => rfl
  | cons c rest ih =>
    by_cases hc : c = '0'
    · subst hc
      rw [List.dropWhile_cons_of_pos rfl, ih, ofDigits_cons]
      simp
    · rw [List.dropWhile_cons_of_neg (by simpa using hc)]

theorem le_ofDigits {c : Char} (hc : c.isDigit = true) (hzero : c ≠ '0') (ds : List Char) :
    10 ^ ds.length ≤ ofDigits (c :: ds) := by
  have hpos : 1 ≤ c.toNat - 48 := by
    simp only [Char.isDigit, Bool.and_eq_true, decide_eq_true_eq] at hc
    have hge : 48 ≤ c.toNat := hc.1
    have hne : c.toNat ≠ 48 := fun heq => hzero (Char.toNat_inj.1 heq)
    omega
  rw [ofDigits_cons]
  exact le_trans (Nat.le_mul_of_pos_left _ hpos) (Nat.le_add_right _ _)

/-- **`exponent?` takes the first five digits after leading zeros**: that is the exponent, or both
are at least `10^4`. -/
theorem ofDigits_take_cases (h : ∀ c ∈ ds, c.isDigit = true) :
    ofDigits ((ds.dropWhile (· == '0')).take 5) = ofDigits ds ∨
      10 ^ 5 ≤ ofDigits ds ∧ 10 ^ 4 ≤ ofDigits ((ds.dropWhile (· == '0')).take 5) := by
  rw [← ofDigits_dropWhile ds]
  rcases hdrop : ds.dropWhile (· == '0') with _ | ⟨c, rest⟩
  · exact .inl rfl
  · have hmem : c ∈ ds := (List.dropWhile_sublist _).subset (hdrop ▸ List.mem_cons_self)
    have hzero : c ≠ '0' := by
      have hhead := List.head_dropWhile_not (· == '0') (l := ds) (by simp [hdrop])
      simpa [hdrop] using hhead
    by_cases hshort : rest.length ≤ 4
    · rw [List.take_of_length_le (by rw [List.length_cons]; omega)]
      exact .inl rfl
    · right
      have hlong := le_ofDigits (h c hmem) hzero rest
      have hcut := le_ofDigits (h c hmem) hzero (rest.take 4)
      rw [List.length_take, Nat.min_eq_left (by omega)] at hcut
      exact ⟨le_trans (Nat.pow_le_pow_right (by decide) (by omega)) hlong, hcut⟩

theorem takeDigits_append (h : ∀ c ∈ ds, c.isDigit = true) (rest : List Char)
    (hrest : ∀ c ∈ rest.head?, c.isDigit = false) : takeDigits (ds ++ rest) = (ds, rest) := by
  unfold takeDigits
  rw [List.takeWhile_append_of_pos h, List.dropWhile_append_of_pos h]
  cases rest with
  | nil => simp
  | cons c rest =>
    have hc : ¬ c.isDigit = true := by simp [hrest c rfl]
    rw [List.takeWhile_cons_of_neg hc, List.dropWhile_cons_of_neg hc, List.append_nil]

end SchemaPress.Decimal

namespace SchemaPress.Json

open Decimal Decimal.Binary64

/-! ### What a literal denotes -/

/-- The number `± significand * 10 ^ exponent`. -/
structure Quantity where
  negative : Bool
  significand : ℚ
  exponent : ℤ

namespace Quantity

/-- `significand · 10^exponent`. -/
def magnitude (q : Quantity) : ℚ :=
  q.significand * 10 ^ q.exponent

/-- `± significand · 10^exponent`. -/
def value (q : Quantity) : ℚ :=
  signedRat q.negative q.magnitude

end Quantity

/-- The value of the digits after the point, as a fraction. -/
inductive PartMeasures : List Char → ℚ → Prop
  | none : PartMeasures [] 0
  | point {ds : List Char} (hds : IsDigits ds) :
      PartMeasures ('.' :: ds) (ofDigits ds / 10 ^ ds.length)

/-- The value of the exponent. -/
inductive PowerMeasures : List Char → ℤ → Prop
  | none : PowerMeasures [] 0
  | up {e : Char} {sign ds : List Char} (he : e = 'e' ∨ e = 'E') (hsign : sign = [] ∨ sign = ['+'])
      (hds : IsDigits ds) : PowerMeasures (e :: (sign ++ ds)) (ofDigits ds)
  | down {e : Char} {ds : List Char} (he : e = 'e' ∨ e = 'E') (hds : IsDigits ds) :
      PowerMeasures (e :: '-' :: ds) (-(ofDigits ds : ℤ))

/-- The quantity that a literal denotes. -/
inductive Measures : List Char → Quantity → Prop
  | mk {whole part power : List Char} {f : ℚ} {k : ℤ} (negative : Bool) (hwhole : IsWhole whole)
      (hpart : PartMeasures part f) (hpower : PowerMeasures power k) :
      Measures (signText negative (whole ++ (part ++ power))) ⟨negative, ofDigits whole + f, k⟩

variable {cs part power : List Char} {f : ℚ} {k : ℤ} {q : Quantity}

theorem exists_partMeasures (h : IsPart part) : ∃ f, PartMeasures part f := by
  rcases h with rfl | ⟨ds, hds, rfl⟩
  exacts [⟨_, .none⟩, ⟨_, .point hds⟩]

theorem exists_powerMeasures (h : IsPower power) : ∃ k, PowerMeasures power k := by
  rcases h with rfl | ⟨e, sign, ds, he, rfl | rfl | rfl, hds, rfl⟩
  exacts [⟨_, .none⟩, ⟨_, .up he (.inl rfl) hds⟩, ⟨_, .up he (.inr rfl) hds⟩, ⟨_, .down he hds⟩]

/-- **Every numeral denotes a quantity.** -/
theorem IsNumeral.exists_measures (h : IsNumeral cs) : ∃ q, Measures cs q := by
  obtain ⟨hsign, hwhole, hpart, hpower⟩ := h
  obtain ⟨f, hf⟩ := exists_partMeasures hpart
  obtain ⟨k, hk⟩ := exists_powerMeasures hpower
  rcases hsign with rfl | rfl
  · have hmeasures := Measures.mk false hwhole hf hk
    exact ⟨_, by simpa [signText] using hmeasures⟩
  · have hmeasures := Measures.mk true hwhole hf hk
    exact ⟨_, by simpa [signText] using hmeasures⟩

theorem PartMeasures.isPart (h : PartMeasures part f) : IsPart part := by
  cases h with
  | none => exact .inl rfl
  | point hds => exact .inr ⟨_, hds, rfl⟩

theorem PowerMeasures.isPower (h : PowerMeasures power k) : IsPower power := by
  cases h with
  | none => exact .inl rfl
  | up he hsign hds =>
    rcases hsign with rfl | rfl
    exacts [.inr ⟨_, [], _, he, .inl rfl, hds, rfl⟩,
      .inr ⟨_, ['+'], _, he, .inr (.inl rfl), hds, rfl⟩]
  | down he hds => exact .inr ⟨_, ['-'], _, he, .inr (.inr rfl), hds, rfl⟩

theorem Measures.isNumeral (h : Measures cs q) : IsNumeral cs := by
  obtain ⟨negative, hwhole, hpart, hpower⟩ := h
  cases negative with
  | false =>
    have hnumeral := IsNumeral.mk (.inl rfl) hwhole hpart.isPart hpower.isPower
    simpa [signText] using hnumeral
  | true =>
    have hnumeral := IsNumeral.mk (.inr rfl) hwhole hpart.isPart hpower.isPower
    simpa [signText] using hnumeral

/-! ### How a literal is read -/

/-- The exponent `k` is read as `k'`: they are equal, or `10^5 ≤ |k|` and `10^4 ≤ |k'|` with the
same sign. -/
def PowerRead (k k' : ℤ) : Prop :=
  k' = k ∨ 10 ^ 5 ≤ k ∧ 10 ^ 4 ≤ k' ∨ k ≤ -10 ^ 5 ∧ k' ≤ -10 ^ 4

theorem takeSign_of_isDigits {ds : List Char} (h : IsDigits ds) : takeSign ds = (false, ds) := by
  obtain ⟨c, rest, rfl, hc⟩ := h.exists_cons
  rw [takeSign]
  · rintro _ heq
    rw [(List.cons.inj heq).1] at hc
    cases hc
  · rintro _ heq
    rw [(List.cons.inj heq).1] at hc
    cases hc

/-- `exponent?` of a letter, a sign and digits. -/
theorem exponent?_cons {e : Char} {ds rest : List Char} {negative : Bool} (he : e = 'e' ∨ e = 'E')
    (hds : IsDigits ds) (hsign : takeSign rest = (negative, ds)) :
    exponent? (e :: rest) =
      some (signInt negative (ofDigits ((ds.dropWhile (· == '0')).take 5))) := by
  have hletter : (e == 'e' || e == 'E') = true := by rcases he with rfl | rfl <;> rfl
  have hdigits : takeDigits ds = (ds, []) := by
    have happend := takeDigits_append hds.2 [] nofun
    rwa [List.append_nil] at happend
  have hne : (ds.isEmpty || !([] : List Char).isEmpty) = false := by simpa using hds.1
  rw [exponent?, if_pos hletter, hsign]
  dsimp only
  rw [hdigits]
  dsimp only
  rw [hne, if_neg Bool.false_ne_true]
  rfl

theorem exponent?_of_measures (h : PowerMeasures power k) :
    ∃ k', exponent? power = some k' ∧ PowerRead k k' := by
  cases h with
  | none => exact ⟨0, rfl, .inl rfl⟩
  | up he hsign hds =>
    rename_i e sign ds
    have htake : takeSign (sign ++ ds) = (false, ds) := by
      rcases hsign with rfl | rfl
      · exact takeSign_of_isDigits hds
      · rfl
    refine ⟨_, exponent?_cons he hds htake, ?_⟩
    rw [signInt, if_neg Bool.false_ne_true]
    rcases ofDigits_take_cases hds.2 with heq | ⟨hmeant, hread⟩
    · exact .inl (by rw [heq])
    · exact .inr (.inl ⟨by exact_mod_cast hmeant, by exact_mod_cast hread⟩)
  | down he hds =>
    refine ⟨_, exponent?_cons he hds rfl, ?_⟩
    rw [signInt, if_pos rfl]
    rcases ofDigits_take_cases hds.2 with heq | ⟨hmeant, hread⟩
    · exact .inl (by rw [heq])
    · exact .inr (.inr ⟨by omega, by omega⟩)

theorem PartMeasures.eq_div (h : PartMeasures part f) :
    (∀ c ∈ part.drop 1, c.isDigit = true) ∧
      f = ofDigits (part.drop 1) / 10 ^ (part.drop 1).length := by
  cases h with
  | none => exact ⟨nofun, by simp [ofDigits]⟩
  | point hds => exact ⟨hds.2, rfl⟩

/-- `Literal.parse?` reads the digits on both sides of the point as one number. -/
theorem parse?_signText {whole : List Char} (negative : Bool) (hwhole : IsWhole whole)
    (hpart : IsPart part) (hpower : IsPower power) :
    Literal.parse? (signText negative (whole ++ (part ++ power))) =
      (exponent? power).map fun e =>
        ⟨negative, ofDigits (whole ++ part.drop 1), e - (part.drop 1).length⟩ := by
  have hhead : ∀ c ∈ power.head?, c.isDigit = false ∧ c ≠ '.' := by
    have happend := hpower.head_append (show Stops [] from nofun)
    rwa [List.append_nil] at happend
  have hnodigit : NoDigit power := fun c hc => (hhead c hc).1
  have htake := takeDigits_append hwhole.isDigits.2 (part ++ power)
    (hpart.noDigit_append hnodigit)
  have hwholeNe : whole.isEmpty = false := by simpa using hwhole.isDigits.1
  unfold Literal.parse?
  rw [takeSign_signText hwhole]
  dsimp only
  rw [htake]
  dsimp only
  rcases hpart with rfl | ⟨ds, hds, rfl⟩
  · rw [List.nil_append]
    split
    · exact absurd rfl (hhead '.' rfl).2
    · rw [hwholeNe]
      rfl
  · simp only [List.cons_append, takeDigits_append hds.2 power hnodigit, hwholeNe, Bool.false_and,
      Bool.false_eq_true, if_false, List.drop_succ_cons, List.drop_zero]

/-- `Literal.parse?` of a literal that denotes `q`: `digits` is `q.significand · 10^places`, where
`places` digits stand after the point, and the exponent is as in `PowerRead`. -/
theorem parse?_of_measures (h : Measures cs q) :
    ∃ digits places k', Literal.parse? cs = some ⟨q.negative, digits, k' - (places : Nat)⟩ ∧
      (digits : ℚ) = q.significand * 10 ^ places ∧ PowerRead q.exponent k' ∧
      digits < 10 ^ cs.length ∧ places ≤ cs.length := by
  obtain ⟨negative, hwhole, hpart, hpower⟩ := h
  rename_i whole part power f k
  obtain ⟨k', hk', hread⟩ := exponent?_of_measures hpower
  obtain ⟨hdigits, hf⟩ := hpart.eq_div
  have hparse := parse?_signText negative hwhole hpart.isPart hpower.isPower
  have hall : ∀ c ∈ whole ++ part.drop 1, c.isDigit = true := by
    intro c hc
    rcases List.mem_append.1 hc with hc | hc
    exacts [hwhole.isDigits.2 c hc, hdigits c hc]
  have hlength : (whole ++ part.drop 1).length ≤
      (signText negative (whole ++ (part ++ power))).length := by
    unfold signText
    split_ifs <;> simp only [List.length_cons, List.length_append, List.length_drop] <;> omega
  refine ⟨ofDigits (whole ++ part.drop 1), (part.drop 1).length, k', by rw [hparse, hk']; rfl, ?_,
    hread, ?_, ?_⟩
  · rw [ofDigits_append, hf, add_mul, div_mul_cancel₀ _ (by positivity)]
    push_cast
    rfl
  · exact (ofDigits_lt hall).trans_le (Nat.pow_le_pow_right (by decide) hlength)
  · rw [List.length_append] at hlength
    omega

/-! ### Rounding -/

/-- The exponent is below `10^5`, so that it is read exactly, or the literal has at most 9000
characters, so that it overflows or vanishes anyhow. -/
def Moderate (cs : List Char) (q : Quantity) : Prop :=
  |q.exponent| < 10 ^ 5 ∨ cs.length ≤ 9000

/-- **`Literal.value` of a `Moderate` literal is the nearest float.** -/
theorem isRounding_of_measures (h : Measures cs q) (hmoderate : Moderate cs q) :
    ∃ l, Literal.parse? cs = some l ∧ IsRounding q.negative q.magnitude l.value := by
  obtain ⟨digits, places, k', hparse, hdigits, hread, hlt, hplaces⟩ := parse?_of_measures h
  refine ⟨_, hparse, ?_⟩
  unfold Literal.value
  dsimp only
  have hmagnitude : q.magnitude = digits * 10 ^ (q.exponent - places) := by
    rw [Quantity.magnitude, hdigits, zpow_sub₀ (by norm_num), zpow_natCast, mul_assoc,
      mul_div_cancel₀ _ (by positivity)]
  rw [hmagnitude]
  rcases hread with rfl | ⟨hmeant, hread⟩ | ⟨hmeant, hread⟩
  · exact isRounding_ofDecimal q.negative digits (q.exponent - places)
  · -- the number is zero or too large, whatever its digits are
    have hshort := hmoderate.resolve_left (by rw [abs_of_pos (by omega)]; omega)
    rcases Nat.eq_zero_or_pos digits with rfl | hpos
    · rw [Nat.cast_zero, zero_mul]
      exact isRounding_zero q.negative le_rfl (by positivity)
    · have hlarge {e : ℤ} (he : 310 ≤ e) : limit ≤ digits * 10 ^ e :=
        limit_le_decimal (n := 0) hpos (by omega)
      have hvalue := (isRounding_ofDecimal q.negative digits (k' - places)).infinite
        (hlarge (by omega))
      rw [hvalue]
      exact ⟨fun hlt => absurd (hlarge (by omega)) (not_le.2 hlt), fun _ => rfl⟩
  · -- the number is too small, whatever its digits are
    have hshort := hmoderate.resolve_left (by rw [abs_of_neg (by omega)]; omega)
    rw [ofDecimal_eq_zero q.negative hlt (by omega)]
    exact isRounding_zero q.negative (by positivity) (decimal_lt_half hlt (by omega))

end SchemaPress.Json
