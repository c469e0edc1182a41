import SchemaPress.Proofs.Json.Quantity
import SchemaPress.Proofs.Node.OfJson

/-!
# Reading the numbers of a JSON text

The node of a number keeps the literal, with a tag that says what to read it as.  An integer of 64
bits is read as that integer, and any other number as the float nearest to the quantity that the
literal denotes (`valueWithin_number`).  There are two exceptions (`valueWithin_misread`).  Integers
that need all 64 bits for their magnitude are tagged as floats, but read as unsigned integers, and
refused since these do not fit the tag.  Literals of many thousand digits may be read as another
number, since their exponents are cut.
-/

namespace SchemaPress.Json

open Decimal Decimal.Binary64 Spelling

variable {literal : String} {n : ℤ} {q : Quantity}

/-- `2^63 ≤ n < 2^64`. -/
def IsWord (n : ℤ) : Prop :=
  (Nat.pow 2 63 : Nat) ≤ n ∧ n < (Nat.pow 2 64 : Nat)

/-! ### Integers -/

theorem mem_signText {cs : List Char} {c : Char} (negative : Bool) (h : c ∈ cs) :
    c ∈ signText negative cs := by
  unfold signText
  split_ifs
  · exact List.mem_cons_of_mem '-' h
  · exact h

theorem not_isInteger_of_mark {c : Char} (hmem : c ∈ literal.toList) (hc : IsMark c) :
    ¬ IsInteger literal n := by
  intro hn
  obtain ⟨negative, ds, hds, hcs, -⟩ := isInteger_iff.1 hn
  exact not_isMark_of_mem hds (hcs ▸ hmem) hc

/-- A numeral with `IsInteger` consists of a sign and an `IsWhole`. -/
theorem IsInteger.exists_whole (h : IsNumeral literal.toList) (hn : IsInteger literal n) :
    ∃ negative whole, IsWhole whole ∧ literal.toList = signText negative whole ∧
      n = signInt negative (ofDigits whole) := by
  obtain ⟨negative, ds, hds, hcs, hvalue⟩ := isInteger_iff.1 hn
  obtain ⟨negative', whole, tail, hwhole, htail, hshape⟩ := h.exists_shape
  rcases htail with rfl | ⟨c, d, more, rfl, hc⟩
  · rw [List.append_nil] at hshape
    obtain ⟨rfl, rfl⟩ := signText_inj hds hwhole.isDigits (hcs.symm.trans hshape)
    exact ⟨negative, ds, hwhole, hcs, hvalue⟩
  · have hmem : c ∈ literal.toList := hshape ▸ mem_signText negative' (by simp)
    exact absurd hn (not_isInteger_of_mark hmem hc)

/-- A numeral with `IsInteger literal n` denotes `n`. -/
theorem IsInteger.value_eq (hn : IsInteger literal n) (h : Measures literal.toList q) :
    q.value = n := by
  obtain ⟨negative, ds, hds, hcs, rfl⟩ := isInteger_iff.1 hn
  have hplain : ∀ c ∈ literal.toList, ¬ IsMark c :=
    fun c hmem hc => not_isInteger_of_mark hmem hc hn
  generalize literal.toList = cs at h hcs hplain
  obtain ⟨negative', hwhole, hpart, hpower⟩ := h
  rename_i whole part power f k
  have hmem : ∀ c ∈ part ++ power, ¬ IsMark c := fun c hc =>
    hplain c (mem_signText negative' (List.mem_append_right whole hc))
  cases hpart with
  | point => exact absurd (.inl rfl) (hmem '.' List.mem_cons_self)
  | none =>
    cases hpower with
    | up he => exact absurd (.inr he) (hmem _ List.mem_cons_self)
    | down he => exact absurd (.inr he) (hmem _ List.mem_cons_self)
    | none =>
      rw [List.append_nil, List.append_nil] at hcs
      obtain ⟨rfl, rfl⟩ := signText_inj hwhole.isDigits hds hcs
      rw [Quantity.value, Quantity.magnitude, add_zero, zpow_zero, mul_one]
      unfold signedRat signInt
      split_ifs <;> simp

/-! ### Floats -/

theorem spelled?_float (h : IsNumeral literal.toList) (hint : int? literal.toList = none) :
    Scalar.spelled? .float literal = (finite? literal.toList).map .float := by
  have htimes : (Tag.float == .timestamp) = false := rfl
  rw [Scalar.spelled?, htimes, read?_numeral h, hint]
  cases finite? literal.toList <;> rfl

/-- `finite?` of a `Moderate` literal is the nearest float, or none if the magnitude reaches
`limit`. -/
theorem finite?_of_measures {cs : List Char} (h : Measures cs q) (hmoderate : Moderate cs q) :
    (q.magnitude < limit → ∃ m e, finite? cs = some (.finite q.negative m e) ∧
      IsNearest q.value (.finite q.negative m e)) ∧
    (limit ≤ q.magnitude → finite? cs = none) := by
  obtain ⟨l, hparse, hrounding⟩ := isRounding_of_measures h hmoderate
  unfold finite?
  rw [hparse, Option.map_some]
  constructor
  · intro hlt
    obtain ⟨m, e, hvalue, hnearest⟩ := hrounding.finite hlt
    rw [hvalue] at hnearest ⊢
    exact ⟨m, e, rfl, hnearest⟩
  · intro hlarge
    rw [hrounding.infinite hlarge]

/-! ### Numbers -/

/-- `Scalar.value?` of an integer `n`: `.int n` if `Fits n`, none if `IsWord n`, and a float
otherwise. -/
theorem value?_integer (h : IsNumeral literal.toList) (hn : IsInteger literal n) (line : Nat) :
    (Fits n → Scalar.value? ⟨Node.numberTag literal, literal, line⟩ = some (.int n)) ∧
    (IsWord n → Scalar.value? ⟨Node.numberTag literal, literal, line⟩ = none) ∧
    (¬ Fits n → ¬ IsWord n → Scalar.value? ⟨Node.numberTag literal, literal, line⟩ =
      (finite? literal.toList).map .float) := by
  obtain ⟨negative, whole, hwhole, hcs, rfl⟩ := hn.exists_whole h
  have htag := numberTag_whole hwhole hcs
  have hint := congrArg int? hcs
  rw [int?_whole hwhole] at hint
  have hpos : 0 < Nat.pow 2 63 := Nat.pow_pos (by decide)
  refine ⟨fun hfits => ?_, fun hword => ?_, fun hfits hword => ?_⟩
  · rw [if_pos hfits] at htag hint
    rw [htag]
    exact spelled?_int h hint
  · obtain ⟨hge, hlt⟩ := hword
    rw [if_neg fun hfits => not_lt.2 hge hfits.2] at htag hint
    rw [htag]
    cases negative with
    | true =>
      rw [signInt, if_pos rfl] at hge
      omega
    | false =>
      rw [signInt, if_neg Bool.false_ne_true] at hge hlt
      rw [word?, if_neg Bool.false_ne_true, Option.bind_some, if_pos (by omega)] at hint
      exact spelled?_float_of_large h hint hge
  · rw [if_neg hfits] at htag hint
    rw [htag]
    apply spelled?_float h
    rw [hint, word?]
    cases negative with
    | true => rfl
    | false =>
      unfold Fits at hfits
      unfold IsWord at hword
      rw [signInt, if_neg Bool.false_ne_true] at hfits hword
      rw [if_neg Bool.false_ne_true, Option.bind_some, if_neg (by omega)]

/-- `Scalar.value?` of a number that is no integer is a float. -/
theorem value?_of_not_integer (h : IsNumeral literal.toList) (hn : ∀ n, ¬ IsInteger literal n)
    (line : Nat) : Scalar.value? ⟨Node.numberTag literal, literal, line⟩ =
      (finite? literal.toList).map .float := by
  obtain ⟨negative, whole, tail, hwhole, htail, hcs⟩ := h.exists_shape
  rcases htail with rfl | ⟨c, d, more, rfl, hc⟩
  · rw [List.append_nil] at hcs
    exact absurd (isInteger_iff.2 ⟨negative, whole, hwhole.isDigits, hcs, rfl⟩) (hn _)
  · have hmem : c ∈ literal.toList := hcs ▸ mem_signText negative (by simp)
    rw [numberTag_of_mark hmem hc]
    exact spelled?_float h (hcs ▸ int?_tail hwhole hc)

end SchemaPress.Json

namespace SchemaPress.Node

open Json Decimal Decimal.Binary64

variable {literal : String} {q : Quantity}

/-- **How the numbers of a JSON text are read.**  If `IsInteger literal n`, the value is `.int n`
for `Fits n` and an error for `IsWord n`.  Any other `Moderate` literal is read as the nearest float
with its sign, or refused if its magnitude reaches `limit`. -/
theorem valueWithin_number (h : IsNumeral literal.toList) (levels depth : Nat) :
    ∃ node, ofJsonWithin levels (.number literal) = some node ∧
      (∃ q, Measures literal.toList q) ∧ ∀ q, Measures literal.toList q →
        (∀ n, IsInteger literal n → q.value = n ∧
          (Fits n → node.valueWithin #[] (depth + 1) = .ok (.int n)) ∧
          (IsWord n → node.valueWithin #[] (depth + 1) = .error (.badScalar 0))) ∧
        ((∀ n, IsInteger literal n → ¬ Fits n ∧ ¬ IsWord n) → Moderate literal.toList q →
          (q.magnitude < limit → ∃ m e,
            node.valueWithin #[] (depth + 1) = .ok (.float (.finite q.negative m e)) ∧
            IsNearest q.value (.finite q.negative m e)) ∧
          (limit ≤ q.magnitude → node.valueWithin #[] (depth + 1) = .error (.badScalar 0))) := by
  refine ⟨_, rfl, h.exists_measures, fun q hq => ⟨fun n hn => ?_, fun hother hmoderate => ?_⟩⟩
  · obtain ⟨hfits, hword, -⟩ := value?_integer h hn 0
    rw [valueWithin_scalar]
    refine ⟨hn.value_eq hq, fun hn => ?_, fun hn => ?_⟩
    · rw [hfits hn]
      rfl
    · rw [hword hn]
      rfl
  · have hvalue : Scalar.value? ⟨numberTag literal, literal, 0⟩ =
        (Spelling.finite? literal.toList).map .float := by
      by_cases hinteger : ∃ n, IsInteger literal n
      · obtain ⟨n, hn⟩ := hinteger
        exact (value?_integer h hn 0).2.2 (hother n hn).1 (hother n hn).2
      · exact value?_of_not_integer h (not_exists.1 hinteger) 0
    obtain ⟨hfinite, hinfinite⟩ := finite?_of_measures hq hmoderate
    rw [valueWithin_scalar, hvalue]
    constructor
    · intro hlt
      obtain ⟨m, e, heq, hnearest⟩ := hfinite hlt
      rw [heq]
      exact ⟨m, e, rfl, hnearest⟩
    · intro hlarge
      rw [hinfinite hlarge]
      rfl

/-- `9007199254740993` is halfway between two floats. -/
theorem measures_halfway : Measures "9007199254740993.0".toList ⟨false, 9007199254740993, 0⟩ := by
  have hall : ("9007199254740993".toList.all Char.isDigit) = true := by decide
  have hwhole : IsWhole "9007199254740993".toList :=
    .inr ⟨⟨by decide, List.all_eq_true.1 hall⟩, by decide⟩
  have hmeasures := Measures.mk false hwhole (.point (isDigits_singleton (c := '0') rfl)) .none
  have hvalue : (ofDigits "9007199254740993".toList : ℚ) + ofDigits ['0'] / 10 ^ ['0'].length =
      9007199254740993 := by
    have hwhole : ofDigits "9007199254740993".toList = 9007199254740993 := by decide
    have hpart : ofDigits ['0'] = 0 := by decide
    rw [hwhole, hpart]
    norm_num
  rw [hvalue] at hmeasures
  exact hmeasures

theorem valueWithin_number_halfway :
    IsNumeral "9007199254740993.0".toList ∧
    ∃ node, ofJsonWithin 0 (.number "9007199254740993.0") = some node ∧ ∃ m e,
      node.valueWithin #[] 1 = .ok (.float (.finite false m e)) ∧
      IsNearest 9007199254740993 (.finite false m e) := by
  obtain ⟨node, hnode, -, hread⟩ := valueWithin_number measures_halfway.isNumeral 0 0
  have hpoint : ∀ n, ¬ IsInteger "9007199254740993.0" n := fun n =>
    not_isInteger_of_mark (c := '.') (by decide) (.inl rfl)
  have hvalue : (⟨false, 9007199254740993, 0⟩ : Quantity).magnitude = 9007199254740993 := by
    rw [Quantity.magnitude, zpow_zero, mul_one]
  have hlimit : (9007199254740993 : ℚ) < limit := lt_limit (k := 54) (by norm_num) (by decide)
  obtain ⟨m, e, hfloat, hnearest⟩ := ((hread _ measures_halfway).2
    (fun n hn => absurd hn (hpoint n)) (.inl (by decide))).1 (hvalue.trans_lt hlimit)
  rw [Quantity.value, hvalue] at hnearest
  exact ⟨measures_halfway.isNumeral, node, hnode, m, e, hfloat, hnearest⟩

/-- A literal with `zeros` zeros behind its point and an exponent of more than five digits. -/
def longLiteral (zeros : Nat) : String :=
  String.ofList (['0'] ++ ('.' :: (List.replicate zeros '0' ++ ['1']) ++ "e100000".toList))

section

variable (zeros : Nat)

theorem isDigits_longLiteral : IsDigits (List.replicate zeros '0' ++ ['1']) := by
  refine ⟨by simp, fun c hc => ?_⟩
  rcases List.mem_append.1 hc with hc | hc
  · rw [List.eq_of_mem_replicate hc]
    rfl
  · rw [List.mem_singleton.1 hc]
    rfl

theorem ofDigits_longLiteral : ofDigits (List.replicate zeros '0' ++ ['1']) = 1 := by
  have hzeros : ∀ c ∈ List.replicate zeros '0', (c == '0') = true := by
    intro c hc
    rw [List.eq_of_mem_replicate hc]
    rfl
  rw [← ofDigits_dropWhile, List.dropWhile_append_of_pos hzeros]
  rfl

theorem powerMeasures_longLiteral : PowerMeasures "e100000".toList 100000 := by
  have hall : ("100000".toList.all Char.isDigit) = true := by decide
  exact .up (.inl rfl) (.inl rfl) ⟨by decide, List.all_eq_true.1 hall⟩

theorem measures_longLiteral :
    Measures (longLiteral zeros).toList ⟨false, 1 / 10 ^ (zeros + 1), 100000⟩ := by
  have hmeasures := Measures.mk false (.inl rfl) (.point (isDigits_longLiteral zeros))
    powerMeasures_longLiteral
  rw [ofDigits_longLiteral, show ofDigits ['0'] = 0 from rfl, List.length_append,
    List.length_replicate, Nat.cast_zero, zero_add, Nat.cast_one] at hmeasures
  rw [longLiteral, String.toList_ofList]
  exact hmeasures

/-- The exponent is read as `10^4`, and that does not make up for the zeros. -/
theorem finite?_longLiteral (h : 10331 ≤ zeros) :
    Spelling.finite? (longLiteral zeros).toList = some (zero false) := by
  have hparse := parse?_signText false (.inl rfl) (.inr ⟨_, isDigits_longLiteral zeros, rfl⟩)
    powerMeasures_longLiteral.isPower
  have hexponent : exponent? "e100000".toList = some 10000 := by decide
  have hdigits : ofDigits (['0'] ++ (List.replicate zeros '0' ++ ['1'])) = 1 := by
    rw [ofDigits_append, ofDigits_longLiteral, show ofDigits ['0'] = 0 from rfl, Nat.zero_mul]
  rw [hexponent, Option.map_some, List.drop_succ_cons, List.drop_zero, hdigits,
    List.length_append, List.length_replicate, signText, if_neg Bool.false_ne_true] at hparse
  have hvalue :
      Literal.value ⟨false, 1, 10000 - ((zeros + ['1'].length : Nat) : ℤ)⟩ = zero false := by
    show ofDecimal false 1 (10000 - ((zeros + ['1'].length : Nat) : ℤ)) = zero false
    apply ofDecimal_eq_zero (n := 1) false (by decide)
    rw [List.length_singleton]
    omega
  rw [longLiteral, String.toList_ofList, Spelling.finite?, hparse, Option.map_some, hvalue]
  rfl

end

/-- `2^64 - 1`. -/
def greatestWord : String :=
  "18446744073709551615"

theorem isWhole_greatestWord : IsWhole greatestWord.toList := by
  have hall : (greatestWord.toList.all Char.isDigit) = true := by decide
  exact .inr ⟨⟨by decide, List.all_eq_true.1 hall⟩, by decide⟩

theorem measures_greatestWord :
    Measures greatestWord.toList ⟨false, ofDigits greatestWord.toList, 0⟩ := by
  have hmeasures := Measures.mk false isWhole_greatestWord .none .none
  rw [add_zero] at hmeasures
  exact hmeasures

/-- **Numbers that are not read as the quantity they denote**: `2^64 - 1` is refused, and
`longLiteral 99999`, which denotes `1`, is read as zero. -/
theorem valueWithin_misread :
    (∃ q node, Measures greatestWord.toList q ∧ q.magnitude < limit ∧
      ofJsonWithin 0 (.number greatestWord) = some node ∧
      node.valueWithin #[] 1 = .error (.badScalar 0)) ∧
    ∃ q node, Measures (longLiteral 99999).toList q ∧ q.value = 1 ∧
      ofJsonWithin 0 (.number (longLiteral 99999)) = some node ∧
      node.valueWithin #[] 1 = .ok (.float (zero false)) := by
  constructor
  · have hdigits : ofDigits greatestWord.toList = 18446744073709551615 := by decide
    have hinteger : IsInteger greatestWord (ofDigits greatestWord.toList) :=
      ⟨_, isWhole_greatestWord.isDigits, .inl ⟨rfl, rfl⟩⟩
    have hword : IsWord (ofDigits greatestWord.toList) := by
      rw [hdigits]
      exact ⟨by decide, by decide⟩
    refine ⟨_, _, measures_greatestWord, ?_, rfl, ?_⟩
    · rw [Quantity.magnitude, zpow_zero, mul_one, hdigits]
      exact lt_limit (k := 64) (by norm_num) (by decide)
    · rw [valueWithin_scalar,
        (value?_integer measures_greatestWord.isNumeral hinteger 0).2.1 hword]
      rfl
  · have hmeasures := measures_longLiteral 99999
    have hletter : ∀ n, ¬ IsInteger (longLiteral 99999) n := by
      intro n
      apply not_isInteger_of_mark (c := '.') _ (.inl rfl)
      rw [longLiteral, String.toList_ofList]
      exact List.mem_cons_of_mem _ List.mem_cons_self
    refine ⟨_, _, hmeasures, ?_, rfl, ?_⟩
    · rw [Quantity.value, signedRat, if_neg Bool.false_ne_true, Quantity.magnitude, ← zpow_natCast]
      exact one_div_mul_cancel (by positivity)
    · rw [valueWithin_scalar, value?_of_not_integer hmeasures.isNumeral hletter,
        finite?_longLiteral 99999 (by decide)]
      rfl

end SchemaPress.Node
