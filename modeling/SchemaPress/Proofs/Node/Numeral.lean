import SchemaPress.Node.OfJson
import SchemaPress.Proofs.Json.Grammar
import SchemaPress.Value.Exchange

/-!
# The numbers of a JSON text

A number of a JSON text becomes a scalar that keeps the literal, and what the scalar denotes is read
from the literal again, by rules that know more spellings than JSON has.  On the literals of JSON
they agree with the plain reading (`value?_number`): an integer of 64 bits is that integer, and any
other number that denotes something is the float nearest to it.

A literal is taken apart into a sign, digits, and a tail that starts with a point or an exponent
(`Shape`).  No rule takes a tail for a part of an integer, and a leading zero is a number of base
eight only if digits follow, which they do not.
-/

namespace SchemaPress.Json

open Decimal Spelling

/-- A literal that is written as the integer `n`: digits only, or a minus sign and digits. -/
def IsInteger (literal : String) (n : Int) : Prop :=
  ∃ ds, IsDigits ds ∧ (literal.toList = ds ∧ n = ofDigits ds ∨
    literal.toList = '-' :: ds ∧ n = -(ofDigits ds : Int))

/-- `-2^63 ≤ n < 2^63`. -/
def Fits (n : Int) : Prop :=
  -(Nat.pow 2 63 : Nat) ≤ n ∧ n < (Nat.pow 2 63 : Nat)

instance (n : Int) : Decidable (Fits n) :=
  inferInstanceAs (Decidable (_ ∧ _))

/-! ### The parts of a literal -/

/-- The characters `.`, `e` and `E`, which an integer does not have. -/
def IsMark (c : Char) : Prop :=
  c = '.' ∨ c = 'e' ∨ c = 'E'

/-- Nothing, or an `IsMark` and more: what follows the integer part of a numeral. -/
def IsTail (tail : List Char) : Prop :=
  tail = [] ∨ ∃ c d more, tail = c :: d :: more ∧ IsMark c

/-- `cs`, with a minus sign in front if `negative`. -/
def signText (negative : Bool) (cs : List Char) : List Char :=
  if negative then '-' :: cs else cs

/-- `-n` if `negative`, otherwise `n`. -/
def signInt (negative : Bool) (n : Nat) : Int :=
  if negative then -(n : Int) else n

/-- `cs` is a sign, an `IsWhole` and an `IsTail`. -/
def Shape (negative : Bool) (whole tail cs : List Char) : Prop :=
  IsWhole whole ∧ IsTail tail ∧ cs = signText negative (whole ++ tail)

variable {cs whole tail ds : List Char} {negative : Bool} {literal : String} {n : Int}

theorem isTail_append {part power : List Char} (hpart : IsPart part) (hpower : IsPower power) :
    IsTail (part ++ power) := by
  rcases hpart with rfl | ⟨ds, hds, rfl⟩
  · rcases hpower with rfl | ⟨e, sign, ds, he, hsign, hds, rfl⟩
    · exact .inl rfl
    · obtain ⟨d, more, rfl, -⟩ := hds.exists_cons
      right
      rcases hsign with rfl | rfl | rfl
      exacts [⟨e, d, _, rfl, .inr he⟩, ⟨e, '+', _, rfl, .inr he⟩, ⟨e, '-', _, rfl, .inr he⟩]
  · obtain ⟨d, more, rfl, -⟩ := hds.exists_cons
    exact .inr ⟨'.', d, _, rfl, .inl rfl⟩

theorem IsNumeral.exists_shape (h : IsNumeral cs) :
    ∃ negative whole tail, Shape negative whole tail cs := by
  obtain ⟨hsign, hwhole, hpart, hpower⟩ := h
  rcases hsign with rfl | rfl
  · exact ⟨false, _, _, hwhole, isTail_append hpart hpower, by simp [signText]⟩
  · exact ⟨true, _, _, hwhole, isTail_append hpart hpower, by simp [signText]⟩

theorem IsWhole.isDigits (h : IsWhole ds) : IsDigits ds := by
  rcases h with rfl | h
  · exact isDigits_singleton rfl
  · exact h.1

/-! ### Digits -/

/-- The value of a character as a digit, or one that is too large for any base. -/
def digitValue (c : Char) : Nat :=
  if c.isDigit then c.toNat - 48
  else if 'a' ≤ c && c ≤ 'z' then c.toNat - 87
  else if 'A' ≤ c && c ≤ 'Z' then c.toNat - 55
  else 36

/-- `base * n` plus the value of `c`, if `c` is a digit of the base. -/
def pushDigit? (base n : Nat) (c : Char) : Option Nat :=
  if digitValue c < base then some (n * base + digitValue c) else none

theorem foldl_bind_eq_foldlM {α β : Type} (f : β → α → Option β) (cs : List α) (acc : Option β) :
    cs.foldl (fun acc c => acc.bind fun n => f n c) acc = acc.bind fun n => cs.foldlM f n := by
  induction cs generalizing acc with
  | nil => cases acc <;> rfl
  | cons c rest ih =>
    rw [List.foldl_cons, ih]
    cases acc with
    | none => rfl
    | some n => rfl

theorem natOfBase?_eq_foldlM {base : Nat} {empty : Bool} (h : cs.isEmpty = false ∨ empty = true) :
    natOfBase? base empty cs = cs.foldlM (pushDigit? base) 0 := by
  have hcond : (cs.isEmpty && !empty) = false := by rcases h with h | h <;> simp [h]
  rw [natOfBase?, hcond, if_neg Bool.false_ne_true]
  exact foldl_bind_eq_foldlM (pushDigit? base) cs (some 0)

theorem pushDigit?_of_isDigit {c : Char} (h : c.isDigit = true) (n : Nat) :
    pushDigit? 10 n c = some (n * 10 + (c.toNat - 48)) := by
  have hvalue : digitValue c = c.toNat - 48 := if_pos h
  have hle : c.toNat ≤ 57 := by
    simp only [Char.isDigit, Bool.and_eq_true, decide_eq_true_eq] at h
    exact h.2
  rw [pushDigit?, hvalue, if_pos (by omega)]

/-- A mark or a sign is no digit of a base up to ten. -/
theorem pushDigit?_eq_none {base : Nat} {c : Char} (hbase : base ≤ 10)
    (hc : IsMark c ∨ c = '-') (n : Nat) : pushDigit? base n c = none := by
  have hvalue : 10 ≤ digitValue c := by
    rcases hc with (rfl | rfl | rfl) | rfl <;> decide
  rw [pushDigit?, if_neg (by omega)]

theorem natOfBase?_ten (h : IsDigits ds) : natOfBase? 10 false ds = some (ofDigits ds) := by
  rw [natOfBase?_eq_foldlM (.inl (by simpa using h.1)), ofDigits]
  obtain ⟨-, hall⟩ := h
  generalize (0 : Nat) = n
  induction ds generalizing n with
  | nil => rfl
  | cons c rest ih =>
    rw [List.foldlM_cons, pushDigit?_of_isDigit (hall c List.mem_cons_self)]
    exact ih (fun c hc => hall c (List.mem_cons_of_mem _ hc)) _

theorem natOfBase?_eq_none {base : Nat} {c : Char} (hbase : base ≤ 10) (hmem : c ∈ cs)
    (hc : IsMark c ∨ c = '-') : natOfBase? base false cs = none := by
  have hne : cs.isEmpty = false := by simpa using List.ne_nil_of_mem hmem
  rw [natOfBase?_eq_foldlM (.inl hne)]
  clear hne
  generalize (0 : Nat) = n
  induction cs generalizing n with
  | nil => cases hmem
  | cons d rest ih =>
    rw [List.foldlM_cons]
    rcases List.mem_cons.1 hmem with rfl | hmem
    · rw [pushDigit?_eq_none hbase hc]
      rfl
    · cases pushDigit? base n d with
      | none => rfl
      | some m => exact ih hmem m

/-! ### Integers -/

theorem natOfMark?_cons {c : Char} (hc : c ≠ '0') :
    natOfMark? (c :: cs) = natOfBase? 10 false (c :: cs) := by
  rw [natOfMark?]
  · exact fun _ _ _ heq => hc (List.cons.inj heq).1
  · exact fun _ heq => hc (List.cons.inj heq).1

theorem natOfMark?_whole (h : IsWhole whole) : natOfMark? whole = some (ofDigits whole) := by
  rcases h.eq_zero_or with rfl | ⟨c, more, rfl, hc, hds⟩
  · rfl
  · rw [natOfMark?_cons hc, natOfBase?_ten hds]

/-- `natOfMark?` does not read a numeral with a tail. -/
theorem natOfMark?_append_cons {c d : Char} {more : List Char} (h : IsWhole whole) (hc : IsMark c) :
    natOfMark? (whole ++ c :: d :: more) = none := by
  rcases h.eq_zero_or with rfl | ⟨b, rest, rfl, hb, -⟩
  · have hbase : natOfBase? 8 false (c :: d :: more) = none :=
      natOfBase?_eq_none (by decide) List.mem_cons_self (.inl hc)
    rcases hc with rfl | rfl | rfl <;> simpa [natOfMark?] using hbase
  · have hmem : c ∈ b :: (rest ++ c :: d :: more) := by simp
    rw [List.cons_append, natOfMark?_cons hb, natOfBase?_eq_none (by decide) hmem (.inl hc)]

theorem natOfMark?_minus : natOfMark? ('-' :: cs) = none := by
  rw [natOfMark?_cons (by decide), natOfBase?_eq_none (by decide) List.mem_cons_self (.inr rfl)]

theorem takeSign_signText (h : IsWhole whole) :
    takeSign (signText negative (whole ++ tail)) = (negative, whole ++ tail) := by
  cases negative with
  | true => rfl
  | false =>
    obtain ⟨c, more, rfl, hc⟩ := h.exists_cons
    rw [signText, if_neg Bool.false_ne_true, List.cons_append, takeSign]
    all_goals
      rintro _ heq
      rw [(List.cons.inj heq).1] at hc
      cases hc

theorem takeSign_whole (h : IsWhole whole) :
    takeSign (signText negative whole) = (negative, whole) := by
  have hsign : takeSign (signText negative (whole ++ [])) = (negative, whole ++ []) :=
    takeSign_signText h
  rwa [List.append_nil] at hsign

theorem signed?_eq (m : Nat) : signed? negative m =
    if Fits (signInt negative m) then some (signInt negative m) else none := by
  have hpos : 0 < Nat.pow 2 63 := by decide
  cases negative with
  | true =>
    have hfits : m ≤ Nat.pow 2 63 ↔ Fits (signInt true m) := by
      unfold Fits
      rw [signInt, if_pos rfl]
      omega
    rw [signed?, if_pos rfl]
    exact if_congr hfits rfl rfl
  | false =>
    have hfits : m < Nat.pow 2 63 ↔ Fits (signInt false m) := by
      unfold Fits
      rw [signInt, if_neg Bool.false_ne_true]
      omega
    rw [signed?, if_neg Bool.false_ne_true]
    exact if_congr hfits rfl rfl

/-- `int?` of a numeral without a tail: `n` if `Fits n`, or if `n` is unsigned and has 64 bits. -/
theorem int?_whole (h : IsWhole whole) : int? (signText negative whole) =
    if Fits (signInt negative (ofDigits whole)) then some (signInt negative (ofDigits whole))
    else word? (if negative then none else some (ofDigits whole)) := by
  have hword : natOfMark? (signText negative whole) =
      if negative then none else some (ofDigits whole) := by
    cases negative with
    | true => exact natOfMark?_minus
    | false => exact natOfMark?_whole h
  unfold int?
  rw [takeSign_whole h]
  dsimp only
  rw [natOfMark?_whole h, Option.bind_some, signed?_eq, hword]
  split_ifs <;> rfl

theorem int?_tail {c d : Char} {more : List Char} (h : IsWhole whole) (hc : IsMark c) :
    int? (signText negative (whole ++ c :: d :: more)) = none := by
  unfold int?
  rw [takeSign_signText h]
  dsimp only
  rw [natOfMark?_append_cons h hc, Option.bind_none]
  cases negative with
  | true =>
    rw [signText, if_pos rfl, natOfMark?_minus]
    rfl
  | false =>
    rw [signText, if_neg Bool.false_ne_true, natOfMark?_append_cons h hc]
    rfl

/-! ### The tag of a number -/

theorem intOfBase?_whole (h : IsWhole whole) : intOfBase? 10 (signText negative whole) =
    if Fits (signInt negative (ofDigits whole)) then some (signInt negative (ofDigits whole))
    else none := by
  unfold intOfBase?
  rw [takeSign_whole h]
  dsimp only
  rw [natOfBase?_ten h.isDigits, Option.bind_some, signed?_eq]

theorem numberTag_of_mark {c : Char} (hmem : c ∈ literal.toList) (hc : IsMark c) :
    Node.numberTag literal = .float := by
  have hany : literal.toList.any (fun c => c == '.' || c == 'e' || c == 'E') = true := by
    refine List.any_eq_true.2 ⟨c, hmem, ?_⟩
    rcases hc with rfl | rfl | rfl <;> rfl
  rw [Node.numberTag, if_pos hany]

theorem not_isMark_of_isDigit {c : Char} (h : c.isDigit = true) : ¬ IsMark c := by
  rintro (rfl | rfl | rfl) <;> cases h

theorem not_isMark_of_mem {c : Char} (h : IsDigits ds) (hmem : c ∈ signText negative ds) :
    ¬ IsMark c := by
  unfold signText at hmem
  split_ifs at hmem
  · rcases List.mem_cons.1 hmem with rfl | hmem
    · rintro (hc | hc | hc) <;> cases hc
    · exact not_isMark_of_isDigit (h.2 c hmem)
  · exact not_isMark_of_isDigit (h.2 c hmem)

theorem numberTag_whole (h : IsWhole whole) (hcs : literal.toList = signText negative whole) :
    Node.numberTag literal = if Fits (signInt negative (ofDigits whole)) then .int else .float := by
  have hany : literal.toList.any (fun c => c == '.' || c == 'e' || c == 'E') = false := by
    refine List.any_eq_false.2 fun c hc => ?_
    have hmark := not_isMark_of_mem h.isDigits (hcs ▸ hc)
    simpa [IsMark, or_assoc] using hmark
  rw [Node.numberTag, hany, if_neg Bool.false_ne_true, hcs, intOfBase?_whole h]
  by_cases hfits : Fits (signInt negative (ofDigits whole))
  · rw [if_pos hfits, if_pos hfits]
    rfl
  · rw [if_neg hfits, if_neg hfits]
    rfl

/-! ### What a literal denotes -/

/-- Whether a text starts with a digit, or with a minus sign and a digit. -/
def leadsDigit : List Char → Bool
  | '-' :: c :: _ => c.isDigit
  | c :: _ => c.isDigit
  | [] => false

theorem leadsDigit_signText (h : IsWhole whole) :
    leadsDigit (signText negative (whole ++ tail)) = true := by
  obtain ⟨c, more, rfl, hc⟩ := h.exists_cons
  cases negative with
  | true => exact hc
  | false =>
    rw [signText, if_neg Bool.false_ne_true, List.cons_append]
    unfold leadsDigit
    split
    · rename_i heq
      rw [(List.cons.inj heq).1] at hc
      cases hc
    · rename_i heq
      rw [← (List.cons.inj heq).1]
      exact hc
    · rename_i heq
      cases heq

theorem named?_eq_none (h : leadsDigit literal.toList = true) : named? literal = none := by
  have hnot : ∀ names : List String, (∀ name ∈ names, leadsDigit name.toList = false) →
      literal ∉ names := by
    intro names hnames hmem
    rw [hnames literal hmem] at h
    cases h
  rw [named?, if_neg (hnot _ (by decide)), if_neg (hnot _ (by decide)), if_neg (hnot _ (by decide)),
    if_neg (hnot _ (by decide)), if_neg (hnot _ (by decide)), if_neg (hnot _ (by decide))]

theorem exists_cons_of_leadsDigit (h : leadsDigit cs = true) :
    ∃ c more, cs = c :: more ∧ (c = '-' ∨ c.isDigit = true) := by
  unfold leadsDigit at h
  split at h
  · exact ⟨_, _, rfl, .inl rfl⟩
  · exact ⟨_, _, rfl, .inr h⟩
  · cases h

theorem read?_of_leadsDigit (h : leadsDigit literal.toList = true) :
    read? false literal = Spelling.number? literal.toList := by
  obtain ⟨c, more, hcs, hc⟩ := exists_cons_of_leadsDigit h
  have hstart : (c == '+' || c == '-' || c.isDigit) = true := by
    rcases hc with rfl | hc
    · rfl
    · rw [hc, Bool.or_true]
  have hpoint : c ≠ '.' := by
    rintro rfl
    rcases hc with hc | hc <;> cases hc
  unfold read?
  rw [named?_eq_none h, hcs]
  dsimp only [Option.orElse]
  split
  · rename_i heq
    exact absurd (List.cons.inj heq).1 hpoint
  · rename_i heq
    cases heq
    rw [if_pos hstart]
    rfl
  · rename_i heq
    cases heq

/-- A numeral has no mark of a base after its zero. -/
theorem markedInt?_eq_none {mark : Char} {base : Nat} (hwhole : IsWhole whole) (htail : IsTail tail)
    (hmark : mark = 'b' ∨ mark = 'o') :
    markedInt? mark base (signText negative (whole ++ tail)) = none := by
  obtain ⟨b, more, hcons, hb⟩ := hwhole.exists_cons
  -- after a zero comes nothing but the tail
  have hzero : ∀ {c : Char} {rest : List Char}, whole ++ tail = '0' :: c :: rest →
      ¬ (c == mark) = true := by
    intro c rest heq
    rcases hwhole.eq_zero_or with rfl | ⟨b', more', rfl, hb', -⟩
    · rcases htail with rfl | ⟨c', d, rest', rfl, hc⟩
      · cases heq
      · cases heq
        rcases hc with rfl | rfl | rfl <;> rcases hmark with rfl | rfl <;> decide
    · exact absurd (List.cons.inj heq).1 hb'
  unfold markedInt? signText
  cases negative with
  | false =>
    rw [if_neg Bool.false_ne_true]
    split
    · exact if_neg (hzero ‹_›)
    · rename_i heq
      rw [hcons] at heq
      rw [(List.cons.inj heq).1] at hb
      cases hb
    · rfl
  | true =>
    rw [if_pos rfl]
    split
    · rename_i heq
      exact absurd (List.cons.inj heq).1 (by decide)
    · rename_i heq
      exact if_neg (hzero (List.cons.inj heq).2)
    · rfl

theorem ne_underscore (h : IsNumeral cs) {c : Char} (hc : c ∈ cs) : c ≠ '_' := by
  have hdigits : ∀ {ds : List Char}, IsDigits ds → ∀ c ∈ ds, c ≠ '_' := by
    rintro ds hds c hc rfl
    cases hds.2 _ hc
  obtain ⟨hsign, hwhole, hpart, hpower⟩ := h
  simp only [List.mem_append] at hc
  rcases hc with ((hc | hc) | hc) | hc
  · rcases hsign with rfl | rfl
    · cases hc
    · rw [List.mem_singleton.1 hc]
      decide
  · exact hdigits hwhole.isDigits c hc
  · rcases hpart with rfl | ⟨ds, hds, rfl⟩
    · cases hc
    · rcases List.mem_cons.1 hc with rfl | hc
      · decide
      · exact hdigits hds c hc
  · rcases hpower with rfl | ⟨e, sign, ds, he, hsign, hds, rfl⟩
    · cases hc
    · rcases List.mem_cons.1 hc with rfl | hc
      · rcases he with rfl | rfl <;> decide
      · rcases List.mem_append.1 hc with hc | hc
        · rcases hsign with rfl | rfl | rfl
          · cases hc
          · rw [List.mem_singleton.1 hc]
            decide
          · rw [List.mem_singleton.1 hc]
            decide
        · exact hdigits hds c hc

theorem filter_underscore (h : IsNumeral cs) : cs.filter (· != '_') = cs :=
  List.filter_eq_self.2 fun _ hc => by simpa using ne_underscore h hc

/-- `read?` takes a numeral for an integer if `int?` does, and otherwise for a float. -/
theorem read?_numeral (h : IsNumeral literal.toList) : read? false literal =
    ((int? literal.toList).map fun n => (Tag.int, Value.int n)).orElse fun _ =>
      (finite? literal.toList).map fun x => (Tag.float, Value.float x) := by
  obtain ⟨negative, whole, tail, hwhole, htail, hcs⟩ := h.exists_shape
  have hleads : leadsDigit literal.toList = true := hcs ▸ leadsDigit_signText hwhole
  have hb : markedInt? 'b' 2 literal.toList = none :=
    hcs ▸ markedInt?_eq_none hwhole htail (.inl rfl)
  have ho : markedInt? 'o' 8 literal.toList = none :=
    hcs ▸ markedInt?_eq_none hwhole htail (.inr rfl)
  rw [read?_of_leadsDigit hleads, Spelling.number?, filter_underscore h, hb, ho]
  cases int? literal.toList <;> cases finite? literal.toList <;> rfl

theorem float_of_finite? {x : Binary64} (h : finite? literal.toList = some x) :
    float literal = x := by
  unfold finite? at h
  unfold float
  split at h
  · rename_i heq
    rw [heq]
    exact Option.some.inj h
  · cases h

/-- A numeral that `int?` does not take has the value `float literal`. -/
theorem eq_float_of_spelled? (h : IsNumeral literal.toList) (hint : int? literal.toList = none)
    {v : Value} (hv : Scalar.spelled? .float literal = some v) : v = .float (float literal) := by
  have htimes : (Tag.float == .timestamp) = false := rfl
  rw [Scalar.spelled?, htimes, read?_numeral h, hint] at hv
  cases hfinite : finite? literal.toList with
  | none =>
    rw [hfinite] at hv
    cases hv
  | some x =>
    rw [hfinite] at hv
    rw [float_of_finite? hfinite]
    exact (Option.some.inj hv).symm

theorem spelled?_int (h : IsNumeral literal.toList) (hint : int? literal.toList = some n) :
    Scalar.spelled? .int literal = some (.int n) := by
  have htimes : (Tag.int == .timestamp) = false := rfl
  rw [Scalar.spelled?, htimes, read?_numeral h, hint]
  rfl

/-- An unsigned numeral of 64 bits has no value as a float. -/
theorem spelled?_float_of_large (h : IsNumeral literal.toList)
    (hint : int? literal.toList = some n) (hn : (Nat.pow 2 63 : Nat) ≤ n) :
    Scalar.spelled? .float literal = none := by
  have htimes : (Tag.float == .timestamp) = false := rfl
  rw [Scalar.spelled?, htimes, read?_numeral h, hint]
  exact if_neg (Int.not_lt.2 hn)

/-! ### Integers and floats -/

theorem signText_inj {negative' : Bool} {ds ds' : List Char} (hds : IsDigits ds)
    (hds' : IsDigits ds')
    (h : signText negative ds = signText negative' ds') : negative = negative' ∧ ds = ds' := by
  obtain ⟨c, more, rfl, hc⟩ := hds.exists_cons
  obtain ⟨c', more', rfl, hc'⟩ := hds'.exists_cons
  unfold signText at h
  cases negative <;> cases negative' <;>
    simp only [Bool.false_eq_true, if_true, if_false, List.cons.injEq, true_and, reduceCtorEq,
      false_and] at h ⊢
  · exact h
  · rw [h.1] at hc
    cases hc
  · rw [← h.1] at hc'
    cases hc'
  · exact h

theorem isInteger_iff : IsInteger literal n ↔
    ∃ negative ds, IsDigits ds ∧ literal.toList = signText negative ds ∧
      n = signInt negative (ofDigits ds) := by
  constructor
  · rintro ⟨ds, hds, ⟨heq, rfl⟩ | ⟨heq, rfl⟩⟩
    exacts [⟨false, ds, hds, heq, rfl⟩, ⟨true, ds, hds, heq, rfl⟩]
  · rintro ⟨_ | _, ds, hds, heq, rfl⟩
    exacts [⟨ds, hds, .inl ⟨heq, rfl⟩⟩, ⟨ds, hds, .inr ⟨heq, rfl⟩⟩]

/-- **What a number of a JSON text denotes.**  If it has a value, that is `.int n` for
`IsInteger literal n` with `Fits n`, and `.float (float literal)` otherwise. -/
theorem value?_number (h : IsNumeral literal.toList) {line : Nat} {v : Value}
    (hv : Scalar.value? ⟨Node.numberTag literal, literal, line⟩ = some v) :
    (∃ n, IsInteger literal n ∧ Fits n ∧ v = .int n) ∨
      (∀ n, IsInteger literal n → ¬ Fits n) ∧ v = .float (float literal) := by
  obtain ⟨negative, whole, tail, hwhole, htail, hcs⟩ := h.exists_shape
  rcases htail with rfl | ⟨c, d, more, rfl, hc⟩
  · rw [List.append_nil] at hcs
    have hint := congrArg int? hcs
    rw [int?_whole hwhole] at hint
    by_cases hfits : Fits (signInt negative (ofDigits whole))
    · rw [numberTag_whole hwhole hcs, if_pos hfits] at hv
      rw [if_pos hfits] at hint
      have hvalue := (spelled?_int h hint).symm.trans hv
      exact .inl ⟨_, isInteger_iff.2 ⟨negative, whole, hwhole.isDigits, hcs, rfl⟩, hfits,
        (Option.some.inj hvalue).symm⟩
    · rw [numberTag_whole hwhole hcs, if_neg hfits] at hv
      rw [if_neg hfits] at hint
      refine .inr ⟨fun n hn => ?_, ?_⟩
      · obtain ⟨negative', ds, hds, hcs', rfl⟩ := isInteger_iff.1 hn
        obtain ⟨rfl, rfl⟩ := signText_inj hwhole.isDigits hds (hcs.symm.trans hcs')
        exact hfits
      · cases hword : int? literal.toList with
        | none => exact eq_float_of_spelled? h hword hv
        | some n =>
          have hlarge : (Nat.pow 2 63 : Nat) ≤ n := by
            cases negative with
            | true =>
              rw [hint] at hword
              cases hword
            | false =>
              rw [hint, word?, if_neg Bool.false_ne_true, Option.bind_some,
                Option.ite_none_right_eq_some] at hword
              have hn : (ofDigits whole : Int) = n := Option.some.inj hword.2
              unfold Fits signInt at hfits
              rw [if_neg Bool.false_ne_true] at hfits
              omega
          have hnone := spelled?_float_of_large h hword hlarge
          exact absurd (hnone.symm.trans hv) nofun
  · have hmem : c ∈ literal.toList := by
      rw [hcs, signText]
      split_ifs <;> simp
    have hint : int? literal.toList = none := hcs ▸ int?_tail hwhole hc
    rw [numberTag_of_mark hmem hc] at hv
    refine .inr ⟨fun n hn => ?_, eq_float_of_spelled? h hint hv⟩
    obtain ⟨negative', ds, hds, hcs', -⟩ := isInteger_iff.1 hn
    exact absurd hc (not_isMark_of_mem hds (hcs' ▸ hmem))

end SchemaPress.Json
