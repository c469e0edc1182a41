import Mathlib.Data.List.TakeWhile
import SchemaPress.Json.Reader

/-!
# The grammar of JSON texts

`Spells` is the grammar of JSON as a relation: which characters spell which value.  It does not look
at the reader.  A text is a value with gaps around it (`IsText`).

The reader accepts what the grammar derives, and reads the value that is spelled
(`parse?_of_isText`), as long as no more than `maxNesting` arrays and objects are open at a time.
The proof follows the derivation.  A part of a text is read whatever follows it, except that a
number has to end there (`Stops`), and each character pays for two steps of the reader's bound.
-/

namespace SchemaPress.Json

variable {cs rest gap : List Char} {c : Char}

/-! ### Gaps -/

/-- `ws` of JSON: spaces, tabs, CR and LF. -/
def IsGap (cs : List Char) : Prop :=
  ∀ c ∈ cs, isGap c = true

theorem skipGap_append (h : IsGap gap) : skipGap (gap ++ cs) = skipGap cs :=
  List.dropWhile_append_of_pos h

theorem skipGap_cons (h : isGap c = false) : skipGap (c :: cs) = c :: cs :=
  List.dropWhile_cons_of_neg (by rw [h]; exact Bool.false_ne_true)

theorem skipGap_append_cons (h : IsGap gap) (hc : isGap c = false) :
    skipGap (gap ++ c :: cs) = c :: cs := by
  rw [skipGap_append h, skipGap_cons hc]

/-! ### Numbers -/

/-- One or more decimal digits. -/
def IsDigits (ds : List Char) : Prop :=
  ds ≠ [] ∧ ∀ c ∈ ds, c.isDigit = true

/-- `int` of JSON: `0`, or digits that do not start with `0`. -/
def IsWhole (ds : List Char) : Prop :=
  ds = ['0'] ∨ IsDigits ds ∧ ds.head? ≠ some '0'

/-- `frac` of JSON, or nothing. -/
def IsPart (cs : List Char) : Prop :=
  cs = [] ∨ ∃ ds, IsDigits ds ∧ cs = '.' :: ds

/-- `exp` of JSON, or nothing. -/
def IsPower (cs : List Char) : Prop :=
  cs = [] ∨ ∃ e sign ds, (e = 'e' ∨ e = 'E') ∧ (sign = [] ∨ sign = ['+'] ∨ sign = ['-']) ∧
    IsDigits ds ∧ cs = e :: (sign ++ ds)

/-- `number` of JSON: a sign, `int`, `frac` and `exp`. -/
inductive IsNumeral : List Char → Prop
  | mk {sign whole part power : List Char} (hsign : sign = [] ∨ sign = ['-'])
      (hwhole : IsWhole whole) (hpart : IsPart part) (hpower : IsPower power) :
      IsNumeral (sign ++ whole ++ part ++ power)

/-- The first character is no digit. -/
def NoDigit (cs : List Char) : Prop :=
  ∀ c ∈ cs.head?, c.isDigit = false

/-- The first character is none that a number could go on with. -/
def Stops (cs : List Char) : Prop :=
  ∀ c ∈ cs.head?, c.isDigit = false ∧ c ≠ '.' ∧ c ≠ 'e' ∧ c ≠ 'E'

theorem Stops.noDigit (h : Stops cs) : NoDigit cs := fun c hc => (h c hc).1

theorem digits?_append {ds : List Char} (h : IsDigits ds) (hrest : NoDigit rest) :
    digits? (ds ++ rest) = some (ds, rest) := by
  have htake : (ds ++ rest).takeWhile Char.isDigit = ds := by
    rw [List.takeWhile_append_of_pos h.2]
    cases rest with
    | nil => simp
    | cons c rest => rw [List.takeWhile_cons_of_neg (by simp [hrest c rfl]), List.append_nil]
  have hdrop : (ds ++ rest).dropWhile Char.isDigit = rest := by
    rw [List.dropWhile_append_of_pos h.2]
    cases rest with
    | nil => rfl
    | cons c rest => exact List.dropWhile_cons_of_neg (by simp [hrest c rfl])
  have hne : ds.isEmpty = false := by simpa using h.1
  simp only [digits?, htake, hdrop, hne, Bool.false_eq_true, if_false]

theorem isDigits_singleton (h : c.isDigit = true) : IsDigits [c] :=
  ⟨List.cons_ne_nil c [], List.forall_mem_singleton.2 h⟩

theorem IsDigits.exists_cons {ds : List Char} (h : IsDigits ds) :
    ∃ c more, ds = c :: more ∧ c.isDigit = true := by
  obtain ⟨c, more, rfl⟩ := List.exists_cons_of_ne_nil h.1
  exact ⟨c, more, rfl, h.2 c List.mem_cons_self⟩

theorem IsWhole.exists_cons {ds : List Char} (h : IsWhole ds) :
    ∃ c more, ds = c :: more ∧ c.isDigit = true := by
  rcases h with rfl | h
  · exact ⟨'0', [], rfl, rfl⟩
  · exact h.1.exists_cons

theorem IsWhole.eq_zero_or {ds : List Char} (h : IsWhole ds) :
    ds = ['0'] ∨ ∃ c more, ds = c :: more ∧ c ≠ '0' ∧ IsDigits ds := by
  rcases h with rfl | ⟨hds, hzero⟩
  · exact .inl rfl
  · obtain ⟨c, more, rfl, -⟩ := hds.exists_cons
    exact .inr ⟨c, more, rfl, fun hc => hzero (congrArg some hc), hds⟩

theorem whole?_append {ds : List Char} (h : IsWhole ds) (hrest : NoDigit rest) :
    whole? (ds ++ rest) = some (ds, rest) := by
  rcases h.eq_zero_or with rfl | ⟨c, more, rfl, hc, hds⟩
  · rfl
  · rw [List.cons_append, whole?, ← List.cons_append, digits?_append hds hrest]
    exact fun _ heq => hc (List.cons.inj heq).1

theorem part?_append {part : List Char} (h : IsPart part) (hrest : NoDigit rest)
    (hpoint : ∀ c ∈ rest.head?, c ≠ '.') : part? (part ++ rest) = some (part, rest) := by
  rcases h with rfl | ⟨ds, hds, rfl⟩
  · rw [List.nil_append, part?]
    rintro rest' rfl
    exact hpoint '.' rfl rfl
  · rw [List.cons_append, part?, digits?_append hds hrest, Option.map_some]

theorem power?_append {power : List Char} (h : IsPower power) (hrest : Stops rest) :
    power? (power ++ rest) = some (power, rest) := by
  rcases h with rfl | ⟨e, sign, ds, he, hsign, hds, rfl⟩
  · cases rest with
    | nil => rfl
    | cons c rest =>
      obtain ⟨-, -, hlower, hupper⟩ := hrest c rfl
      simp [power?, hlower, hupper]
  · have he' : (e == 'e' || e == 'E') = true := by
      rcases he with rfl | rfl <;> rfl
    have hdigits := digits?_append hds hrest.noDigit
    rcases hsign with rfl | rfl | rfl
    · obtain ⟨c, more, rfl, hc⟩ := hds.exists_cons
      have hplus : c ≠ '+' := by rintro rfl; cases hc
      have hminus : c ≠ '-' := by rintro rfl; cases hc
      rw [List.nil_append, List.cons_append, power?, if_pos he', hdigits, Option.map_some]
      · exact fun _ heq => hplus (List.cons.inj heq).1
      · exact fun _ heq => hminus (List.cons.inj heq).1
    · simp only [List.cons_append, List.nil_append, power?, if_pos he', hdigits, Option.map_some]
    · simp only [List.cons_append, List.nil_append, power?, if_pos he', hdigits, Option.map_some]

theorem IsPower.head_append {power : List Char} (h : IsPower power) (hrest : Stops rest) :
    ∀ c ∈ (power ++ rest).head?, c.isDigit = false ∧ c ≠ '.' := by
  rcases h with rfl | ⟨e, sign, ds, he, -, -, rfl⟩
  · exact fun c hc => ⟨(hrest c hc).1, (hrest c hc).2.1⟩
  · rintro c hc
    obtain rfl : e = c := Option.some.inj hc
    rcases he with rfl | rfl <;> decide

theorem IsPart.noDigit_append {part : List Char} (h : IsPart part) (hrest : NoDigit rest) :
    NoDigit (part ++ rest) := by
  rcases h with rfl | ⟨ds, -, rfl⟩
  · exact hrest
  · rintro c hc
    obtain rfl : '.' = c := Option.some.inj hc
    rfl

/-- **`number?` reads a literal up to its end**, if what follows `Stops` it. -/
theorem number?_append (h : IsNumeral cs) (hrest : Stops rest) :
    number? (cs ++ rest) = some (.number (String.ofList cs), rest) := by
  obtain ⟨hsign, hwhole, hpart, hpower⟩ := h
  rename_i sign whole part power
  have hhead := hpower.head_append hrest
  have hdigit : NoDigit (power ++ rest) := fun c hc => (hhead c hc).1
  have hreads :
      whole? (whole ++ (part ++ (power ++ rest))) = some (whole, part ++ (power ++ rest)) ∧
      part? (part ++ (power ++ rest)) = some (part, power ++ rest) ∧
      power? (power ++ rest) = some (power, rest) :=
    ⟨whole?_append hwhole (hpart.noDigit_append hdigit),
      part?_append hpart hdigit fun c hc => (hhead c hc).2, power?_append hpower hrest⟩
  rcases hsign with rfl | rfl
  · obtain ⟨c, more, rfl, hc⟩ := hwhole.exists_cons
    have hminus : c ≠ '-' := by rintro rfl; cases hc
    simp only [List.nil_append, List.cons_append, List.append_assoc] at hreads ⊢
    rw [number?]
    · simp only [hreads, Option.bind_eq_bind, Option.bind_some, Option.pure_def, List.nil_append,
        List.cons_append, List.append_assoc]
    · exact fun _ heq => hminus (List.cons.inj heq).1
  · simp only [List.cons_append, List.nil_append, List.append_assoc, number?, hreads,
      Option.bind_eq_bind, Option.bind_some, Option.pure_def]

/-! ### Strings -/

/-- The letters after a backslash, with the characters they stand for. -/
def escapes : List (Char × Char) :=
  [('"', '"'), ('\\', '\\'), ('/', '/'), ('b', '\x08'), ('f', '\x0c'), ('n', '\n'), ('r', '\r'),
    ('t', '\t')]

/-- Four hexadecimal digits, with the value `n`. -/
def IsUnit (ds : List Char) (n : Nat) : Prop :=
  ds.length = 4 ∧ Text.hexNumber? ds = some n

/-- The text starts with a `\u` escape of a low surrogate. -/
def LeadsLow (cs : List Char) : Prop :=
  ∃ ds n more, IsUnit ds n ∧ isLow n = true ∧ cs = '\\' :: 'u' :: (ds ++ more)

/-- `SpellsString s cs`: after the opening quote, `cs` spells the characters `s` up to the closing
one.  A surrogate that is not part of a pair stands for U+FFFD. -/
inductive SpellsString : List Char → List Char → Prop
  | close : SpellsString [] ['"']
  | plain {s cs : List Char} {c : Char} (hcontrol : 0x20 ≤ c.toNat) (hquote : c ≠ '"')
      (hslash : c ≠ '\\') (hmore : SpellsString s cs) : SpellsString (c :: s) (c :: cs)
  | escape {s cs : List Char} {e c : Char} (he : (e, c) ∈ escapes) (hmore : SpellsString s cs) :
      SpellsString (c :: s) ('\\' :: e :: cs)
  | unit {s cs ds : List Char} {n : Nat} (hds : IsUnit ds n) (hhigh : isHigh n = false)
      (hlow : isLow n = false) (hmore : SpellsString s cs) :
      SpellsString (Char.ofNat n :: s) ('\\' :: 'u' :: (ds ++ cs))
  | pair {s cs ds ds' : List Char} {n m : Nat} (hds : IsUnit ds n) (hds' : IsUnit ds' m)
      (hhigh : isHigh n = true) (hlow : isLow m = true) (hmore : SpellsString s cs) :
      SpellsString (Char.ofNat (0x10000 + (n - 0xD800) * 0x400 + (m - 0xDC00)) :: s)
        ('\\' :: 'u' :: (ds ++ '\\' :: 'u' :: (ds' ++ cs)))
  | loneHigh {s cs ds : List Char} {n : Nat} (hds : IsUnit ds n) (hhigh : isHigh n = true)
      (hlone : ¬ LeadsLow cs) (hmore : SpellsString s cs) :
      SpellsString ('\uFFFD' :: s) ('\\' :: 'u' :: (ds ++ cs))
  | loneLow {s cs ds : List Char} {n : Nat} (hds : IsUnit ds n) (hlow : isLow n = true)
      (hmore : SpellsString s cs) : SpellsString ('\uFFFD' :: s) ('\\' :: 'u' :: (ds ++ cs))

/-- A text without quotes, backslashes and control characters spells itself. -/
theorem spellsString_of_all {s : List Char}
    (h : s.all (fun c => decide (0x20 ≤ c.toNat) && c != '"' && c != '\\') = true) :
    SpellsString s (s ++ ['"']) := by
  induction s with
  | nil => exact .close
  | cons c rest ih =>
    rw [List.all_cons, Bool.and_eq_true] at h
    simp only [Bool.and_eq_true, decide_eq_true_eq, bne_iff_ne] at h
    exact .plain h.1.1.1 h.1.1.2 h.1.2 (ih h.2)

theorem escape?_of_mem {e c : Char} (h : (e, c) ∈ escapes) : escape? e = some c ∧ e ≠ 'u' := by
  have hall : ∀ p ∈ escapes, escape? p.1 = some p.2 ∧ p.1 ≠ 'u' := by decide
  exact hall (e, c) h

theorem unit?_append {ds : List Char} {n : Nat} (h : IsUnit ds n) :
    unit? (ds ++ cs) = some (n, cs) := by
  obtain ⟨hlength, hn⟩ := h
  match ds, hlength with
  | [a, b, c, d], _ => simp only [List.cons_append, List.nil_append, unit?, hn, Option.map_some]

theorem exists_of_unit?_eq_some {n : Nat} (h : unit? cs = some (n, rest)) :
    ∃ ds, IsUnit ds n ∧ cs = ds ++ rest := by
  match cs, h with
  | a :: b :: c :: d :: more, h =>
    rw [unit?, Option.map_eq_some_iff] at h
    obtain ⟨m, hm, heq⟩ := h
    cases heq
    exact ⟨[a, b, c, d], ⟨rfl, hm⟩, rfl⟩

theorem isHigh_eq_false_of_isLow {n : Nat} (h : isLow n = true) : isHigh n = false := by
  simp only [isLow, isHigh, Bool.and_eq_true, decide_eq_true_eq, Bool.and_eq_false_iff,
    decide_eq_false_iff_not] at h ⊢
  omega

theorem unitChar_of_not_half {n : Nat} (hhigh : isHigh n = false) (hlow : isLow n = false) :
    unitChar n cs = (Char.ofNat n, cs) := by
  unfold unitChar
  rw [hhigh, hlow, if_neg Bool.false_ne_true, if_neg Bool.false_ne_true]

theorem unitChar_of_pair {n m : Nat} {ds : List Char} (hds : IsUnit ds m) (hhigh : isHigh n = true)
    (hlow : isLow m = true) : unitChar n ('\\' :: 'u' :: (ds ++ cs)) =
      (Char.ofNat (0x10000 + (n - 0xD800) * 0x400 + (m - 0xDC00)), cs) := by
  simp only [unitChar, hhigh, if_true, unit?_append hds, hlow]

theorem unitChar_of_isLow {n : Nat} (hlow : isLow n = true) :
    unitChar n cs = (Text.Utf8.replacement, cs) := by
  unfold unitChar
  rw [isHigh_eq_false_of_isLow hlow, if_neg Bool.false_ne_true, if_pos hlow]

theorem unitChar_of_loneHigh {n : Nat} (hhigh : isHigh n = true) (hlone : ¬ LeadsLow cs) :
    unitChar n cs = (Text.Utf8.replacement, cs) := by
  unfold unitChar
  rw [if_pos hhigh]
  split
  · rename_i more
    split
    · rename_i m more' hunit
      obtain ⟨ds, hds, rfl⟩ := exists_of_unit?_eq_some hunit
      have hlow : isLow m = false := by
        rw [← Bool.not_eq_true]
        exact fun hlow => hlone ⟨ds, m, more', hds, hlow, rfl⟩
      rw [hlow, if_neg Bool.false_ne_true]
    · rfl
  · rfl

/-- `LeadsLow` is decided before the closing quote. -/
theorem SpellsString.leadsLow {s : List Char} (h : SpellsString s cs)
    (hlow : LeadsLow (cs ++ rest)) : LeadsLow cs := by
  obtain ⟨ds, n, more, hds, hn, heq⟩ := hlow
  have hunit : ∀ {ds' : List Char} {n' : Nat} {cs' : List Char}, IsUnit ds' n' →
      ds' ++ cs' = ds ++ more → ds' = ds := fun hds' h =>
    (List.append_inj h (hds'.1.trans hds.1.symm)).1
  cases h with
  | close => cases heq
  | plain _ _ hslash _ => exact absurd (List.cons.inj heq).1 hslash
  | escape he _ =>
    have hu := (List.cons.inj (List.cons.inj heq).2).1
    exact absurd hu (escape?_of_mem he).2
  | unit hds' _ _ _ | loneHigh hds' _ _ _ | loneLow hds' _ _ =>
    rw [List.cons_append, List.cons_append, List.append_assoc] at heq
    obtain rfl := hunit hds' (List.cons.inj (List.cons.inj heq).2).2
    exact ⟨_, n, _, hds, hn, rfl⟩
  | pair hds' _ _ _ _ =>
    rw [List.cons_append, List.cons_append, List.append_assoc] at heq
    obtain rfl := hunit hds' (List.cons.inj (List.cons.inj heq).2).2
    exact ⟨_, n, _, hds, hn, rfl⟩

theorem stringFrom_unit {fuel n : Nat} {acc ds tail : List Char} (hds : IsUnit ds n)
    (hchar : unitChar n cs = (c, tail)) :
    stringFrom (fuel + 1) acc ('\\' :: 'u' :: (ds ++ cs)) = stringFrom fuel (c :: acc) tail := by
  rw [stringFrom, unit?_append hds]
  dsimp only
  rw [hchar]

/-- **`stringFrom` reads a string as it is spelled.**  Each step takes at least one character. -/
theorem stringFrom_append {s : List Char} (h : SpellsString s cs) :
    ∀ {fuel : Nat} (acc rest : List Char), cs.length ≤ fuel →
      stringFrom fuel acc (cs ++ rest) = some (String.ofList (acc.reverse ++ s), rest) := by
  have hpos : ∀ {fuel : Nat} {c : Char} {cs : List Char}, (c :: cs).length ≤ fuel →
      ∃ fuel', fuel = fuel' + 1 ∧ cs.length ≤ fuel' :=
    fun {fuel c cs} h => ⟨fuel - 1, by grind, by grind⟩
  have hrev : ∀ (c : Char) (acc s : List Char),
      (c :: acc).reverse ++ s = acc.reverse ++ c :: s := by simp
  induction h with
  | close =>
    intro fuel acc rest hfuel
    obtain ⟨fuel, rfl, -⟩ := hpos hfuel
    simp [stringFrom]
  | @plain s cs c hcontrol hquote hslash _ ih =>
    intro fuel acc rest hfuel
    obtain ⟨fuel, rfl, hle⟩ := hpos hfuel
    have hc : (decide (c.toNat < 0x20) || c == '\\') = false := by
      simp only [Bool.or_eq_false_iff, decide_eq_false_iff_not, beq_eq_false_iff_ne]
      exact ⟨by omega, hslash⟩
    rw [List.cons_append, stringFrom, hc, if_neg Bool.false_ne_true, ih _ _ hle, hrev]
    · exact hquote
    · exact fun _ h _ => hslash h
    · exact fun _ _ h _ => hslash h
  | @escape s cs e c he _ ih =>
    intro fuel acc rest hfuel
    obtain ⟨fuel, rfl, hle⟩ := hpos hfuel
    obtain ⟨hescape, hu⟩ := escape?_of_mem he
    rw [List.cons_append, List.cons_append, stringFrom, hescape]
    · dsimp only
      rw [ih _ _ (Nat.le_of_succ_le hle), hrev]
    · exact hu
  | @unit s cs ds n hds hhigh hlow _ ih =>
    intro fuel acc rest hfuel
    obtain ⟨fuel, rfl, hle⟩ := hpos hfuel
    rw [List.cons_append, List.cons_append, List.append_assoc,
      stringFrom_unit hds (unitChar_of_not_half hhigh hlow), ih _ _ (by grind), hrev]
  | @pair s cs ds ds' n m hds hds' hhigh hlow _ ih =>
    intro fuel acc rest hfuel
    obtain ⟨fuel, rfl, hle⟩ := hpos hfuel
    rw [List.cons_append, List.cons_append, List.append_assoc, List.cons_append, List.cons_append,
      List.append_assoc, stringFrom_unit hds (unitChar_of_pair hds' hhigh hlow), ih _ _ (by grind),
      hrev]
  | @loneHigh s cs ds n hds hhigh hlone hmore ih =>
    intro fuel acc rest hfuel
    obtain ⟨fuel, rfl, hle⟩ := hpos hfuel
    have hlone' : ¬ LeadsLow (cs ++ rest) := fun h => hlone (hmore.leadsLow h)
    rw [List.cons_append, List.cons_append, List.append_assoc,
      stringFrom_unit hds (unitChar_of_loneHigh hhigh hlone'), ih _ _ (by grind), hrev]
    rfl
  | @loneLow s cs ds n hds hlow _ ih =>
    intro fuel acc rest hfuel
    obtain ⟨fuel, rfl, hle⟩ := hpos hfuel
    rw [List.cons_append, List.cons_append, List.append_assoc,
      stringFrom_unit hds (unitChar_of_isLow hlow), ih _ _ (by grind), hrev]
    rfl

/-! ### Values -/

mutual

/-- How many arrays and objects are open at a time. -/
def nesting : Json → Nat
  | .array items => nestingItems items + 1
  | .object fields => nestingFields fields + 1
  | _ => 0

/-- The greatest `nesting` of the items. -/
def nestingItems : List Json → Nat
  | [] => 0
  | v :: rest => max (nesting v) (nestingItems rest)

/-- The greatest `nesting` of the values of fields. -/
def nestingFields : List (String × Json) → Nat
  | [] => 0
  | (_, v) :: rest => max (nesting v) (nestingFields rest)

end

/-- A value, or the items or fields that are still to come up to the closing bracket. -/
inductive Phrase where
  | value (v : Json)
  | items (items : List Json)
  | fields (fields : List (String × Json))

/-- `Spells p cs`: the characters `cs` spell the phrase `p` in the grammar of JSON. -/
inductive Spells : Phrase → List Char → Prop
  | null : Spells (.value .null) ['n', 'u', 'l', 'l']
  | yes : Spells (.value (.bool true)) ['t', 'r', 'u', 'e']
  | no : Spells (.value (.bool false)) ['f', 'a', 'l', 's', 'e']
  | number {cs : List Char} (h : IsNumeral cs) : Spells (.value (.number (String.ofList cs))) cs
  | string {s cs : List Char} (h : SpellsString s cs) :
      Spells (.value (.string (String.ofList s))) ('"' :: cs)
  | emptyArray {gap : List Char} (hgap : IsGap gap) :
      Spells (.value (.array [])) ('[' :: (gap ++ [']']))
  | array {items : List Json} {cs : List Char} (h : Spells (.items items) cs) :
      Spells (.value (.array items)) ('[' :: cs)
  | emptyObject {gap : List Char} (hgap : IsGap gap) :
      Spells (.value (.object [])) ('{' :: (gap ++ ['}']))
  | object {fields : List (String × Json)} {cs : List Char} (h : Spells (.fields fields) cs) :
      Spells (.value (.object fields)) ('{' :: cs)
  | lastItem {v : Json} {gap cs gap' : List Char} (hgap : IsGap gap) (hv : Spells (.value v) cs)
      (hgap' : IsGap gap') : Spells (.items [v]) (gap ++ (cs ++ (gap' ++ [']'])))
  | item {v : Json} {items : List Json} {gap cs gap' more : List Char} (hgap : IsGap gap)
      (hv : Spells (.value v) cs) (hgap' : IsGap gap') (hmore : Spells (.items items) more) :
      Spells (.items (v :: items)) (gap ++ (cs ++ (gap' ++ ',' :: more)))
  | lastField {v : Json} {name gap ns gap₁ gap₂ cs gap₃ : List Char} (hgap : IsGap gap)
      (hname : SpellsString name ns) (hgap₁ : IsGap gap₁) (hgap₂ : IsGap gap₂)
      (hv : Spells (.value v) cs) (hgap₃ : IsGap gap₃) :
      Spells (.fields [(String.ofList name, v)])
        (gap ++ '"' :: (ns ++ (gap₁ ++ ':' :: (gap₂ ++ (cs ++ (gap₃ ++ ['}']))))))
  | field {v : Json} {fields : List (String × Json)}
      {name gap ns gap₁ gap₂ cs gap₃ more : List Char} (hgap : IsGap gap)
      (hname : SpellsString name ns) (hgap₁ : IsGap gap₁) (hgap₂ : IsGap gap₂)
      (hv : Spells (.value v) cs) (hgap₃ : IsGap gap₃) (hmore : Spells (.fields fields) more) :
      Spells (.fields ((String.ofList name, v) :: fields))
        (gap ++ '"' :: (ns ++ (gap₁ ++ ':' :: (gap₂ ++ (cs ++ (gap₃ ++ ',' :: more))))))

/-- `text` spells `v`, with gaps around it. -/
def IsText (v : Json) (text : List Char) : Prop :=
  ∃ gap cs gap', IsGap gap ∧ Spells (.value v) cs ∧ IsGap gap' ∧ text = gap ++ (cs ++ gap')

/-- A number starts with `-` or a digit. -/
theorem IsNumeral.exists_cons (h : IsNumeral cs) :
    ∃ c more, cs = c :: more ∧ ∀ d, d ≠ '-' → d.isDigit = false → c ≠ d := by
  obtain ⟨hsign, hwhole, -, -⟩ := h
  obtain ⟨c, more, rfl, hc⟩ := hwhole.exists_cons
  rcases hsign with rfl | rfl
  · refine ⟨c, _, rfl, ?_⟩
    rintro _ - hdigit rfl
    exact Bool.false_ne_true (hdigit.symm.trans hc)
  · exact ⟨'-', _, rfl, fun _ hminus _ => hminus.symm⟩

/-- A value starts with a character that is neither a gap nor `]`. -/
theorem Spells.exists_cons {v : Json} (h : Spells (.value v) cs) :
    ∃ c more, cs = c :: more ∧ isGap c = false ∧ c ≠ ']' := by
  cases h with
  | number h =>
    obtain ⟨c, more, rfl, hne⟩ := h.exists_cons
    refine ⟨c, more, rfl, ?_, hne ']' (by decide) rfl⟩
    simp [isGap, hne ' ' (by decide) rfl, hne '\t' (by decide) rfl, hne '\r' (by decide) rfl,
      hne '\n' (by decide) rfl]
  | _ => exact ⟨_, _, rfl, rfl, by decide⟩

theorem Spells.skipGap_append {v : Json} (h : Spells (.value v) cs) (hgap : IsGap gap) :
    skipGap (gap ++ (cs ++ rest)) = cs ++ rest := by
  obtain ⟨c, more, rfl, hc, -⟩ := h.exists_cons
  exact skipGap_append_cons hgap hc

theorem stops_cons (hc : c.isDigit = false ∧ c ≠ '.' ∧ c ≠ 'e' ∧ c ≠ 'E') : Stops (c :: rest) := by
  intro d hd
  obtain rfl : c = d := Option.some.inj hd
  exact hc

theorem stops_append (hgap : IsGap gap) (hrest : Stops rest) : Stops (gap ++ rest) := by
  cases gap with
  | nil => exact hrest
  | cons c more =>
    have hc := hgap c List.mem_cons_self
    simp only [isGap, Bool.or_eq_true, beq_iff_eq] at hc
    refine stops_cons ?_
    rcases hc with ((rfl | rfl) | rfl) | rfl <;> decide

/-! ### Reading values -/

section Steps

variable {fuel n : Nat} {v : Json} {acc : List Json} {rest' : List Char}

theorem value?_numeral (h : IsNumeral cs) :
    value? (fuel + 1) n (cs ++ rest) = number? (cs ++ rest) := by
  obtain ⟨c, more, rfl, hne⟩ := h.exists_cons
  rw [List.cons_append, value?]
  all_goals exact fun _ heq => hne _ (by decide) rfl (List.cons.inj heq).1

theorem value?_array (hn : n < maxNesting) (hopen : ∀ more, skipGap cs ≠ ']' :: more) :
    value? (fuel + 1) n ('[' :: cs) = elements? fuel (n + 1) [] (skipGap cs) := by
  rw [value?, if_pos hn]
  split
  · rename_i more heq
    exact absurd heq (hopen more)
  · rfl

theorem value?_object (hn : n < maxNesting) (hopen : ∀ more, skipGap cs ≠ '}' :: more) :
    value? (fuel + 1) n ('{' :: cs) = members? fuel (n + 1) [] (skipGap cs) := by
  rw [value?, if_pos hn]
  split
  · rename_i more heq
    exact absurd heq (hopen more)
  · rfl

theorem elements?_last (hv : value? fuel n cs = some (v, rest'))
    (hclose : skipGap rest' = ']' :: rest) :
    elements? (fuel + 1) n acc cs = some (.array (acc.reverse ++ [v]), rest) := by
  simp only [elements?, hv, hclose, List.reverse_cons]

theorem elements?_next (hv : value? fuel n cs = some (v, rest'))
    (hcomma : skipGap rest' = ',' :: rest) :
    elements? (fuel + 1) n acc cs = elements? fuel n (v :: acc) (skipGap rest) := by
  simp only [elements?, hv, hcomma]

theorem members?_last {acc : List (String × Json)} {name : String} {rest₁ rest₂ : List Char}
    (hname : stringFrom fuel [] cs = some (name, rest₁)) (hcolon : skipGap rest₁ = ':' :: rest₂)
    (hv : value? fuel n (skipGap rest₂) = some (v, rest'))
    (hclose : skipGap rest' = '}' :: rest) :
    members? (fuel + 1) n acc ('"' :: cs) = some (.object (acc.reverse ++ [(name, v)]), rest) := by
  simp only [members?, hname, hcolon, hv, hclose, List.reverse_cons]

theorem members?_next {acc : List (String × Json)} {name : String} {rest₁ rest₂ : List Char}
    (hname : stringFrom fuel [] cs = some (name, rest₁)) (hcolon : skipGap rest₁ = ':' :: rest₂)
    (hv : value? fuel n (skipGap rest₂) = some (v, rest'))
    (hcomma : skipGap rest' = ',' :: rest) :
    members? (fuel + 1) n acc ('"' :: cs) =
      members? fuel n ((name, v) :: acc) (skipGap rest) := by
  simp only [members?, hname, hcolon, hv, hcomma]

end Steps

/-- `value?`, `elements?` and `members?` take `cs` for the phrase inside of `n` open arrays and
objects, whatever follows. -/
def Reads : Phrase → List Char → Prop
  | .value v, cs => ∀ (fuel n : Nat) (rest : List Char), 2 * cs.length ≤ fuel →
      n + v.nesting ≤ maxNesting → Stops rest → value? fuel n (cs ++ rest) = some (v, rest)
  | .items items, cs => ∀ (fuel n : Nat) (acc : List Json) (rest : List Char),
      2 * cs.length ≤ fuel → n + nestingItems items ≤ maxNesting →
      elements? fuel n acc (skipGap (cs ++ rest)) = some (.array (acc.reverse ++ items), rest)
  | .fields fields, cs => ∀ (fuel n : Nat) (acc : List (String × Json)) (rest : List Char),
      2 * cs.length ≤ fuel → n + nestingFields fields ≤ maxNesting →
      members? fuel n acc (skipGap (cs ++ rest)) = some (.object (acc.reverse ++ fields), rest)

theorem Spells.items_open {items : List Json} (h : Spells (.items items) cs) (more : List Char) :
    skipGap (cs ++ rest) ≠ ']' :: more := by
  cases h with
  | lastItem hgap hv _ | item hgap hv _ _ =>
    obtain ⟨c, tail, rfl, hc, hopen⟩ := hv.exists_cons
    rw [List.append_assoc, List.cons_append, List.cons_append, skipGap_append_cons hgap hc]
    exact fun heq => hopen (List.cons.inj heq).1

theorem Spells.fields_open {fields : List (String × Json)} (h : Spells (.fields fields) cs)
    (more : List Char) : skipGap (cs ++ rest) ≠ '}' :: more := by
  cases h with
  | lastField hgap _ _ _ _ _ | field hgap _ _ _ _ _ _ =>
    rw [List.append_assoc, List.cons_append, skipGap_append_cons hgap rfl]
    exact fun heq => absurd (List.cons.inj heq).1 (by decide)

/-- **The reader takes every phrase as it is spelled.** -/
theorem Spells.reads {p : Phrase} (h : Spells p cs) : Reads p cs := by
  induction h with
  | null | yes | no =>
    intro fuel n rest hfuel _ _
    obtain ⟨fuel, rfl⟩ : ∃ k, fuel = k + 1 := ⟨fuel - 1, by grind⟩
    simp [value?]
  | @number cs h =>
    intro fuel n rest hfuel _ hrest
    obtain ⟨c, more, hcs, -⟩ := h.exists_cons
    obtain ⟨fuel, rfl⟩ : ∃ k, fuel = k + 1 := ⟨fuel - 1, by grind⟩
    rw [value?_numeral h, number?_append h hrest]
  | @string s cs h =>
    intro fuel n rest hfuel _ _
    obtain ⟨fuel, rfl⟩ : ∃ k, fuel = k + 1 := ⟨fuel - 1, by grind⟩
    rw [List.cons_append, value?, stringFrom_append h [] rest (by grind), Option.map_some,
      List.reverse_nil, List.nil_append]
  | @emptyArray gap hgap =>
    intro fuel n rest hfuel hn _
    obtain ⟨fuel, rfl⟩ : ∃ k, fuel = k + 1 := ⟨fuel - 1, by grind⟩
    have hopen : n < maxNesting := by simp only [nesting, nestingItems] at hn; omega
    have hclose : skipGap (gap ++ ']' :: rest) = ']' :: rest := skipGap_append_cons hgap rfl
    simp [value?, hopen, hclose]
  | @array items cs h ih =>
    intro fuel n rest hfuel hn _
    obtain ⟨fuel, rfl⟩ : ∃ k, fuel = k + 1 := ⟨fuel - 1, by grind⟩
    rw [nesting] at hn
    have hread := ih fuel (n + 1) [] rest (by grind) (by omega)
    rw [List.cons_append, value?_array (by omega) h.items_open, hread, List.reverse_nil,
      List.nil_append]
  | @emptyObject gap hgap =>
    intro fuel n rest hfuel hn _
    obtain ⟨fuel, rfl⟩ : ∃ k, fuel = k + 1 := ⟨fuel - 1, by grind⟩
    have hopen : n < maxNesting := by simp only [nesting, nestingFields] at hn; omega
    have hclose : skipGap (gap ++ '}' :: rest) = '}' :: rest := skipGap_append_cons hgap rfl
    simp [value?, hopen, hclose]
  | @object fields cs h ih =>
    intro fuel n rest hfuel hn _
    obtain ⟨fuel, rfl⟩ : ∃ k, fuel = k + 1 := ⟨fuel - 1, by grind⟩
    rw [nesting] at hn
    have hread := ih fuel (n + 1) [] rest (by grind) (by omega)
    rw [List.cons_append, value?_object (by omega) h.fields_open, hread, List.reverse_nil,
      List.nil_append]
  | @lastItem v gap cs gap' hgap hv hgap' ih =>
    intro fuel n acc rest hfuel hn
    obtain ⟨fuel, rfl⟩ : ∃ k, fuel = k + 1 := ⟨fuel - 1, by grind⟩
    rw [nestingItems, nestingItems, Nat.max_zero] at hn
    have hread := ih fuel n (gap' ++ ']' :: rest) (by grind) hn
      (stops_append hgap' (stops_cons (by decide)))
    have htext : skipGap (gap ++ (cs ++ (gap' ++ [']'])) ++ rest) =
        cs ++ (gap' ++ ']' :: rest) := by
      simp only [List.append_assoc, List.singleton_append]
      exact hv.skipGap_append hgap
    rw [htext]
    exact elements?_last hread (skipGap_append_cons hgap' rfl)
  | @item v items gap cs gap' more hgap hv hgap' hmore ih ihmore =>
    intro fuel n acc rest hfuel hn
    obtain ⟨fuel, rfl⟩ : ∃ k, fuel = k + 1 := ⟨fuel - 1, by grind⟩
    rw [nestingItems] at hn
    have hread := ih fuel n (gap' ++ ',' :: (more ++ rest)) (by grind) (by omega)
      (stops_append hgap' (stops_cons (by decide)))
    have htext : skipGap (gap ++ (cs ++ (gap' ++ ',' :: more)) ++ rest) =
        cs ++ (gap' ++ ',' :: (more ++ rest)) := by
      simp only [List.append_assoc, List.cons_append]
      exact hv.skipGap_append hgap
    rw [htext, elements?_next hread (skipGap_append_cons hgap' rfl),
      ihmore fuel n (v :: acc) rest (by grind) (by omega)]
    simp
  | @lastField v name gap ns gap₁ gap₂ cs gap₃ hgap hname hgap₁ hgap₂ hv hgap₃ ih =>
    intro fuel n acc rest hfuel hn
    obtain ⟨fuel, rfl⟩ : ∃ k, fuel = k + 1 := ⟨fuel - 1, by grind⟩
    rw [nestingFields, nestingFields, Nat.max_zero] at hn
    have hread := ih fuel n (gap₃ ++ '}' :: rest) (by grind) hn
      (stops_append hgap₃ (stops_cons (by decide)))
    rw [← hv.skipGap_append hgap₂] at hread
    simp only [List.append_assoc, List.cons_append, List.nil_append]
    rw [skipGap_append_cons hgap rfl]
    exact members?_last (stringFrom_append hname [] _ (by grind)) (skipGap_append_cons hgap₁ rfl)
      hread (skipGap_append_cons hgap₃ rfl)
  | @field v fields name gap ns gap₁ gap₂ cs gap₃ more hgap hname hgap₁ hgap₂ hv hgap₃ hmore ih
      ihmore =>
    intro fuel n acc rest hfuel hn
    obtain ⟨fuel, rfl⟩ : ∃ k, fuel = k + 1 := ⟨fuel - 1, by grind⟩
    rw [nestingFields] at hn
    have hread := ih fuel n (gap₃ ++ ',' :: (more ++ rest)) (by grind) (by omega)
      (stops_append hgap₃ (stops_cons (by decide)))
    rw [← hv.skipGap_append hgap₂] at hread
    simp only [List.append_assoc, List.cons_append]
    rw [skipGap_append_cons hgap rfl, members?_next (stringFrom_append hname [] _ (by grind))
      (skipGap_append_cons hgap₁ rfl) hread (skipGap_append_cons hgap₃ rfl),
      ihmore fuel n _ rest (by grind) (by omega)]
    simp

/-- **`parse?` reads every text of the grammar** with at most `maxNesting` open arrays and objects
as the value that it spells. -/
theorem parse?_of_isText {v : Json} {text : List Char} (h : IsText v text)
    (hnesting : v.nesting ≤ maxNesting) : parse? text = some v := by
  obtain ⟨gap, cs, gap', hgap, hv, hgap', rfl⟩ := h
  have hstops : Stops gap' := List.append_nil gap' ▸ stops_append hgap' fun _ hc => nomatch hc
  have hread := hv.reads (2 * (gap ++ (cs ++ gap')).length + 4) 0 gap' (by grind) (by omega) hstops
  have hend : skipGap gap' = [] := List.dropWhile_eq_nil_iff.2 hgap'
  rw [parse?, hv.skipGap_append hgap, hread]
  simp [hend]

/-! ### Nesting and depth -/

mutual

/-- `nesting` counts an empty array or object, and `depth` does not. -/
theorem nesting_le_depth : ∀ v : Json, v.nesting ≤ v.depth + 1
  | .null | .bool _ | .number _ | .string _ => Nat.zero_le _
  | .array [] | .object [] => Nat.le_refl 1
  | .array (v :: rest) => by
    rw [nesting, depth]
    · exact Nat.succ_le_succ (nestingItems_le_depthItems (v :: rest))
    · exact List.cons_ne_nil v rest
  | .object (f :: rest) => by
    rw [nesting, depth]
    · exact Nat.succ_le_succ (nestingFields_le_depthFields (f :: rest))
    · exact List.cons_ne_nil f rest

theorem nestingItems_le_depthItems : ∀ items : List Json, nestingItems items ≤ depthItems items + 1
  | [] => Nat.zero_le _
  | v :: rest => by
    have hv := nesting_le_depth v
    have hrest := nestingItems_le_depthItems rest
    rw [nestingItems, depthItems]
    omega

theorem nestingFields_le_depthFields :
    ∀ fields : List (String × Json), nestingFields fields ≤ depthFields fields + 1
  | [] => Nat.zero_le _
  | (name, v) :: rest => by
    have hv := nesting_le_depth v
    have hrest := nestingFields_le_depthFields rest
    rw [nestingFields, depthFields]
    omega

end

end SchemaPress.Json
