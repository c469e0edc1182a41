import Mathlib.Data.List.TakeWhile
import SchemaPress.Proofs.Path
import SchemaPress.Proofs.Text.Casing
import SchemaPress.Url

/-!
# Addresses in lower case

The parts of an address are checked character by character, and the checks do not look at the case
of letters.  So a host, a port and the escapes are in order just if they are in lower case
(`isHostPort_map_lowerChar`, `escapesWell_map_lowerChar`).  The part in front of the host is an
exception: only characters of ASCII may stand in it, and there are letters beyond ASCII with a lower
case form in ASCII (`isUser_iff`).
-/

namespace SchemaPress.Url

open Text

variable {cs ds : List Char} {c sep : Char}

/-! ### Characters -/

/-- `c` is in ASCII, and not a letter. -/
def IsMark (c : Char) : Prop :=
  c.toNat < 128 ∧ c.isAlpha = false

instance (c : Char) : Decidable (IsMark c) :=
  inferInstanceAs (Decidable (_ ∧ _))

theorem IsMark.lowerChar_eq_iff (h : IsMark sep) (c : Char) : lowerChar c = sep ↔ c = sep :=
  Text.lowerChar_eq_iff h.1 h.2 c

theorem IsMark.lowerChar_self (h : IsMark sep) : lowerChar sep = sep :=
  (h.lowerChar_eq_iff sep).2 rfl

theorem IsMark.beq_lowerChar (h : IsMark sep) (c : Char) : (lowerChar c == sep) = (c == sep) := by
  rw [Bool.eq_iff_iff, beq_iff_eq, beq_iff_eq, h.lowerChar_eq_iff]

theorem IsMark.mem_map_lowerChar_iff (h : IsMark sep) : sep ∈ cs.map lowerChar ↔ sep ∈ cs := by
  constructor
  · intro hmem
    obtain ⟨c, hc, hlower⟩ := List.mem_map.1 hmem
    rw [h.lowerChar_eq_iff] at hlower
    exact hlower ▸ hc
  · intro hmem
    exact List.mem_map.2 ⟨sep, hmem, h.lowerChar_self⟩

theorem isHostChar_lowerChar (c : Char) : isHostChar (lowerChar c) = isHostChar c := by
  have hbeyond : ∀ {c : Char}, 128 ≤ c.toNat → isHostChar c = true := by
    intro c hc
    simp only [isHostChar, Bool.or_assoc, Bool.or_eq_true, decide_eq_true_eq]
    exact .inl hc
  refine lowerChar_ind (P := fun c d => isHostChar d = isHostChar c) (by decide) ?_ ?_ ?_ c
  · intro c d hc hd
    rw [hbeyond hc, hbeyond hd]
  · decide
  · decide

theorem isDigit_lowerChar (c : Char) : (lowerChar c).isDigit = c.isDigit := by
  have hbeyond : ∀ {c : Char}, 128 ≤ c.toNat → c.isDigit = false := by
    intro c hc
    simp only [Char.isDigit, Bool.and_eq_false_iff, decide_eq_false_iff_not]
    have hnine : ¬ c ≤ '9' := not_le_of_beyond hc (by decide)
    exact .inr hnine
  refine lowerChar_ind (P := fun c d => d.isDigit = c.isDigit) (by decide) ?_ rfl rfl c
  intro c d hc hd
  rw [hbeyond hc, hbeyond hd]

/-- The characters that `isUser` allows. -/
def isUserChar (c : Char) : Bool :=
  c.isAlphanum || c ∈ ['-', '.', '_', ':', '~', '!', '$', '&', '\'', '(', ')', '*', '+', ',', ';',
    '=', '%', '@']

theorem isUserChar_eq_false_of_beyond (h : 128 ≤ c.toNat) : isUserChar c = false := by
  have hne : ∀ d ∈ ['-', '.', '_', ':', '~', '!', '$', '&', '\'', '(', ')', '*', '+', ',', ';',
      '=', '%', '@'], c ≠ d := by
    have hall : (['-', '.', '_', ':', '~', '!', '$', '&', '\'', '(', ')', '*', '+', ',', ';', '=',
        '%', '@'].all fun d => decide (d.toNat < 128)) = true := by decide
    rintro d hd rfl
    have hlt := List.all_eq_true.1 hall c hd
    simp only [decide_eq_true_eq] at hlt
    omega
  have hupper : ¬ c ≤ 'Z' := not_le_of_beyond h (by decide)
  have hlower : ¬ c ≤ 'z' := not_le_of_beyond h (by decide)
  have hdigit : ¬ c ≤ '9' := not_le_of_beyond h (by decide)
  have halpha : c.isAlphanum = false := by
    rw [Bool.eq_false_iff]
    intro halnum
    rcases Bool.or_eq_true_iff.1 halnum with hletter | hnumber
    · rcases Bool.or_eq_true_iff.1 hletter with hletter | hletter
      · exact hupper (of_decide_eq_true hletter).2
      · exact hlower (of_decide_eq_true (Bool.and_eq_true_iff.1 hletter).2)
    · exact hdigit (of_decide_eq_true (Bool.and_eq_true_iff.1 hnumber).2)
  rw [isUserChar, halpha, Bool.false_or, decide_eq_false_iff_not]
  exact fun hmem => hne c hmem rfl

/-- `isUserChar` agrees on `c` and `lowerChar c`, for `c` in ASCII, and is false for other `c`. -/
theorem isUserChar_iff (c : Char) :
    isUserChar c = true ↔ isUserChar (lowerChar c) = true ∧ c.toNat < 128 := by
  refine lowerChar_ind (P := fun c d => isUserChar c = true ↔ isUserChar d = true ∧ c.toNat < 128)
    (by decide) ?_ (by decide) (by decide) c
  intro c d hc hd
  rw [isUserChar_eq_false_of_beyond hc, isUserChar_eq_false_of_beyond hd]
  simp

/-! ### Escapes -/

theorem escapesWell_cons (h : c ≠ '%') (cs : List Char) :
    escapesWell (c :: cs) = escapesWell cs := by
  rw [escapesWell]
  · simp [h]
  · intro a b rest hc
    exact absurd hc h

theorem escapesWell_map_lowerChar (cs : List Char) :
    escapesWell (cs.map lowerChar) = escapesWell cs := by
  have hpercent : IsMark '%' := by decide
  fun_induction escapesWell cs with
  | case1 a b rest ih =>
    rw [List.map_cons, List.map_cons, List.map_cons, hpercent.lowerChar_self, escapesWell, ih,
      hexValue?_lowerChar, hexValue?_lowerChar]
  | case2 c rest hshort ih =>
    by_cases hc : c = '%'
    · -- a percent sign with fewer than two characters behind it
      subst hc
      match rest, hshort with
      | [], _ => rfl
      | [a], _ => rfl
      | a :: b :: more, hshort => exact absurd rfl (hshort a b more rfl)
    · have hlower : lowerChar c ≠ '%' := fun h => hc ((hpercent.lowerChar_eq_iff c).1 h)
      rw [List.map_cons, escapesWell_cons hlower, ih]
      simp [hc]
  | case3 => rfl

theorem escapesWell_append (hcs : escapesWell cs = true) (hds : escapesWell ds = true) :
    escapesWell (cs ++ ds) = true := by
  fun_induction escapesWell cs with
  | case1 a b rest ih =>
    simp only [Bool.and_eq_true] at hcs
    simp only [List.cons_append, escapesWell, hcs.1, ih hcs.2, Bool.and_self]
  | case2 c rest hshort ih =>
    simp only [Bool.and_eq_true, bne_iff_ne] at hcs
    rw [List.cons_append, escapesWell_cons hcs.1]
    exact ih hcs.2
  | case3 => exact hds

theorem withoutQuery_cons (h : c ≠ '?') (cs : List Char) :
    withoutQuery (c :: cs) = c :: withoutQuery cs := by
  simp [withoutQuery, h]

/-- `withoutQuery` does not cut an escape in two. -/
theorem escapesWell_withoutQuery (h : escapesWell cs = true) :
    escapesWell (withoutQuery cs) = true := by
  have hhex : ∀ {c : Char}, (hexValue? c).isSome = true → c ≠ '?' := by
    rintro c hc rfl
    cases hc
  fun_induction escapesWell cs with
  | case1 a b rest ih =>
    simp only [Bool.and_eq_true] at h
    obtain ⟨⟨ha, hb⟩, hrest⟩ := h
    rw [withoutQuery_cons (by decide), withoutQuery_cons (hhex ha), withoutQuery_cons (hhex hb),
      escapesWell, ha, hb, ih hrest]
    rfl
  | case2 c rest hshort ih =>
    simp only [Bool.and_eq_true, bne_iff_ne] at h
    by_cases hc : c = '?'
    · subst hc
      rfl
    · rw [withoutQuery_cons hc, escapesWell_cons h.1]
      exact ih h.2
  | case3 => rfl

/-! ### Cuts -/

theorem cutLast?_eq_some (h : sep ∉ ds) : cutLast? sep (cs ++ sep :: ds) = some (cs, ds) := by
  have hall : ∀ c ∈ ds.reverse, (c != sep) = true := by
    intro c hc
    rw [bne_iff_ne]
    rintro rfl
    exact h (List.mem_reverse.1 hc)
  have hback : (cs ++ sep :: ds).reverse = ds.reverse ++ sep :: cs.reverse := by simp
  have hcontains : (ds.reverse ++ sep :: cs.reverse).contains sep = true := by simp
  unfold cutLast?
  dsimp only
  rw [hback, if_pos hcontains, List.dropWhile_append_of_pos hall, List.takeWhile_append_of_pos hall,
    List.dropWhile_cons_of_neg (by simp), List.takeWhile_cons_of_neg (by simp)]
  simp

theorem cutLast?_eq_none (h : sep ∉ cs) : cutLast? sep cs = none := by
  unfold cutLast?
  dsimp only
  rw [if_neg (by simpa using h)]

/-! ### Hosts -/

theorem isHostEscape_lowerChar (zone : Bool) (a b : Char) :
    isHostEscape zone (lowerChar a) (lowerChar b) = isHostEscape zone a b := by
  have htwo : IsMark '2' := by decide
  have hfive : IsMark '5' := by decide
  rw [isHostEscape, hexValue?_lowerChar, hexValue?_lowerChar, htwo.beq_lowerChar,
    hfive.beq_lowerChar]
  rfl

theorem isHost_cons (zone : Bool) (h : c ≠ '%') (cs : List Char) :
    isHost zone (c :: cs) = (isHostChar c && isHost zone cs) := by
  rw [isHost]
  · rw [bne_iff_ne.2 h, Bool.true_and]
  · intro a b rest hc
    exact absurd hc h

theorem isHost_map_lowerChar (zone : Bool) (cs : List Char) :
    isHost zone (cs.map lowerChar) = isHost zone cs := by
  have hpercent : IsMark '%' := by decide
  fun_induction isHost zone cs with
  | case1 a b rest ih =>
    rw [List.map_cons, List.map_cons, List.map_cons, hpercent.lowerChar_self, isHost, ih,
      isHostEscape_lowerChar]
  | case2 c rest hshort ih =>
    by_cases hc : c = '%'
    · subst hc
      match rest, hshort with
      | [], _ => rfl
      | [a], _ => rfl
      | a :: b :: more, hshort => exact absurd rfl (hshort a b more rfl)
    · have hlower : lowerChar c ≠ '%' := fun h => hc ((hpercent.lowerChar_eq_iff c).1 h)
      rw [List.map_cons, isHost_cons zone hlower, ih, isHostChar_lowerChar, bne_iff_ne.2 hc,
        Bool.true_and]
  | case3 => rfl

theorem isPort_map_lowerChar (cs : List Char) : isPort (cs.map lowerChar) = isPort cs := by
  have hcolon : IsMark ':' := by decide
  cases cs with
  | nil => rfl
  | cons c rest =>
    rw [List.map_cons, isPort, isPort, hcolon.beq_lowerChar, List.all_map]
    congr 2
    funext d
    exact isDigit_lowerChar d

/-- A word of marks starts `cs` if and only if it starts `cs.map lowerChar`. -/
theorem isPrefixOf_map_lowerChar {word : List Char} (hword : ∀ c ∈ word, IsMark c)
    (cs : List Char) : word.isPrefixOf (cs.map lowerChar) = word.isPrefixOf cs := by
  induction word generalizing cs with
  | nil => cases cs <;> rfl
  | cons d rest ih =>
    cases cs with
    | nil => rfl
    | cons c cs =>
      have hd : IsMark d := hword d List.mem_cons_self
      have hrest := ih (fun c hc => hword c (List.mem_cons_of_mem d hc)) cs
      rw [List.map_cons, List.isPrefixOf_cons_cons, List.isPrefixOf_cons_cons, hrest, BEq.comm,
        hd.beq_lowerChar, BEq.comm]

theorem cutBefore_map_lowerChar {word : List Char} (hword : ∀ c ∈ word, IsMark c)
    (cs : List Char) :
    cutBefore word (cs.map lowerChar) =
      ((cutBefore word cs).1.map lowerChar, (cutBefore word cs).2.map lowerChar) := by
  induction cs with
  | nil => rfl
  | cons c rest ih =>
    have hbegins := isPrefixOf_map_lowerChar hword (c :: rest)
    rw [List.map_cons] at hbegins ⊢
    rw [cutBefore, cutBefore, hbegins]
    by_cases h : word.isPrefixOf (c :: rest) = true
    · rw [if_pos h, if_pos h]
      rfl
    · rw [if_neg h, if_neg h, ih]
      rfl

/-- `cutLast?` at a mark commutes with `lowerChar`. -/
theorem cutLast?_map_lowerChar (h : IsMark sep) (cs : List Char) :
    cutLast? sep (cs.map lowerChar) =
      (cutLast? sep cs).map fun p => (p.1.map lowerChar, p.2.map lowerChar) := by
  by_cases hmem : sep ∈ cs
  · obtain ⟨before, after, rfl, hlast⟩ := exists_last hmem
    have hlower : sep ∉ after.map lowerChar := fun hin => hlast (h.mem_map_lowerChar_iff.1 hin)
    rw [cutLast?_eq_some hlast, List.map_append, List.map_cons, h.lowerChar_self,
      cutLast?_eq_some hlower]
    rfl
  · have hlower : sep ∉ cs.map lowerChar := fun hin => hmem (h.mem_map_lowerChar_iff.1 hin)
    rw [cutLast?_eq_none hmem, cutLast?_eq_none hlower]
    rfl

/-- **`isHostPort` does not distinguish cases.** -/
theorem isHostPort_map_lowerChar (cs : List Char) :
    isHostPort (cs.map lowerChar) = isHostPort cs := by
  have hopen : IsMark '[' := by decide
  have hclose : IsMark ']' := by decide
  have hcolon : IsMark ':' := by decide
  have hzone : ∀ c ∈ ['%', '2', '5'], IsMark c := by
    intro c hc
    simp only [List.mem_cons, List.not_mem_nil, or_false] at hc
    rcases hc with rfl | rfl | rfl <;> exact ⟨by decide, rfl⟩
  have hhead : ((cs.map lowerChar).head? == some '[') = (cs.head? == some '[') := by
    cases cs with
    | nil => rfl
    | cons c rest => exact hopen.beq_lowerChar c
  rw [isHostPort, isHostPort, hhead, cutLast?_map_lowerChar hclose, cutLast?_map_lowerChar hcolon,
    isHost_map_lowerChar]
  by_cases hbracket : (cs.head? == some '[') = true
  · rw [if_pos hbracket, if_pos hbracket]
    cases cutLast? ']' cs with
    | none => rfl
    | some cut =>
      obtain ⟨inside, port⟩ := cut
      have hport : isHost false (']' :: port.map lowerChar) = isHost false (']' :: port) := by
        rw [← isHost_map_lowerChar false (']' :: port), List.map_cons, hclose.lowerChar_self]
      simp only [Option.map_some, cutBefore_map_lowerChar hzone, isPort_map_lowerChar,
        isHost_map_lowerChar, hport]
  · rw [if_neg hbracket, if_neg hbracket]
    cases cutLast? ':' cs with
    | none => rfl
    | some cut =>
      obtain ⟨before, port⟩ := cut
      have hport : isPort (':' :: port.map lowerChar) = isPort (':' :: port) := by
        rw [← isPort_map_lowerChar (':' :: port), List.map_cons, hcolon.lowerChar_self]
      simp only [Option.map_some, hport]

/-- **`isUser cs` if and only if it holds in lower case and `cs` is in ASCII.** -/
theorem isUser_iff (cs : List Char) :
    isUser cs = true ↔ isUser (cs.map lowerChar) = true ∧ ∀ c ∈ cs, c.toNat < 128 := by
  have hchars : ∀ ds : List Char, isUser ds = (ds.all isUserChar && escapesWell ds) := fun _ => rfl
  rw [hchars, hchars, escapesWell_map_lowerChar, Bool.and_eq_true, Bool.and_eq_true, List.all_map,
    List.all_eq_true, List.all_eq_true]
  constructor
  · rintro ⟨hall, hescapes⟩
    exact ⟨⟨fun c hc => ((isUserChar_iff c).1 (hall c hc)).1, hescapes⟩,
      fun c hc => ((isUserChar_iff c).1 (hall c hc)).2⟩
  · rintro ⟨⟨hall, hescapes⟩, hascii⟩
    exact ⟨fun c hc => (isUserChar_iff c).2 ⟨hall c hc, hascii c hc⟩, hescapes⟩

end SchemaPress.Url
