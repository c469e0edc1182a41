import Mathlib.Data.List.Basic

/-!
# Regular expression literals

The lexical grammar of ECMAScript for regular expression literals.  `IsRegexBody` says what may
stand between the two slashes: characters, escapes and classes in brackets, but no line break, no
slash outside of a class, and no asterisk at the front, where it would open a comment.

`readRegexLiteral` reads a literal and its flags from the front of a text.  It reads exactly what
the grammar allows (`readRegexLiteral_eq_some_iff`), so a text begins with a literal in one way at
most.
-/

namespace SchemaPress.EcmaScript

/-! ### The grammar -/

/-- `LineTerminator` of ECMAScript: LF, CR, U+2028 and U+2029. -/
def isLineTerminator (c : Char) : Bool :=
  c == '\n' || c == '\r' || c == '\u2028' || c == '\u2029'

/-- `RegularExpressionClassChars`: no line terminator, and `]` and `\` only in an escape. -/
inductive RegexClassChars : List Char → Prop
  | nil : RegexClassChars []
  | plain {c : Char} {cs : List Char} (stays : isLineTerminator c = false) (ne_close : c ≠ ']')
      (ne_backslash : c ≠ '\\') (rest : RegexClassChars cs) : RegexClassChars (c :: cs)
  | escape {c : Char} {cs : List Char} (stays : isLineTerminator c = false)
      (rest : RegexClassChars cs) : RegexClassChars ('\\' :: c :: cs)

/-- `RegularExpressionChars`: characters, escapes and classes, with `/` only in an escape or a
class. -/
inductive RegexChars : List Char → Prop
  | nil : RegexChars []
  | plain {c : Char} {cs : List Char} (stays : isLineTerminator c = false) (ne_slash : c ≠ '/')
      (ne_backslash : c ≠ '\\') (ne_open : c ≠ '[') (rest : RegexChars cs) : RegexChars (c :: cs)
  | escape {c : Char} {cs : List Char} (stays : isLineTerminator c = false)
      (rest : RegexChars cs) : RegexChars ('\\' :: c :: cs)
  | group {inside cs : List Char} (members : RegexClassChars inside) (rest : RegexChars cs) :
      RegexChars ('[' :: (inside ++ ']' :: cs))

/-- `RegularExpressionBody`: not empty, and not starting with `*`. -/
structure IsRegexBody (body : List Char) : Prop where
  ne_nil : body ≠ []
  no_comment : body.head? ≠ some '*'
  chars : RegexChars body

/-- `IdentifierPartChar`, where all characters beyond ASCII are counted in. -/
def isFlag (c : Char) : Bool :=
  c.isAlphanum || c == '_' || c == '$' || decide ('\x7f' < c)

/-! ### The reader -/

/-- Reads up to the first `/` outside of a class: the body, and what follows the slash. -/
def readRegexChars (inClass : Bool) : List Char → Option (List Char × List Char)
  | [] => none
  | ['\\'] => none
  | '\\' :: c :: text =>
    if isLineTerminator c then none
    else (readRegexChars inClass text).map fun (body, after) => ('\\' :: c :: body, after)
  | c :: text =>
    if isLineTerminator c then none
    else if c == '/' && !inClass then some ([], text)
    else
      (readRegexChars (if inClass then c != ']' else c == '[') text).map fun (body, after) =>
        (c :: body, after)

/-- The body and the flags of a literal. -/
structure RegexLiteral where
  body : List Char
  flags : List Char
  deriving DecidableEq, Repr

/-- Reads a `RegularExpressionLiteral` from the front of a text; there is none if the slash opens a
comment. -/
def readRegexLiteral : List Char → Option (RegexLiteral × List Char)
  | '/' :: text => do
    let (body, after) ← readRegexChars false text
    if body.isEmpty || body.head? == some '*' then none
    else some (⟨body, after.takeWhile isFlag⟩, after.dropWhile isFlag)
  | _ => none

/-! ### The reader keeps to the grammar -/

variable {body text after cs : List Char} {c : Char} {inClass : Bool}

/-- `body` is the rest of a `RegexChars`, from inside of a class if `inClass`. -/
def RegexTail (inClass : Bool) (body : List Char) : Prop :=
  if inClass then
    ∃ inside cs, RegexClassChars inside ∧ RegexChars cs ∧ body = inside ++ ']' :: cs
  else RegexChars body

theorem RegexTail.escape (stays : isLineTerminator c = false) (h : RegexTail inClass body) :
    RegexTail inClass ('\\' :: c :: body) := by
  cases inClass with
  | false => exact RegexChars.escape stays h
  | true =>
    obtain ⟨inside, cs, hinside, hcs, rfl⟩ := h
    exact ⟨'\\' :: c :: inside, cs, .escape stays hinside, hcs, rfl⟩

/-- `RegexTail` of `c :: body`, where `[` opens a class and `]` closes it. -/
theorem RegexTail.cons (stays : isLineTerminator c = false) (hbackslash : c ≠ '\\')
    (hslash : ¬ (c = '/' ∧ inClass = false))
    (h : RegexTail (if inClass then c != ']' else c == '[') body) :
    RegexTail inClass (c :: body) := by
  cases inClass with
  | false =>
    by_cases hopen : c = '['
    · subst hopen
      obtain ⟨inside, cs, hinside, hcs, rfl⟩ := h
      exact RegexChars.group hinside hcs
    · have hbody : RegexChars body := by
        simpa [RegexTail, hopen] using h
      exact RegexChars.plain stays (fun hc => hslash ⟨hc, rfl⟩) hbackslash hopen hbody
  | true =>
    by_cases hclose : c = ']'
    · subst hclose
      exact ⟨[], body, .nil, h, rfl⟩
    · have hmember : (c != ']') = true := by simpa using hclose
      rw [if_pos rfl, hmember] at h
      obtain ⟨inside, cs, hinside, hcs, rfl⟩ := h
      exact ⟨c :: inside, cs, .plain stays hclose hbackslash hinside, hcs, rfl⟩

theorem readRegexChars_sound (h : readRegexChars inClass text = some (body, after)) :
    RegexTail inClass body ∧ text = body ++ '/' :: after := by
  fun_induction readRegexChars inClass text generalizing body with
  | case1 => cases h
  | case2 => cases h
  | case3 => cases h
  | case4 inClass c text hline ih =>
    obtain ⟨⟨body', after'⟩, hread, hbody⟩ := Option.map_eq_some_iff.1 h
    obtain ⟨rfl, rfl⟩ := Prod.mk.inj hbody
    obtain ⟨htail, rfl⟩ := ih hread
    exact ⟨htail.escape (by simpa using hline), rfl⟩
  | case5 => cases h
  | case6 inClass c text _ _ hline hslash =>
    obtain ⟨rfl, rfl⟩ := Prod.mk.inj (Option.some.inj h)
    simp only [Bool.and_eq_true, beq_iff_eq, Bool.not_eq_true'] at hslash
    obtain ⟨rfl, rfl⟩ := hslash
    exact ⟨RegexChars.nil, rfl⟩
  | case7 inClass c text hlast hback hline hslash ih =>
    have hbackslash : c ≠ '\\' := by
      intro hc
      cases text with
      | nil => exact hlast hc rfl
      | cons d more => exact hback d more hc rfl
    obtain ⟨⟨body', after'⟩, hread, hbody⟩ := Option.map_eq_some_iff.1 h
    obtain ⟨rfl, rfl⟩ := Prod.mk.inj hbody
    obtain ⟨htail, rfl⟩ := ih hread
    refine ⟨htail.cons (by simpa using hline) hbackslash ?_, rfl⟩
    simpa using hslash

theorem readRegexChars_plain (stays : isLineTerminator c = false) (hbackslash : c ≠ '\\')
    (hslash : ¬ (c = '/' ∧ inClass = false)) :
    readRegexChars inClass (c :: text) =
      (readRegexChars (if inClass then c != ']' else c == '[') text).map fun (body, after) =>
        (c :: body, after) := by
  rw [readRegexChars.eq_4 _ _ _ (fun h => absurd h hbackslash) fun _ _ h => absurd h hbackslash,
    if_neg (by simp [stays]), if_neg (by simpa using hslash)]

theorem readRegexChars_escape (stays : isLineTerminator c = false) :
    readRegexChars inClass ('\\' :: c :: text) =
      (readRegexChars inClass text).map fun (body, after) => ('\\' :: c :: body, after) := by
  rw [readRegexChars, if_neg (by simp [stays])]

/-- `readRegexChars` reads `RegexClassChars` up to the `]`, and goes on outside of the class. -/
theorem RegexClassChars.readRegexChars_append (h : RegexClassChars cs) (text : List Char) :
    readRegexChars true (cs ++ ']' :: text) =
      (readRegexChars false text).map fun (body, after) => (cs ++ ']' :: body, after) := by
  induction h with
  | nil => exact readRegexChars_plain rfl (by decide) (by decide)
  | @plain c cs stays ne_close ne_backslash _ ih =>
    have hmember : (c != ']') = true := by simpa using ne_close
    rw [List.cons_append, readRegexChars_plain stays ne_backslash (by simp), if_pos rfl, hmember,
      ih, Option.map_map]
    rfl
  | escape stays _ ih =>
    rw [List.cons_append, List.cons_append, readRegexChars_escape stays, ih, Option.map_map]
    rfl

theorem RegexChars.readRegexChars_append (h : RegexChars cs) (after : List Char) :
    readRegexChars false (cs ++ '/' :: after) = some (cs, after) := by
  induction h with
  | nil => rfl
  | @plain c cs stays ne_slash ne_backslash ne_open _ ih =>
    have houtside : (c == '[') = false := by simpa using ne_open
    rw [List.cons_append, readRegexChars_plain stays ne_backslash (by simp [ne_slash]),
      if_neg Bool.false_ne_true, houtside, ih]
    rfl
  | escape stays _ ih =>
    rw [List.cons_append, List.cons_append, readRegexChars_escape stays, ih]
    rfl
  | @group inside cs members _ ih =>
    rw [List.cons_append, List.append_assoc, List.cons_append,
      readRegexChars_plain rfl (by decide) (by decide), if_neg Bool.false_ne_true]
    show (readRegexChars true _).map _ = _
    rw [members.readRegexChars_append, ih]
    rfl

/-- `readRegexChars` reads exactly the `RegexChars` that a `/` follows. -/
theorem readRegexChars_eq_some_iff :
    readRegexChars false text = some (body, after) ↔
      RegexChars body ∧ text = body ++ '/' :: after := by
  constructor
  · exact readRegexChars_sound
  · rintro ⟨hbody, rfl⟩
    exact hbody.readRegexChars_append after

/-- `isFlag` cuts `flags ++ rest` between `flags` and `rest`. -/
theorem takeWhile_isFlag_append {flags rest : List Char} (hflags : ∀ c ∈ flags, isFlag c = true)
    (hrest : ∀ c ∈ rest.head?, isFlag c = false) :
    (flags ++ rest).takeWhile isFlag = flags ∧ (flags ++ rest).dropWhile isFlag = rest := by
  rw [List.takeWhile_append_of_pos hflags, List.dropWhile_append_of_pos hflags]
  cases rest with
  | nil => simp
  | cons c more =>
    have hc : isFlag c = false := hrest c rfl
    simp [hc]

/-- **`readRegexLiteral` reads the grammar**: an `IsRegexBody` between slashes, and the longest run
of flags. -/
theorem readRegexLiteral_eq_some_iff {flags rest : List Char} :
    readRegexLiteral text = some (⟨body, flags⟩, rest) ↔
      IsRegexBody body ∧ (∀ c ∈ flags, isFlag c = true) ∧ (∀ c ∈ rest.head?, isFlag c = false) ∧
        text = '/' :: (body ++ '/' :: (flags ++ rest)) := by
  constructor
  · intro h
    unfold readRegexLiteral at h
    split at h
    · rename_i text
      obtain ⟨⟨body', after⟩, hread, h⟩ := Option.bind_eq_some_iff.1 h
      dsimp only at h
      split_ifs at h with hbody
      obtain ⟨hliteral, rfl⟩ := Prod.mk.inj (Option.some.inj h)
      obtain ⟨rfl, rfl⟩ := RegexLiteral.mk.inj hliteral
      obtain ⟨hchars, rfl⟩ := readRegexChars_eq_some_iff.1 hread
      rw [Bool.or_eq_true, not_or] at hbody
      refine ⟨⟨by simpa using hbody.1, by simpa using hbody.2, hchars⟩, ?_, ?_, ?_⟩
      · intro c hc
        exact List.all_eq_true.1 List.all_takeWhile c hc
      · intro c hc
        have hfirst := List.head?_dropWhile_not isFlag after
        rwa [hc] at hfirst
      · rw [List.takeWhile_append_dropWhile]
    · cases h
  · rintro ⟨⟨hne, hcomment, hchars⟩, hflags, hrest, rfl⟩
    obtain ⟨htake, hdrop⟩ := takeWhile_isFlag_append hflags hrest
    have hbody : ¬ (body.isEmpty || body.head? == some '*') = true := by
      simp [hne, hcomment]
    rw [readRegexLiteral, hchars.readRegexChars_append]
    simp only [Option.bind_eq_bind, Option.bind_some, if_neg hbody, htake, hdrop]

end SchemaPress.EcmaScript
