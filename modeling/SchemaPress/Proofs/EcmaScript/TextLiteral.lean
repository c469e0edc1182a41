import SchemaPress.Proofs.EcmaScript.RegexLiteral
import SchemaPress.Text.CharClass

/-!
# Text literals

The lexical grammar of ECMAScript for string literals in double quotes and for template literals
without substitutions, each with the value that it has in strict code.  A value is a sequence of
code units of 16 bits, so that an escape may also denote one half of a pair.

`readLiteral` reads a literal from the front of a text: its value, and what comes behind it.  It
goes through the text character by character, and `Mode.step` says what a single one contributes.
Outside of escapes the two kinds of literals differ (`rawUnits`): a line break ends a string literal
before its time, whereas in a template literal it is part of the value, and every kind of line break
counts as a line feed.
-/

namespace SchemaPress.EcmaScript

/-! ### Values -/

/-- `UTF16EncodeCodePoint`: `n` itself, or a surrogate pair if `0x10000 ≤ n`. -/
def pointUnits (n : Nat) : List Nat :=
  if n < 0x10000 then [n] else [0xD800 + (n - 0x10000) / 0x400, 0xDC00 + (n - 0x10000) % 0x400]

/-- The code units of a text in UTF-16. -/
def codeUnits (cs : List Char) : List Nat :=
  cs.flatMap fun c => pointUnits c.toNat

theorem codeUnits_cons (c : Char) (cs : List Char) :
    codeUnits (c :: cs) = codeUnits [c] ++ codeUnits cs := by
  simp [codeUnits]

/-- No `Char` is a surrogate. -/
theorem toNat_bounds (c : Char) : c.toNat < 0xD800 ∨ 0xDFFF < c.toNat ∧ c.toNat < 0x110000 := by
  have hvalid := c.valid
  rw [UInt32.isValidChar, Nat.isValidChar] at hvalid
  show c.val.toNat < 0xD800 ∨ 0xDFFF < c.val.toNat ∧ c.val.toNat < 0x110000
  omega

/-- `pointUnits` is a code: a sequence of units starts with those of at most one character. -/
theorem pointUnits_append_inj {c d : Char} {xs ys : List Nat}
    (h : pointUnits c.toNat ++ xs = pointUnits d.toNat ++ ys) : c = d ∧ xs = ys := by
  have hc := toNat_bounds c
  have hd := toNat_bounds d
  have hnat : c.toNat = d.toNat ∧ xs = ys := by
    unfold pointUnits at h
    split_ifs at h with hsmall hsmall' hsmall'
    · simpa using h
    · -- A first half would be a character of its own.
      simp only [List.cons_append, List.nil_append, List.cons.injEq] at h
      omega
    · simp only [List.cons_append, List.nil_append, List.cons.injEq] at h
      omega
    · simp only [List.cons_append, List.nil_append, List.cons.injEq] at h
      exact ⟨by omega, h.2.2⟩
  exact ⟨Char.toNat_inj.1 hnat.1, hnat.2⟩

/-- **`codeUnits` is injective.** -/
theorem codeUnits_inj {cs ds : List Char} : codeUnits cs = codeUnits ds ↔ cs = ds := by
  refine ⟨fun h => ?_, congrArg codeUnits⟩
  have hne : ∀ (c : Char) (more : List Nat), pointUnits c.toNat ++ more ≠ [] := by
    intro c more
    unfold pointUnits
    split_ifs <;> simp
  induction cs generalizing ds with
  | nil =>
    cases ds with
    | nil => rfl
    | cons d ds => exact absurd h.symm (hne d _)
  | cons c cs ih =>
    cases ds with
    | nil => exact absurd h (hne c _)
    | cons d ds =>
      obtain ⟨rfl, hrest⟩ := pointUnits_append_inj h
      rw [ih hrest]

/-! ### The reader -/

/-- String literals in double quotes, and template literals. -/
inductive Quote where
  | double
  | backtick
  deriving DecidableEq, Repr

/-- The character that opens and closes the literal. -/
def Quote.char : Quote → Char
  | .double => '"'
  | .backtick => '`'

/-- The place of the reader in a literal. -/
inductive Mode where
  | plain
  /-- After a backslash. -/
  | escape
  /-- After `\u`. -/
  | unicode
  /-- Before the last `left` hexadecimal digits of an escape, with the value of those before. -/
  | digits (left value : Nat)
  /-- Between the braces of `\u{...}`, with the value of the digits so far. -/
  | point (value : Option Nat)
  deriving DecidableEq, Repr

/-- The units of the character `c` outside of escapes; `next` follows it.  There are none for LF and
CR in a string literal, nor for `${` in a template literal, where CR and CR LF stand for LF. -/
def rawUnits (quote : Quote) (c : Char) (next : Option Char) : Option (List Nat) :=
  match quote with
  | .double => if c = '\n' ∨ c = '\r' then none else some (codeUnits [c])
  | .backtick =>
    if c = '$' ∧ next = some '{' then none
    else if c = '\r' then some (if next = some '\n' then [] else codeUnits ['\n'])
    else some (codeUnits [c])

/-- The `SingleEscapeCharacter` for `c`: `\n`, `\t` and so on; any other `c` stands for itself. -/
def escapedChar (c : Char) : Char :=
  match c with
  | 'b' => '\x08'
  | 't' => '\t'
  | 'n' => '\n'
  | 'v' => '\x0b'
  | 'f' => '\x0c'
  | 'r' => '\r'
  | c => c

namespace Mode

/-- The units of `c` after a backslash, and where the reader is then.  A line terminator gives none.
-/
def stepEscape (c : Char) (next : Option Char) : Option (List Nat × Mode) :=
  if c = 'x' then some ([], digits 2 0)
  else if c = 'u' then some ([], unicode)
  else if c = '0' then if next.any Char.isDigit then none else some ([0], plain)
  else if c.isDigit then none
  else if c = '\r' ∧ next = some '\n' then some ([], escape)
  else if isLineTerminator c then some ([], plain)
  else some (codeUnits [escapedChar c], plain)

/-- The units of `c` in `mode`, and the mode after it. -/
def step (quote : Quote) (mode : Mode) (c : Char) (next : Option Char) :
    Option (List Nat × Mode) :=
  match mode with
  | plain =>
    if c = '\\' then some ([], escape) else (rawUnits quote c next).map fun units => (units, plain)
  | escape => stepEscape c next
  | unicode =>
    if c = '{' then some ([], point none)
    else (Text.hexValue? c).map fun d => ([], digits 3 d)
  | digits left value =>
    (Text.hexValue? c).map fun d =>
      if left = 1 then ([value * 16 + d], plain) else ([], digits (left - 1) (value * 16 + d))
  | point value =>
    if c = '}' then value.map fun n => (pointUnits n, plain)
    else
      (Text.hexValue? c).bind fun d =>
        if value.getD 0 * 16 + d < 0x110000 then some ([], point (some (value.getD 0 * 16 + d)))
        else none

end Mode

/-- Reads a literal from `mode` on, up to the character that closes it: its units, and what follows.
-/
def readChars (quote : Quote) (mode : Mode) : List Char → Option (List Nat × List Char)
  | [] => none
  | c :: text =>
    if mode = .plain ∧ c = quote.char then some ([], text)
    else
      (mode.step quote c text.head?).bind fun next =>
        (readChars quote next.2 text).map (Prod.map (next.1 ++ ·) id)

/-- Reads a literal from the front of a text. -/
def readLiteral (quote : Quote) : List Char → Option (List Nat × List Char)
  | [] => none
  | c :: text => if c = quote.char then readChars quote .plain text else none

variable {quote : Quote} {mode : Mode} {c : Char} {text : List Char}

theorem readLiteral_open (quote : Quote) (text : List Char) :
    readLiteral quote (quote.char :: text) = readChars quote .plain text := by
  rw [readLiteral, if_pos rfl]

theorem readChars_close (quote : Quote) (text : List Char) :
    readChars quote .plain (quote.char :: text) = some ([], text) := by
  rw [readChars, if_pos ⟨rfl, rfl⟩]

/-- `readChars` of a character that is neither a backslash nor the closing quote. -/
theorem readChars_raw (hback : c ≠ '\\') (hclose : c ≠ quote.char) :
    readChars quote .plain (c :: text) =
      (rawUnits quote c text.head?).bind fun units =>
        (readChars quote .plain text).map (Prod.map (units ++ ·) id) := by
  rw [readChars, if_neg (fun h => hclose h.2), Mode.step, if_neg hback, Option.bind_map]
  rfl

/-- `readChars` of an escaped backslash, quote, backtick or dollar sign. -/
theorem readChars_escaped (hc : c ∈ ['\\', '"', '`', '$']) :
    readChars quote .plain ('\\' :: c :: text) =
      (readChars quote .plain text).map (Prod.map (codeUnits [c] ++ ·) id) := by
  have hopen : ¬ (Mode.plain = .plain ∧ '\\' = quote.char) := by
    cases quote <;> decide
  have hstep : Mode.escape.step quote c text.head? = some (codeUnits [c], .plain) := by
    simp only [List.mem_cons, List.not_mem_nil, or_false] at hc
    rcases hc with rfl | rfl | rfl | rfl <;> rfl
  have hfirst : Mode.plain.step quote '\\' (c :: text).head? = some ([], .escape) := rfl
  rw [readChars, if_neg hopen, hfirst, Option.bind_some, readChars,
    if_neg (fun h => absurd h.1 (by decide)), hstep, Option.bind_some, Option.map_map]
  congr 1

/-- `readChars` consumes at least the closing quote. -/
theorem length_lt_of_readChars {units : List Nat} {rest : List Char}
    (h : readChars quote mode text = some (units, rest)) : rest.length < text.length := by
  induction text generalizing mode units with
  | nil => cases h
  | cons c text ih =>
    rw [readChars] at h
    split_ifs at h with hclose
    · obtain ⟨-, rfl⟩ := Prod.mk.inj (Option.some.inj h)
      exact Nat.lt_succ_self _
    · obtain ⟨next, -, hmore⟩ := Option.bind_eq_some_iff.1 h
      obtain ⟨⟨more, rest'⟩, hread, hpair⟩ := Option.map_eq_some_iff.1 hmore
      obtain ⟨-, rfl⟩ := Prod.mk.inj hpair
      exact Nat.lt_succ_of_lt (ih hread)

theorem length_lt_of_readLiteral {units : List Nat} {rest : List Char}
    (h : readLiteral quote text = some (units, rest)) : rest.length < text.length := by
  cases text with
  | nil => cases h
  | cons c text =>
    rw [readLiteral] at h
    split_ifs at h
    exact Nat.lt_succ_of_lt (length_lt_of_readChars h)

/-! ### Arrays -/

/-- Spaces, tabs and line terminators, which may stand around the elements of an array. -/
def isGap (c : Char) : Bool :=
  c == ' ' || c == '\t' || isLineTerminator c

/-- Reads template literals up to the bracket that closes the array. -/
def readElements (text : List Char) : Option (List (List Nat) × List Char) :=
  if text.head? = some ']' then some ([], text.tail)
  else
    match _hread : readLiteral .backtick text with
    | none => none
    | some (units, rest) =>
      let rest' := rest.dropWhile isGap
      if rest'.head? = some ']' then some ([units], rest'.tail)
      else if rest'.head? = some ',' then
        (readElements (rest'.tail.dropWhile isGap)).map (Prod.map (units :: ·) id)
      else none
termination_by text.length
decreasing_by
  have hlength := length_lt_of_readLiteral _hread
  have hgap : (rest.dropWhile isGap).length ≤ rest.length :=
    (List.dropWhile_suffix isGap).length_le
  have hgap' : ((rest.dropWhile isGap).tail.dropWhile isGap).length ≤
      (rest.dropWhile isGap).tail.length := (List.dropWhile_suffix isGap).length_le
  rw [List.length_tail] at hgap'
  omega

/-- Reads an array literal of template literals from the front of a text. -/
def readArray : List Char → Option (List (List Nat) × List Char)
  | '[' :: text => readElements (text.dropWhile isGap)
  | _ => none

end SchemaPress.EcmaScript
