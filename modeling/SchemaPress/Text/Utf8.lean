/-!
# Reading UTF-8

`Utf8.next?` reads the first character of a byte sequence together with its width, and
`Utf8.decode` reads a whole sequence: a byte that starts no character becomes U+FFFD on its own, so
nothing is lost silently and every sequence has a reading.  `Utf8.decode?` is the strict form.
-/

namespace SchemaPress.Text.Utf8

/-- The character that stands for a byte which belongs to no character. -/
def replacement : Char := '\uFFFD'

/-- Whether `b` continues a character. -/
def isTail (b : UInt8) : Bool :=
  0x80 ≤ b && b ≤ 0xBF

/-- The low six bits of a continuation byte. -/
def tailBits (b : UInt8) : Nat :=
  b.toNat % 64

/-- The first character and the number of bytes it takes, if the bytes start with a well-formed
character: no overlong form, no surrogate, nothing above U+10FFFF. -/
def next? : List UInt8 → Option (Char × Nat)
  | [] => none
  | a :: rest =>
    if a < 0x80 then some (Char.ofNat a.toNat, 1)
    else if 0xC2 ≤ a && a ≤ 0xDF then
      match rest with
      | b :: _ => if isTail b then some (Char.ofNat (a.toNat % 32 * 64 + tailBits b), 2) else none
      | _ => none
    else if 0xE0 ≤ a && a ≤ 0xEF then
      match rest with
      | b :: c :: _ =>
        let n := a.toNat % 16 * 4096 + tailBits b * 64 + tailBits c
        if isTail b && isTail c && 0x800 ≤ n && !(0xD800 ≤ n && n ≤ 0xDFFF) then
          some (Char.ofNat n, 3)
        else none
      | _ => none
    else if 0xF0 ≤ a && a ≤ 0xF4 then
      match rest with
      | b :: c :: d :: _ =>
        let n := a.toNat % 8 * 262144 + tailBits b * 4096 + tailBits c * 64 + tailBits d
        if isTail b && isTail c && isTail d && 0x10000 ≤ n && n ≤ 0x10FFFF then
          some (Char.ofNat n, 4)
        else none
      | _ => none
    else none

/-- All characters; a byte that starts no character is read as U+FFFD. -/
def decode : List UInt8 → List Char
  | [] => []
  | a :: rest =>
    match next? (a :: rest) with
    | some (c, n) => c :: decode (rest.drop (n - 1))
    | none => replacement :: decode rest
termination_by bs => bs.length
decreasing_by all_goals (simp only [List.length_drop, List.length_cons]; omega)

/-- All characters, if the bytes are well-formed throughout. -/
def decode? : List UInt8 → Option (List Char)
  | [] => some []
  | a :: rest =>
    match next? (a :: rest) with
    | some (c, n) => (decode? (rest.drop (n - 1))).map (c :: ·)
    | none => none
termination_by bs => bs.length
decreasing_by all_goals (simp only [List.length_drop, List.length_cons]; omega)

/-- The text of a byte sequence, with U+FFFD for every byte that belongs to no character. -/
def text (bytes : ByteArray) : String :=
  match String.fromUTF8? bytes with
  | some s => s
  | none => String.ofList (decode bytes.toList)

/-- The bytes of a string are read as that string. -/
@[simp] theorem text_toUTF8 (s : String) : text s.toUTF8 = s := by
  have hvalid : s.toUTF8.IsValidUTF8 := s.isValidUTF8
  have hread : String.fromUTF8? s.toUTF8 = some s := by
    rw [String.fromUTF8?, dif_pos hvalid]
    rfl
  unfold text
  rw [hread]

end SchemaPress.Text.Utf8
