import SchemaPress.Text.Utf8

/-!
# The characters of a YAML stream

A stream is UTF-8 or UTF-16; a byte order mark at its start tells which, and UTF-8 is taken without
one.  `Yaml.characters?` reads the whole stream, or nothing if it is malformed or holds a character
that YAML does not allow.
-/

namespace SchemaPress.Yaml

/-- Whether a character may occur in a stream. -/
def isAllowed (c : Char) : Bool :=
  let n := c.toNat
  n == 0x09 || n == 0x0A || n == 0x0D || (0x20 ≤ n && n ≤ 0x7E) || n == 0x85
    || (0xA0 ≤ n && n ≤ 0xFFFD) || 0x10000 ≤ n

/-- The 16-bit units of a byte sequence of even length. -/
def units? (bigEndian : Bool) : List UInt8 → Option (List Nat)
  | [] => some []
  | [_] => none
  | a :: b :: rest =>
    let unit := if bigEndian then a.toNat * 256 + b.toNat else b.toNat * 256 + a.toNat
    (units? bigEndian rest).map (unit :: ·)

/-- The characters of a sequence of 16-bit units whose surrogates are paired. -/
def ofUnits? : List Nat → Option (List Char)
  | [] => some []
  | u :: rest =>
    if 0xDC00 ≤ u && u ≤ 0xDFFF then none
    else if 0xD800 ≤ u && u ≤ 0xDBFF then
      match rest with
      | v :: rest =>
        if 0xDC00 ≤ v && v ≤ 0xDFFF then
          (ofUnits? rest).map (Char.ofNat (0x10000 + (u - 0xD800) * 1024 + (v - 0xDC00)) :: ·)
        else none
      | [] => none
    else (ofUnits? rest).map (Char.ofNat u :: ·)

/-- The characters of a stream by its encoding. -/
def decode? : List UInt8 → Option (List Char)
  | 0xFF :: 0xFE :: rest => (units? false rest).bind ofUnits?
  | 0xFE :: 0xFF :: rest => (units? true rest).bind ofUnits?
  | 0xEF :: 0xBB :: 0xBF :: rest => Text.Utf8.decode? rest
  | bytes => Text.Utf8.decode? bytes

/-- The characters of a stream, if it is well-formed and all of them are allowed. -/
def characters? (bytes : List UInt8) : Option (List Char) :=
  (decode? bytes).bind fun cs => if cs.all isAllowed then some cs else none

end SchemaPress.Yaml
